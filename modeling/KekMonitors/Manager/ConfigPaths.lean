import KekMonitors.Manager.ConfigWorld

/-!
# Config paths

The paths that a scan of the config directory installs, and the changes that
events report of them.  An event whose change adds a path starts a watch on it,
and one whose change removes it ends that watch.
-/

namespace KekMonitors.Manager

open FileWatcher
open Paths
open Transition

/-! ## Config paths -/

/-- The names of a path that a scan may install, and what it must lead to. -/
inductive IsConfigPath : List String → Kind → Prop where
  | top : IsConfigPath [] .directory
  | subDir {dir : String} (allowed : dir ∈ allowedConfigSubDir) :
      IsConfigPath [dir] .directory
  | file {dir name : String} (allowed : dir ∈ allowedConfigSubDir)
      (known : name ∈ allowedFilenames) :
      IsConfigPath [dir, name] .regular

theorem allowedNames_whole (isDir : Bool) {name : String}
    (allowed : name ∈ allowedNames isDir) : IsWhole name := by
  revert name
  cases isDir <;> decide

theorem allowedNames_ne_empty (isDir : Bool) {name : String}
    (allowed : name ∈ allowedNames isDir) : name.isEmpty = false := by
  revert name
  cases isDir <;> decide

theorem watchMask_eq_true {isDir : Bool}
    (same : watchMask isDir = watchMask true) : isDir = true := by
  cases isDir with
  | true => rfl
  | false => exact absurd same (by decide)

theorem subDir_not_file {name : String}
    (allowed : name ∈ allowedConfigSubDir) : name ∉ allowedFilenames := by
  revert name
  decide

theorem IsConfigPath.whole {names : List String} {kind : Kind}
    (path : IsConfigPath names kind) : ∀ name ∈ names, IsWhole name := by
  cases path with
  | top => simp
  | subDir allowed =>
      intro name member
      rw [List.mem_singleton.mp member]
      exact allowedNames_whole true allowed
  | file allowed known =>
      intro name member
      rcases List.mem_cons.mp member with rfl | last
      · exact allowedNames_whole true allowed
      · rw [List.mem_singleton.mp last]
        exact allowedNames_whole false known

/-- The last name of a config path is one that events are heeded for. -/
theorem isConfigPath_append {dir : List String} {name : String}
    {kind : Kind} :
    IsConfigPath (dir ++ [name]) kind ↔
      dir = [] ∧ name ∈ allowedConfigSubDir ∧ kind = .directory ∨
        ∃ subDir ∈ allowedConfigSubDir, dir = [subDir] ∧
          name ∈ allowedFilenames ∧ kind = .regular := by
  constructor
  · intro path
    generalize whole : dir ++ [name] = names at path
    cases path with
    | top => simp at whole
    | subDir allowed =>
        rcases List.append_inj' (whole.trans (List.nil_append _).symm) rfl
          with ⟨rfl, same⟩
        rcases List.singleton_inj.mp same with rfl
        exact Or.inl ⟨rfl, allowed, rfl⟩
    | @file subDir file allowed known =>
        have split : dir ++ [name] = [subDir] ++ [file] := whole
        rcases List.append_inj' split rfl with ⟨rfl, same⟩
        rcases List.singleton_inj.mp same with rfl
        exact Or.inr ⟨subDir, allowed, rfl, known, rfl⟩
  · rintro (⟨rfl, allowed, rfl⟩ | ⟨subDir, allowed, rfl, known, rfl⟩)
    · exact .subDir allowed
    · exact .file allowed known

/-- The last name of a config path is one that the manager looks for. -/
theorem IsConfigPath.last_allowed {dir : List String} {name : String}
    {kind : Kind} (path : IsConfigPath (dir ++ [name]) kind) :
    name ∈ allowedNames (kind = .directory) := by
  rcases isConfigPath_append.mp path with
    ⟨-, known, rfl⟩ | ⟨-, -, -, known, rfl⟩
  · exact known
  · exact known

/-- The parent of the config directory is not below it. -/
theorem parentPath_configDir (config : Config) {names : List String} :
    parentPath config.configDir ≠ joined config.configDir names := by
  have split : config.configDir = config.localKekDir ++ "/" ++ "config" := by
    apply String.ext
    simp [Config.configDir]
  rw [split, parentPath_append _ (by decide), ← split]
  intro same
  have lengths := congrArg (fun path => path.toList.length) same
  simp only [joined_toList, split, List.length_append, String.toList_append]
    at lengths
  have slash : "/".toList.length = 1 := rfl
  omega

section Scan

variable {config : Config} {tree : FileTree}

theorem kindOf_joined {names : List String}
    (whole : ∀ name ∈ names, IsWhole name) :
    kindOf config tree (joined config.configDir names) =
      tree.kindAt names := by
  rw [kindOf, components_joined _ whole]
  rfl

/-- What the scan installs, and with which masks. -/
theorem mem_scannedWatches {path : String} {mask : UInt32} :
    (path, mask) ∈ scannedWatches config tree ↔
      ∃ names kind, IsConfigPath names kind ∧
        tree.kindAt names = some kind ∧
          path = joined config.configDir names ∧
            mask = watchMask (kind = .directory) := by
  have dirs : ∀ dir ∈ allowedConfigSubDir,
      (startUpOf config tree [] id).isDirectory
          (config.configDir ++ "/" ++ dir) =
        decide (tree.kindAt [dir] = some .directory) := by
    intro dir allowed
    rw [← kindOf_joined (IsConfigPath.subDir allowed).whole]
    rfl
  have files : ∀ dir ∈ allowedConfigSubDir, ∀ name ∈ allowedFilenames,
      (startUpOf config tree [] id).isRegularFile
          (config.configDir ++ "/" ++ dir ++ "/" ++ name) =
        decide (tree.kindAt [dir, name] = some .regular) := by
    intro dir allowed name known
    rw [← kindOf_joined (IsConfigPath.file allowed known).whole]
    rfl
  rw [scannedWatches, initialWatches, List.tail_cons, List.mem_cons,
    List.mem_flatMap]
  constructor
  · rintro (same | ⟨dir, allowed, installed⟩)
    · rcases Prod.mk.inj same with ⟨rfl, rfl⟩
      exact ⟨[], .directory, .top, rfl, rfl, rfl⟩
    · dsimp only at installed
      rw [dirs dir allowed] at installed
      split at installed
      · rename_i isDir
        rcases List.mem_cons.mp installed with same | inside
        · rcases Prod.mk.inj same with ⟨rfl, rfl⟩
          exact ⟨[dir], .directory, .subDir allowed,
            of_decide_eq_true isDir, rfl, rfl⟩
        · rcases List.mem_map.mp inside with ⟨path, member, same⟩
          rcases Prod.mk.inj same with ⟨rfl, rfl⟩
          rcases List.mem_filter.mp member with ⟨member, regular⟩
          rcases List.mem_map.mp member with ⟨name, known, rfl⟩
          rw [files dir allowed name known] at regular
          exact ⟨[dir, name], .regular, .file allowed known,
            of_decide_eq_true regular, rfl, rfl⟩
      · simp at installed
  · rintro ⟨names, kind, path, found, rfl, rfl⟩
    cases path with
    | top => exact Or.inl rfl
    | @subDir dir allowed =>
        refine Or.inr ⟨dir, allowed, ?_⟩
        dsimp only
        rw [dirs dir allowed, if_pos (decide_eq_true found)]
        exact List.mem_cons_self
    | @file dir name allowed known =>
        have isDir : tree.kindAt [dir] = some .directory :=
          FileTree.kindAt_above [dir] found
        refine Or.inr ⟨dir, allowed, ?_⟩
        dsimp only
        rw [dirs dir allowed, if_pos (decide_eq_true isDir)]
        refine List.mem_cons_of_mem _ (List.mem_map.mpr ⟨_, ?_, rfl⟩)
        refine List.mem_filter.mpr
          ⟨List.mem_map.mpr ⟨name, known, rfl⟩, ?_⟩
        exact (files dir allowed name known).trans (decide_eq_true found)

theorem mem_scannedPaths {path : String} :
    path ∈ scannedPaths config tree ↔
      ∃ names kind, IsConfigPath names kind ∧
        tree.kindAt names = some kind ∧
          path = joined config.configDir names := by
  constructor
  · intro member
    rcases List.mem_map.mp member with ⟨⟨path, mask⟩, installed, rfl⟩
    rcases mem_scannedWatches.mp installed with
      ⟨names, kind, configPath, found, same, -⟩
    exact ⟨names, kind, configPath, found, same⟩
  · rintro ⟨names, kind, configPath, found, same⟩
    exact List.mem_map.mpr ⟨(path, _), mem_scannedWatches.mpr
      ⟨names, kind, configPath, found, same, rfl⟩, rfl⟩

/-- Whether a scan installs a path is decided by what it leads to. -/
theorem joined_mem_scannedPaths {names : List String}
    (whole : ∀ name ∈ names, IsWhole name) :
    joined config.configDir names ∈ scannedPaths config tree ↔
      ∃ kind, IsConfigPath names kind ∧ tree.kindAt names = some kind := by
  rw [mem_scannedPaths]
  constructor
  · rintro ⟨others, kind, path, found, same⟩
    rcases (joined_inj _ whole path.whole).mp same with rfl
    exact ⟨kind, path, found⟩
  · rintro ⟨kind, path, found⟩
    exact ⟨names, kind, path, found, rfl⟩

/-- A creation adds a config path to the scanned ones, or changes nothing. -/
theorem scannedPaths_of_creates {next : FileTree} {entry : Entry}
    {dir : List String} (creates : FileTree.Creates tree next entry)
    (walked : tree.walk rootInode dir = some entry.parent) {path : String} :
    path ∈ scannedPaths config next ↔
      IsConfigPath (dir ++ [entry.name]) entry.kind ∧
          path = joined config.configDir (dir ++ [entry.name]) ∨
        path ∈ scannedPaths config tree := by
  simp only [mem_scannedPaths, creates.kindAt walked]
  constructor
  · rintro ⟨names, kind, configPath, ⟨rfl, rfl⟩ | old, rfl⟩
    · exact Or.inl ⟨configPath, rfl⟩
    · exact Or.inr ⟨names, kind, configPath, old, rfl⟩
  · rintro (⟨configPath, rfl⟩ | ⟨names, kind, configPath, old, rfl⟩)
    · exact ⟨_, _, configPath, Or.inl ⟨rfl, rfl⟩, rfl⟩
    · exact ⟨names, kind, configPath, Or.inr old, rfl⟩

/-- A removal takes its path from the scanned ones. -/
theorem scannedPaths_of_removes {next : FileTree} {entry : Entry}
    {dir : List String} (removes : FileTree.Removes tree next entry)
    (walked : tree.walk rootInode dir = some entry.parent) {path : String} :
    path ∈ scannedPaths config next ↔
      ∃ names kind, IsConfigPath names kind ∧
        tree.kindAt names = some kind ∧ names ≠ dir ++ [entry.name] ∧
          path = joined config.configDir names := by
  simp only [mem_scannedPaths, removes.kindAt walked]
  constructor
  · rintro ⟨names, kind, configPath, ⟨other, old⟩, same⟩
    exact ⟨names, kind, configPath, old, other, same⟩
  · rintro ⟨names, kind, configPath, old, other, same⟩
    exact ⟨names, kind, configPath, ⟨other, old⟩, same⟩

end Scan

/-! ## What one event changes -/

section Lasting

variable {config : Config} {s next : State}

theorem addWatch_lasting {path : String} {mask : UInt32}
    {kernel : Option Nat} (lasting : Lasting s.fileWatcher)
    (kind : isType mask inOneShot = false)
    (ran : addWatch path mask kernel s = .ok next) :
    Lasting next.fileWatcher := by
  rcases addWatch_cases path mask kernel s with
    ⟨wd, -, -, added⟩ | ⟨-, refused⟩
  · rcases Except.ok.inj (added.symm.trans ran) with rfl
    intro watch listed
    rcases List.mem_append.mp listed with old | new
    · exact lasting watch old
    · rw [List.mem_singleton.mp new]
      exact kind
  · rw [refused] at ran
    simp at ran

theorem reload_lasting {fullPath filename : String}
    {content : List Json.Byte} (lasting : Lasting s.fileWatcher)
    (ran : reload fullPath filename content s = .ok next) :
    Lasting next.fileWatcher := by
  rcases reload_cases fullPath filename content s with
    ⟨other, loaded, same⟩ | ⟨fault, failed, -⟩
  · rcases Except.ok.inj (loaded.symm.trans ran) with rfl
    rw [same]
    exact lasting
  · rw [failed] at ran
    simp at ran

theorem onConfigEvent_lasting {path : String} {event : InotifyEvent}
    (lasting : Lasting s.fileWatcher)
    (ran : onConfigEvent path event s = .ok next) :
    Lasting next.fileWatcher := by
  unfold onConfigEvent at ran
  dsimp only at ran
  split at ran
  · split at ran
    · split at ran
      · exact addWatch_lasting lasting (by decide) ran
      · exact Except.ok.inj ran ▸ lasting
    · split at ran
      · split at ran
        · exact reload_lasting lasting ran
        · rcases bind_eq_ok.mp ran with ⟨middle, added, loaded⟩
          exact reload_lasting
            (addWatch_lasting lasting (by decide) added) loaded
      · exact Except.ok.inj ran ▸ lasting
  · split at ran
    · exact reload_lasting lasting ran
    · split at ran
      · split at ran
        · split at ran
          · exact Except.ok.inj ran ▸ lasting
          · rcases bind_eq_ok.mp ran with ⟨watcher, removed, same⟩
            rcases Except.ok.inj same with rfl
            rw [(remove_eq_ok removed).2]
            exact fun watch listed =>
              lasting watch (List.mem_of_mem_filter listed)
        · exact Except.ok.inj ran ▸ lasting
      · exact Except.ok.inj ran ▸ lasting

theorem onInotifyEvent_lasting {event : InotifyEvent}
    (lasting : Lasting s.fileWatcher)
    (ran : onInotifyEvent config event s = .ok next) :
    Lasting next.fileWatcher := by
  unfold onInotifyEvent at ran
  split at ran
  · simp at ran
  · dsimp only at ran
    split at ran
    · split at ran
      · rcases Except.ok.inj ran with rfl
        rw [checkSocketAndUpdateList_fileWatcher]
        exact lasting
      · exact Except.ok.inj ran ▸ lasting
    · exact onConfigEvent_lasting lasting ran

end Lasting

section Change

variable {config : Config} {s next : State} {event : InotifyEvent}
  {change : Change String}

theorem changeOf_eq_some {path name : String} {mask : UInt32} :
    changeOf config path mask name = some change ↔
      (path ≠ config.socketPath ∧ name ∈ allowedNames (mask &&& inIsDir ≠ 0)) ∧
        change.key = path ++ "/" ++ name ∧
          (mask &&& ~~~inIsDir = inCreate ∧ change.adds = true ∨
            mask &&& ~~~inIsDir = inDelete ∧ change.adds = false) := by
  rcases change with ⟨key, adds⟩
  unfold changeOf
  split
  · rename_i about
    rw [and_iff_right about]
    split
    · rename_i created
      have other : inCreate ≠ inDelete := by decide
      simp [created, other, eq_comm, and_comm]
    · rename_i created
      split
      · rename_i deleted
        have other : inDelete ≠ inCreate := by decide
        simp [deleted, other, eq_comm, and_comm]
      · rename_i deleted
        simp [created, deleted]
  · rename_i other
    exact iff_of_false (by simp) fun both => other both.1

/-- What the events of new and deleted entries report. -/
theorem changeOf_notice {path name : String} (kind : Kind)
    (other : path ≠ config.socketPath) :
    changeOf config path (Notice.created kind).mask name =
        (if name ∈ allowedNames (kind = .directory) then
          some ⟨path ++ "/" ++ name, true⟩ else none) ∧
      changeOf config path (Notice.deleted kind).mask name =
        (if name ∈ allowedNames (kind = .directory) then
          some ⟨path ++ "/" ++ name, false⟩ else none) := by
  have created := Notice.mask_created kind
  have deleted := Notice.mask_deleted kind
  have differ : inDelete ≠ inCreate := by decide
  unfold changeOf
  simp only [created.1, created.2, deleted.1, deleted.2, other, differ, ne_eq,
    not_false_eq_true, true_and, if_true, if_false, and_self]

/-- An event reports a change of the path that it is about. -/
theorem batchChange_eq_some :
    batchChange config s.fileWatcher event = some change ↔
      event.name ∈ allowedNames (IsDir event) ∧
        configEventPath config s event = some change.key ∧
          (event.mask &&& ~~~inIsDir = inCreate ∧ change.adds = true ∨
            event.mask &&& ~~~inIsDir = inDelete ∧ change.adds = false) := by
  unfold batchChange pathAt
  cases found : s.fileWatcher.findWatch event.watch with
  | none => simp [configEventPath, found]
  | some watch =>
      have isDir : (decide (event.mask &&& inIsDir ≠ 0)) = IsDir event := rfl
      rw [Option.map_some, Option.bind_some, changeOf_eq_some, isDir]
      constructor
      · rintro ⟨⟨other, allowed⟩, key, kind⟩
        refine ⟨allowed, ?_, kind⟩
        simp only [configEventPath, found, if_neg other, fullEventPath,
          allowedNames_ne_empty _ allowed, Bool.false_eq_true, if_false, key]
      · rintro ⟨allowed, about, kind⟩
        simp only [configEventPath, found, fullEventPath,
          allowedNames_ne_empty _ allowed, Bool.false_eq_true, if_false]
          at about
        split at about
        · simp at about
        · rename_i other
          exact ⟨⟨other, allowed⟩, (Option.some.inj about).symm, kind⟩

theorem startedPath_eq_some {path : String} :
    startedPath config s event = some path ↔
      batchChange config s.fileWatcher event = some ⟨path, true⟩ ∧
        (IsDir event = true ∨
          path ∉ s.fileWatcher.watches.map InotifyWatch.path) := by
  rw [startedPath, Option.filter_eq_some_iff, batchChange_eq_some,
    decide_eq_true_eq]
  constructor
  · rintro ⟨about, created, allowed, new⟩
    exact ⟨⟨allowed, about, Or.inl ⟨created, rfl⟩⟩, new⟩
  · rintro ⟨⟨allowed, about, kind⟩, new⟩
    rcases kind with ⟨created, -⟩ | ⟨-, removes⟩
    · exact ⟨about, created, allowed, new⟩
    · simp at removes

theorem erasedWatch_eq_some_iff (consistent : s.fileWatcher.Consistent)
    {watch : InotifyWatch} :
    erasedWatch config s event = some watch ↔
      batchChange config s.fileWatcher event = some ⟨watch.path, false⟩ ∧
        watch ∈ s.fileWatcher.watches := by
  rw [erasedWatch_eq_some consistent, batchChange_eq_some]
  constructor
  · rintro ⟨⟨deleted, allowed⟩, listed, about⟩
    exact ⟨⟨allowed, about, Or.inr ⟨deleted, rfl⟩⟩, listed⟩
  · rintro ⟨⟨allowed, about, kind⟩, listed⟩
    rcases kind with ⟨-, adds⟩ | ⟨deleted, -⟩
    · simp at adds
    · exact ⟨⟨deleted, allowed⟩, listed, about⟩

end Change

end KekMonitors.Manager
