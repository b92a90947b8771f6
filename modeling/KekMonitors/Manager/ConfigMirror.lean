import KekMonitors.Manager.ConfigPaths

/-!
# The watches mirror the config directory

As long as what happens to the config directory is foreseen, the watched config
paths with the changes that are still to be handled are the paths that a scan
would install.
-/

namespace KekMonitors.Manager

open FileWatcher
open Paths
open Transition

/-! ## Watches and inodes -/

/-- Every watch that the kernel has is known to the manager. -/
structure Registers (config : Config) (watcher : FileWatcher)
    (kernel : Kernel) : Prop where
  consistent : watcher.Consistent
  described : watcher.Described
  lasting : Lasting watcher
  sound : kernel.Sound
  named : ∀ path ∈ watcher.watches.map InotifyWatch.path,
    path = config.socketPath ∨
      ∃ names, (∀ name ∈ names, IsWhole name) ∧
        path = joined config.configDir names
  held : ∀ watch ∈ kernel.watches, (watcher.pathOf watch.wd).isSome
  masks : ∀ watch ∈ kernel.watches, ∃ isDir, watch.mask = watchMask isDir
  sockets : ∀ watch ∈ kernel.watches, watch.inode = socketInode →
    watcher.pathOf watch.wd = some config.socketPath
  top : ∃ watch ∈ kernel.watches, watch.inode = rootInode ∧
    watch.mask = watchMask true ∧
      watcher.pathOf watch.wd = some config.configDir

/-- A directory below the top that is watched as such is a sub-directory. -/
structure Places (config : Config) (watcher : FileWatcher)
    (watches : List KernelWatch) (tree : FileTree) : Prop where
  numbered : ∀ watch ∈ watches, watch.inode < tree.next
  subDirs : ∀ watch ∈ watches, rootInode < watch.inode →
    watch.mask = watchMask true →
      ∃ dir ∈ allowedConfigSubDir,
        watcher.pathOf watch.wd = some (joined config.configDir [dir]) ∧
          ∀ e ∈ tree.entries, e.inode = watch.inode → e.kind = .directory →
            e.parent = rootInode ∧ e.name = dir

/-- What holds of the manager, the kernel and the tree between two steps. -/
structure Mirrored (config : Config) (w : World) : Prop where
  registers : Registers config w.manager.fileWatcher w.kernel
  places : Places config w.manager.fileWatcher w.kernel.watches w.tree
  addresses : ∀ event ∈ w.batch,
    event.watch < w.manager.fileWatcher.nextAddress
  mirrors : Mirrors parentPath (watchedPaths config w.manager.fileWatcher)
    (pending config w) (scannedPaths config w.tree)
  additions : ∀ change ∈ pending config w, change.adds = true →
    ∃ names kind, IsConfigPath names kind ∧
      change.key = joined config.configDir names
  files : ∀ dir ∈ allowedConfigSubDir, ∀ name ∈ allowedFilenames,
    w.tree.kindAt [dir, name] = some .regular → Hears config w dir

section Registers

variable {config : Config} {watcher : FileWatcher} {kernel next : Kernel}

/-- The kernel may drop watches, but not that of the top directory. -/
theorem Registers.of_watches (registers : Registers config watcher kernel)
    (sound : next.Sound)
    (fewer : ∀ watch ∈ next.watches, watch ∈ kernel.watches)
    (kept : ∀ watch ∈ kernel.watches, watch.inode = rootInode →
      watch ∈ next.watches) : Registers config watcher next where
  consistent := registers.consistent
  described := registers.described
  lasting := registers.lasting
  sound := sound
  named := registers.named
  held watch member := registers.held watch (fewer watch member)
  masks watch member := registers.masks watch (fewer watch member)
  sockets watch member := registers.sockets watch (fewer watch member)
  top := by
    rcases registers.top with ⟨watch, member, inode, both⟩
    exact ⟨watch, kept watch member inode, inode, both⟩

theorem Registers.notify (registers : Registers config watcher kernel)
    (inode : Nat) (notice : Notice) (name : String) :
    Registers config watcher (kernel.notify inode notice name) := by
  have same := Kernel.notify_watches inode notice name kernel
  apply registers.of_watches (registers.sound.notify inode notice name)
  · exact fun watch member => same ▸ member
  · exact fun watch member _ => same.symm ▸ member

theorem Registers.forget (registers : Registers config watcher kernel)
    {inode : Nat} (below : rootInode < inode) :
    Registers config watcher (kernel.forget inode) := by
  have sound := registers.sound
  apply registers.of_watches (sound.forget inode)
  · intro watch member
    exact ((Kernel.mem_forget_watches sound).mp member).1
  · intro watch member top
    refine (Kernel.mem_forget_watches sound).mpr ⟨member, ?_⟩
    rw [top]
    exact Nat.ne_of_lt below

end Registers

/-! ## Reports -/

section Reports

variable {config : Config} {w : World}

/-- A change that may be none. -/
def applied (change : Option (Change String)) (keys : Set String) :
    Set String :=
  change.elim keys fun change => change.apply keys

/-- A reported event is the last to be handled, or the last one already. -/
theorem changes_report (config : Config) (watcher : FileWatcher)
    (batch : List InotifyEvent) (kernel : Kernel) (event : KernelEvent) :
    changes config watcher batch (kernel.report event).queue =
        changes config watcher batch kernel.queue ++
          (queueChange config watcher event).toList ∨
      changes config watcher batch (kernel.report event).queue =
          changes config watcher batch kernel.queue ∧
        ∀ change, queueChange config watcher event = some change →
          ∃ front, changes config watcher batch kernel.queue =
            front ++ [change] := by
  rcases Kernel.report_cases event kernel with same | ⟨same, repeated⟩
  · left
    rw [same, changes, changes, List.filterMap_append, ← List.append_assoc]
    congr 1
  · right
    rw [same]
    refine ⟨rfl, ?_⟩
    intro change reports
    rcases repeated with ⟨front, last, split, wd, mask, name⟩
    have twin : queueChange config watcher last = some change := by
      rw [← reports, queueChange, queueChange, wd, mask, name]
    refine ⟨batch.filterMap (batchChange config watcher) ++
      front.filterMap (queueChange config watcher), ?_⟩
    rw [changes, split, List.filterMap_append, ← List.append_assoc]
    simp [twin]

/-- What is reported of a path is heard. -/
theorem mirrors_report {watcher : FileWatcher} {batch : List InotifyEvent}
    {kernel : Kernel} {event : KernelEvent} {present : Set String}
    (mirrors : Mirrors parentPath (watchedPaths config watcher)
      (changes config watcher batch kernel.queue) present)
    (allowed : ∀ change, queueChange config watcher event = some change →
      change.adds = true → Unremoved (parentPath change.key)
        (changes config watcher batch kernel.queue))
    (clears : ∀ change, queueChange config watcher event = some change →
      change.adds = false →
        ∀ key ∈ present, parentPath key ≠ change.key) :
    Mirrors parentPath (watchedPaths config watcher)
      (changes config watcher batch (kernel.report event).queue)
      (applied (queueChange config watcher event) present) := by
  rcases changes_report config watcher batch kernel event with
    same | ⟨same, repeated⟩
  · rw [same]
    cases reports : queueChange config watcher event with
    | none =>
        rw [Option.toList_none, List.append_nil]
        exact mirrors
    | some change =>
        exact mirrors.queue (allowed change reports) (clears change reports)
  · rw [same]
    cases reports : queueChange config watcher event with
    | none => exact mirrors
    | some change =>
        rcases repeated change reports with ⟨front, split⟩
        rw [split] at mirrors
        rw [applied, Option.elim_some, mirrors.repeated, split]
        exact mirrors

/-- A report adds at most the change that it tells of. -/
theorem mem_changes_report {watcher : FileWatcher}
    {batch : List InotifyEvent} {kernel : Kernel} {event : KernelEvent}
    {change : Change String}
    (member : change ∈
      changes config watcher batch (kernel.report event).queue) :
    change ∈ changes config watcher batch kernel.queue ∨
      queueChange config watcher event = some change := by
  rcases changes_report config watcher batch kernel event with
    same | ⟨same, -⟩
  · rw [same] at member
    rcases List.mem_append.mp member with old | new
    · exact Or.inl old
    · exact Or.inr (Option.mem_toList.mp new)
  · rw [same] at member
    exact Or.inl member

/-- Every pending change tells of an entry below a watched path. -/
theorem change_origin {watcher : FileWatcher} {batch : List InotifyEvent}
    {queue : List KernelEvent} (consistent : watcher.Consistent)
    {change : Change String}
    (member : change ∈ changes config watcher batch queue) :
    ∃ watch ∈ watcher.watches, ∃ isDir, ∃ name ∈ allowedNames isDir,
      watch.path ≠ config.socketPath ∧
        change.key = watch.path ++ "/" ++ name := by
  have origin : ∀ address path mask name,
      watcher.pathAt address = some path →
        changeOf config path mask name = some change →
          ∃ watch ∈ watcher.watches, ∃ isDir, ∃ name ∈ allowedNames isDir,
            watch.path ≠ config.socketPath ∧
              change.key = watch.path ++ "/" ++ name := by
    intro address path mask name at_ reports
    rcases changeOf_eq_some.mp reports with ⟨⟨other, allowed⟩, key, -⟩
    rcases consistent.pathAt_eq_some.mp at_ with ⟨watch, listed, -, rfl⟩
    exact ⟨watch, listed, _, name, allowed, other, key⟩
  rcases List.mem_append.mp member with inBatch | inQueue
  · rcases List.mem_filterMap.mp inBatch with ⟨event, -, reports⟩
    rcases Option.bind_eq_some_iff.mp reports with ⟨path, at_, reports⟩
    exact origin event.watch path event.mask event.name at_ reports
  · rcases List.mem_filterMap.mp inQueue with ⟨event, -, reports⟩
    rcases Option.bind_eq_some_iff.mp reports with ⟨path, of, reports⟩
    rcases Option.bind_eq_some_iff.mp of with ⟨address, -, at_⟩
    exact origin address path event.mask event.name at_ reports

/-- The pending changes are about paths below the top directory. -/
theorem change_below {watcher : FileWatcher} {kernel : Kernel}
    {batch : List InotifyEvent} (registers : Registers config watcher kernel)
    {change : Change String}
    (member : change ∈ changes config watcher batch kernel.queue) :
    ∃ names name, (∀ other ∈ names ++ [name], IsWhole other) ∧
      change.key = joined config.configDir (names ++ [name]) := by
  rcases change_origin registers.consistent member with
    ⟨watch, listed, isDir, name, allowed, other, key⟩
  rcases registers.named watch.path (List.mem_map_of_mem listed) with
    socket | ⟨names, whole, same⟩
  · exact absurd socket other
  · refine ⟨names, name, ?_, ?_⟩
    · intro part member
      rcases List.mem_append.mp member with old | last
      · exact whole part old
      · rw [List.mem_singleton.mp last]
        exact allowedNames_whole _ allowed
    · rw [key, same, joined_append]

/-- The removal of the top directory is never reported. -/
theorem unremoved_top {watcher : FileWatcher} {kernel : Kernel}
    {batch : List InotifyEvent}
    (registers : Registers config watcher kernel) :
    Unremoved config.configDir
      (changes config watcher batch kernel.queue) := by
  rintro change member - same
  rcases change_below registers member with ⟨names, name, whole, key⟩
  have none : names ++ [name] = [] :=
    (joined_inj config.configDir whole (by simp)).mp (key.symm.trans same)
  simp at none

end Reports

/-! ## Changes of the tree -/

/-- The watch of a directory reports its entries. -/
theorem notify_cases {config : Config} {watcher : FileWatcher}
    {kernel : Kernel} (registers : Registers config watcher kernel)
    (inode : Nat) {notice : Notice} (entry : notice ≠ .modified)
    (name : String) :
    (∃ watch ∈ kernel.watches, watch.inode = inode ∧
        watch.mask = watchMask true ∧
          kernel.notify inode notice name = kernel.report
            { wd := watch.wd
              mask := notice.mask
              name := name }) ∨
      (∀ watch ∈ kernel.watches, watch.inode = inode →
          watch.mask ≠ watchMask true) ∧
        kernel.notify inode notice name = kernel := by
  have subscribed : watchMask true &&& notice.mask ≠ 0 ∧
      watchMask false &&& notice.mask = 0 := by
    cases notice with
    | modified => exact absurd rfl entry
    | created kind => cases kind <;> decide
    | deleted kind => cases kind <;> decide
  unfold Kernel.notify
  split
  · rename_i absent
    refine Or.inr ⟨fun watch member same => ?_, rfl⟩
    exact absurd same (Kernel.watchOf_eq_none.mp absent watch member)
  · rename_i watch found
    rcases (Kernel.watchOf_eq_some registers.sound).mp found with
      ⟨member, same⟩
    rcases registers.masks watch member with ⟨isDir, mask⟩
    cases isDir with
    | true =>
        rw [mask, if_pos subscribed.1]
        exact Or.inl ⟨watch, member, same, mask, rfl⟩
    | false =>
        rw [mask, if_neg (not_not.mpr subscribed.2)]
        refine Or.inr ⟨?_, rfl⟩
        intro other present also
        rw [registers.sound.inodes other present watch member
          (also.trans same.symm), mask]
        decide

section Tree

variable {config : Config} {w next : World} {dir : List String}
  {name : String} {kind : Kind} {parent : Nat} {watch : KernelWatch}

/-- Paths below the config directory are not that of the sockets. -/
theorem joined_ne_socketPath
    (outside : components config.configDir config.socketPath = none)
    {names : List String} (whole : ∀ name ∈ names, IsWhole name) :
    joined config.configDir names ≠ config.socketPath := by
  intro same
  rw [← same, components_joined _ whole] at outside
  simp at outside

/-- A directory that is watched as such has the path of its watch. -/
theorem Mirrored.dir_path (mirrored : Mirrored config w)
    (walked : w.tree.walk rootInode dir = some watch.inode)
    (house : IsDirectory w.tree.entries watch.inode)
    (member : watch ∈ w.kernel.watches)
    (mask : watch.mask = watchMask true) :
    IsConfigPath dir .directory ∧
      w.manager.fileWatcher.pathOf watch.wd =
        some (joined config.configDir dir) := by
  rcases house with top | ⟨e, present, inode, isDir⟩
  · rcases mirrored.registers.top with ⟨first, known, isTop, -, path⟩
    rw [mirrored.registers.sound.inodes watch member first known
      (top.trans isTop.symm)] at walked ⊢
    rw [isTop] at walked
    have none : dir = [] := FileTree.walk_inj walked rfl
    rw [none]
    exact ⟨.top, path⟩
  · have below : rootInode < watch.inode := by
      rw [← inode]
      exact (w.tree.isTree.numbered e present).1
    rcases mirrored.places.subDirs watch member below mask with
      ⟨subDir, allowed, path, only⟩
    rcases only e present inode isDir with ⟨atTop, rfl⟩
    have direct : w.tree.walk rootInode [e.name] = some watch.inode :=
      FileTree.walk_singleton.mpr ⟨e, present, atTop, rfl, inode⟩
    rw [FileTree.walk_inj walked direct]
    exact ⟨.subDir allowed, path⟩

/-- What the watch of a directory reports of one of its entries. -/
theorem Mirrored.reported (mirrored : Mirrored config w)
    (outside : components config.configDir config.socketPath = none)
    (walked : w.tree.walk rootInode dir = some watch.inode)
    (house : IsDirectory w.tree.entries watch.inode)
    (member : watch ∈ w.kernel.watches)
    (mask : watch.mask = watchMask true) (kind : Kind) (name : String) :
    queueChange config w.manager.fileWatcher
        { wd := watch.wd
          mask := (Notice.created kind).mask
          name := name } =
        (if name ∈ allowedNames (kind = .directory) then
          some ⟨joined config.configDir (dir ++ [name]), true⟩ else none) ∧
      queueChange config w.manager.fileWatcher
        { wd := watch.wd
          mask := (Notice.deleted kind).mask
          name := name } =
        (if name ∈ allowedNames (kind = .directory) then
          some ⟨joined config.configDir (dir ++ [name]), false⟩
          else none) := by
  rcases mirrored.dir_path walked house member mask with ⟨path, named⟩
  simp only [queueChange, named, Option.bind_some, joined_append]
  exact changeOf_notice kind (joined_ne_socketPath outside path.whole)

/-- A sub-directory is still heard while its watch and its inode are kept. -/
theorem Hears.keep {subDir : String} (hears : Hears config w subDir)
    (kept : ∀ watch ∈ w.kernel.watches,
      w.tree.walk rootInode [subDir] = some watch.inode →
        w.manager.fileWatcher.pathOf watch.wd =
            some (joined config.configDir [subDir]) →
          watch ∈ next.kernel.watches ∧
            next.tree.walk rootInode [subDir] = some watch.inode ∧
              next.manager.fileWatcher.pathOf watch.wd =
                some (joined config.configDir [subDir]))
    (unremoved : Unremoved (joined config.configDir [subDir])
      (pending config next)) : Hears config next subDir := by
  rcases hears.installed with ⟨watch, member, walked, mask, path⟩
  rcases kept watch member walked path with ⟨still, reached, same⟩
  exact ⟨⟨watch, still, reached, mask, same⟩, unremoved⟩

theorem Places.of_tree {watcher : FileWatcher} {watches : List KernelWatch}
    {tree other : FileTree} (places : Places config watcher watches tree)
    (later : tree.next ≤ other.next)
    (old : ∀ watch ∈ watches, rootInode < watch.inode →
      watch.mask = watchMask true → ∀ e ∈ other.entries,
        e.inode = watch.inode → e.kind = .directory → e ∈ tree.entries) :
    Places config watcher watches other where
  numbered watch member :=
    Nat.lt_of_lt_of_le (places.numbered watch member) later
  subDirs watch member below mask := by
    rcases places.subDirs watch member below mask with
      ⟨dir, allowed, path, only⟩
    refine ⟨dir, allowed, path, ?_⟩
    intro e present inode isDir
    exact only e (old watch member below mask e present inode isDir) inode
      isDir

/-- A creation that is reported and heeded adds a config path. -/
theorem Mirrored.heeded (mirrored : Mirrored config w)
    (foreseen : Foreseen config w dir name kind)
    (walked : w.tree.walk rootInode dir = some watch.inode)
    (house : IsDirectory w.tree.entries watch.inode)
    (member : watch ∈ w.kernel.watches)
    (mask : watch.mask = watchMask true)
    (allowed : name ∈ allowedNames (kind = .directory)) :
    IsConfigPath (dir ++ [name]) kind ∧
      Unremoved (joined config.configDir dir) (pending config w) := by
  rcases mirrored.dir_path walked house member mask with ⟨path, named⟩
  cases path with
  | top =>
      refine ⟨?_, unremoved_top mirrored.registers⟩
      by_cases isDir : kind = .directory
      · subst isDir
        exact .subDir allowed
      · simp only [isDir, decide_false] at allowed
        exact absurd allowed (foreseen.top rfl isDir)
  | @subDir subDir known =>
      have inside := foreseen.inside subDir known rfl
        ⟨watch, member, walked, mask, named⟩
      cases kind with
      | directory => exact absurd allowed (inside.1 rfl)
      | special => exact absurd allowed (inside.2 rfl)
      | regular =>
          exact ⟨.file known allowed,
            (foreseen.file subDir known rfl rfl allowed).unremoved⟩

/-- A config path that appears is reported. -/
theorem Mirrored.noticed (mirrored : Mirrored config w)
    (foreseen : Foreseen config w dir name kind)
    (walked : w.tree.walk rootInode dir = some parent)
    (path : IsConfigPath (dir ++ [name]) kind) :
    ∃ watch ∈ w.kernel.watches, watch.inode = parent ∧
      watch.mask = watchMask true := by
  rcases isConfigPath_append.mp path with
    ⟨rfl, -, -⟩ | ⟨subDir, known, rfl, allowed, rfl⟩
  · rcases mirrored.registers.top with ⟨watch, member, inode, mask, -⟩
    exact ⟨watch, member, inode.trans (Option.some.inj walked), mask⟩
  · rcases (foreseen.file subDir known rfl rfl allowed).installed with
      ⟨watch, member, also, mask, -⟩
    exact ⟨watch, member, Option.some.inj (also.symm.trans walked), mask⟩

/-- The watched paths and what is pending follow a foreseen creation. -/
theorem Mirrored.creates_changes
    (outside : components config.configDir config.socketPath = none)
    (mirrored : Mirrored config w)
    (foreseen : Foreseen config w dir name kind)
    (walked : w.tree.walk rootInode dir = some parent) {tree : FileTree}
    (creates : FileTree.Creates w.tree tree
      ⟨parent, name, w.tree.next, kind⟩) :
    Mirrors parentPath (watchedPaths config w.manager.fileWatcher)
        (changes config w.manager.fileWatcher w.batch
          (w.kernel.notify parent (.created kind) name).queue)
        (scannedPaths config tree) ∧
      ∀ change ∈ changes config w.manager.fileWatcher w.batch
          (w.kernel.notify parent (.created kind) name).queue,
        change ∈ pending config w ∨
          IsConfigPath (dir ++ [name]) kind ∧
            change = ⟨joined config.configDir (dir ++ [name]), true⟩ := by
  have registers := mirrored.registers
  have scanned : ∀ path, path ∈ scannedPaths config tree ↔
      IsConfigPath (dir ++ [name]) kind ∧
          path = joined config.configDir (dir ++ [name]) ∨
        path ∈ scannedPaths config w.tree := fun path =>
    scannedPaths_of_creates creates walked
  have notModified : Notice.created kind ≠ .modified := by simp
  rcases notify_cases registers parent notModified name with
    ⟨watch, member, rfl, mask, same⟩ | ⟨unwatched, same⟩
  · have house := creates.house
    have reported := (mirrored.reported outside walked house member mask kind
      name).1
    rw [same]
    constructor
    · by_cases allowed : name ∈ allowedNames (kind = .directory)
      · rw [if_pos allowed] at reported
        rcases mirrored.heeded foreseen walked house member mask allowed with
          ⟨path, unremoved⟩
        have whole := allowedNames_whole _ allowed
        have present : scannedPaths config tree = applied
            (some ⟨joined config.configDir (dir ++ [name]), true⟩)
              (scannedPaths config w.tree) := by
          ext key
          rw [scanned, applied, Option.elim_some, Change.mem_apply,
            and_iff_right path, and_iff_left rfl]
          by_cases new : key = joined config.configDir (dir ++ [name])
          · simp [new]
          · simp [new]
        rw [present, ← reported]
        apply mirrors_report mirrored.mirrors
        · intro change about adds
          rcases Option.some.inj (reported.symm.trans about) with rfl
          rw [joined_append, parentPath_append _ whole]
          exact unremoved
        · intro change about removes
          rcases Option.some.inj (reported.symm.trans about) with rfl
          simp at removes
      · rw [if_neg allowed] at reported
        have present : scannedPaths config tree =
            applied none (scannedPaths config w.tree) := by
          ext key
          rw [scanned, applied, Option.elim_none]
          exact or_iff_right fun both => allowed both.1.last_allowed
        rw [present, ← reported]
        apply mirrors_report mirrored.mirrors
        · simp [reported]
        · simp [reported]
    · intro change found
      refine (mem_changes_report found).imp_right fun about => ?_
      rw [reported] at about
      split at about
      · rename_i allowed
        exact ⟨(mirrored.heeded foreseen walked house member mask
          allowed).1, (Option.some.inj about).symm⟩
      · simp at about
  · rw [same]
    refine ⟨?_, fun change found => Or.inl found⟩
    have present : scannedPaths config tree = scannedPaths config w.tree := by
      ext key
      rw [scanned]
      refine or_iff_right fun both => ?_
      rcases mirrored.noticed foreseen walked both.1 with
        ⟨watch, member, inode, mask⟩
      exact unwatched watch member inode mask
    rw [present]
    exact mirrored.mirrors

theorem Mirrored.creates
    (outside : components config.configDir config.socketPath = none)
    (mirrored : Mirrored config w)
    (foreseen : Foreseen config w dir name kind)
    (created : w.creates dir name kind = some next) :
    Mirrored config next := by
  unfold World.creates at created
  split at created
  case isFalse => simp at created
  rcases Option.bind_eq_some_iff.mp created with ⟨parent, walked, made⟩
  rcases Option.map_eq_some_iff.mp made with ⟨tree, grown, rfl⟩
  rcases FileTree.create_eq_some grown with ⟨again, also, creates⟩
  rcases Option.some.inj (walked.symm.trans also) with rfl
  rcases mirrored.creates_changes outside foreseen walked creates with
    ⟨mirrors, only⟩
  have watches := Kernel.notify_watches parent (.created kind) name w.kernel
  refine ⟨mirrored.registers.notify _ _ _, ?_, mirrored.addresses, mirrors,
    ?_, ?_⟩
  · dsimp only
    rw [watches]
    refine mirrored.places.of_tree ?_ ?_
    · rw [creates.later]
      exact Nat.le_succ _
    · rintro watch member - - e present inode isDir
      rw [creates.entries] at present
      rcases List.mem_append.mp present with old | new
      · exact old
      · rcases List.mem_singleton.mp new with rfl
        exact absurd inode
          (Nat.ne_of_gt (mirrored.places.numbered watch member))
  · intro change found adds
    rcases only change found with old | ⟨path, rfl⟩
    · exact mirrored.additions change old adds
    · exact ⟨_, _, path, rfl⟩
  · intro subDir known file allowed found
    have heard : Hears config w subDir := by
      rcases (creates.kindAt walked).mp found with ⟨same, regular⟩ | old
      · have split : [subDir] ++ [file] = dir ++ [name] := same
        rcases List.append_inj' split rfl with ⟨rfl, names⟩
        rcases List.singleton_inj.mp names with rfl
        exact foreseen.file subDir known rfl regular.symm allowed
      · exact mirrored.files subDir known file allowed old
    refine heard.keep ?_ ?_
    · intro watch member reached path
      exact ⟨watches.symm ▸ member,
        (creates.walk walked).mpr (Or.inr reached), path⟩
    · intro change found removes
      rcases only change found with old | ⟨-, rfl⟩
      · exact heard.unremoved change old removes
      · simp at removes

/-- The end of a watch reports no change of a path. -/
theorem changes_drop (config : Config) (watcher : FileWatcher)
    (batch : List InotifyEvent) (kernel : Kernel) (wd : Nat) :
    changes config watcher batch (kernel.drop wd).queue =
      changes config watcher batch kernel.queue := by
  have silent : queueChange config watcher (Kernel.ignored wd) = none := by
    rw [queueChange, Option.bind_eq_none_iff]
    intro path _
    rw [Option.eq_none_iff_forall_ne_some]
    intro change reports
    have masks : inIgnored &&& ~~~inIsDir ≠ inCreate ∧
        inIgnored &&& ~~~inIsDir ≠ inDelete := by decide
    rcases (changeOf_eq_some.mp reports).2.2 with ⟨created, -⟩ | ⟨deleted, -⟩
    · exact masks.1 created
    · exact masks.2 deleted
  unfold Kernel.drop
  rcases changes_report config watcher batch
    { kernel with watches := kernel.watches.filter fun watch => watch.wd ≠ wd }
    (Kernel.ignored wd) with same | ⟨same, -⟩
  · rw [same, silent, Option.toList_none, List.append_nil]
  · exact same

theorem changes_forget (config : Config) (watcher : FileWatcher)
    (batch : List InotifyEvent) (kernel : Kernel) (inode : Nat) :
    changes config watcher batch (kernel.forget inode).queue =
      changes config watcher batch kernel.queue := by
  unfold Kernel.forget
  split
  · rfl
  · exact changes_drop ..

/-- The kernel forgets an inode that nothing is in. -/
theorem Mirrored.forget (mirrored : Mirrored config w) {inode : Nat}
    (below : rootInode < inode) (empty : IsEmpty w.tree.entries inode) :
    Mirrored config { w with kernel := w.kernel.forget inode } := by
  have sound := mirrored.registers.sound
  have same := changes_forget config w.manager.fileWatcher w.batch w.kernel
    inode
  refine ⟨mirrored.registers.forget below, ?_, mirrored.addresses, ?_, ?_,
    ?_⟩
  · constructor
    · intro watch member
      exact mirrored.places.numbered watch
        ((Kernel.mem_forget_watches sound).mp member).1
    · intro watch member
      exact mirrored.places.subDirs watch
        ((Kernel.mem_forget_watches sound).mp member).1
  · rw [pending, same]
    exact mirrored.mirrors
  · rw [pending, same]
    exact mirrored.additions
  · intro subDir known file allowed found
    have hears := mirrored.files subDir known file allowed found
    rcases FileTree.walk_of_kindAt [subDir] found with
      ⟨owner, reached, full⟩
    refine hears.keep ?_ ?_
    · intro watch member walked path
      refine ⟨(Kernel.mem_forget_watches sound).mpr ⟨member, ?_⟩, walked,
        path⟩
      rintro rfl
      rw [reached, Option.some.injEq] at walked
      exact full (walked ▸ empty)
    · rw [pending, same]
      exact hears.unremoved

/-- The scanned paths without one that is removed. -/
theorem scannedPaths_removed {tree : FileTree} {entry : Entry}
    (removes : FileTree.Removes w.tree tree entry)
    (walked : w.tree.walk rootInode dir = some entry.parent)
    (whole : ∀ name ∈ dir ++ [entry.name], IsWhole name) :
    scannedPaths config tree = applied
        (some ⟨joined config.configDir (dir ++ [entry.name]), false⟩)
        (scannedPaths config w.tree) ∧
      ∀ key ∈ scannedPaths config w.tree,
        parentPath key ≠ joined config.configDir (dir ++ [entry.name]) := by
  constructor
  · ext key
    rw [scannedPaths_of_removes removes walked, applied, Option.elim_some,
      Change.mem_apply, mem_scannedPaths]
    constructor
    · rintro ⟨names, kind, path, found, other, rfl⟩
      refine Or.inr ⟨?_, names, kind, path, found, rfl⟩
      rwa [ne_eq, joined_inj _ path.whole whole]
    · rintro (⟨-, adds⟩ | ⟨other, names, kind, path, found, rfl⟩)
      · simp at adds
      · refine ⟨names, kind, path, found, ?_, rfl⟩
        rwa [ne_eq, joined_inj _ path.whole whole] at other
  · intro key member
    rcases mem_scannedPaths.mp member with ⟨names, kind, path, found, rfl⟩
    rcases List.eq_nil_or_concat names with rfl | ⟨front, last, rfl⟩
    · exact parentPath_configDir config
    · rw [List.concat_eq_append] at path found ⊢
      have parts := path.whole
      rw [joined_append, parentPath_append _ (parts last (by simp)), ne_eq,
        joined_inj _ (fun name member => parts name (by simp [member])) whole]
      rintro rfl
      rcases FileTree.walk_of_kindAt _ found with ⟨inode, reached, full⟩
      rcases FileTree.walk_append_eq_some.mp reached with
        ⟨parent, above, e, present, parents, names, rfl⟩
      rw [walked, Option.some.injEq] at above
      rcases w.tree.isTree.named e present entry removes.member
        (parents.trans above.symm) names with rfl
      exact full removes.empty

/-- The scanned paths stay when no config path is removed. -/
theorem scannedPaths_kept {tree : FileTree} {entry : Entry}
    (removes : FileTree.Removes w.tree tree entry)
    (walked : w.tree.walk rootInode dir = some entry.parent)
    (other : ¬ IsConfigPath (dir ++ [entry.name]) entry.kind) :
    scannedPaths config tree = scannedPaths config w.tree := by
  ext key
  rw [scannedPaths_of_removes removes walked, mem_scannedPaths]
  constructor
  · rintro ⟨names, kind, path, found, -, same⟩
    exact ⟨names, kind, path, found, same⟩
  · rintro ⟨names, kind, path, found, same⟩
    refine ⟨names, kind, path, found, ?_, same⟩
    rintro rfl
    have itself : w.tree.kindAt (dir ++ [entry.name]) = some entry.kind :=
      FileTree.kindAt_append.mpr
        ⟨entry.parent, walked, entry, removes.member, rfl, rfl, rfl⟩
    rw [itself, Option.some.injEq] at found
    exact other (found ▸ path)

/-- A config path that disappears is reported. -/
theorem Mirrored.noticed_removal (mirrored : Mirrored config w)
    {entry : Entry} (member : entry ∈ w.tree.entries)
    (walked : w.tree.walk rootInode dir = some entry.parent)
    (path : IsConfigPath (dir ++ [entry.name]) entry.kind) :
    ∃ watch ∈ w.kernel.watches, watch.inode = entry.parent ∧
      watch.mask = watchMask true := by
  have found : w.tree.kindAt (dir ++ [entry.name]) = some entry.kind :=
    FileTree.kindAt_append.mpr
      ⟨entry.parent, walked, entry, member, rfl, rfl, rfl⟩
  rcases isConfigPath_append.mp path with
    ⟨rfl, -, -⟩ | ⟨subDir, known, rfl, allowed, regular⟩
  · rcases mirrored.registers.top with ⟨watch, member, inode, mask, -⟩
    exact ⟨watch, member, inode.trans (Option.some.inj walked), mask⟩
  · rw [regular] at found
    rcases (mirrored.files subDir known entry.name allowed found).installed
      with ⟨watch, member, also, mask, -⟩
    exact ⟨watch, member, Option.some.inj (also.symm.trans walked), mask⟩

/-- The watched paths and what is pending follow a deletion. -/
theorem Mirrored.removes_changes
    (outside : components config.configDir config.socketPath = none)
    (mirrored : Mirrored config w) {tree : FileTree} {entry : Entry}
    (removes : FileTree.Removes w.tree tree entry)
    (walked : w.tree.walk rootInode dir = some entry.parent) :
    Mirrors parentPath (watchedPaths config w.manager.fileWatcher)
        (changes config w.manager.fileWatcher w.batch
          (w.kernel.notify entry.parent (.deleted entry.kind)
            entry.name).queue)
        (scannedPaths config tree) ∧
      ∀ change ∈ changes config w.manager.fileWatcher w.batch
          (w.kernel.notify entry.parent (.deleted entry.kind)
            entry.name).queue,
        change ∈ pending config w ∨
          (∀ name ∈ dir ++ [entry.name], IsWhole name) ∧
            change =
              ⟨joined config.configDir (dir ++ [entry.name]), false⟩ := by
  have registers := mirrored.registers
  have notModified : Notice.deleted entry.kind ≠ .modified := by simp
  rcases notify_cases registers entry.parent notModified entry.name with
    ⟨watch, member, inode, mask, same⟩ | ⟨unwatched, same⟩
  · rw [← inode] at walked
    have house : IsDirectory w.tree.entries watch.inode :=
      inode ▸ w.tree.isTree.housed entry removes.member
    have reported := (mirrored.reported outside walked house member mask
      entry.kind entry.name).2
    have whole : entry.name ∈ allowedNames (entry.kind = .directory) →
        ∀ name ∈ dir ++ [entry.name], IsWhole name := by
      intro allowed name part
      rcases List.mem_append.mp part with front | last
      · exact (mirrored.dir_path walked house member mask).1.whole name front
      · rw [List.mem_singleton.mp last]
        exact allowedNames_whole _ allowed
    rw [inode] at walked
    rw [same]
    constructor
    · by_cases allowed : entry.name ∈ allowedNames (entry.kind = .directory)
      · rw [if_pos allowed] at reported
        rcases scannedPaths_removed removes walked (whole allowed) with
          ⟨present, clears⟩
        rw [present, ← reported]
        apply mirrors_report mirrored.mirrors
        · intro change about adds
          rcases Option.some.inj (reported.symm.trans about) with rfl
          simp at adds
        · intro change about removes
          rcases Option.some.inj (reported.symm.trans about) with rfl
          exact clears
      · rw [if_neg allowed] at reported
        have present : scannedPaths config tree =
            applied none (scannedPaths config w.tree) := by
          apply scannedPaths_kept removes walked
          exact fun path => allowed path.last_allowed
        rw [present, ← reported]
        apply mirrors_report mirrored.mirrors
        · simp [reported]
        · simp [reported]
    · intro change found
      refine (mem_changes_report found).imp_right fun about => ?_
      rw [reported] at about
      split at about
      · rename_i allowed
        exact ⟨whole allowed, (Option.some.inj about).symm⟩
      · simp at about
  · rw [same]
    refine ⟨?_, fun change found => Or.inl found⟩
    rw [scannedPaths_kept removes walked]
    · exact mirrored.mirrors
    · intro path
      rcases mirrored.noticed_removal removes.member walked path with
        ⟨watch, member, inode, mask⟩
      exact unwatched watch member inode mask

theorem Mirrored.deletes
    (outside : components config.configDir config.socketPath = none)
    (mirrored : Mirrored config w) {goneFirst : Bool}
    (deleted : w.deletes dir name goneFirst = some next) :
    Mirrored config next := by
  rcases Option.map_eq_some_iff.mp deleted with ⟨⟨entry, tree⟩, removed, rfl⟩
  rcases FileTree.remove_eq_some removed with ⟨walked, -, removes⟩
  have begun : Mirrored config { w with
      kernel :=
        if goneFirst then w.kernel.forget entry.inode else w.kernel } := by
    cases goneFirst with
    | true =>
        exact mirrored.forget
          (w.tree.isTree.numbered entry removes.member).1 removes.empty
    | false => exact mirrored
  generalize (if goneFirst then w.kernel.forget entry.inode
    else w.kernel) = kernel at begun
  rcases begun.removes_changes outside removes walked with
    ⟨mirrors, only⟩
  have watches := Kernel.notify_watches entry.parent (.deleted entry.kind)
    entry.name kernel
  refine ⟨begun.registers.notify _ _ _, ?_, begun.addresses, mirrors, ?_, ?_⟩
  · dsimp only
    rw [watches]
    refine begun.places.of_tree (Nat.le_of_eq removes.later.symm) ?_
    rintro watch member - - e present inode isDir
    exact ((removes.entries e).mp present).1
  · intro change found adds
    rcases only change found with old | ⟨-, rfl⟩
    · exact begun.additions change old adds
    · simp at adds
  · intro subDir known file allowed found
    rcases FileTree.walk_of_kindAt [subDir] found with ⟨owner, reached, -⟩
    rcases (removes.walk walked).mp reached with ⟨other, -⟩
    have old := ((removes.kindAt walked).mp found).2
    have hears := begun.files subDir known file allowed old
    refine hears.keep ?_ ?_
    · intro watch member walks path
      exact ⟨watches.symm ▸ member,
        (removes.walk walked).mpr ⟨other, walks⟩, path⟩
    · intro change found removed
      rcases only change found with old | ⟨whole, rfl⟩
      · exact hears.unremoved change old removed
      · rw [ne_eq, joined_inj _ whole (IsConfigPath.subDir known).whole]
        exact Ne.symm other

/-- A rename that leaves the scanned paths alone. -/
theorem Mirrored.renames (mirrored : Mirrored config w)
    {newDir : List String} {newName : String}
    (suits : Suits config w (.renames dir name newDir newName))
    (renamed : w.renames dir name newDir newName = some next) :
    Mirrored config next := by
  unfold World.renames at renamed
  split at renamed
  case isFalse => simp at renamed
  rcases Option.map_eq_some_iff.mp renamed with ⟨tree, moved, rfl⟩
  have scanned := suits tree moved
  rcases FileTree.rename_eq_some moved with rfl | ⟨entry, renames⟩
  · exact mirrored
  have sameKind : ∀ names kind, IsConfigPath names kind →
      (tree.kindAt names = some kind ↔ w.tree.kindAt names = some kind) := by
    intro names kind path
    have same : joined config.configDir names ∈ scannedPaths config tree ↔
        joined config.configDir names ∈ scannedPaths config w.tree := by
      rw [scanned]
    rw [joined_mem_scannedPaths path.whole,
      joined_mem_scannedPaths path.whole] at same
    have only : ∀ other, IsConfigPath names other → other = kind := by
      intro other also
      cases path <;> cases also <;> rfl
    constructor
    · intro found
      rcases same.mp ⟨kind, path, found⟩ with ⟨other, also, there⟩
      rw [only other also] at there
      exact there
    · intro found
      rcases same.mpr ⟨kind, path, found⟩ with ⟨other, also, there⟩
      rw [only other also] at there
      exact there
  -- a sub-directory cannot be the entry whose old name is free now
  have stays : ∀ subDir ∈ allowedConfigSubDir,
      tree.kindAt [subDir] = some .directory →
        ¬ (entry.parent = rootInode ∧ entry.name = subDir) := by
    rintro subDir known found ⟨top, names⟩
    rcases FileTree.kindAt_singleton.mp found with
      ⟨e, present, parents, same, -⟩
    exact renames.vacated e present (parents.trans top.symm)
      (same.trans names.symm)
  refine ⟨mirrored.registers, ?_, mirrored.addresses, ?_, mirrored.additions,
    ?_⟩
  · refine mirrored.places.of_tree (Nat.le_of_eq renames.later.symm) ?_
    intro watch member below mask e present inode isDir
    rcases renames.origin e present with old | ⟨sameInode, kind⟩
    · exact old
    · rcases mirrored.places.subDirs watch member below mask with
        ⟨subDir, known, -, only⟩
      have place := only entry renames.member (sameInode.symm.trans inode)
        (kind.symm.trans isDir)
      have found : w.tree.kindAt [subDir] = some .directory :=
        FileTree.kindAt_singleton.mpr ⟨entry, renames.member, place.1,
          place.2, kind.symm.trans isDir⟩
      exact absurd place (stays subDir known
        ((sameKind _ _ (.subDir known)).mpr found))
  · rw [pending]
    dsimp only
    rw [scanned]
    exact mirrored.mirrors
  · intro subDir known file allowed found
    have old := (sameKind _ _ (.file known allowed)).mp found
    have isDir := FileTree.kindAt_above [subDir] found
    have hears := mirrored.files subDir known file allowed old
    refine hears.keep ?_ hears.unremoved
    intro watch member walked path
    refine ⟨member, ?_, path⟩
    rcases FileTree.walk_singleton.mp walked with
      ⟨e, present, top, names, inode⟩
    rcases FileTree.walk_of_kindAt [subDir] old with ⟨owner, reached, full⟩
    rw [walked, Option.some.injEq] at reached
    refine FileTree.walk_singleton.mpr
      ⟨e, renames.kept e present ?_ ?_, top, names, inode⟩
    · rintro rfl
      exact stays subDir known isDir ⟨top, names⟩
    · rw [inode, reached]
      exact full

/-- An event that is about no config path changes nothing. -/
theorem Mirrored.silent (mirrored : Mirrored config w) (inode : Nat)
    (notice : Notice) (name : String)
    (silent : ∀ watch ∈ w.kernel.watches, watch.inode = inode →
      queueChange config w.manager.fileWatcher
        { wd := watch.wd
          mask := notice.mask
          name := name } = none) :
    Mirrored config
      { w with kernel := w.kernel.notify inode notice name } := by
  have watches := Kernel.notify_watches inode notice name w.kernel
  have same : changes config w.manager.fileWatcher w.batch
      (w.kernel.notify inode notice name).queue = pending config w := by
    unfold Kernel.notify
    split
    · rfl
    · rename_i watch found
      rcases (Kernel.watchOf_eq_some mirrored.registers.sound).mp found with
        ⟨member, at_⟩
      split
      · rcases changes_report config w.manager.fileWatcher w.batch w.kernel
          { wd := watch.wd
            mask := notice.mask
            name := name } with same | ⟨same, -⟩
        · rw [same, silent watch member at_, Option.toList_none,
            List.append_nil]
          rfl
        · exact same
      · rfl
  refine ⟨mirrored.registers.notify _ _ _, ?_, mirrored.addresses, ?_, ?_,
    ?_⟩
  · dsimp only
    rw [watches]
    exact mirrored.places
  · rw [pending, same]
    exact mirrored.mirrors
  · rw [pending, same]
    exact mirrored.additions
  · intro subDir known file allowed found
    have hears := mirrored.files subDir known file allowed found
    refine hears.keep ?_ ?_
    · intro watch member walked path
      exact ⟨watches.symm ▸ member, walked, path⟩
    · rw [pending, same]
      exact hears.unremoved

theorem Mirrored.writes (mirrored : Mirrored config w) (inode : Nat) :
    Mirrored config
      { w with kernel := w.kernel.notify inode .modified "" } := by
  apply mirrored.silent
  rintro watch - -
  rw [queueChange, Option.bind_eq_none_iff]
  intro path _
  rw [Option.eq_none_iff_forall_ne_some]
  intro change reports
  have named := allowedNames_ne_empty _ (changeOf_eq_some.mp reports).1.2
  simp at named

theorem Mirrored.socketChanges (mirrored : Mirrored config w)
    (notice : Notice) (name : String) :
    Mirrored config
      { w with kernel := w.kernel.notify socketInode notice name } := by
  apply mirrored.silent
  intro watch member same
  rw [queueChange, mirrored.registers.sockets watch member same,
    Option.bind_some, changeOf]
  simp

theorem Mirrored.forgets (mirrored : Mirrored config w) {inode : Nat}
    (forgotten : w.forgets inode = some next) : Mirrored config next := by
  unfold World.forgets at forgotten
  split at forgotten
  · rename_i gone
    rcases Option.some.inj forgotten with rfl
    apply mirrored.forget gone.1
    intro e member parents
    rcases w.tree.isTree.housed e member with top | ⟨house, present, same, -⟩
    · exact absurd (parents.symm.trans top) (Nat.ne_of_gt gone.1)
    · exact gone.2 house present (same.trans parents)
  · simp at forgotten

end Tree

end KekMonitors.Manager
