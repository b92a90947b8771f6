import KekMonitors.Manager.ConfigReads
import KekMonitors.Manager.ConfigUpkeep

/-!
# Runs of the manager and its config directory

The constructor installs what the scan finds, and what is foreseen keeps the
watches up to date.  When nothing is left to be handled, the manager has the
watches that the constructor would install then.
-/

namespace KekMonitors.Manager

open FileWatcher
open Paths
open Transition

/-! ## Runs -/

/-- The invariant of the runs in which what happens is foreseen. -/
structure UpToDate (config : Config) (w : World) : Prop where
  watched : Watched w.manager
  mirrored : w.manager.fileWatcher.inotify.isOpen = true → Mirrored config w

section Runs

variable {config : Config} {w next : World}

/-- The other handlers read no events, and may close the object. -/
theorem UpToDate.runs (holds : UpToDate config w) {action : Action}
    (ran : w.runs config action = some (.ok next)) : UpToDate config next := by
  unfold World.runs at ran
  split at ran
  case isFalse => simp at ran
  rename_i enabled
  rcases Option.map_eq_some_iff.mp ran with ⟨outcome, taken, rest⟩
  rcases bind_eq_ok.mp rest with ⟨manager, rfl, same⟩
  rcases Except.ok.inj same with rfl
  refine ⟨step_watched holds.watched taken, ?_⟩
  intro isOpen
  change manager.fileWatcher.inotify.isOpen = true at isOpen
  rcases step_fileWatcher taken with kept | closed | ⟨events, rfl⟩
  · rw [if_pos isOpen]
    rw [kept] at isOpen
    exact (holds.mirrored isOpen).of_fileWatcher kept
  · rw [closed, FileWatcher.close] at isOpen
    split at isOpen
    · simp at isOpen
    · rename_i alreadyClosed
      exact absurd isOpen alreadyClosed
  · exact absurd trivial enabled.2

theorem UpToDate.reads (holds : UpToDate config w) {count : Nat}
    (read : w.reads count = some (.ok next)) : UpToDate config next := by
  have after : w.manager.fileWatcher.inotify.isOpen = true ∧
      Watched next.manager := by
    unfold World.reads at read
    split at read
    case isFalse => simp at read
    rename_i enabled
    rcases holds.watched.read config (w.kernel.queue.take count) with
      ⟨watcher, queued, -, begun, -⟩
    rw [queued] at read
    rcases Except.ok.inj (Option.some.inj read) with rfl
    exact ⟨enabled.2, begun⟩
  exact ⟨after.2, fun _ =>
    (holds.mirrored after.1).reads holds.watched read⟩

theorem UpToDate.handles
    (outside : components config.configDir config.socketPath = none)
    (holds : UpToDate config w) {found : Surroundings}
    (handled : w.handles config found = some (.ok next)) :
    UpToDate config next := by
  have after : Watched next.manager ∧
      next.manager.fileWatcher.inotify.isOpen =
        w.manager.fileWatcher.inotify.isOpen := by
    unfold World.handles at handled
    split at handled
    · simp at handled
    · rcases bind_eq_ok.mp (Option.some.inj handled) with ⟨manager, ran, same⟩
      rcases Except.ok.inj same with rfl
      exact ⟨holds.watched.event ran, onInotifyEvent_isOpen ran⟩
  exact ⟨after.1, fun isOpen =>
    (holds.mirrored (after.2 ▸ isOpen)).handles outside handled⟩

/-- What happens to the tree leaves the manager alone. -/
theorem UpToDate.of_manager (holds : UpToDate config w)
    (same : next.manager = w.manager)
    (mirrored : Mirrored config w → Mirrored config next) :
    UpToDate config next :=
  ⟨same ▸ holds.watched,
    fun isOpen => mirrored (holds.mirrored (same ▸ isOpen))⟩

theorem UpToDate.step
    (outside : components config.configDir config.socketPath = none)
    (holds : UpToDate config w) {happening : Happening}
    (suits : Suits config w happening)
    (taken : World.step config w happening = some (.ok next)) :
    UpToDate config next := by
  cases happening with
  | creates dir name kind =>
      have created : w.creates dir name kind = some next := by
        simpa [World.step] using taken
      exact holds.of_manager (World.creates_keeps created).manager
        fun mirrored => mirrored.creates outside suits created
  | deletes dir name goneFirst =>
      have deleted : w.deletes dir name goneFirst = some next := by
        simpa [World.step] using taken
      exact holds.of_manager (World.deletes_keeps deleted).manager
        fun mirrored => mirrored.deletes outside deleted
  | renames dir name newDir newName =>
      have renamed : w.renames dir name newDir newName = some next := by
        simpa [World.step] using taken
      exact holds.of_manager (World.renames_keeps renamed).manager
        fun mirrored => mirrored.renames suits renamed
  | writes inode =>
      rcases Except.ok.inj (Option.some.inj taken) with rfl
      exact holds.of_manager rfl fun mirrored => mirrored.writes inode
  | forgets inode =>
      have forgotten : w.forgets inode = some next := by
        simpa [World.step] using taken
      exact holds.of_manager (World.forgets_keeps forgotten).manager
        fun mirrored => mirrored.forgets forgotten
  | socketChanges notice name =>
      rcases Except.ok.inj (Option.some.inj taken) with rfl
      exact holds.of_manager rfl fun mirrored =>
        mirrored.socketChanges notice name
  | reads count => exact holds.reads taken
  | handles found => exact holds.handles outside taken
  | runs action => exact holds.runs taken

end Runs

/-! ## The start -/

section Start

variable {config : Config} {w : World} {tree : FileTree}
  {descriptor : Nat → Nat} {watch : KernelWatch} {names : List String}
  {kind : Kind} {inode : Nat}

theorem resolve_joined (whole : ∀ name ∈ names, IsWhole name) :
    resolve config tree (joined config.configDir names) =
      tree.walk rootInode names := by
  rw [resolve, components_joined _ whole]
  rfl

/-- The kernel watches what the scan installs, and the sockets. -/
theorem mem_kernelWatches :
    watch ∈ kernelWatches config tree descriptor ↔
      watch = ⟨socketInode, descriptor socketInode, watchMask true⟩ ∨
        ∃ names kind inode, IsConfigPath names kind ∧
          tree.kindAt names = some kind ∧
            tree.walk rootInode names = some inode ∧
              watch = ⟨inode, descriptor inode,
                watchMask (kind = .directory)⟩ := by
  rw [kernelWatches, List.mem_cons, List.mem_filterMap]
  apply or_congr_right
  constructor
  · rintro ⟨⟨path, mask⟩, installed, resolved⟩
    rcases mem_scannedWatches.mp installed with
      ⟨names, kind, configPath, found, rfl, rfl⟩
    rw [resolve_joined configPath.whole] at resolved
    rcases Option.map_eq_some_iff.mp resolved with ⟨inode, walked, rfl⟩
    exact ⟨names, kind, inode, configPath, found, walked, rfl⟩
  · rintro ⟨names, kind, inode, configPath, found, walked, rfl⟩
    refine ⟨(joined config.configDir names, _), mem_scannedWatches.mpr
      ⟨names, kind, configPath, found, rfl, rfl⟩, ?_⟩
    rw [resolve_joined configPath.whole, walked]
    rfl

/-- No two watches of the kernel are on one inode, or share a descriptor. -/
theorem kernelWatches_distinct (injective : Function.Injective descriptor)
    {other : KernelWatch}
    (member : watch ∈ kernelWatches config tree descriptor)
    (also : other ∈ kernelWatches config tree descriptor)
    (same : watch.inode = other.inode ∨ watch.wd = other.wd) :
    watch = other := by
  have described : ∀ watch ∈ kernelWatches config tree descriptor,
      watch.wd = descriptor watch.inode := by
    intro watch member
    rcases mem_kernelWatches.mp member with
      rfl | ⟨names, kind, inode, -, -, -, rfl⟩
    · rfl
    · rfl
  have inodes : watch.inode = other.inode := by
    rcases same with inodes | wds
    · exact inodes
    · rw [described watch member, described other also] at wds
      exact injective wds
  rcases mem_kernelWatches.mp member with
    rfl | ⟨names, kind, inode, path, found, walked, rfl⟩ <;>
    rcases mem_kernelWatches.mp also with
      rfl | ⟨others, otherKind, otherInode, -, known, reached, rfl⟩
  · rfl
  · exact absurd inodes
      (Nat.ne_of_lt (FileTree.walk_numbered reached).1)
  · exact absurd inodes
      (Nat.ne_of_gt (FileTree.walk_numbered walked).1)
  · change inode = otherInode at inodes
    rcases inodes with rfl
    rcases FileTree.walk_inj walked reached with rfl
    rcases Option.some.inj (found.symm.trans known) with rfl
    rfl

/-- What adding the first watches leaves. -/
structure Adds (startUp : StartUp) (watches : List (String × UInt32))
    (watcher next : FileWatcher) : Prop where
  described : next.Described
  lasting : next.Lasting
  paths : next.watches.map InotifyWatch.path =
    watcher.watches.map InotifyWatch.path ++ watches.map Prod.fst
  old : ∀ wd path, watcher.pathOf wd = some path →
    next.pathOf wd = some path
  new : ∀ watch ∈ watches, ∃ wd, startUp.addWatch watch.1 = some wd ∧
    next.pathOf wd = some watch.1

theorem addWatches_adds {startUp : StartUp}
    {watches : List (String × UInt32)} {s next : State}
    (watched : Watched s) (described : s.fileWatcher.Described)
    (lasting : s.fileWatcher.Lasting)
    (masks : ∀ watch ∈ watches, isType watch.2 inOneShot = false)
    (ran : addWatches startUp s watches = .ok next) :
    Adds startUp watches s.fileWatcher next.fileWatcher := by
  induction watches generalizing s with
  | nil =>
      rcases Except.ok.inj ran with rfl
      exact ⟨described, lasting, by simp, fun _ _ => id, by simp⟩
  | cons watch watches ih =>
      rcases bind_eq_ok.mp ran with ⟨middle, first, rest⟩
      have kind := masks watch List.mem_cons_self
      have stillLasting := addWatch_lasting lasting kind first
      rcases addWatch_cases watch.1 watch.2 (startUp.addWatch watch.1) s with
        ⟨wd, answer, addable, added⟩ | ⟨-, refused⟩
      · rcases Except.ok.inj (added.symm.trans first) with rfl
        rw [answer] at addable
        have begun : Watched
            { s with
              fileWatcher :=
                s.fileWatcher.added watch.1 watch.2 wd } :=
          ⟨watched.consistent.added addable watch.2 wd, watched.drained⟩
        have later := ih begun (described.added addable) stillLasting
          (fun other member => masks other (List.mem_cons_of_mem _ member))
          rest
        refine ⟨later.described, later.lasting, ?_, ?_, ?_⟩
        · rw [later.paths]
          simp [FileWatcher.added]
        · intro other path known
          apply later.old
          refine (watched.consistent.pathOf_added ?_).trans known
          rintro rfl
          rcases addable.accepted with ⟨_, same, unknown⟩
          rcases Option.some.inj same with rfl
          rw [pathOf, unknown] at known
          simp at known
        · intro other member
          rcases List.mem_cons.mp member with rfl | more
          · exact ⟨wd, answer, later.old wd other.1
              (watched.consistent.pathOf_added_self addable)⟩
          · exact later.new other more
      · rw [refused] at first
        simp at first

theorem watchMask_lasting (isDir : Bool) :
    isType (watchMask isDir) inOneShot = false := by
  cases isDir <;> decide

/-- What the constructor leaves of the watches that it adds. -/
structure Installs (config : Config) (tree : FileTree)
    (descriptor : Nat → Nat) (watcher : FileWatcher) : Prop where
  described : watcher.Described
  lasting : Lasting watcher
  paths : watcher.watches.map InotifyWatch.path =
    config.socketPath :: (scannedWatches config tree).map Prod.fst
  sockets : watcher.pathOf (descriptor socketInode) = some config.socketPath
  scanned : ∀ names kind inode, IsConfigPath names kind →
    tree.kindAt names = some kind →
      tree.walk rootInode names = some inode →
        watcher.pathOf (descriptor inode) =
          some (joined config.configDir names)

theorem construct_installs
    (outside : components config.configDir config.socketPath = none)
    {files : List FoundFile} {start : State}
    (built : construct config (startUpOf config tree files descriptor) =
      .ok start) :
    Installs config tree descriptor start.fileWatcher := by
  rcases bind_eq_ok.mp built with ⟨watching, added, same⟩
  rcases Except.ok.inj same with rfl
  have empty := scanFiles_fileWatcher config
    (startUpOf config tree files descriptor).files {}
  have begun : Watched ((startUpOf config tree files descriptor).files.foldl
      (scanFile config) {}) := by
    constructor <;> rw [empty]
    exact consistent_empty
  have all : initialWatches config
      (startUpOf config tree files descriptor) =
        (config.socketPath, watchMask true) :: scannedWatches config tree :=
    rfl
  have masks : ∀ watch ∈ (config.socketPath, watchMask true) ::
      scannedWatches config tree, isType watch.2 inOneShot = false := by
    intro watch member
    rcases List.mem_cons.mp member with rfl | installed
    · exact watchMask_lasting true
    · rcases mem_scannedWatches.mp installed with ⟨_, _, -, -, -, mask⟩
      rw [mask]
      exact watchMask_lasting _
  rw [all] at added
  have adds := addWatches_adds begun (by simp [empty, Described])
    (by simp [empty, Lasting]) masks added
  refine ⟨adds.described, adds.lasting, ?_, ?_, ?_⟩
  · rw [adds.paths, empty]
    rfl
  · rcases adds.new _ List.mem_cons_self with ⟨wd, answer, path⟩
    rw [Option.some.inj ((if_pos rfl).symm.trans answer)]
    exact path
  · intro names kind inode configPath found walked
    have installed : (joined config.configDir names,
        watchMask (kind = .directory)) ∈ scannedWatches config tree :=
      mem_scannedWatches.mpr ⟨names, kind, configPath, found, rfl, rfl⟩
    rcases adds.new _ (List.mem_cons_of_mem _ installed) with
      ⟨wd, answer, path⟩
    have below := joined_ne_socketPath outside configPath.whole
    have resolved := (if_neg below).symm.trans answer
    rw [resolve_joined configPath.whole, walked] at resolved
    rw [Option.some.inj resolved]
    exact path

/-- What the constructor sets up is known on both sides. -/
theorem Installs.registers {watcher : FileWatcher} {kernel : Kernel}
    (installs : Installs config tree descriptor watcher)
    (consistent : watcher.Consistent)
    (injective : Function.Injective descriptor)
    (watches : kernel.watches = kernelWatches config tree descriptor)
    (given : ∀ watch ∈ kernel.watches, watch.wd < kernel.nextWd)
    (queue : kernel.queue = []) : Registers config watcher kernel where
  consistent := consistent
  described := installs.described
  lasting := installs.lasting
  sound :=
    { inodes := fun watch member other also same =>
        kernelWatches_distinct injective (watches ▸ member)
          (watches ▸ also) (Or.inl same)
      wds := fun watch member other also same =>
        kernelWatches_distinct injective (watches ▸ member)
          (watches ▸ also) (Or.inr same)
      given := given
      queued := by simp [queue]
      masks := by simp [queue]
      ended := by simp [queue]
      last := by simp [queue] }
  named path member := by
    rw [installs.paths] at member
    rcases List.mem_cons.mp member with rfl | scanned
    · exact Or.inl rfl
    · rcases mem_scannedPaths.mp scanned with
        ⟨names, kind, configPath, -, same⟩
      exact Or.inr ⟨names, configPath.whole, same⟩
  held watch member := by
    rcases mem_kernelWatches.mp (watches ▸ member) with
      rfl | ⟨names, kind, inode, configPath, found, walked, rfl⟩
    · rw [installs.sockets]
      rfl
    · rw [installs.scanned names kind inode configPath found walked]
      rfl
  masks watch member := by
    rcases mem_kernelWatches.mp (watches ▸ member) with
      rfl | ⟨names, kind, inode, -, -, -, rfl⟩
    · exact ⟨true, rfl⟩
    · exact ⟨_, rfl⟩
  sockets watch member same := by
    rcases mem_kernelWatches.mp (watches ▸ member) with
      rfl | ⟨names, kind, inode, -, -, walked, rfl⟩
    · exact installs.sockets
    · exact absurd same (Nat.ne_of_gt (FileTree.walk_numbered walked).1)
  top := by
    refine ⟨⟨rootInode, descriptor rootInode, watchMask true⟩, ?_, rfl, rfl,
      installs.scanned [] .directory rootInode .top rfl rfl⟩
    rw [watches]
    exact mem_kernelWatches.mpr (Or.inr
      ⟨[], .directory, rootInode, .top, rfl, rfl, rfl⟩)

theorem Installs.places {watcher : FileWatcher}
    (installs : Installs config tree descriptor watcher) :
    Places config watcher (kernelWatches config tree descriptor) tree where
  numbered watch member := by
    rcases mem_kernelWatches.mp member with
      rfl | ⟨names, kind, inode, -, -, walked, rfl⟩
    · exact Nat.lt_of_succ_lt tree.isTree.room
    · exact (FileTree.walk_numbered walked).2
  subDirs watch member below mask := by
    rcases mem_kernelWatches.mp member with
      rfl | ⟨names, kind, inode, configPath, found, walked, rfl⟩
    · exact absurd below (Nat.not_lt_zero _)
    · cases configPath with
      | top =>
          rcases Option.some.inj walked with rfl
          exact absurd below (Nat.lt_irrefl _)
      | @subDir dir allowed =>
          refine ⟨dir, allowed,
            installs.scanned _ _ _ (.subDir allowed) found walked, ?_⟩
          intro e present same isDir
          rcases FileTree.walk_singleton.mp walked with
            ⟨other, there, atTop, name, also⟩
          rcases tree.isTree.linked e present other there
            (same.trans also.symm) with rfl
          exact ⟨atTop, name⟩
      | file allowed known =>
          have isDir : decide (Kind.regular = .directory) = true :=
            watchMask_eq_true mask
          exact absurd isDir (by decide)

theorem Begins.upToDate
    (outside : components config.configDir config.socketPath = none)
    (begins : Begins config w) : UpToDate config w := by
  rcases begins.constructed with
    ⟨files, descriptor, injective, built, watches⟩
  have watched := construct_watched built
  have installs := construct_installs outside built
  have silent : pending config w = [] := by
    rw [pending, begins.batch, begins.queue]
    rfl
  refine ⟨watched, fun _ => ?_⟩
  refine
    { registers := installs.registers watched.consistent injective watches
        begins.given begins.queue
      places := watches ▸ installs.places
      addresses := by simp [begins.batch]
      mirrors := ⟨?_, ?_⟩
      additions := by simp [silent]
      files := ?_ }
  · rw [silent, settled_nil]
    ext path
    change path ≠ _ ∧ path ∈ List.map InotifyWatch.path _ ↔ _
    rw [installs.paths, List.mem_cons]
    constructor
    · rintro ⟨other, rfl | scanned⟩
      · exact absurd rfl other
      · exact scanned
    · intro scanned
      rcases mem_scannedPaths.mp scanned with ⟨names, kind, configPath, -, rfl⟩
      exact ⟨joined_ne_socketPath outside configPath.whole, Or.inr scanned⟩
  · rw [silent]
    trivial
  · intro dir allowed name known found
    have isDir : w.tree.kindAt [dir] = some .directory :=
      FileTree.kindAt_above [dir] found
    rcases FileTree.walk_of_kindAt [dir] found with ⟨inode, walked, -⟩
    refine ⟨⟨⟨inode, descriptor inode, watchMask true⟩, ?_, walked, rfl,
      installs.scanned [dir] _ inode (.subDir allowed) isDir walked⟩, ?_⟩
    · rw [watches]
      exact mem_kernelWatches.mpr (Or.inr
        ⟨[dir], .directory, inode, .subDir allowed, isDir, walked, rfl⟩)
    · rw [silent]
      simp [Unremoved]

end Start

/-! ## Settled states -/

section Settled

variable {config : Config} {start w : World}
  {attempts : List (World × Happening)} {outcome : Except Fault World}

/--
When everything on the way was foreseen and no event is left to be handled,
the watched config paths are those that a scan of the present tree installs.
-/
theorem config_paths_settled
    (outside : components config.configDir config.socketPath = none)
    (begins : Begins config start)
    (run : Run (World.step config) start attempts outcome)
    (suits : Meets (Suits config) attempts)
    (visited : Visits attempts outcome w) (settled : Settled w) :
    watchedPaths config w.manager.fileWatcher =
      scannedPaths config w.tree := by
  rcases run.visited_reached visited with ⟨earlier, later, rfl, reached⟩
  have upToDate : UpToDate config w :=
    reached.invariant_of_meets (Suits config) (UpToDate config)
      (begins.upToDate outside)
      (fun holds suits taken => holds.step outside suits taken)
      suits.of_append rfl
  have mirrors := (upToDate.mirrored settled.isOpen).mirrors
  rw [pending, settled.batch, settled.queue] at mirrors
  exact mirrors.observed_eq

end Settled

namespace Installation

/-- A config directory without sub-directories. -/
def emptyTree : FileTree :=
  { entries := []
    next := rootInode + 1
    isTree := isTree_nil }

/-- The manager has been constructed, and watches two directories. -/
def emptyWorld : World :=
  { manager :=
      ((construct config (startUpOf config emptyTree [] id)).toOption).getD {}
    tree := emptyTree
    kernel :=
      { watches := kernelWatches config emptyTree id
        nextWd := 2 } }

/-- A directory appears and, later on, a config file in it. -/
def appears (between : List Happening) : List Happening :=
  [.creates [] "common" .directory] ++ between ++
    -- The file has an empty object as its content.
    [.creates ["common"] "whitelists.json" .regular, .reads 2,
      .handles { content := [123, 125] }]

theorem emptyWorld_begins : Begins config emptyWorld where
  constructed := ⟨[], id, Function.injective_id, rfl, rfl⟩
  given := by decide +kernel
  queue := rfl
  batch := rfl

end Installation

open Installation

/-- A file that appears once its directory is watched is watched, too. -/
theorem config_paths_settled_followed :
    ∃ w, execute (World.step config) emptyWorld
        (appears [.reads 1, .handles {}]) = some w ∧ Settled w ∧
      watchedPaths config w.manager.fileWatcher =
        scannedPaths config w.tree := by
  have follows : (execute (World.step config) emptyWorld
      (appears [.reads 1, .handles {}])).any
        (fun w => decide (Settled w)) = true := by
    decide +kernel
  have suits : Meets (Suits config) (attemptsOf (World.step config) emptyWorld
      (appears [.reads 1, .handles {}])) := by
    decide +kernel
  rcases (Option.any_eq_true _ _).mp follows with ⟨w, executed, settled⟩
  have outside : components config.configDir config.socketPath = none := by
    decide +kernel
  exact ⟨w, executed, of_decide_eq_true settled,
    config_paths_settled outside emptyWorld_begins (.of_execute executed)
      suits (Or.inr rfl) (of_decide_eq_true settled)⟩

/-- A file that appears before its directory is watched is never watched. -/
theorem hidden_file_unwatched :
    ∃ attempts w, Begins config emptyWorld ∧
      Run (World.step config) emptyWorld attempts (.ok w) ∧ Settled w ∧
        watchedPaths config w.manager.fileWatcher ≠
          scannedPaths config w.tree := by
  have hides : (execute (World.step config) emptyWorld (appears [])).any
      (fun w => Settled w ∧
        config.configDir ++ "/common/whitelists.json" ∈
            (scannedWatches config w.tree).map Prod.fst ∧
          config.configDir ++ "/common/whitelists.json" ∉
            w.manager.fileWatcher.watches.map InotifyWatch.path) = true := by
    decide +kernel
  rcases (Option.any_eq_true _ _).mp hides with ⟨w, executed, facts⟩
  rcases of_decide_eq_true facts with ⟨settled, scanned, unwatched⟩
  refine ⟨_, w, emptyWorld_begins, .of_execute executed, settled, ?_⟩
  intro same
  have watched : config.configDir ++ "/common/whitelists.json" ∈
      watchedPaths config w.manager.fileWatcher := same ▸ scanned
  exact unwatched watched.2

end KekMonitors.Manager
