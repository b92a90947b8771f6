import KekMonitors.Kernel
import KekMonitors.Manager.Watching
import KekMonitors.Paths
import KekMonitors.Transition.Changes

/-!
# The manager and its config directory

The manager with the tree of the config directory and the kernel that watches
it.  Entries of the tree come, go and change their names at any time, between
any two events of a batch as well; what the handler of an event asks of the
kernel is answered for the tree as it is then.
-/

namespace KekMonitors.Manager

open FileWatcher
open Paths
open Transition

/-- The inode of the directory of the sockets, outside of the tree. -/
abbrev socketInode : Nat := 0

/-- The inode that a path leads to in the config directory. -/
def resolve (config : Config) (tree : FileTree) (path : String) :
    Option Nat :=
  (components config.configDir path).bind (tree.walk rootInode)

def kindOf (config : Config) (tree : FileTree) (path : String) :
    Option Kind :=
  (components config.configDir path).bind tree.kindAt

/-- The file system that the constructor finds, whatever the descriptors. -/
def startUpOf (config : Config) (tree : FileTree) (files : List FoundFile)
    (descriptor : Nat → Nat) : StartUp where
  files := files
  isDirectory path := kindOf config tree path = some .directory
  isRegularFile path := kindOf config tree path = some .regular
  addWatch path :=
    if path = config.socketPath then some (descriptor socketInode)
    else (resolve config tree path).map descriptor

/-- What the constructor's scan installs below the config directory. -/
def scannedWatches (config : Config) (tree : FileTree) :
    List (String × UInt32) :=
  (initialWatches config (startUpOf config tree [] id)).tail

def scannedPaths (config : Config) (tree : FileTree) : Set String :=
  { path | path ∈ (scannedWatches config tree).map Prod.fst }

structure World where
  manager : State
  tree : FileTree
  kernel : Kernel
  /-- What is left of the events that the running loop took. -/
  batch : List InotifyEvent := []

/-! ## What happens -/

/-- The masks with which directories and files are watched. -/
def watchMask (isDir : Bool) : UInt32 :=
  if isDir then inCreate ||| inDelete else inModify

/-- What the kernel watches once the manager has been constructed. -/
def kernelWatches (config : Config) (tree : FileTree)
    (descriptor : Nat → Nat) : List KernelWatch :=
  ⟨socketInode, descriptor socketInode, watchMask true⟩ ::
    (scannedWatches config tree).filterMap fun watch =>
      (resolve config tree watch.1).map fun inode =>
        ⟨inode, descriptor inode, watch.2⟩

/-- The constructor has run, and no event has been queued yet. -/
structure Begins (config : Config) (w : World) : Prop where
  constructed : ∃ files descriptor, Function.Injective descriptor ∧
    construct config (startUpOf config w.tree files descriptor) =
      .ok w.manager ∧
      w.kernel.watches = kernelWatches config w.tree descriptor
  given : ∀ watch ∈ w.kernel.watches, watch.wd < w.kernel.nextWd
  queue : w.kernel.queue = []
  batch : w.batch = []

/-- An event with the kernel's answers to what its handler asks. -/
def answered (config : Config) (w : World) (found : Surroundings)
    (event : InotifyEvent) : InotifyEvent :=
  { event with
    surroundings :=
      { found with
        addWatch := (startedPath config w.manager event).bind fun path =>
          (resolve config w.tree path).map fun inode =>
            (w.kernel.addWatch inode (watchMask (IsDir event))).1
        removeWatch := (erasedWatch config w.manager event).all fun watch =>
          watch.wd.all fun wd => w.kernel.Holds wd } }

/-- The kernel after what the handler of an event asks. -/
def asked (config : Config) (w : World) (event : InotifyEvent) : Kernel :=
  match startedPath config w.manager event with
  | some path =>
      match resolve config w.tree path with
      | some inode =>
          (w.kernel.addWatch inode (watchMask (IsDir event))).2
      | none => w.kernel
  | none =>
      match (erasedWatch config w.manager event).bind InotifyWatch.wd with
      | some wd => w.kernel.drop wd
      | none => w.kernel

inductive Happening where
  | creates (dir : List String) (name : String) (kind : Kind)
  /-- The inode may be gone before the deletion is reported. -/
  | deletes (dir : List String) (name : String) (goneFirst : Bool)
  | renames (dir : List String) (name : String) (newDir : List String)
      (newName : String)
  | writes (inode : Nat)
  /-- The last reference to an inode without a name is dropped. -/
  | forgets (inode : Nat)
  | socketChanges (notice : Notice) (name : String)
  | reads (count : Nat)
  | handles (found : Surroundings)
  /-- Another handler of the event loop runs. -/
  | runs (action : Action)

def IsFileName (name : String) : Prop :=
  IsWhole name ∧ name ∉ ["", ".", ".."]

instance (name : String) : Decidable (IsFileName name) :=
  inferInstanceAs (Decidable (_ ∧ _))

namespace World

def creates (dir : List String) (name : String) (kind : Kind) (w : World) :
    Option World :=
  if IsFileName name then
    (w.tree.walk rootInode dir).bind fun parent =>
      (w.tree.create dir name kind).map fun tree =>
        { w with
          tree := tree
          kernel := w.kernel.notify parent (.created kind) name }
  else none

def deletes (dir : List String) (name : String) (goneFirst : Bool)
    (w : World) : Option World :=
  (w.tree.remove dir name).map fun removed =>
    let kernel :=
      if goneFirst then w.kernel.forget removed.1.inode else w.kernel
    { w with
      tree := removed.2
      kernel := kernel.notify removed.1.parent (.deleted removed.1.kind)
        removed.1.name }

/-- The events of a rename are not among those that are watched for. -/
def renames (dir : List String) (name : String) (newDir : List String)
    (newName : String) (w : World) : Option World :=
  if IsFileName newName then
    (w.tree.rename dir name newDir newName).map fun tree =>
      { w with tree := tree }
  else none

def forgets (inode : Nat) (w : World) : Option World :=
  if rootInode < inode ∧ ∀ e ∈ w.tree.entries, e.inode ≠ inode then
    some { w with kernel := w.kernel.forget inode }
  else none

/-- A read fills the queue, and the loop over it begins. -/
def reads (count : Nat) (w : World) : Option (Except Fault World) :=
  if w.batch.isEmpty ∧ w.manager.fileWatcher.inotify.isOpen then
    some do
      let filled ←
        w.manager.fileWatcher.queueEvents (w.kernel.queue.take count)
      .ok
        { w with
          manager := loopStart w.manager filled
          batch := filled.inotify.events
          kernel := { w.kernel with queue := w.kernel.queue.drop count } }
  else none

def handles (config : Config) (found : Surroundings) (w : World) :
    Option (Except Fault World) :=
  match w.batch with
  | [] => none
  | event :: batch =>
      some do
        let manager ← onInotifyEvent config (answered config w found event)
          w.manager
        .ok
          { w with
            manager := manager
            batch := batch
            kernel := asked config w event }

def IsRead : Action → Prop
  | .inotifyRead _ => True
  | _ => False

instance (action : Action) : Decidable (IsRead action) := by
  cases action <;> unfold IsRead <;> infer_instance

/-- The other handlers run between two batches. -/
def runs (config : Config) (action : Action) (w : World) :
    Option (Except Fault World) :=
  if w.batch.isEmpty ∧ ¬ IsRead action then
    (Manager.step config w.manager action).map fun outcome => do
      let manager ← outcome
      .ok
        { w with
          manager := manager
          kernel :=
            if manager.fileWatcher.inotify.isOpen then w.kernel
            else w.kernel.closed }
  else none

def step (config : Config) : StepFunction World Happening Fault
  | w, .creates dir name kind => (w.creates dir name kind).map .ok
  | w, .deletes dir name goneFirst => (w.deletes dir name goneFirst).map .ok
  | w, .renames dir name newDir newName =>
      (w.renames dir name newDir newName).map .ok
  | w, .writes inode =>
      some (.ok { w with kernel := w.kernel.notify inode .modified "" })
  | w, .forgets inode => (w.forgets inode).map .ok
  | w, .socketChanges notice name =>
      some (.ok
        { w with kernel := w.kernel.notify socketInode notice name })
  | w, .reads count => w.reads count
  | w, .handles found => w.handles config found
  | w, .runs action => w.runs config action

end World

/-! ## What is still to be handled -/

/-- What an event reports of the entry of a config path. -/
def changeOf (config : Config) (path : String) (mask : UInt32)
    (name : String) : Option (Change String) :=
  if path ≠ config.socketPath ∧ name ∈ allowedNames (mask &&& inIsDir ≠ 0)
  then
    if mask &&& ~~~inIsDir = inCreate then some ⟨path ++ "/" ++ name, true⟩
    else if mask &&& ~~~inIsDir = inDelete then
      some ⟨path ++ "/" ++ name, false⟩
    else none
  else none

/-- The change that a queued event reports, if it is about a config path. -/
def batchChange (config : Config) (watcher : FileWatcher)
    (event : InotifyEvent) : Option (Change String) :=
  (watcher.pathAt event.watch).bind fun path =>
    changeOf config path event.mask event.name

/-- The same for an event that the kernel still has. -/
def queueChange (config : Config) (watcher : FileWatcher)
    (event : KernelEvent) : Option (Change String) :=
  (watcher.pathOf event.wd).bind fun path =>
    changeOf config path event.mask event.name

/-- The changes that events report before they are handled. -/
def changes (config : Config) (watcher : FileWatcher)
    (batch : List InotifyEvent) (queue : List KernelEvent) :
    List (Change String) :=
  batch.filterMap (batchChange config watcher) ++
    queue.filterMap (queueChange config watcher)

/-- What has been reported but not handled, in the order of handling. -/
def pending (config : Config) (w : World) : List (Change String) :=
  changes config w.manager.fileWatcher w.batch w.kernel.queue

/-- The config paths that the manager has in its list of watches. -/
def watchedPaths (config : Config) (watcher : FileWatcher) : Set String :=
  { path | path ≠ config.socketPath ∧
    path ∈ watcher.watches.map InotifyWatch.path }

/-- A sub-directory is watched, by the kernel and under its path. -/
def IsInstalled (config : Config) (w : World) (subDir : String) : Prop :=
  ∃ watch ∈ w.kernel.watches,
    w.tree.walk rootInode [subDir] = some watch.inode ∧
      watch.mask = watchMask true ∧
        w.manager.fileWatcher.pathOf watch.wd =
          some (joined config.configDir [subDir])

instance (config : Config) (w : World) (subDir : String) :
    Decidable (IsInstalled config w subDir) :=
  inferInstanceAs (Decidable (∃ _ ∈ _, _))

/-- The manager hears of what happens in a sub-directory, and heeds it. -/
structure Hears (config : Config) (w : World) (subDir : String) : Prop where
  installed : IsInstalled config w subDir
  unremoved :
    Unremoved (joined config.configDir [subDir]) (pending config w)

instance (config : Config) (w : World) (subDir : String) :
    Decidable (Hears config w subDir) :=
  decidable_of_iff (IsInstalled config w subDir ∧
      Unremoved (joined config.configDir [subDir]) (pending config w))
    ⟨fun both => ⟨both.1, both.2⟩,
      fun hears => ⟨hears.installed, hears.unremoved⟩⟩

/-- No event waits, and the manager listens. -/
structure Settled (w : World) : Prop where
  isOpen : w.manager.fileWatcher.inotify.isOpen = true
  batch : w.batch = []
  queue : w.kernel.queue = []

instance (w : World) : Decidable (Settled w) :=
  decidable_of_iff (w.manager.fileWatcher.inotify.isOpen = true ∧
      w.batch.isEmpty = true ∧ w.kernel.queue.isEmpty = true)
    ⟨fun all => ⟨all.1, List.isEmpty_iff.mp all.2.1,
        List.isEmpty_iff.mp all.2.2⟩,
      fun settled => ⟨settled.isOpen, List.isEmpty_iff.mpr settled.batch,
        List.isEmpty_iff.mpr settled.queue⟩⟩

/-! ## When the manager can keep up -/

/--
What a creation must satisfy: the handler of its event and a scan make the same
of it, and a config file appears in a sub-directory whose watch is installed
and not about to be taken for that of a deleted one.
-/
structure Foreseen (config : Config) (w : World) (dir : List String)
    (name : String) (kind : Kind) : Prop where
  top : dir = [] → kind ≠ .directory → name ∉ allowedFilenames
  inside : ∀ subDir ∈ allowedConfigSubDir, dir = [subDir] →
    IsInstalled config w subDir →
      (kind = .directory → name ∉ allowedConfigSubDir) ∧
        (kind = .special → name ∉ allowedFilenames)
  file : ∀ subDir ∈ allowedConfigSubDir, dir = [subDir] →
    kind = .regular → name ∈ allowedFilenames → Hears config w subDir

instance (config : Config) (w : World) (dir : List String) (name : String)
    (kind : Kind) : Decidable (Foreseen config w dir name kind) :=
  decidable_of_iff
    ((dir = [] → kind ≠ .directory → name ∉ allowedFilenames) ∧
      ∀ subDir ∈ allowedConfigSubDir, dir = [subDir] →
        (IsInstalled config w subDir →
          (kind = .directory → name ∉ allowedConfigSubDir) ∧
            (kind = .special → name ∉ allowedFilenames)) ∧
          (kind = .regular → name ∈ allowedFilenames →
            Hears config w subDir))
    ⟨fun both => ⟨both.1, fun subDir allowed below =>
        (both.2 subDir allowed below).1, fun subDir allowed below =>
          (both.2 subDir allowed below).2⟩,
      fun foreseen => ⟨foreseen.top, fun subDir allowed below =>
        ⟨foreseen.inside subDir allowed below,
          foreseen.file subDir allowed below⟩⟩⟩

/-- A creation is foreseen, and a rename leaves the scanned paths alone. -/
def Suits (config : Config) (w : World) : Happening → Prop
  | .creates dir name kind => Foreseen config w dir name kind
  | .renames dir name newDir newName =>
      ∀ tree, w.tree.rename dir name newDir newName = some tree →
        scannedPaths config tree = scannedPaths config w.tree
  | _ => True

theorem scannedPaths_eq_iff {config : Config} {tree other : FileTree} :
    scannedPaths config tree = scannedPaths config other ↔
      (scannedWatches config tree).map Prod.fst ⊆
          (scannedWatches config other).map Prod.fst ∧
        (scannedWatches config other).map Prod.fst ⊆
          (scannedWatches config tree).map Prod.fst :=
  Set.Subset.antisymm_iff

instance (config : Config) (w : World) (happening : Happening) :
    Decidable (Suits config w happening) :=
  match happening with
  | .creates dir name kind =>
      inferInstanceAs (Decidable (Foreseen config w dir name kind))
  | .renames dir name newDir newName =>
      decidable_of_iff
        (∀ tree ∈ w.tree.rename dir name newDir newName,
          (scannedWatches config tree).map Prod.fst ⊆
              (scannedWatches config w.tree).map Prod.fst ∧
            (scannedWatches config w.tree).map Prod.fst ⊆
              (scannedWatches config tree).map Prod.fst)
        (forall_congr' fun _ =>
          imp_congr Iff.rfl scannedPaths_eq_iff.symm)
  | .deletes .. | .writes _ | .forgets _ | .socketChanges .. | .reads _
  | .handles _ | .runs _ => inferInstanceAs (Decidable True)

end KekMonitors.Manager
