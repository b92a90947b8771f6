import KekMonitors.Connection

/-!
# The file watcher

The `Inotify` object with its two maps and its event queue, and the list of
watch objects that the manager keeps beside it.  The maps and the events refer
to watch objects by address, which is modelled by a number that is never used
again; an event whose object is gone cannot be looked at.
-/

namespace KekMonitors

open Connection

abbrev inModify : UInt32 := 0x00000002

abbrev inCloseWrite : UInt32 := 0x00000008

abbrev inCloseNoWrite : UInt32 := 0x00000010

abbrev inCreate : UInt32 := 0x00000100

abbrev inDelete : UInt32 := 0x00000200

abbrev inUnmount : UInt32 := 0x00002000

abbrev inIgnored : UInt32 := 0x00008000

abbrev inIsDir : UInt32 := 0x40000000

abbrev inOneShot : UInt32 := 0x80000000

/-- `InotifyEvent::IsType`. -/
def isType (value type : UInt32) : Bool :=
  value &&& type ≠ 0 ∧ ~~~value &&& type = 0

structure InotifyWatch where
  address : Nat
  path : String
  mask : UInt32
  /-- The descriptor, or `-1`. -/
  wd : Option Nat := none
  enabled : Bool := true
  deriving DecidableEq, Repr

/--
What the handler of an event finds outside the program: whether the path is a
socket and how its process behaves, the bytes of the file (none at all when it
cannot be opened), and what the kernel answers to adding and removing a watch.
-/
structure Surroundings where
  isSocket : Bool := false
  peer : Peer := {}
  content : List Json.Byte := []
  addWatch : Option Nat := none
  removeWatch : Bool := true

structure InotifyEvent where
  watch : Nat
  mask : UInt32
  name : String
  surroundings : Surroundings := {}

/-- An event as the kernel delivers it. -/
structure KernelEvent where
  wd : Nat
  mask : UInt32
  name : String
  surroundings : Surroundings := {}

structure Inotify where
  isOpen : Bool := true
  /-- `m_watches`, from descriptors to watch objects. -/
  watches : List (Nat × Nat) := []
  /-- `m_paths`, from paths to watch objects. -/
  paths : List (String × Nat) := []
  events : List InotifyEvent := []

structure FileWatcher where
  inotify : Inotify := {}
  watches : List InotifyWatch := []
  nextAddress : Nat := 0

namespace FileWatcher

def findWatch (watcher : FileWatcher) (address : Nat) :
    Option InotifyWatch :=
  watcher.watches.find? fun watch => watch.address = address

def modifyWatch (watcher : FileWatcher) (address : Nat)
    (f : InotifyWatch → InotifyWatch) : FileWatcher :=
  { watcher with
    watches := watcher.watches.map fun watch =>
      if watch.address = address then f watch else watch }

/-- `inotify.Add(watches.emplace_back(path, mask))`. -/
def add (path : String) (mask : UInt32) (kernel : Option Nat)
    (watcher : FileWatcher) : Except Fault FileWatcher :=
  let address := watcher.nextAddress
  let inotify := watcher.inotify
  if ¬ inotify.isOpen then .error (.raised .inotify)
  else if (inotify.paths.lookup path).isSome then .error (.raised .inotify)
  else
    match kernel with
    | none => .error (.raised .inotify)
    | some wd =>
        if (inotify.watches.lookup wd).isSome then .error (.raised .inotify)
        else
          .ok
            { inotify :=
                { inotify with
                  watches := inotify.watches ++ [(wd, address)]
                  paths := inotify.paths ++ [(path, address)] }
              watches := watcher.watches ++
                [{ address := address
                   path := path
                   mask := mask
                   wd := some wd }]
              nextAddress := address + 1 }

/-- `inotify.Remove(*watch); watches.erase(watch)`. -/
def remove (watch : InotifyWatch) (kernel : Bool)
    (watcher : FileWatcher) : Except Fault FileWatcher :=
  let inotify := watcher.inotify
  if ¬ inotify.isOpen then .error (.raised .inotify)
  else if watch.wd.isSome ∧ ¬ kernel then .error (.raised .inotify)
  else
    .ok
      { watcher with
        inotify :=
          { inotify with
            watches := inotify.watches.filter fun entry =>
              some entry.1 ≠ watch.wd
            paths := inotify.paths.filter fun entry =>
              entry.1 ≠ watch.path }
        watches := watcher.watches.filter fun other =>
          other.address ≠ watch.address }

/-- `Inotify::Close`; events that were queued stay queued. -/
def close (watcher : FileWatcher) : FileWatcher :=
  if watcher.inotify.isOpen then
    { watcher with
      inotify :=
        { watcher.inotify with isOpen := false, watches := [], paths := [] }
      watches := watcher.watches.map fun watch =>
        if (watcher.inotify.paths.map Prod.snd).contains watch.address then
          { watch with wd := none }
        else watch }
  else watcher

/-- `InotifyWatch::__Disable`. -/
def disable (watch : InotifyWatch) (watcher : FileWatcher) :
    Except Fault FileWatcher :=
  if ¬ watch.enabled then .error (.raised .inotify)
  else
    .ok
      { watcher.modifyWatch watch.address fun watch =>
          { watch with wd := none, enabled := false } with
        inotify :=
          { watcher.inotify with
            watches := watcher.inotify.watches.filter fun entry =>
              some entry.1 ≠ watch.wd } }

/-- Queue one delivered event, if its descriptor is still known. -/
def queueEvent (event : KernelEvent) (watcher : FileWatcher) :
    Except Fault FileWatcher :=
  match watcher.inotify.watches.lookup event.wd with
  | none => .ok watcher
  | some address =>
      match watcher.findWatch address with
      | none => .error .undefinedBehaviour
      | some watch => do
          let watcher ←
            if isType watch.mask inOneShot ∨ isType event.mask inIgnored then
              watcher.disable watch
            else .ok watcher
          let queued : InotifyEvent :=
            { watch := address
              mask := event.mask
              name := event.name
              surroundings := event.surroundings }
          .ok
            { watcher with
              inotify :=
                { watcher.inotify with
                  events := watcher.inotify.events ++ [queued] } }

/-- The loop of the read handler of `AsyncWaitForEvents`. -/
def queueEvents (watcher : FileWatcher) :
    List KernelEvent → Except Fault FileWatcher
  | [] => .ok watcher
  | event :: events => do
      let watcher ← watcher.queueEvent event
      watcher.queueEvents events

end FileWatcher

end KekMonitors
