import KekMonitors.Manager.Handling
import KekMonitors.Manager.Reload
import KekMonitors.WatchList

/-!
# Watches of the config files

What the events of a batch do to the watches.  An event may start a watch, for
which the kernel has to accept its path, or end one, for which the kernel must
still have it or have been heard to drop it.  Events refer to watches that
earlier events of their batch may have erased.
-/

namespace KekMonitors.Manager

open Connection
open FileWatcher
open Transition

/-! ## One event -/

def IsDir (event : InotifyEvent) : Bool := event.mask &&& inIsDir ≠ 0

/-- The path that an event is about, unless it concerns the sockets. -/
def configEventPath (config : Config) (s : State) (event : InotifyEvent) :
    Option String :=
  match s.fileWatcher.findWatch event.watch with
  | none => none
  | some watch =>
      if watch.path = config.socketPath then none
      else some (fullEventPath watch event)

/-- The path that the handler of an event starts to watch. -/
def startedPath (config : Config) (s : State) (event : InotifyEvent) :
    Option String :=
  (configEventPath config s event).filter fun path =>
    event.mask &&& ~~~inIsDir = inCreate ∧
      event.name ∈ allowedNames (IsDir event) ∧
        (IsDir event ∨
          path ∉ s.fileWatcher.watches.map InotifyWatch.path)

/-- The watch that the handler of an event erases. -/
def erasedWatch (config : Config) (s : State) (event : InotifyEvent) :
    Option InotifyWatch :=
  if event.mask &&& ~~~inIsDir = inDelete ∧
      event.name ∈ allowedNames (IsDir event) then
    (configEventPath config s event).bind fun path =>
      s.fileWatcher.watches.find? fun watch => watch.path = path
  else none

/--
A path to be watched is not registered and gets a new descriptor, and a watch
to be removed is still known to the kernel or has been heard to be dropped.
-/
structure Accepts (config : Config) (s : State) (event : InotifyEvent) :
    Prop where
  starts : ∀ path, startedPath config s event = some path →
    s.fileWatcher.Addable path event.surroundings.addWatch
  ends : ∀ watch, erasedWatch config s event = some watch →
    s.fileWatcher.Removable watch event.surroundings.removeWatch

/-- What the handling of an event does to the watches. -/
inductive WatchEffect (config : Config) (s : State) (event : InotifyEvent) :
    Except Fault State → Prop where
  | refused (refuses : ¬ Accepts config s event) :
      WatchEffect config s event (.error (.raised .inotify))
  | failed {fault : Fault} (other : fault ≠ .raised .inotify)
      (accepts : Accepts config s event) :
      WatchEffect config s event (.error fault)
  | kept {next : State} (starts : startedPath config s event = none)
      (ends : erasedWatch config s event = none)
      (fileWatcher : next.fileWatcher = s.fileWatcher) :
      WatchEffect config s event (.ok next)
  | started {next : State} {path : String} {wd : Nat} (mask : UInt32)
      (starts : startedPath config s event = some path)
      (ends : erasedWatch config s event = none)
      (addable : s.fileWatcher.Addable path event.surroundings.addWatch)
      (kernel : event.surroundings.addWatch = some wd)
      (fileWatcher : next.fileWatcher =
        s.fileWatcher.added path mask wd) :
      WatchEffect config s event (.ok next)
  | erased {next : State} {watch : InotifyWatch}
      (starts : startedPath config s event = none)
      (ends : erasedWatch config s event = some watch)
      (removable : s.fileWatcher.Removable watch
        event.surroundings.removeWatch)
      (fileWatcher : next.fileWatcher = s.fileWatcher.removed watch) :
      WatchEffect config s event (.ok next)

theorem scanSubDir_fault {path : List Char} {seen : Option (List Char)}
    {fault : Fault} (failed : Configs.scanSubDir path seen = .error fault) :
    fault = .undefinedBehaviour := by
  induction path generalizing seen with
  | nil => cases seen <;> exact (Except.error.inj failed).symm
  | cons c rest ih =>
      cases seen with
      | none =>
          rw [Configs.scanSubDir] at failed
          split at failed
          · exact ih failed
          · exact ih failed
      | some subDir =>
          rw [Configs.scanSubDir] at failed
          split at failed
          · simp at failed
          · exact ih failed

/-- A reload keeps the watches, and does not fail for their sake. -/
theorem reload_cases (fullPath filename : String)
    (content : List Json.Byte) (s : State) :
    (∃ next, reload fullPath filename content s = .ok next ∧
        next.fileWatcher = s.fileWatcher) ∨
      ∃ fault, reload fullPath filename content s = .error fault ∧
        fault ≠ .raised .inotify := by
  unfold reload
  cases sends : Configs.parseAndSendConfigs fullPath filename content
      s.objects with
  | ok sends => exact Or.inl ⟨_, rfl, rfl⟩
  | error fault =>
      refine Or.inr ⟨fault, rfl, ?_⟩
      unfold Configs.parseAndSendConfigs at sends
      split at sends
      · simp at sends
      · rcases Except.error.inj sends with rfl
        simp
      · split at sends
        · simp at sends
        · unfold Configs.configSubDir at sends
          cases scanned : Configs.scanSubDir fullPath.toList.reverse none
            with
          | ok subDir =>
              rw [scanned] at sends
              simp only [bind, Except.bind] at sends
              split at sends <;> simp at sends
          | error other =>
              rw [scanned, scanSubDir_fault scanned] at sends
              simp only [bind, Except.bind, Except.error.injEq] at sends
              rw [← sends]
              simp

theorem verifySocketIsCommunicating_fileWatcher (m : MonitorOrScraper)
    (socketFullPath className : String) (onSuccess : OnSuccess)
    (peer : Peer) (s : State) :
    (verifySocketIsCommunicating m socketFullPath className onSuccess peer
      s).fileWatcher = s.fileWatcher := by
  unfold verifySocketIsCommunicating
  split <;> rfl

/-- Sockets are no concern of the file watcher. -/
theorem checkSocketAndUpdateList_fileWatcher
    (socketFullPath socketName : String) (mask : UInt32) (peer : Peer)
    (s : State) :
    (checkSocketAndUpdateList socketFullPath socketName mask peer
      s).fileWatcher = s.fileWatcher := by
  unfold checkSocketAndUpdateList updateList
  dsimp only
  split
  · rfl
  · split
    · rfl
    · split
      · split
        · split
          · exact verifySocketIsCommunicating_fileWatcher ..
          · rfl
        · exact verifySocketIsCommunicating_fileWatcher ..
      · split <;> rfl

section OneEvent

variable {config : Config} {s : State} {event : InotifyEvent}

theorem addWatch_cases (path : String) (mask : UInt32)
    (kernel : Option Nat) (s : State) :
    (∃ wd, kernel = some wd ∧ s.fileWatcher.Addable path kernel ∧
        addWatch path mask kernel s =
          .ok { s with fileWatcher := s.fileWatcher.added path mask wd }) ∨
      ¬ s.fileWatcher.Addable path kernel ∧
        addWatch path mask kernel s = .error (.raised .inotify) := by
  by_cases addable : s.fileWatcher.Addable path kernel
  · left
    rcases addable.accepted with ⟨wd, rfl, -⟩
    refine ⟨wd, rfl, addable, ?_⟩
    rw [addWatch, add_of_addable addable]
    rfl
  · right
    refine ⟨addable, ?_⟩
    rw [addWatch, add_of_not_addable addable]
    rfl

/-- The effect of starting a watch and then, for a file, reloading it. -/
theorem watchEffect_start {path : String} (mask : UInt32)
    (more : State → Except Fault State)
    (starts : startedPath config s event = some path)
    (ends : erasedWatch config s event = none)
    (follows : ∀ middle, (∃ next, more middle = .ok next ∧
        next.fileWatcher = middle.fileWatcher) ∨
      ∃ fault, more middle = .error fault ∧ fault ≠ .raised .inotify) :
    WatchEffect config s event
      (addWatch path mask event.surroundings.addWatch s >>= more) := by
  rcases addWatch_cases path mask event.surroundings.addWatch s with
    ⟨wd, kernel, addable, added⟩ | ⟨refused, added⟩
  · rw [added]
    rcases follows { s with
      fileWatcher := s.fileWatcher.added path mask wd } with
        ⟨next, ran, same⟩ | ⟨fault, failed, other⟩
    · change WatchEffect config s event (more _)
      rw [ran]
      exact .started mask starts ends addable kernel same
    · change WatchEffect config s event (more _)
      rw [failed]
      refine .failed other ⟨?_, ?_⟩
      · intro other same
        rcases Option.some.inj (starts.symm.trans same) with rfl
        exact addable
      · intro watch same
        rw [ends] at same
        simp at same
  · rw [added]
    apply WatchEffect.refused
    intro accepts
    exact refused (accepts.starts path starts)

/-- A reload alone starts and ends no watch. -/
theorem watchEffect_reload (fullPath filename : String)
    (content : List Json.Byte)
    (starts : startedPath config s event = none)
    (ends : erasedWatch config s event = none) :
    WatchEffect config s event (reload fullPath filename content s) := by
  rcases reload_cases fullPath filename content s with
    ⟨next, ran, same⟩ | ⟨fault, failed, other⟩
  · rw [ran]
    exact .kept starts ends same
  · rw [failed]
    refine .failed other ⟨?_, ?_⟩
    · intro path same
      rw [starts] at same
      simp at same
    · intro watch same
      rw [ends] at same
      simp at same

theorem startedPath_of_path {path : String}
    (about : configEventPath config s event = some path) :
    startedPath config s event =
      if event.mask &&& ~~~inIsDir = inCreate ∧
          event.name ∈ allowedNames (IsDir event) ∧
            (IsDir event ∨
              path ∉ s.fileWatcher.watches.map InotifyWatch.path) then
        some path
      else none := by
  rw [startedPath, about, Option.filter_some]
  simp only [decide_eq_true_eq]

theorem erasedWatch_of_path {path : String}
    (about : configEventPath config s event = some path) :
    erasedWatch config s event =
      if event.mask &&& ~~~inIsDir = inDelete ∧
          event.name ∈ allowedNames (IsDir event) then
        s.fileWatcher.watches.find? fun watch => watch.path = path
      else none := by
  rw [erasedWatch, about]
  rfl

/-- The watch to be erased is the one listed for the path of the event. -/
theorem erasedWatch_eq_some (consistent : s.fileWatcher.Consistent)
    {watch : InotifyWatch} :
    erasedWatch config s event = some watch ↔
      (event.mask &&& ~~~inIsDir = inDelete ∧
          event.name ∈ allowedNames (IsDir event)) ∧
        watch ∈ s.fileWatcher.watches ∧
          configEventPath config s event = some watch.path := by
  unfold erasedWatch
  split
  · rename_i deletes
    rw [Option.bind_eq_some_iff]
    constructor
    · rintro ⟨path, about, found⟩
      have same : watch.path = path := by simpa using List.find?_some found
      exact ⟨deletes, List.mem_of_find?_eq_some found, same ▸ about⟩
    · rintro ⟨-, listed, about⟩
      refine ⟨watch.path, about, ?_⟩
      have some : (s.fileWatcher.watches.find? fun other =>
          decide (other.path = watch.path)).isSome := by
        rw [List.find?_isSome]
        exact ⟨watch, listed, by simp⟩
      rcases Option.isSome_iff_exists.mp some with ⟨other, found⟩
      have same : other.path = watch.path := by
        simpa using List.find?_some found
      rw [found, List.inj_on_of_nodup_map consistent.distinct
        (List.mem_of_find?_eq_some found) listed same]
  · rename_i other
    simp [other]

theorem monitored_iff (s : State) (path : String) :
    (s.fileWatcher.watches.any fun watch => watch.path = path) = true ↔
      path ∈ s.fileWatcher.watches.map InotifyWatch.path := by
  simp

/-- The effect of the switch, for a path outside of the socket directory. -/
theorem onConfigEvent_effect {path : String}
    (about : configEventPath config s event = some path) :
    WatchEffect config s event (onConfigEvent path event s) := by
  have started := startedPath_of_path about
  have ended := erasedWatch_of_path about
  have isDir : (decide (event.mask &&& inIsDir ≠ 0)) = IsDir event := rfl
  unfold onConfigEvent
  simp only [isDir, monitored_iff]
  by_cases created : event.mask &&& ~~~inIsDir = inCreate
  · have notDeleted : event.mask &&& ~~~inIsDir ≠ inDelete := by
      rw [created]
      decide
    simp only [created, true_and] at started
    simp only [notDeleted, false_and, if_false] at ended
    rw [if_pos created]
    cases dir : IsDir event with
    | true =>
        simp only [dir, true_or, and_true] at started
        change startedPath config s event =
          if event.name ∈ allowedConfigSubDir then some path else none
            at started
        rw [if_pos rfl]
        split
        · rename_i allowed
          rw [if_pos allowed] at started
          have alone := watchEffect_start (inCreate ||| inDelete) pure
            started ended fun middle => Or.inl ⟨middle, rfl, rfl⟩
          rwa [bind_pure] at alone
        · rename_i other
          rw [if_neg other] at started
          exact .kept started ended rfl
    | false =>
        simp only [dir, Bool.false_eq_true, false_or] at started
        rw [if_neg Bool.false_ne_true]
        split
        · rename_i allowed
          split
          · rename_i monitored
            rw [if_neg fun both => both.2 monitored] at started
            exact watchEffect_reload _ _ _ started ended
          · rename_i unmonitored
            rw [if_pos ⟨allowed, unmonitored⟩] at started
            exact watchEffect_start inModify _ started ended
              fun middle => reload_cases _ _ _ middle
        · rename_i other
          rw [if_neg fun both => other both.1] at started
          exact .kept started ended rfl
  · rw [if_neg created]
    simp only [created, false_and, if_false] at started
    split
    · rename_i modified
      have notDeleted : event.mask &&& ~~~inIsDir ≠ inDelete := by
        rcases modified with same | same | same <;> rw [same] <;> decide
      simp only [notDeleted, false_and, if_false] at ended
      exact watchEffect_reload _ _ _ started ended
    · split
      · rename_i deleted
        simp only [deleted, true_and] at ended
        split
        · rename_i allowed
          rw [if_pos allowed] at ended
          split
          · rename_i absent
            rw [absent] at ended
            exact .kept started ended rfl
          · rename_i watch found
            rw [found] at ended
            by_cases removable : s.fileWatcher.Removable watch
                event.surroundings.removeWatch
            · rw [remove_of_removable removable]
              exact .erased started ended removable rfl
            · rw [remove_of_not_removable removable]
              apply WatchEffect.refused
              intro accepts
              exact removable (accepts.ends watch ended)
        · rename_i other
          rw [if_neg other] at ended
          exact .kept started ended rfl
      · rename_i notDeleted
        simp only [notDeleted, false_and, if_false] at ended
        exact .kept started ended rfl

/-- What the handling of any event does to the watches. -/
theorem onInotifyEvent_effect (config : Config) (s : State)
    (event : InotifyEvent) :
    WatchEffect config s event (onInotifyEvent config event s) := by
  unfold onInotifyEvent
  have nothing : configEventPath config s event = none →
      startedPath config s event = none ∧
        erasedWatch config s event = none := by
    intro about
    simp [startedPath, erasedWatch, about]
  cases found : s.fileWatcher.findWatch event.watch with
  | none =>
      have about : configEventPath config s event = none := by
        rw [configEventPath, found]
      rcases nothing about with ⟨starts, ends⟩
      refine .failed (by simp) ⟨?_, ?_⟩
      · intro path same
        simp [starts] at same
      · intro watch same
        simp [ends] at same
  | some watch =>
      dsimp only
      split
      · rename_i socket
        have about : configEventPath config s event = none := by
          rw [configEventPath, found]
          exact if_pos socket
        rcases nothing about with ⟨starts, ends⟩
        split
        · refine .kept starts ends ?_
          exact checkSocketAndUpdateList_fileWatcher ..
        · exact .kept starts ends rfl
      · rename_i other
        have about : configEventPath config s event =
            some (fullEventPath watch event) := by
          rw [configEventPath, found]
          exact if_neg other
        exact onConfigEvent_effect about

end OneEvent

/-! ## Every reached watcher -/

/-- The containers agree and no event is left in the queue. -/
structure Watched (s : State) : Prop where
  consistent : s.fileWatcher.Consistent
  drained : s.fileWatcher.inotify.events = []

theorem Watched.event {config : Config} {s next : State}
    {event : InotifyEvent} (watched : Watched s)
    (ran : onInotifyEvent config event s = .ok next) : Watched next := by
  have effect := onInotifyEvent_effect config s event
  rw [ran] at effect
  cases effect with
  | kept starts ends same =>
      exact ⟨same ▸ watched.consistent, same ▸ watched.drained⟩
  | @started _ path wd mask starts ends addable kernel same =>
      constructor <;> rw [same]
      · exact watched.consistent.added addable mask wd
      · exact watched.drained
  | @erased _ watch starts ends removable same =>
      have listed := (erasedWatch_eq_some watched.consistent).mp ends
      constructor <;> rw [same]
      · exact watched.consistent.removed listed.2.1
      · exact watched.drained

/-- No event closes the object. -/
theorem onInotifyEvent_isOpen {config : Config} {s next : State}
    {event : InotifyEvent}
    (ran : onInotifyEvent config event s = .ok next) :
    next.fileWatcher.inotify.isOpen = s.fileWatcher.inotify.isOpen := by
  have effect := onInotifyEvent_effect config s event
  rw [ran] at effect
  cases effect with
  | kept starts ends same => rw [same]
  | started mask starts ends addable kernel same =>
      rw [same]
      rfl
  | erased starts ends removable same =>
      rw [same]
      rfl

theorem Watched.events {config : Config} {events : List InotifyEvent}
    {s next : State} (watched : Watched s)
    (ran : onInotifyEvents config s events = .ok next) : Watched next := by
  have run := onInotifyEvents_run config events s
  rw [ran] at run
  exact run.invariant Watched watched
    fun holds taken => holds.event (Option.some.inj taken)

/-- The state in which the loop of a read begins. -/
def loopStart (s : State) (watcher : FileWatcher) : State :=
  { s with
    fileWatcher :=
      { watcher with inotify := { watcher.inotify with events := [] } } }

/-- Every read fills the queue, and starts the loop on it. -/
theorem Watched.read {s : State} (watched : Watched s)
    (config : Config) (events : List KernelEvent) :
    ∃ watcher, s.fileWatcher.queueEvents events = .ok watcher ∧
      Queues s.fileWatcher watcher ∧ Watched (loopStart s watcher) ∧
        readInotify config events s =
          if s.fileWatcher.inotify.isOpen then
            some (onInotifyEvents config (loopStart s watcher)
              watcher.inotify.events)
          else none := by
  rcases watched.consistent.queueEvents events with
    ⟨watcher, queued, queues⟩
  have consistent := queues.consistent
  refine ⟨watcher, queued, queues,
    ⟨⟨consistent.registered, consistent.distinct, consistent.addresses,
      consistent.fresh, consistent.described⟩, rfl⟩, ?_⟩
  rw [readInotify, queued]
  rfl

theorem step_watched {config : Config} {s next : State} {action : Action}
    (watched : Watched s)
    (taken : step config s action = some (.ok next)) : Watched next := by
  rcases step_fileWatcher taken with same | closed | ⟨events, rfl⟩
  · exact ⟨same ▸ watched.consistent, same ▸ watched.drained⟩
  · refine ⟨closed ▸ watched.consistent.close, ?_⟩
    rw [closed, FileWatcher.close]
    split
    · exact watched.drained
    · exact watched.drained
  · rcases watched.read config events with
      ⟨watcher, -, queues, begun, reads⟩
    change readInotify config events s = _ at taken
    rw [reads] at taken
    split at taken
    · exact begun.events (Option.some.inj taken)
    · simp at taken

theorem scanFiles_fileWatcher (config : Config) (files : List FoundFile)
    (s : State) :
    (files.foldl (scanFile config) s).fileWatcher = s.fileWatcher := by
  induction files generalizing s with
  | nil => rfl
  | cons file files ih =>
      rw [List.foldl_cons, ih, scanFile]
      split
      · exact checkSocketAndUpdateList_fileWatcher ..
      · rfl

theorem addWatches_watched {startUp : StartUp}
    {watches : List (String × UInt32)} {s next : State} (watched : Watched s)
    (ran : addWatches startUp s watches = .ok next) : Watched next := by
  induction watches generalizing s with
  | nil => exact Except.ok.inj ran ▸ watched
  | cons watch watches ih =>
      rcases bind_eq_ok.mp ran with ⟨middle, first, rest⟩
      refine ih ?_ rest
      rcases addWatch_cases watch.1 watch.2 (startUp.addWatch watch.1) s with
        ⟨wd, -, addable, added⟩ | ⟨-, refused⟩
      · rw [added] at first
        rcases Except.ok.inj first with rfl
        exact ⟨watched.consistent.added addable watch.2 wd, watched.drained⟩
      · rw [refused] at first
        simp at first

theorem construct_watched {config : Config} {startUp : StartUp}
    {start : State} (built : construct config startUp = .ok start) :
    Watched start := by
  rcases bind_eq_ok.mp built with ⟨watching, added, same⟩
  rcases Except.ok.inj same with rfl
  have scanned : Watched (startUp.files.foldl (scanFile config) {}) := by
    constructor <;> rw [scanFiles_fileWatcher]
    exact consistent_empty
  have watched := addWatches_watched scanned added
  exact ⟨watched.consistent, watched.drained⟩

theorem Reached.watched {config : Config} {s : State}
    (reached : Reached config s) : Watched s := by
  rcases reached with ⟨startUp, start, built, attempts, run⟩
  exact run.invariant Watched (construct_watched built)
    fun watched taken => step_watched watched taken

/-! ## Events of erased watches -/

/-- The events of a filled queue, each with the state that it meets. -/
def batch (config : Config) (s : State) (filled : FileWatcher) :
    List (State × InotifyEvent) :=
  attemptsOf (eventStep config) (loopStart s filled) filled.inotify.events

/-- The watch of the event is an element of the list. -/
def IsListed (s : State) (event : InotifyEvent) : Prop :=
  (s.fileWatcher.findWatch event.watch).isSome

/-- An event deletes what another event's watch was set on. -/
def Deletes (config : Config) (s : State) (event other : InotifyEvent) :
    Prop :=
  ∃ watch, erasedWatch config s event = some watch ∧
    watch.address = other.watch

/-- The watches from before the loop, less some, and new ones. -/
structure Narrows (first s : State) : Prop where
  base : first.fileWatcher.Consistent
  watched : Watched s
  origin : ∀ watch ∈ s.fileWatcher.watches,
    watch.address < first.fileWatcher.nextAddress →
      watch ∈ first.fileWatcher.watches
  later : first.fileWatcher.nextAddress ≤ s.fileWatcher.nextAddress

section Narrows

variable {config : Config} {first s next : State} {event other : InotifyEvent}

/-- A listed watch of an event is the one from before the loop. -/
theorem Narrows.configEventPath_eq (config : Config)
    (narrows : Narrows first s) (listed : IsListed s event)
    (old : event.watch < first.fileWatcher.nextAddress) :
    configEventPath config s event = configEventPath config first event := by
  rcases Option.isSome_iff_exists.mp listed with ⟨watch, found⟩
  rcases findWatch_eq_some found with ⟨member, same⟩
  have before := narrows.base.findWatch
    (narrows.origin watch member (same ▸ old))
  rw [same] at before
  rw [configEventPath, configEventPath, found, before]

/-- An event erases from the list what it deletes of the old watches. -/
theorem Narrows.isListed_event (narrows : Narrows first s)
    (listed : IsListed s event)
    (old : event.watch < first.fileWatcher.nextAddress)
    (otherOld : other.watch < first.fileWatcher.nextAddress)
    (ran : onInotifyEvent config event s = .ok next) :
    IsListed next other ↔
      IsListed s other ∧ ¬ Deletes config first event other := by
  have consistent := narrows.watched.consistent
  have same := narrows.configEventPath_eq config listed old
  have effect := onInotifyEvent_effect config s event
  rw [ran] at effect
  have untouched : erasedWatch config s event = none →
      IsListed s other → ¬ Deletes config first event other := by
    rintro ends present ⟨watch, deleted, address⟩
    rcases (erasedWatch_eq_some narrows.base).mp deleted with
      ⟨deletes, member, about⟩
    rcases Option.isSome_iff_exists.mp present with ⟨current, found⟩
    rcases findWatch_eq_some found with ⟨stays, at_⟩
    have before := narrows.origin current stays (at_ ▸ otherOld)
    have only := List.inj_on_of_nodup_map narrows.base.addresses before
      member (at_.trans address.symm)
    have erased := (erasedWatch_eq_some consistent).mpr
      ⟨deletes, only ▸ stays, same.trans about⟩
    rw [ends] at erased
    simp at erased
  unfold IsListed at *
  simp only [findWatch_isSome] at *
  cases effect with
  | kept starts ends unchanged =>
      rw [unchanged]
      exact ⟨fun present => ⟨present, untouched ends present⟩, And.left⟩
  | @started _ path wd mask starts ends addable kernel unchanged =>
      have new : other.watch ≠ s.fileWatcher.nextAddress :=
        Nat.ne_of_lt (Nat.lt_of_lt_of_le otherOld narrows.later)
      rw [unchanged, FileWatcher.added, List.map_append, List.mem_append,
        List.map_singleton, List.mem_singleton, or_iff_left new]
      exact ⟨fun present => ⟨present, untouched ends present⟩, And.left⟩
  | @erased _ watch starts ends removable unchanged =>
      rcases (erasedWatch_eq_some consistent).mp ends with
        ⟨deletes, member, about⟩
      rw [unchanged, FileWatcher.removed]
      simp only [List.mem_map, List.mem_filter, decide_eq_true_eq]
      constructor
      · rintro ⟨current, ⟨stays, different⟩, at_⟩
        refine ⟨⟨current, stays, at_⟩, ?_⟩
        rintro ⟨deleted, erases, address⟩
        rcases (erasedWatch_eq_some narrows.base).mp erases with
          ⟨-, before, path⟩
        have old := narrows.origin current stays (at_ ▸ otherOld)
        have only := List.inj_on_of_nodup_map narrows.base.addresses old
          before (at_.trans address.symm)
        have paths : current.path = watch.path := by
          rw [only]
          exact Option.some.inj (path.symm.trans (same.symm.trans about))
        exact different
          ((consistent.path_eq_iff stays member).mp paths)
      · rintro ⟨⟨current, stays, at_⟩, kept⟩
        refine ⟨current, ⟨stays, ?_⟩, at_⟩
        intro address
        apply kept
        have only := List.inj_on_of_nodup_map consistent.addresses stays
          member address
        have before := narrows.origin current stays (at_ ▸ otherOld)
        exact ⟨current, (erasedWatch_eq_some narrows.base).mpr
          ⟨deletes, before, by rw [only, ← same, about]⟩, at_⟩

theorem Narrows.advance (narrows : Narrows first s)
    (ran : onInotifyEvent config event s = .ok next) :
    Narrows first next := by
  have watched := narrows.watched.event ran
  have effect := onInotifyEvent_effect config s event
  rw [ran] at effect
  cases effect with
  | kept starts ends same =>
      exact ⟨narrows.base, watched, same ▸ narrows.origin,
        same ▸ narrows.later⟩
  | started mask starts ends addable kernel same =>
      refine ⟨narrows.base, watched, ?_, ?_⟩ <;> rw [same]
      · intro watch listed old
        rcases List.mem_append.mp listed with member | new
        · exact narrows.origin watch member old
        · have later := narrows.later
          rw [List.mem_singleton.mp new] at old
          exact absurd old (Nat.not_lt.mpr later)
      · exact Nat.le_succ_of_le narrows.later
  | erased starts ends removable same =>
      refine ⟨narrows.base, watched, ?_, ?_⟩ <;> rw [same]
      · intro watch listed old
        exact narrows.origin watch (List.mem_of_mem_filter listed) old
      · exact narrows.later

/-- Along the loop, a watch is listed unless an earlier event deletes it. -/
theorem Narrows.listed_iff {events : List InotifyEvent}
    (narrows : Narrows first s)
    (old : ∀ event ∈ events,
      event.watch < first.fileWatcher.nextAddress) :
    Meets IsListed (attemptsOf (eventStep config) s events) ↔
      (∀ attempt ∈ attemptsOf (eventStep config) s events,
          IsListed s attempt.2) ∧
        (attemptsOf (eventStep config) s events).Pairwise
          fun earlier later =>
            ¬ Deletes config first earlier.2 later.2 := by
  induction events generalizing s with
  | nil => simp [attemptsOf, Meets]
  | cons event events ih =>
      rw [attemptsOf, eventStep]
      cases ran : onInotifyEvent config event s with
      | error fault => simp [Meets]
      | ok next =>
          have rest := ih (narrows.advance ran) fun event member =>
            old event (List.mem_cons_of_mem _ member)
          have after : IsListed s event → ∀ attempt ∈
              attemptsOf (eventStep config) next events,
                (IsListed next attempt.2 ↔ IsListed s attempt.2 ∧
                  ¬ Deletes config first event attempt.2) := by
            intro listed attempt member
            exact narrows.isListed_event listed
              (old event List.mem_cons_self)
              (old attempt.2 (List.mem_cons_of_mem _
                (mem_attemptsOf member))) ran
          unfold Meets at *
          simp only [List.forall_mem_cons, List.pairwise_cons, rest]
          constructor
          · rintro ⟨listed, present, pairs⟩
            have both := fun attempt member =>
              (after listed attempt member).mp (present attempt member)
            exact ⟨⟨listed, fun attempt member => (both attempt member).1⟩,
              fun attempt member => (both attempt member).2, pairs⟩
          · rintro ⟨⟨listed, present⟩, kept, pairs⟩
            exact ⟨listed, fun attempt member =>
              (after listed attempt member).mpr
                ⟨present attempt member, kept attempt member⟩, pairs⟩

end Narrows

theorem Watched.narrows {s : State} (watched : Watched s) : Narrows s s :=
  ⟨watched.consistent, watched, fun _ listed _ => listed, le_rfl⟩

/--
In every reached state and for every batch that a read queues, each event that
the loop takes finds its watch in the list precisely when no earlier one of
the batch deletes the file or directory that this watch was set on.
-/
theorem events_listed_iff {config : Config} {s : State}
    (reached : Reached config s) {events : List KernelEvent}
    {filled : FileWatcher}
    (read : s.fileWatcher.queueEvents events = .ok filled) :
    Meets IsListed (batch config s filled) ↔
      (batch config s filled).Pairwise fun earlier later =>
        ¬ Deletes config (loopStart s filled) earlier.2 later.2 := by
  have watched := reached.watched
  rcases watched.read config events with
    ⟨watcher, queued, queues, begun, -⟩
  rcases Except.ok.inj (queued.symm.trans read) with rfl
  have listed : ∀ event ∈ watcher.inotify.events,
      IsListed (loopStart s watcher) event := by
    intro event member
    rcases queues.events event member with left | fresh
    · rw [watched.drained] at left
      simp at left
    · rw [← queues.addresses] at fresh
      exact (findWatch_isSome _ _).mpr fresh
  have old : ∀ event ∈ watcher.inotify.events,
      event.watch < (loopStart s watcher).fileWatcher.nextAddress := by
    intro event member
    have found := (findWatch_isSome _ _).mp (listed event member)
    rcases List.mem_map.mp found with ⟨watch, present, same⟩
    rw [← same]
    exact begun.consistent.fresh watch present
  rw [batch, begun.narrows.listed_iff old]
  exact and_iff_right fun attempt member =>
    listed attempt.2 (mem_attemptsOf member)

namespace Installation

/-- A directory appears in the config directory. -/
def dirCreated (name : String) (descriptor : Option Nat) : KernelEvent :=
  { wd := config.configDir.length
    mask := inCreate ||| inIsDir
    name := name
    surroundings := { addWatch := descriptor } }

/-- The directory and then the whitelist are created and watched. -/
def whitelistWatched : List Action :=
  [.inotifyRead [dirCreated "common" (some 1000)],
    .inotifyRead
      [{ wd := 1000
         mask := inCreate
         name := "whitelists.json"
         surroundings := { addWatch := some 1001 } }]]

/-- The file is deleted while it is open, and then written to. -/
def deletedAndWritten : List KernelEvent :=
  [{ wd := 1000
     mask := inDelete
     name := "whitelists.json" },
    { wd := 1001
      mask := inModify
      name := "" }]

end Installation

open Installation

/-- Directories that only appear delete nothing. -/
theorem events_listed_created :
    ∃ filled, start.fileWatcher.queueEvents
        [dirCreated "common" (some 1000), dirCreated "monitors" (some 1001)] =
          .ok filled ∧
      Meets IsListed (batch config start filled) := by
  have setting : ((start.fileWatcher.queueEvents
      [dirCreated "common" (some 1000),
        dirCreated "monitors" (some 1001)]).toOption).any (fun filled =>
          (batch config start filled).all fun attempt =>
            attempt.2.mask = inCreate ||| inIsDir) = true := by
    decide +kernel
  rcases (Option.any_eq_true _ _).mp setting with ⟨filled, read, masks⟩
  have filledBy := toOption_eq_some.mp read
  refine ⟨filled, filledBy,
    (events_listed_iff start_reached filledBy).mpr ?_⟩
  apply List.pairwise_of_forall_mem_list
  rintro earlier member later - ⟨watch, erased, -⟩
  have mask := of_decide_eq_true (List.all_eq_true.mp masks earlier member)
  have other : ¬ (inCreate ||| inIsDir) &&& ~~~inIsDir = inDelete := by
    decide
  simp [erasedWatch, mask, other] at erased

/--
A whitelist is deleted while a program still writes to it: the event of the
write refers to the watch that the event of the deletion has erased.
-/
theorem deleted_watch_read :
    ∃ s filled, Reached config s ∧
      s.fileWatcher.queueEvents deletedAndWritten = .ok filled ∧
        ¬ Meets IsListed (batch config s filled) := by
  have setting : (execute (step config) start whitelistWatched).any
      (fun s => (s.fileWatcher.queueEvents deletedAndWritten).toOption.any
        fun filled => (batch config s filled).any fun attempt =>
          (attempt.1.fileWatcher.findWatch attempt.2.watch).isNone) =
            true := by
    decide +kernel
  rcases (Option.any_eq_true _ _).mp setting with ⟨s, executed, facts⟩
  rcases (Option.any_eq_true _ _).mp facts with ⟨filled, read, facts⟩
  rcases List.any_eq_true.mp facts with ⟨attempt, member, gone⟩
  refine ⟨s, filled, reached executed, toOption_eq_some.mp read, ?_⟩
  intro listed
  have found := listed attempt member
  rw [IsListed, Option.isNone_iff_eq_none.mp gone] at found
  simp at found

/-! ## Exceptions and steps -/

/--
A read lets no `InotifyException` escape, and after each event that it handled
the list and the map have the same paths.
-/
def KeepsInStep (config : Config) (s : State) (action : Action) : Prop :=
  ∀ events, action = .inotifyRead events →
    step config s action ≠ some (.error (.raised .inotify)) ∧
      ∀ filled, s.fileWatcher.queueEvents events = .ok filled →
        ∀ attempt ∈ batch config s filled, ∀ next,
          onInotifyEvent config attempt.2 attempt.1 = .ok next →
            next.fileWatcher.InStep

/-- Every event of a read is accepted. -/
def AcceptsAll (config : Config) (s : State) (action : Action) : Prop :=
  ∀ events filled, action = .inotifyRead events →
    s.fileWatcher.queueEvents events = .ok filled →
      Meets (Accepts config) (batch config s filled)

/-- The handler of an event raises exactly when the event is refused. -/
theorem accepts_iff {config : Config} {s : State} {event : InotifyEvent} :
    Accepts config s event ↔
      onInotifyEvent config event s ≠ .error (.raised .inotify) := by
  have effect := onInotifyEvent_effect config s event
  generalize onInotifyEvent config event s = outcome at effect
  cases effect with
  | refused refuses => simpa using refuses
  | failed other accepts => simpa [other] using accepts
  | kept starts ends same =>
      refine iff_of_true ⟨?_, ?_⟩ (by simp)
      · simp [starts]
      · simp [ends]
  | started mask starts ends addable kernel same =>
      refine iff_of_true ⟨?_, ?_⟩ (by simp)
      · intro path about
        rcases Option.some.inj (starts.symm.trans about) with rfl
        exact addable
      · simp [ends]
  | erased starts ends removable same =>
      refine iff_of_true ⟨?_, ?_⟩ (by simp)
      · simp [starts]
      · intro watch about
        rcases Option.some.inj (ends.symm.trans about) with rfl
        exact removable

/-- A loop fails as one of its events does. -/
theorem onInotifyEvents_error {config : Config} {s : State}
    {events : List InotifyEvent} {fault : Fault} :
    onInotifyEvents config s events = .error fault ↔
      ∃ attempt ∈ attemptsOf (eventStep config) s events,
        onInotifyEvent config attempt.2 attempt.1 = .error fault := by
  rw [(onInotifyEvents_run config events s).outcome_eq_error_iff]
  simp only [eventStep, Option.some.injEq]

/-- What the loop of an enabled read keeps, and when. -/
theorem Watched.keepsInStep_iff {config : Config} {s : State}
    (watched : Watched s) {action : Action} {result : Except Fault State}
    (taken : step config s action = some result) :
    KeepsInStep config s action ↔ AcceptsAll config s action := by
  unfold KeepsInStep AcceptsAll
  rw [forall_congr']
  intro events
  constructor
  · rintro keeps filled rfl read attempt member
    have reads := (keeps rfl).1
    rcases watched.read config events with
      ⟨watcher, queued, -, -, enabled⟩
    rcases Except.ok.inj (queued.symm.trans read) with rfl
    change readInotify config events s = _ at taken
    change readInotify config events s ≠ _ at reads
    rw [enabled] at reads taken
    split at taken
    · rename_i isOpen
      rw [if_pos isOpen] at reads
      apply accepts_iff.mpr
      intro raised
      exact reads
        (congrArg some (onInotifyEvents_error.mpr ⟨_, member, raised⟩))
    · simp at taken
  · rintro accepts rfl
    rcases watched.read config events with
      ⟨watcher, queued, queues, begun, enabled⟩
    change readInotify config events s = _ at taken
    change readInotify config events s ≠ _ ∧ _
    rw [enabled] at taken ⊢
    split at taken
    · rename_i isOpen
      rw [if_pos isOpen]
      constructor
      · intro raised
        rcases onInotifyEvents_error.mp (Option.some.inj raised) with
          ⟨attempt, member, failed⟩
        exact accepts_iff.mp (accepts watcher rfl queued attempt member)
          failed
      · intro filled read attempt member next ran
        rcases Except.ok.inj (queued.symm.trans read) with rfl
        have run := onInotifyEvents_run config watcher.inotify.events
          (loopStart s watcher)
        rcases run.attempt_reached member with ⟨front, -, -, reached⟩
        have opens : (loopStart s watcher).fileWatcher.inotify.isOpen =
            true := queues.isOpen.trans isOpen
        have holds := reached.invariant
          (fun s => Watched s ∧ s.fileWatcher.inotify.isOpen = true)
          ⟨begun, opens⟩ fun both taken =>
            ⟨both.1.event (Option.some.inj taken),
              (onInotifyEvent_isOpen (Option.some.inj taken)).trans both.2⟩
        exact (holds.1.event ran).consistent.inStep
          ((onInotifyEvent_isOpen ran).trans holds.2)
    · simp at taken

/--
In every run, no exception of the file watcher escapes from a read and the two
containers of watches have the same paths after each event, precisely when
every path that is to be watched is new to the manager and gets a new
descriptor from the kernel, and every watch that is to be removed is known to
the kernel or has been heard to be dropped.
-/
theorem watches_in_step_iff {config : Config} {startUp : StartUp}
    {start : State} (built : construct config startUp = .ok start)
    {attempts : List (State × Action)} {outcome : Except Fault State}
    (run : Run (step config) start attempts outcome) :
    Meets (KeepsInStep config) attempts ↔
      Meets (AcceptsAll config) attempts := by
  apply forall₂_congr
  intro attempt member
  rcases run.attempt_reached member with ⟨front, -, -, reached⟩
  rcases run.attempt_taken member with ⟨result, taken⟩
  have watched := reached.invariant Watched (construct_watched built)
    fun holds taken => step_watched holds taken
  exact watched.keepsInStep_iff taken

/-- A directory that stays is watched, without an exception. -/
theorem watches_in_step_created :
    Meets (KeepsInStep config)
      [(start, .inotifyRead [dirCreated "common" (some 1000)])] := by
  have setting : (execute (step config) start
        [.inotifyRead [dirCreated "common" (some 1000)]]).isSome ∧
      ((start.fileWatcher.queueEvents
        [dirCreated "common" (some 1000)]).toOption.all fun filled =>
          (batch config start filled).all fun attempt =>
            (onInotifyEvent config attempt.2 attempt.1).toOption.isSome) =
              true := by
    decide +kernel
  rcases Option.isSome_iff_exists.mp setting.1 with ⟨s, executed⟩
  have taken : step config start
      (.inotifyRead [dirCreated "common" (some 1000)]) = some (.ok s) :=
    taken_of_execute executed
  refine (watches_in_step_iff start_built (Run.next .start taken)).mpr ?_
  intro attempt member events filled same read handled attempted
  rcases List.mem_singleton.mp member with rfl
  rcases Action.inotifyRead.inj same with rfl
  have handles := List.all_eq_true.mp
    (Option.all_eq_true _ _ |>.mp setting.2 filled
      (toOption_eq_some.mpr read)) handled attempted
  apply accepts_iff.mpr
  intro raised
  rw [raised] at handles
  simp [Except.toOption] at handles

/--
A directory is created and removed before its first event is handled: the
kernel cannot watch it any more, and the exception escapes.
-/
theorem vanished_dir_raises :
    Run (step config) start
        [(start, .inotifyRead [dirCreated "common" none])]
        (.error (.raised .inotify)) ∧
      ¬ Meets (KeepsInStep config)
        [(start, .inotifyRead [dirCreated "common" none])] := by
  have raised : step config start
      (.inotifyRead [dirCreated "common" none]) =
        some (.error (.raised .inotify)) := by
    rfl
  refine ⟨Run.next .start raised, ?_⟩
  intro keeps
  exact (keeps _ List.mem_cons_self _ rfl).1 raised

end KekMonitors.Manager
