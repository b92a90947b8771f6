import KekMonitors.Manager.ConfigWorld

/-!
# The reads behind a batch

In the world the handler of an event finds the config directory as it is then,
whereas a read of the manager is given all surroundings at once.  A batch that
has been handled is such a read nevertheless, so that between two batches the
manager is in a state that it reaches by its own steps.
-/

namespace KekMonitors.Manager

open FileWatcher
open Transition

/-! ## Queues with other surroundings -/

/-- What an event reports, whatever its handler finds. -/
def header (event : InotifyEvent) : Nat × UInt32 × String :=
  (event.watch, event.mask, event.name)

section Queues

variable {watcher next : FileWatcher}

theorem dropped_withEvents (event : KernelEvent) (watch : InotifyWatch)
    (watcher : FileWatcher) (events : List InotifyEvent) :
    (watcher.withEvents events).dropped event watch =
      (watcher.dropped event watch).withEvents events := by
  unfold dropped
  split
  · rfl
  · rfl

/-- Queueing appends an event, for which any surroundings can be given. -/
theorem queueEvent_appends (consistent : watcher.Consistent)
    {event : KernelEvent} (queued : watcher.queueEvent event = .ok next) :
    ∃ more, next.inotify.events = watcher.inotify.events ++ more ∧
      ∀ others, others.map header = more.map header →
        ∃ given, ∀ old, (watcher.withEvents old).queueEvent given =
          .ok (next.withEvents (old ++ others)) := by
  cases known : watcher.inotify.watches.lookup event.wd with
  | none =>
      rw [queueEvent_of_unknown known] at queued
      rcases Except.ok.inj queued with rfl
      refine ⟨[], (List.append_nil _).symm, ?_⟩
      intro others same
      rcases List.map_eq_nil_iff.mp same with rfl
      refine ⟨event, fun old => ?_⟩
      have unknown : (watcher.withEvents old).inotify.watches.lookup
          event.wd = none := known
      rw [queueEvent_of_unknown unknown, List.append_nil]
  | some address =>
      rcases consistent.watch_of_lookup known with
        ⟨watch, listed, rfl, -, enabled⟩
      have found := consistent.findWatch listed
      rw [queueEvent_of_known event known found enabled] at queued
      rcases Except.ok.inj queued with rfl
      refine ⟨_, rfl, ?_⟩
      intro others same
      rcases List.map_eq_singleton_iff.mp same with ⟨other, rfl, headers⟩
      have told : other = ⟨watch.address, event.mask, event.name,
          other.surroundings⟩ := by
        rcases other with ⟨address, mask, name, surroundings⟩
        rcases Prod.mk.inj headers with ⟨rfl, rest⟩
        rcases Prod.mk.inj rest with ⟨rfl, rfl⟩
        rfl
      refine ⟨{ event with surroundings := other.surroundings },
        fun old => ?_⟩
      have stillKnown : (watcher.withEvents old).inotify.watches.lookup
          event.wd = some watch.address := known
      have stillFound : (watcher.withEvents old).findWatch watch.address =
          some watch := found
      rw [queueEvent_of_known
        { event with surroundings := other.surroundings }
        stillKnown stillFound enabled, dropped_withEvents, told]
      rfl

/-- A queued batch could have been given with any surroundings. -/
theorem queueEvents_appends (consistent : watcher.Consistent)
    {events : List KernelEvent}
    (queued : watcher.queueEvents events = .ok next) :
    ∃ more, next.inotify.events = watcher.inotify.events ++ more ∧
      ∀ others, others.map header = more.map header →
        ∃ given, ∀ old, (watcher.withEvents old).queueEvents given =
          .ok (next.withEvents (old ++ others)) := by
  induction events generalizing watcher with
  | nil =>
      rcases Except.ok.inj queued with rfl
      refine ⟨[], by simp, ?_⟩
      intro others same
      rcases List.map_eq_nil_iff.mp same with rfl
      exact ⟨[], fun old => by rw [List.append_nil]; rfl⟩
  | cons event events ih =>
      rcases bind_eq_ok.mp queued with ⟨middle, one, rest⟩
      rcases consistent.queueEvent event with ⟨_, ran, queues⟩
      rcases Except.ok.inj (ran.symm.trans one) with rfl
      rcases queueEvent_appends consistent one with
        ⟨first, begun, firstGiven⟩
      rcases ih queues.consistent rest with ⟨later, ended, laterGiven⟩
      refine ⟨first ++ later, by rw [ended, begun, List.append_assoc], ?_⟩
      intro others same
      rw [List.map_append] at same
      rcases List.map_eq_append_iff.mp same with
        ⟨front, back, rfl, fronts, backs⟩
      rcases firstGiven front fronts with ⟨given, queuesFirst⟩
      rcases laterGiven back backs with ⟨more, queuesMore⟩
      refine ⟨given :: more, fun old => ?_⟩
      rw [queueEvents, queuesFirst old, ← List.append_assoc]
      exact queuesMore (old ++ front)

end Queues

/-! ## Steps outside of the manager -/

section Outside

variable {w next : World} {dir : List String} {name : String} {kind : Kind}

/-- The manager and what it has read are as before. -/
structure KeepsManager (w next : World) : Prop where
  manager : next.manager = w.manager
  batch : next.batch = w.batch

theorem World.creates_keeps (created : w.creates dir name kind = some next) :
    KeepsManager w next := by
  unfold World.creates at created
  split at created
  · rcases Option.bind_eq_some_iff.mp created with ⟨_, _, made⟩
    rcases Option.map_eq_some_iff.mp made with ⟨_, _, rfl⟩
    exact ⟨rfl, rfl⟩
  · simp at created

theorem World.deletes_keeps {goneFirst : Bool}
    (deleted : w.deletes dir name goneFirst = some next) :
    KeepsManager w next := by
  rcases Option.map_eq_some_iff.mp deleted with ⟨_, _, rfl⟩
  exact ⟨rfl, rfl⟩

theorem World.renames_keeps {newDir : List String} {newName : String}
    (renamed : w.renames dir name newDir newName = some next) :
    KeepsManager w next := by
  unfold World.renames at renamed
  split at renamed
  · rcases Option.map_eq_some_iff.mp renamed with ⟨_, _, rfl⟩
    exact ⟨rfl, rfl⟩
  · simp at renamed

theorem World.forgets_keeps {inode : Nat}
    (forgotten : w.forgets inode = some next) : KeepsManager w next := by
  unfold World.forgets at forgotten
  split at forgotten
  · rcases Option.some.inj forgotten with rfl
    exact ⟨rfl, rfl⟩
  · simp at forgotten

end Outside

/-! ## The manager's own runs -/

/-- A read of a reached state has been handled as far as the batch is gone. -/
structure Amid (config : Config) (w : World) (s : State)
    (events : List KernelEvent) (filled : FileWatcher)
    (handled : List InotifyEvent) : Prop where
  reached : Reached config s
  isOpen : s.fileWatcher.inotify.isOpen = true
  queued : s.fileWatcher.queueEvents events = .ok filled
  headers : filled.inotify.events.map header =
    (handled ++ w.batch).map header
  ran : onInotifyEvents config (loopStart s filled) handled = .ok w.manager

/-- The manager follows its own steps, and may be amid the loop of a read. -/
def Follows (config : Config) (w : World) : Prop :=
  w.batch = [] ∧ Reached config w.manager ∨
    ∃ s events filled handled, Amid config w s events filled handled

section Follows

variable {config : Config} {w next : World}

/-- The read of a handled batch, with what its handlers found. -/
theorem Amid.reached_next {s : State} {events : List KernelEvent}
    {filled : FileWatcher} {handled : List InotifyEvent}
    (amid : Amid config w s events filled handled) (done : w.batch = []) :
    Reached config w.manager := by
  have watched := amid.reached.watched
  have drained := watched.drained
  rcases queueEvents_appends watched.consistent amid.queued with
    ⟨more, appended, others⟩
  have same : handled.map header = more.map header := by
    rw [← List.nil_append more, ← drained, ← appended, amid.headers, done,
      List.append_nil]
  rcases others handled same with ⟨given, queues⟩
  have reads := queues s.fileWatcher.inotify.events
  rw [drained, List.nil_append] at reads
  have own : s.fileWatcher.withEvents [] = s.fileWatcher := by
    rw [← drained]
    rfl
  rw [own] at reads
  have taken : step config s (.inotifyRead given) =
      some (.ok w.manager) := by
    change readInotify config given s = _
    rw [readInotify, if_pos amid.isOpen, reads]
    exact congrArg some amid.ran
  exact amid.reached.advance taken

theorem Follows.idle (follows : Follows config w) (done : w.batch = []) :
    Reached config w.manager := by
  rcases follows with ⟨-, reached⟩ | ⟨s, events, filled, handled, amid⟩
  · exact reached
  · exact amid.reached_next done

theorem Follows.keep (follows : Follows config w)
    (keeps : KeepsManager w next) : Follows config next := by
  rcases follows with ⟨done, reached⟩ | ⟨s, events, filled, handled, amid⟩
  · exact Or.inl ⟨keeps.batch.trans done, keeps.manager ▸ reached⟩
  · exact Or.inr ⟨s, events, filled, handled, amid.reached, amid.isOpen,
      amid.queued, keeps.batch ▸ amid.headers, keeps.manager ▸ amid.ran⟩

theorem onInotifyEvents_concat {events : List InotifyEvent}
    {event : InotifyEvent} {s middle final : State}
    (ran : onInotifyEvents config s events = .ok middle)
    (last : onInotifyEvent config event middle = .ok final) :
    onInotifyEvents config s (events ++ [event]) = .ok final := by
  induction events generalizing s with
  | nil =>
      rcases Except.ok.inj ran with rfl
      exact bind_eq_ok.mpr ⟨final, last, rfl⟩
  | cons first events ih =>
      rcases bind_eq_ok.mp ran with ⟨following, handled, rest⟩
      exact bind_eq_ok.mpr ⟨following, handled, ih rest⟩

theorem Follows.reads (follows : Follows config w) {count : Nat}
    (read : w.reads count = some (.ok next)) : Follows config next := by
  unfold World.reads at read
  split at read
  · rename_i enabled
    rcases bind_eq_ok.mp (Option.some.inj read) with ⟨filled, queued, same⟩
    rcases Except.ok.inj same with rfl
    exact Or.inr ⟨w.manager, _, filled, [],
      follows.idle (List.isEmpty_iff.mp enabled.1), enabled.2, queued, rfl,
      rfl⟩
  · simp at read

theorem Follows.handles (follows : Follows config w) {found : Surroundings}
    (handled : w.handles config found = some (.ok next)) :
    Follows config next := by
  unfold World.handles at handled
  split at handled
  · simp at handled
  · rename_i event batch waiting
    rcases bind_eq_ok.mp (Option.some.inj handled) with ⟨manager, ran, same⟩
    rcases Except.ok.inj same with rfl
    rcases follows with ⟨done, -⟩ | ⟨s, events, filled, earlier, amid⟩
    · rw [done] at waiting
      simp at waiting
    · refine Or.inr ⟨s, events, filled,
        earlier ++ [answered config w found event], amid.reached,
        amid.isOpen, amid.queued, ?_, onInotifyEvents_concat amid.ran ran⟩
      rw [amid.headers, waiting]
      simp [header, answered]

theorem Follows.runs (follows : Follows config w) {action : Action}
    (ran : w.runs config action = some (.ok next)) :
    Follows config next := by
  unfold World.runs at ran
  split at ran
  · rename_i enabled
    have done := List.isEmpty_iff.mp enabled.1
    rcases Option.map_eq_some_iff.mp ran with ⟨outcome, taken, same⟩
    rcases bind_eq_ok.mp same with ⟨manager, rfl, rest⟩
    rcases Except.ok.inj rest with rfl
    exact Or.inl ⟨done, (follows.idle done).advance taken⟩
  · simp at ran

theorem Follows.step (follows : Follows config w) {happening : Happening}
    (taken : World.step config w happening = some (.ok next)) :
    Follows config next := by
  cases happening with
  | creates dir name kind =>
      have created : w.creates dir name kind = some next := by
        simpa [World.step] using taken
      exact follows.keep (World.creates_keeps created)
  | deletes dir name goneFirst =>
      have deleted : w.deletes dir name goneFirst = some next := by
        simpa [World.step] using taken
      exact follows.keep (World.deletes_keeps deleted)
  | renames dir name newDir newName =>
      have renamed : w.renames dir name newDir newName = some next := by
        simpa [World.step] using taken
      exact follows.keep (World.renames_keeps renamed)
  | writes inode =>
      rcases Except.ok.inj (Option.some.inj taken) with rfl
      exact follows.keep ⟨rfl, rfl⟩
  | forgets inode =>
      have forgotten : w.forgets inode = some next := by
        simpa [World.step] using taken
      exact follows.keep (World.forgets_keeps forgotten)
  | socketChanges notice name =>
      rcases Except.ok.inj (Option.some.inj taken) with rfl
      exact follows.keep ⟨rfl, rfl⟩
  | reads count => exact follows.reads taken
  | handles found => exact follows.handles taken
  | runs action => exact follows.runs taken

/-- Between two batches the manager is where its own steps can take it. -/
theorem World.manager_reached {start : World}
    {attempts : List (World × Happening)} (begins : Begins config start)
    (run : Run (World.step config) start attempts (.ok w))
    (idle : w.batch = []) : Reached config w.manager := by
  rcases begins.constructed with ⟨files, descriptor, -, built, -⟩
  have initial : Reached config start.manager :=
    ⟨_, _, built, Reachable.refl⟩
  have follows : Follows config w :=
    run.invariant (Follows config) (Or.inl ⟨begins.batch, initial⟩)
      fun holds taken => holds.step taken
  exact follows.idle idle

end Follows

end KekMonitors.Manager
