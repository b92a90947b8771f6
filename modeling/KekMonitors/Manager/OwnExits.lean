import KekMonitors.Manager.History

/-!
# Whose exit is handled

The exit handler of a child takes the process from the entry of its class by
the name of the class alone.  As long as the manager has not been asked to shut
down, the entry holds this very child.  The shutdown lets go of processes whose
exits are still to be handled, and a process that is launched for the class
after it is taken by the old exit.
-/

namespace KekMonitors

namespace Objects

/-- The exit of a child of the class has not been handled. -/
def ExitPending (o : Objects) (key : Key) (child : Nat) : Prop :=
  ∃ c, o.children[child]? = some c ∧ (c.kind, c.className) = key ∧
    c.exitPending = true

/-- The entries hold the children whose exits have not been handled. -/
def HoldsPending (o : Objects) : Prop :=
  ∀ key child, o.ExitPending key child →
    ∃ process, o.processAt key.1 key.2 = some process ∧
      process.child = child

theorem exitPending_kill {o : Objects} {killed : Nat} {key : Key}
    {child : Nat} (pending : (o.kill killed).ExitPending key child) :
    o.ExitPending key child := by
  rcases pending with ⟨c, found, here, waits⟩
  rw [getElem?_kill] at found
  split at found
  · rcases Option.map_eq_some_iff.mp found with ⟨old, present, rfl⟩
    exact ⟨old, present, here, waits⟩
  · exact ⟨c, found, here, waits⟩

theorem exitPending_of_children {o next : Objects}
    (same : next.children = o.children) {key : Key} {child : Nat}
    (pending : next.ExitPending key child) : o.ExitPending key child := by
  rcases pending with ⟨c, found, here, waits⟩
  exact ⟨c, same ▸ found, here, waits⟩

theorem exitPending_destroyProcess {o : Objects} {process : Option Process}
    {key : Key} {child : Nat}
    (pending : (o.destroyProcess process).ExitPending key child) :
    o.ExitPending key child := by
  cases process with
  | none => exact pending
  | some process => exact exitPending_kill pending

theorem exitPending_removeStoredProcess {o : Objects}
    {m : MonitorOrScraper} {className : String} {key : Key} {child : Nat}
    (pending : (o.removeStoredProcess m className).ExitPending key child) :
    o.ExitPending key child :=
  exitPending_destroyProcess
    (exitPending_of_children (children_removeStoredProcess ..) pending)

theorem exitPending_deliverExit {o : Objects} {delivered : Nat} {key : Key}
    {child : Nat}
    (pending : (o.deliverExit delivered).ExitPending key child) :
    child ≠ delivered ∧ o.ExitPending key child := by
  rcases pending with ⟨c, found, here, waits⟩
  rw [deliverExit, List.getElem?_modify] at found
  rcases Option.map_eq_some_iff.mp found with ⟨old, present, same⟩
  split at same
  · rw [← same] at waits
    simp at waits
  · rename_i different
    exact ⟨fun equal => different equal.symm, old, present, same ▸ here,
      same ▸ waits⟩

/-- No exit is pending again. -/
theorem ChangeBy.exitPending {may : Deed → Prop} {o next : Objects}
    (change : ChangeBy may o next) {key : Key} {child : Nat}
    (pending : next.ExitPending key child) : o.ExitPending key child := by
  cases change with
  | setEndpoint found path =>
      exact exitPending_of_children (children_put ..) pending
  | setFlags => exact exitPending_of_children (children_put ..) pending
  | removeStoredSocket m className =>
      exact exitPending_of_children (children_removeStoredSocket ..) pending
  | removeStoredProcess => exact exitPending_removeStoredProcess pending
  | kill => exact exitPending_kill pending
  | deliverExit => exact (exitPending_deliverExit pending).2
  | expireTimer => exact exitPending_of_children rfl pending

theorem ChangesBy.exitPending {may : Deed → Prop} {o next : Objects}
    (changes : ChangesBy may o next) {key : Key} {child : Nat}
    (pending : next.ExitPending key child) : o.ExitPending key child := by
  induction changes with
  | refl => exact pending
  | tail _ last ih => exact ih (last.exitPending pending)

/-- A launched class holds its child, and had none whose exit is pending. -/
theorem HoldsPending.launch {o : Objects} (holds : o.HoldsPending)
    {request : AddRequest}
    (absent : o.find? request.kind request.className = none)
    (commandLine : String) (pid creation : Json.Integer) :
    (o.launch request commandLine pid creation).HoldsPending := by
  have free : (o.find? request.kind request.className).bind
      StoredObject.process = none := by
    rw [absent, Option.bind_none]
  have standing := standing_launch absent commandLine pid creation
  intro key child pending
  have process := congrArg Standing.process (standing key)
  change (o.launch request commandLine pid creation).processAt key.1 key.2 =
    _ at process
  rcases pending with ⟨c, found, here, waits⟩
  rw [children_launch free, List.getElem?_append] at found
  split at found
  · have held := holds key child ⟨c, found, here, waits⟩
    split at process
    · rename_i same
      rcases held with ⟨own, held, -⟩
      rw [same, processAt, absent] at held
      simp at held
    · rw [process]
      exact held
  · rcases List.getElem?_eq_some_iff.mp found with ⟨inside, rfl⟩
    simp only [List.length_singleton] at inside
    have newest : child = o.children.length := by omega
    have isLaunched : key = (request.kind, request.className) := by
      rw [← here]
      simp [List.getElem_singleton]
    rw [if_pos isLaunched] at process
    exact ⟨_, process, newest.symm⟩

end Objects

/-- An event that says nothing about the process. -/
def ClassEvent.Spares : ClassEvent → Prop
  | .stopSent => True
  | .socket _ => True
  | _ => False

theorem ClassEvent.Spares.process {event : ClassEvent}
    (spares : event.Spares) (standing : Standing) :
    (standing.after event).process = standing.process := by
  rcases event with _ | _ | _ | (_ | _) | _
  · exact spares.elim
  · exact spares.elim
  · rfl
  · rfl
  · rfl
  · exact spares.elim

namespace Manager

open Connection
open Objects
open Transition

theorem process_replay {events : List ClassEvent}
    (spares : ∀ event ∈ events, event.Spares) (standing : Standing) :
    (replay Standing.after standing events).process = standing.process := by
  induction events generalizing standing with
  | nil => rfl
  | cons event events ih =>
      rw [replay_cons, ih fun other member =>
        spares other (List.mem_cons_of_mem _ member)]
      exact (spares event List.mem_cons_self).process standing

section OneStep

variable {config : Config} {s next : State} {action : Action} {key : Key}

/-- Only an exit of the class and the shutdown say something about it. -/
theorem handledEvents_spare (up : ¬ ReadsShutdown action)
    (other : ∀ child c, action = .runOnExit child none →
      s.objects.children[child]? = some c → (c.kind, c.className) ≠ key) :
    ∀ event ∈ handledEvents config key (s, action), event.Spares := by
  intro event member
  cases action with
  | commandRead index events env =>
      rw [handledEvents] at member
      split at member
      · rename_i cmd read
        split at member
        · rename_i isShutdown
          exact absurd ⟨index, events, env, cmd, rfl, read, isShutdown⟩ up
        · simp at member
      · simp at member
  | runOnExit child ec =>
      cases ec with
      | some err => simp [handledEvents] at member
      | none =>
          rw [handledEvents] at member
          split at member
          · rename_i isClass
            rcases (Option.any_eq_true _ _).mp isClass with ⟨c, found, here⟩
            exact absurd (of_decide_eq_true here) (other child c rfl found)
          · simp at member
  | runStop index =>
      rw [handledEvents] at member
      split at member
      · rcases List.mem_singleton.mp member with rfl
        trivial
      · simp at member
  | inotifyRead events =>
      rcases List.mem_map.mp member with ⟨socketEvent, -, rfl⟩
      trivial
  | _ => simp [handledEvents] at member

/-- Without a shutdown a class keeps its process until an exit handler. -/
theorem step_keeps_process (reached : Reached config s)
    (up : ¬ ReadsShutdown action)
    (other : ∀ child c, action = .runOnExit child none →
      s.objects.children[child]? = some c → (c.kind, c.className) ≠ key)
    (quiet : ∀ call className started, addCall s action = some call →
      ¬ call.Starts s.objects className started)
    (taken : step config s action = some (.ok next)) :
    next.objects.processAt key.1 key.2 =
      s.objects.processAt key.1 key.2 := by
  have effect : StandingEffect config key s action next.objects :=
    step_standing reached taken
  rcases effect with told | ⟨call, className, started, handles, starts⟩
  · have spare : ∀ event ∈ handledEvents config key (s, action),
        event.Spares := handledEvents_spare up other
    have process := process_replay spare (s.objects.standing key)
    rw [← told] at process
    exact process
  · exact absurd starts (quiet call className started handles)

/-- The handler of an exit takes the process of its class, and no other. -/
theorem runOnExit_processAt {child : Nat} {c : Child}
    (found : s.objects.children[child]? = some c)
    (taken : step config s (.runOnExit child none) = some (.ok next))
    (key : Key) :
    next.objects.processAt key.1 key.2 =
      if key = (c.kind, c.className) then none
      else s.objects.processAt key.1 key.2 := by
  rcases runOnExit_takes taken with ⟨same, present, -, -, rfl⟩
  rcases Option.some.inj (found.symm.trans present) with rfl
  have removed := congrArg Standing.process
    (standing_removeStoredProcess (s.objects.deliverExit child) c.kind
      c.className key)
  have delivered : (s.objects.deliverExit child).standing key =
      s.objects.standing key :=
    standing_eq_of_find? (find?_deliverExit ..)
  rw [delivered] at removed
  refine Eq.trans removed ?_
  split
  · rfl
  · rfl

theorem holdsPending_step (reached : Reached config s)
    (holds : s.objects.HoldsPending) (up : ¬ ReadsShutdown action)
    (taken : step config s action = some (.ok next)) :
    next.objects.HoldsPending := by
  rcases (step_effect reached.aborted taken).objects with
    ⟨changes, rejected⟩ | ⟨call, className, started, handles, starts, after⟩
  · have quiet : ∀ call className started, addCall s action = some call →
        ¬ call.Starts s.objects className started := by
      intro call className started handles starts
      have rejects := rejected call handles className started
      rw [leaveQueue_of_addCall handles] at rejects
      exact rejects starts
    intro key child pending
    have before : s.objects.ExitPending key child :=
      exitPending_of_children (leaveQueue_children s action)
        (changes.exitPending pending)
    rcases holds key child before with ⟨process, held, own⟩
    refine ⟨process, ?_, own⟩
    rw [← held]
    refine step_keeps_process reached up ?_ quiet taken
    rintro exited c rfl found here
    -- the class of the exit held that child, whose exit is pending no more
    rcases runOnExit_takes taken with ⟨same, present, waits, -, rfl⟩
    rcases Option.some.inj (found.symm.trans present) with rfl
    rcases holds key exited ⟨c, found, here, waits⟩ with
      ⟨other, holder, isExited⟩
    rcases Option.some.inj (held.symm.trans holder) with rfl
    have delivered : (s.objects.deliverExit exited).ExitPending key child :=
      exitPending_removeStoredProcess pending
    exact (exitPending_deliverExit delivered).1 (own.symm.trans isExited)
  · rw [leaveQueue_of_addCall handles] at starts after
    have absent := reached.sound.wellKept.absent starts.admits
    rw [after, AddCall.launch]
    refine holds.launch ?_ _ _ _
    exact absent

end OneStep

/-! ## Runs -/

/--
In every state that the manager reaches without a shutdown, each child whose
exit handler has not run is the process that its class holds, and the handler
of an exit takes exactly this process.
-/
theorem exits_take_own {config : Config} {startUp : StartUp}
    {start s : State} (built : construct config startUp = .ok start)
    {attempts : List (State × Action)}
    (run : Run (step config) start attempts (.ok s))
    (up : Meets (fun _ action => ¬ ReadsShutdown action) attempts) :
    (∀ child c, s.objects.children[child]? = some c →
        c.exitPending = true →
          ∃ process, s.objects.processAt c.kind c.className =
              some process ∧
            process.child = child) ∧
      ∀ child next,
        step config s (.runOnExit child none) = some (.ok next) →
          ∃ c process, s.objects.children[child]? = some c ∧
            s.objects.processAt c.kind c.className = some process ∧
              process.child = child ∧
                ∀ m className, next.objects.processAt m className =
                  if (m, className) = (c.kind, c.className) then none
                  else s.objects.processAt m className := by
  have invariant : Reached config s ∧ s.objects.HoldsPending := by
    refine run.invariant_of_meets (fun _ action => ¬ ReadsShutdown action)
      (fun s => Reached config s ∧ s.objects.HoldsPending) ?_ ?_ up rfl
    · refine ⟨⟨startUp, start, built, .refl⟩, ?_⟩
      intro key child pending
      rcases (construct_effect built).1.exitPending pending with
        ⟨c, found, -⟩
      simp at found
    · rintro state action next ⟨reached, holds⟩ up taken
      exact ⟨reached.advance taken, holdsPending_step reached holds up taken⟩
  rcases invariant with ⟨reached, holds⟩
  have held : ∀ child c, s.objects.children[child]? = some c →
      c.exitPending = true →
        ∃ process, s.objects.processAt c.kind c.className = some process ∧
          process.child = child := by
    intro child c found waits
    exact holds (c.kind, c.className) child ⟨c, found, rfl, waits⟩
  refine ⟨held, ?_⟩
  intro child next taken
  rcases runOnExit_takes taken with ⟨c, found, waits, -, -⟩
  rcases held child c found waits with ⟨process, holder, own⟩
  refine ⟨c, process, found, holder, own, ?_⟩
  intro m className
  exact runOnExit_processAt found taken (m, className)

open Installation

/-- A monitor is added and dies. -/
private def shoesDie : List Action :=
  request (about .mmAddMonitor "Shoes") ++ [.childExits 0]

private theorem shoesDie_up {action : Action} (member : action ∈ shoesDie) :
    ¬ ReadsShutdown action := by
  rintro ⟨index, events, env, cmd, rfl, read, isShutdown⟩
  simp only [shoesDie, request, List.cons_append, List.nil_append,
    List.mem_cons, reduceCtorEq, List.not_mem_nil, or_false, false_or,
    Action.commandRead.injEq] at member
  rcases member with ⟨rfl, rfl, rfl⟩
  rw [read_command (by decide +kernel)] at read
  rcases Prod.mk.inj (Option.some.inj read) with ⟨-, rfl⟩
  exact absurd isShutdown (by decide)

/-- The exit of the added monitor takes its own process. -/
theorem shoes_exit_own :
    ∃ s next process, execute (step config) start shoesDie = some s ∧
      step config s (.runOnExit 0 none) = some (.ok next) ∧
        s.objects.processAt .monitor "Shoes" = some process ∧
          process.child = 0 ∧
            next.objects.processAt .monitor "Shoes" = none := by
  have setting : (execute (step config) start shoesDie).any (fun s =>
      (execute (step config) s [.runOnExit 0 none]).isSome ∧
        (s.objects.children.map fun c => (c.kind, c.className)) =
          [(.monitor, "Shoes")]) = true := by
    decide +kernel
  rcases (Option.any_eq_true _ _).mp setting with ⟨s, executed, facts⟩
  rcases of_decide_eq_true facts with ⟨exits, children⟩
  rcases Option.isSome_iff_exists.mp exits with ⟨next, exited⟩
  have taken := taken_of_execute exited
  have up : Meets (fun _ action => ¬ ReadsShutdown action)
      (attemptsOf (step config) start shoesDie) :=
    fun attempt member => shoesDie_up (mem_attemptsOf member)
  rcases (exits_take_own start_built (.of_execute executed) up).2 0 next
    taken with ⟨c, process, found, held, own, after⟩
  rcases List.map_eq_singleton_iff.mp children with ⟨only, all, same⟩
  have isOnly : c = only := by simpa [all, eq_comm] using found
  rcases Prod.mk.inj same with ⟨kind, className⟩
  rw [isOnly, kind, className] at held after
  exact ⟨s, next, process, executed, taken, held, own,
    (after .monitor "Shoes").trans (if_pos rfl)⟩

/--
The manager is stopped and a waiting client adds the monitor again: the old
exit takes the new process.
-/
theorem old_exit_takes_new :
    ∃ s next process, Reached config s ∧
      s.objects.processAt .monitor "Shoes" = some process ∧
        process.child = 1 ∧
          step config s (.runOnExit 0 none) = some (.ok next) ∧
            next.objects.processAt .monitor "Shoes" = none := by
  have setting : (execute (step config) start
      (request (about .mmAddMonitor "Shoes") ++ twoClients ++
        [stopAction, lateAdd])).any (fun s =>
          (s.objects.processAt .monitor "Shoes").any (fun process =>
            process.child = 1) ∧
          (execute (step config) s [.runOnExit 0 none]).any fun next =>
            (next.objects.processAt .monitor "Shoes").isNone) = true := by
    decide +kernel
  rcases (Option.any_eq_true _ _).mp setting with ⟨s, executed, facts⟩
  rcases of_decide_eq_true facts with ⟨held, exits⟩
  rcases (Option.any_eq_true _ _).mp held with ⟨process, held, isNew⟩
  rcases (Option.any_eq_true _ _).mp exits with ⟨next, exited, gone⟩
  exact ⟨s, next, process, Installation.reached executed, held,
    of_decide_eq_true isNew, taken_of_execute exited,
    Option.isNone_iff_eq_none.mp gone⟩

end Manager

end KekMonitors
