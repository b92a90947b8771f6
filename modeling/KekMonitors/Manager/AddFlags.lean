import KekMonitors.Manager.Expiry

/-!
# Entries that are being added

`onAdd` marks the entry of a process that it launches, and the handler of the
add timer takes the mark away.  It does so when it finds the process running;
a process that has died and whose exit is still to be handled is answered for
with an error, and its entry keeps the mark.
-/

namespace KekMonitors.Manager

open Connection
open Objects
open Timer
open Transition

/-- The request of the launch is still to be answered by its wait handler. -/
def Unfinished (attempts : List (State × Action)) (s : State) (timer : Nat)
    (key : Key) : Prop :=
  ∃ request, home request = key ∧ Launched attempts timer request ∧
    ¬ HandlerRan attempts timer ∧ s.objects.awaited timer = some request

/-- What `onAdd` answers about an entry that is being added. -/
def stillProcessed (m : MonitorOrScraper) : Response :=
  failure (addError m) (m.name ++ " still being processed.")

/-- The marks of the entries that are being added, after a run. -/
structure MarksAdds (attempts : List (State × Action)) (s : State) :
    Prop where
  /-- A marked entry belongs to a request that is still to be answered. -/
  pending : ∀ m className stored,
    s.objects.find? m className = some stored →
      stored.isBeingAdded = true →
        ∃ timer, stored.onAddTimer = some timer ∧
          Unfinished attempts s timer (m, className)
  /-- Once the request is answered, its entry is unmarked or gone. -/
  answered : ∀ timer request stored, Launched attempts timer request →
    HandlerRan attempts timer →
      s.objects.find? request.kind request.className = some stored →
        stored.onAddTimer = some timer → stored.isBeingAdded = false
  /-- No add is refused on account of a request that was answered. -/
  refused : ∀ m className stored,
    s.objects.find? m className = some stored →
      refuse m stored = some (stillProcessed m) →
        ∃ timer, Unfinished attempts s timer (m, className)

/--
When the timer of an entry that is being added has expired, the handler finds
its process running.
-/
def FindsRunning (s : State) (action : Action) : Prop :=
  ∀ timer wait stored process, action = .runAddWait timer →
    s.objects.addWaits.lookup timer = some wait →
      wait.status = .expired →
        s.objects.find? wait.request.kind wait.request.className =
            some stored →
          stored.onAddTimer = some timer → stored.isBeingAdded = true →
            stored.process = some process →
              s.objects.running process = true

/-! ## One step -/

/-- A marked entry has a request that is awaited. -/
def AddsPending (o : Objects) : Prop :=
  ∀ ⦃m className stored⦄, o.find? m className = some stored →
    stored.isBeingAdded = true →
      ∃ timer request, stored.onAddTimer = some timer ∧
        home request = (m, className) ∧ o.awaited timer = some request

theorem refuse_stillProcessed {m : MonitorOrScraper} {stored : StoredObject}
    (refused : refuse m stored = some (stillProcessed m)) :
    stored.isBeingAdded = true := by
  by_contra idle
  have info : (refuse m stored).map Response.info =
      some (m.name ++ " still being processed.") := by
    rw [refused]
    rfl
  rw [refuse, if_neg idle] at info
  split at info
  · cases m <;> exact absurd info (by decide)
  · split at info
    · cases m <;> exact absurd info (by decide)
    · simp at info

section OneStep

variable {config : Config} {s next : State} {action : Action}

/-- The handler of an entry's own timer, which cannot have been cancelled. -/
theorem runAddWait_own (sound : s.objects.Sound) {timer : Nat}
    {request : AddRequest} {stored : StoredObject}
    (awaits : s.objects.awaited timer = some request)
    (found : s.objects.find? request.kind request.className = some stored)
    (own : stored.onAddTimer = some timer)
    (taken : step config s (.runAddWait timer) = some (.ok next)) :
    ∃ wait process, s.objects.addWaits.lookup timer = some wait ∧
      wait.request = request ∧ wait.status = .expired ∧
        stored.process = some process ∧
          next.objects =
            if s.objects.running process then
              (s.objects.takeWait timer).put request.kind request.className
                { stored with isBeingAdded := false }
            else s.objects.takeWait timer := by
  rcases Option.map_eq_some_iff.mp awaits with ⟨wait, waits, rfl⟩
  rcases step_handled taken with ⟨handled, ran, finished⟩
  rw [(Handled.finish_same finished).objects]
  rcases Option.map_eq_some_iff.mp ran with ⟨handler, handles, ran⟩
  rcases bind_eq_ok.mp ran with ⟨outcome, answered, same⟩
  rcases Except.ok.inj same with rfl
  cases status : wait.status with
  | waiting => simp [waitHandler, waits, status] at handles
  | cancelled =>
      have slot : s.objects.timerSlots (home wait.request) = some timer := by
        simp [timerSlots, found, own]
      exact absurd slot (sound.timersOwned.cancelled waits status _)
  | expired =>
      rw [waitHandler_of_settled waits (by simp [status])] at handles
      rcases Option.some.inj handles with rfl
      have here : (s.objects.takeWait timer).find? wait.request.kind
          wait.request.className = some stored := by
        rw [find?_takeWait]
        exact found
      simp only [onAddTimer, status, here] at answered
      cases held : stored.process with
      | none => simp [held] at answered
      | some process =>
          simp only [held, running_takeWait] at answered
          refine ⟨wait, process, waits, rfl, status, rfl, ?_⟩
          split at answered
          · rename_i alive
            rw [if_pos alive]
            exact congrArg Prod.fst (Except.ok.inj answered).symm
          · rename_i dead
            rw [if_neg dead]
            exact congrArg Prod.fst (Except.ok.inj answered).symm

/-- The marks stay with their requests where every handler finds its process. -/
theorem step_addsPending (reached : Reached config s)
    (pending : AddsPending s.objects) (finds : FindsRunning s action)
    (taken : step config s action = some (.ok next)) :
    AddsPending next.objects := by
  have awaits := step_awaited reached.aborted reached.sound taken
  intro m className entry found marked
  rcases (step_effect reached.aborted taken).objects with
    ⟨changes, -⟩ | ⟨call, name, started, handles, starts, launched⟩
  · rcases changes.origin found with ⟨stored, present, amends⟩
    rw [leaveQueue_find?] at present
    rcases pending present (amends.isBeingAdded marked) with
      ⟨timer, request, own, here, waits⟩
    refine ⟨timer, request, amends.onAddTimer.trans own, here,
      (awaits timer request).mpr (Or.inr ⟨waits, ?_⟩)⟩
    -- the handler of the entry's own timer would have taken the mark away
    rintro rfl
    rcases Prod.mk.inj here with ⟨rfl, rfl⟩
    rcases runAddWait_own reached.sound waits present own taken with
      ⟨wait, process, queued, rfl, expired, held, after⟩
    have running := finds timer wait stored process rfl queued expired present
      own (amends.isBeingAdded marked) held
    rw [after, if_pos running, find?_put, if_pos rfl] at found
    rw [← Option.some.inj found] at marked
    simp at marked
  · rw [leaveQueue_of_addCall handles] at starts launched
    have launches : Launches s action s.objects.children.length
        (call.request name) :=
      ⟨call, name, started, handles, starts, rfl, rfl⟩
    rw [launched, AddCall.launch, find?_launch] at found
    split at found
    · rename_i same
      rw [← Option.some.inj found]
      exact ⟨_, call.request name, rfl, same.symm,
        (awaits _ _).mpr (Or.inl launches)⟩
    · rcases pending found marked with ⟨timer, request, own, here, waits⟩
      exact ⟨timer, request, own, here,
        (awaits _ _).mpr (Or.inr ⟨waits, launches.not_run⟩)⟩

end OneStep

/-! ## Runs -/

section Runs

variable {config : Config} {startUp : StartUp} {start final : State}
  {attempts : List (State × Action)}

theorem AddsPending.marksAdds {s : State} (pending : AddsPending s.objects)
    (tracks : Tracks attempts s) : MarksAdds attempts s := by
  have unfinished : ∀ m className stored,
      s.objects.find? m className = some stored →
        stored.isBeingAdded = true →
          ∃ timer, stored.onAddTimer = some timer ∧
            Unfinished attempts s timer (m, className) := by
    intro m className stored found marked
    rcases pending found marked with ⟨timer, request, own, here, waits⟩
    rcases (tracks.awaited timer request).mp waits with ⟨launched, waiting⟩
    exact ⟨timer, own, request, here, launched, waiting, waits⟩
  constructor
  · exact unfinished
  · intro timer request stored launched ran found own
    apply Bool.eq_false_iff.mpr
    intro marked
    rcases unfinished _ _ stored found marked with
      ⟨other, another, -, -, -, waiting, -⟩
    rcases Option.some.inj (own.symm.trans another) with rfl
    exact waiting ran
  · intro m className stored found refused
    rcases unfinished m className stored found
      (refuse_stillProcessed refused) with ⟨timer, -, waits⟩
    exact ⟨timer, waits⟩

theorem construct_addsPending (built : construct config startUp = .ok start) :
    AddsPending start.objects := by
  intro m className stored found
  rw [construct_absent built] at found
  simp at found

/--
The marks follow the add requests, in every state of a run, precisely when
every handler whose timer has expired finds the process of its entry running.
-/
theorem adds_marked_iff (built : construct config startUp = .ok start)
    (run : Run (step config) start attempts (.ok final)) :
    (∀ earlier later s, attempts = earlier ++ later →
        Run (step config) start earlier (.ok s) → MarksAdds earlier s) ↔
      Meets FindsRunning attempts := by
  constructor
  · rintro marks ⟨s, action⟩ member timer wait stored process rfl waits
      expired found own marked held
    rcases run.attempt_reached member with ⟨earlier, later, rfl, before⟩
    rcases run.attempt_succeeds member with ⟨next, taken⟩
    have reached : Reached config s := ⟨startUp, start, built, _, before⟩
    have tracks := run_tracks built before rfl
    have awaits : s.objects.awaited timer = some wait.request := by
      simp [awaited, waits]
    have launched := ((tracks.awaited timer wait.request).mp awaits).1
    have after := marks (earlier ++ [(s, .runAddWait timer)]) later next
      (by simp) (before.next taken)
    rcases runAddWait_own reached.sound awaits found own taken with
      ⟨queued, other, -, -, -, same, objects⟩
    rcases Option.some.inj (held.symm.trans same) with rfl
    by_contra dead
    rw [if_neg dead] at objects
    have unmarked := after.answered timer wait.request stored
      (launched_append.mpr (Or.inl launched))
      (handlerRan_append.mpr (Or.inr rfl))
      (by rw [objects, find?_takeWait, found]) own
    rw [marked] at unmarked
    simp at unmarked
  · rintro finds earlier later s rfl reaches
    have both := reaches.invariant_of_meets FindsRunning
      (fun s => Reachable (step config) start s ∧ AddsPending s.objects)
      ⟨.refl, construct_addsPending built⟩ ?_ finds.of_append rfl
    · exact both.2.marksAdds (run_tracks built reaches rfl)
    · intro s action next holds finds taken
      have here : Reached config s := ⟨startUp, start, built, holds.1⟩
      exact ⟨holds.1.advance taken,
        step_addsPending here holds.2 finds taken⟩

end Runs

namespace Installation

/-- A monitor dies, and its add timer expires before its exit is handled. -/
def expiresDead : List Action :=
  addShoes ++ [.childExits 0, .timerExpires 0, .runAddWait 0]

end Installation

open Installation

/-- Every handler that finds an entry finds its process running. -/
def findsRunningBy (s : State) : Action → Bool
  | .runAddWait timer =>
      (s.objects.addWaits.lookup timer).all fun wait =>
        (s.objects.find? wait.request.kind wait.request.className).all
          fun stored => stored.process.all s.objects.running
  | _ => true

theorem findsRunning_of {s : State} {action : Action}
    (checked : findsRunningBy s action = true) : FindsRunning s action := by
  rintro timer wait stored process rfl waits - found - - held
  rw [findsRunningBy, waits, Option.all_some, found, Option.all_some, held,
    Option.all_some] at checked
  exact checked

/-- A monitor that outlives its add timer is unmarked. -/
theorem adds_marked_expired :
    ∃ final, execute (step config) start addedShoes = some final ∧
      ∀ earlier later s,
        attemptsOf (step config) start addedShoes = earlier ++ later →
          Run (step config) start earlier (.ok s) → MarksAdds earlier s := by
  have checked : (execute (step config) start addedShoes).isSome ∧
      ((attemptsOf (step config) start addedShoes).all fun attempt =>
        findsRunningBy attempt.1 attempt.2) = true := by
    decide +kernel
  rcases Option.isSome_iff_exists.mp checked.1 with ⟨final, executed⟩
  refine ⟨final, executed,
    (adds_marked_iff start_built (.of_execute executed)).mpr ?_⟩
  intro attempt member
  exact findsRunning_of (List.all_eq_true.mp checked.2 attempt member)

/--
A monitor that has died is answered for with an error, and its entry keeps the
mark: the next add is refused on account of a request that was answered.
-/
theorem dead_monitor_marked :
    ∃ attempts s, Run (step config) start attempts (.ok s) ∧
      ¬ MarksAdds attempts s := by
  have setting : (execute (step config) start expiresDead).any (fun s =>
      (s.objects.find? .monitor "Shoes").any fun stored =>
        stored.isBeingAdded = true ∧ stored.onAddTimer = some 0 ∧
          (s.objects.awaited 0).isNone) = true := by
    decide +kernel
  rcases (Option.any_eq_true _ _).mp setting with ⟨s, executed, facts⟩
  rcases (Option.any_eq_true _ _).mp facts with ⟨stored, found, facts⟩
  rcases of_decide_eq_true facts with ⟨marked, own, answered⟩
  refine ⟨_, s, .of_execute executed, ?_⟩
  intro marks
  rcases marks.pending .monitor "Shoes" stored found marked with
    ⟨timer, another, request, -, -, -, waits⟩
  rcases Option.some.inj (own.symm.trans another) with rfl
  rw [Option.isNone_iff_eq_none.mp answered] at waits
  simp at waits

end KekMonitors.Manager
