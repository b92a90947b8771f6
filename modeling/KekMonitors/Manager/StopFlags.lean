import KekMonitors.Manager.Effects
import KekMonitors.Manager.Stop

/-!
# Entries that are being stopped

`onStop` marks an entry before it writes the command, and nothing takes the
mark away: it goes with the entry.  An entry whose process is still there when
its socket is removed survives the exchange, and stays marked.
-/

namespace KekMonitors.Manager

open Connection
open Objects
open Transition

/-- An exchange for the class has still to call back. -/
def Stopping (stops : List StopExchange) (key : Key) : Prop :=
  ∃ exchange ∈ stops, (exchange.kind, exchange.className) = key

/-- The marks of the entries that are being stopped, in a state. -/
structure MarksStops (s : State) : Prop where
  /-- A marked entry belongs to a stop that is still to be answered. -/
  pending : ∀ m className stored,
    s.objects.find? m className = some stored →
      stored.isBeingStopped = true → Stopping s.stops (m, className)
  /-- Once the stops of a class are answered, its entry is unmarked. -/
  answered : ∀ m className stored,
    s.objects.find? m className = some stored →
      ¬ Stopping s.stops (m, className) → stored.isBeingStopped = false
  /-- With a socket it can then be stopped again. -/
  attempted : ∀ m cmd className stored, Names cmd className →
    s.objects.find? m className = some stored →
      stored.endpoint.isSome = true → ¬ Stopping s.stops (m, className) →
        StopCall m cmd s.objects className stored

/-- The next handler of the exchange calls back. -/
def StopExchange.Completes (exchange : StopExchange) : Prop :=
  exchange.stage = .reading ∨ exchange.peer.write.isSome = true

/-- The handler removes the entry of its class together with the socket. -/
def StopExchange.Removes (exchange : StopExchange) (o : Objects) : Prop :=
  exchange.stage = .writing ∧
    o.processAt exchange.kind exchange.className = none

/--
A handler that calls back for a marked class removes the entry, or leaves it to
another exchange for the class.
-/
def LeavesNoMark (s : State) (action : Action) : Prop :=
  ∀ index exchange stored, action = .runStop index →
    s.stops[index]? = some exchange → exchange.Completes →
      s.objects.find? exchange.kind exchange.className = some stored →
        stored.isBeingStopped = true →
          exchange.Removes s.objects ∨
            Stopping (s.stops.eraseIdx index)
              (exchange.kind, exchange.className)

/-! ## One step -/

/-- A marked entry has an exchange that is still to call back. -/
def StopsPending (o : Objects) (stops : List StopExchange) : Prop :=
  ∀ ⦃m className stored⦄, o.find? m className = some stored →
    stored.isBeingStopped = true → Stopping stops (m, className)

theorem StopsPending.marksStops {s : State}
    (pending : StopsPending s.objects s.stops) : MarksStops s := by
  have answered : ∀ m className stored,
      s.objects.find? m className = some stored →
        ¬ Stopping s.stops (m, className) →
          stored.isBeingStopped = false := by
    intro m className stored found idle
    apply Bool.eq_false_iff.mpr
    intro marked
    exact idle (pending found marked)
  constructor
  · exact fun m className stored found marked => pending found marked
  · exact answered
  · intro m cmd className stored names found reachable idle
    exact ⟨names, found, reachable, answered m className stored found idle⟩

/-- Handlers that mark nothing keep the marks with their exchanges. -/
theorem StopsPending.changes {may : Deed → Prop} {o next : Objects}
    {stops : List StopExchange} (pending : StopsPending o stops)
    (changes : ChangesBy may o next) (idle : ¬ may .marksStop) :
    StopsPending next stops := by
  intro m className entry found marked
  rcases changes.origin found with ⟨stored, present, amends⟩
  exact pending present ((amends.isBeingStopped marked).resolve_right idle)

theorem stopHandler_completes {exchange : StopExchange}
    {outcome : Except Response StopExchange}
    (handled : stopHandler exchange = some outcome) :
    exchange.Completes ∧ (∃ response, outcome = .error response) ∨
      ¬ exchange.Completes ∧
        outcome = .ok { exchange with stage := .reading } := by
  unfold stopHandler at handled
  cases stage : exchange.stage with
  | writing =>
      simp only [stage] at handled
      cases write : exchange.peer.write with
      | none =>
          rw [write] at handled
          exact Or.inr ⟨by simp [StopExchange.Completes, stage, write],
            (Option.some.inj handled).symm⟩
      | some errc =>
          rw [write] at handled
          exact Or.inl ⟨Or.inr (by simp [write]), _,
            (Option.some.inj handled).symm⟩
  | reading =>
      simp only [stage] at handled
      rcases Option.map_eq_some_iff.mp handled with ⟨read, -, same⟩
      exact Or.inl ⟨Or.inl stage, _, same.symm⟩

/-- The socket takes an entry without a process with it. -/
theorem StopExchange.Removes.gone {exchange : StopExchange} {o : Objects}
    (removes : exchange.Removes o) :
    (stopObjects exchange o).find? exchange.kind exchange.className =
      none := by
  rcases removes with ⟨writing, idle⟩
  simp only [stopObjects, writing, find?_removeStoredSocket, if_true]
  cases found : o.find? exchange.kind exchange.className with
  | none => rfl
  | some stored =>
      have gone : stored.process = none := by
        simpa [processAt, found] using idle
      simp [gone, Option.filter]

/-- Any other entry stays, with its mark. -/
theorem stopObjects_marked {exchange : StopExchange} {o : Objects}
    {stored : StoredObject}
    (found : o.find? exchange.kind exchange.className = some stored)
    (marked : stored.isBeingStopped = true)
    (kept : ¬ exchange.Removes o) :
    ∃ entry, (stopObjects exchange o).find? exchange.kind
        exchange.className = some entry ∧
      entry.isBeingStopped = true := by
  cases stage : exchange.stage with
  | reading => exact ⟨stored, by simp [stopObjects, stage, found], marked⟩
  | writing =>
      have running : stored.process.isSome = true := by
        by_contra gone
        apply kept
        rw [Option.not_isSome_iff_eq_none] at gone
        exact ⟨stage, by simp [processAt, found, gone]⟩
      exact ⟨{ stored with endpoint := none }, by
        simp [stopObjects, stage, find?_removeStoredSocket, found, running,
          Option.filter], marked⟩

section OneStep

variable {config : Config} {s next : State} {action : Action}

theorem Stopping.append {stops : List StopExchange} {key : Key}
    (stopping : Stopping stops key) (more : List StopExchange) :
    Stopping (stops ++ more) key :=
  stopping.imp fun _ both => ⟨List.mem_append_left _ both.1, both.2⟩

/-- An exchange that is taken out leaves those of the other classes. -/
theorem Stopping.erase {stops : List StopExchange} {index : Nat}
    {exchange : StopExchange} {key : Key}
    (queued : stops[index]? = some exchange) (stopping : Stopping stops key)
    (other : (exchange.kind, exchange.className) ≠ key) :
    Stopping (stops.eraseIdx index) key := by
  rcases stopping with ⟨kept, member, here⟩
  rcases List.mem_iff_getElem?.mp member with ⟨place, at_⟩
  refine ⟨kept, List.mem_eraseIdx_iff_getElem?.mpr ⟨place, ?_, at_⟩, here⟩
  rintro rfl
  rcases Option.some.inj (queued.symm.trans at_) with rfl
  exact other here

theorem step_stopsPending (reached : Reached config s)
    (pending : StopsPending s.objects s.stops)
    (leaves : LeavesNoMark s action)
    (taken : step config s action = some (.ok next)) :
    StopsPending next.objects next.stops := by
  cases step_effects reached.aborted taken with
  | changes unread unexited changed kept =>
      rw [kept]
      refine StopsPending.changes ?_ changed id
      intro m className stored found
      exact pending (leaveQueue_find? s action m className ▸ found)
  | launches call className started handles starts launched kept =>
      rw [kept, launched]
      intro m name entry found marked
      rw [AddCall.launch, find?_launch] at found
      split at found
      · have absent := reached.sound.wellKept.absent starts.admits
        rw [← Option.some.inj found, Objects.launched, AddCall.request,
          absent] at marked
        simp at marked
      · exact pending found marked
  | marks exchange stored unread found marked queued =>
      rw [queued, marked]
      intro m className entry present isMarked
      rw [find?_put] at present
      split at present
      · rename_i here
        exact ⟨exchange, by simp, here.symm⟩
      · exact (pending present isMarked).append [exchange]
  | exchanges index exchange outcome runs queued handled stopped left =>
      rw [left, stopped]
      intro m className entry found marked
      have changed : ChangesBy NoDeed s.objects
          (stopObjects exchange s.objects) := stopObjects_changes ..
      have stopping := pending.changes changed id found marked
      by_cases here : (exchange.kind, exchange.className) = (m, className)
      · rcases Prod.mk.inj here with ⟨rfl, rfl⟩
        rcases stopHandler_completes handled with
          ⟨completes, -⟩ | ⟨-, rfl⟩
        · rcases changed.origin found with ⟨stored, present, amends⟩
          have was := (amends.isBeingStopped marked).resolve_right id
          rcases leaves index exchange stored runs queued completes present
            was with removes | others
          · rw [removes.gone] at found
            simp at found
          · exact others.append _
        · exact ⟨{ exchange with stage := .reading }, by
            simp [Except.toOption], rfl⟩
      · exact (stopping.erase queued here).append _
  | exits child ec c runs found exited kept =>
      rw [kept, exited]
      have delivered : ChangesBy (· = .deliversExit) s.objects
          (s.objects.deliverExit child) := .single (.deliverExit child rfl)
      exact pending.changes (delivered.trans (onProcessExit_changes ..))
        (by simp)
  | reads events fileWatcher after runs queued updated same kept =>
      rw [kept, same]
      have quiet := onInotifyUpdate_quiet updated
      exact pending.changes quiet.objects (by simp)

/-- A handler that leaves a mark behind leaves it in the next state. -/
theorem StopsPending.leavesNoMark
    (taken : step config s action = some (.ok next))
    (pending : StopsPending next.objects next.stops) :
    LeavesNoMark s action := by
  rintro index exchange stored rfl queued completes found marked
  by_cases removes : exchange.Removes s.objects
  · exact Or.inl removes
  · right
    rcases stopObjects_marked found marked removes with
      ⟨entry, present, isMarked⟩
    rcases step_handled taken with ⟨handled, ran, finished⟩
    have same := Handled.finish_same finished
    rcases runStop_takes ran with
      ⟨other, outcome, there, ended, objects, stops⟩
    rcases Option.some.inj (queued.symm.trans there) with rfl
    rw [same.objects, same.stops, objects, stops] at pending
    rcases stopHandler_completes ended with ⟨-, response, rfl⟩ | ⟨waits, -⟩
    · simpa [Except.toOption] using pending present isMarked
    · exact absurd completes waits

end OneStep

/-! ## Runs -/

section Runs

variable {config : Config} {startUp : StartUp} {start final : State}
  {attempts : List (State × Action)}

theorem construct_stopsPending
    (built : construct config startUp = .ok start) :
    StopsPending start.objects start.stops := by
  intro m className stored found
  rw [construct_absent built] at found
  simp at found

/--
The marks follow the stops, in every state of a run, precisely when no handler
that calls back leaves a marked entry to itself.
-/
theorem stops_marked_iff (built : construct config startUp = .ok start)
    (run : Run (step config) start attempts (.ok final)) :
    (∀ earlier later s, attempts = earlier ++ later →
        Run (step config) start earlier (.ok s) → MarksStops s) ↔
      Meets LeavesNoMark attempts := by
  constructor
  · rintro marks ⟨s, action⟩ member
    rcases run.attempt_reached member with ⟨earlier, later, rfl, before⟩
    rcases run.attempt_succeeds member with ⟨next, taken⟩
    have after := marks (earlier ++ [(s, action)]) later next (by simp)
      (before.next taken)
    exact StopsPending.leavesNoMark taken after.pending
  · rintro leaves earlier later s rfl reaches
    have both := reaches.invariant_of_meets LeavesNoMark
      (fun s => Reachable (step config) start s ∧
        StopsPending s.objects s.stops)
      ⟨.refl, construct_stopsPending built⟩ ?_ leaves.of_append rfl
    · exact both.2.marksStops
    · intro s action next holds leaves taken
      have here : Reached config s := ⟨startUp, start, built, holds.1⟩
      exact ⟨holds.1.advance taken,
        step_stopsPending here holds.2 leaves taken⟩

end Runs

namespace Installation

/-- A stopped monitor exits before the command is written. -/
def stopExited : List Action :=
  addedShoes ++ [socketCreated] ++
    request (about .mmStopMonitor "Shoes")
      { peer := { reply := transmit [Response.okResponse.toString] } } ++
      [.childExits 0, .runOnExit 0 none, .runStop 0, .runStop 0]

/-- A monitor answers a stop, and does not exit. -/
def stopSurvived : List Action :=
  stopShoes (transmit [Response.okResponse.toString]) ++ [.runStop 0]

end Installation

open Installation

def leavesNoMarkBy (s : State) : Action → Bool
  | .runStop index =>
      (s.stops[index]?).all fun exchange =>
        (s.objects.find? exchange.kind exchange.className).isNone ∨
          exchange.stage = .writing ∧ exchange.peer.write.isNone
  | _ => true

theorem leavesNoMark_of {s : State} {action : Action}
    (checked : leavesNoMarkBy s action = true) : LeavesNoMark s action := by
  rintro index exchange stored rfl queued completes found -
  rw [leavesNoMarkBy, queued, Option.all_some] at checked
  rcases of_decide_eq_true checked with absent | ⟨writing, written⟩
  · simp [found] at absent
  · rcases completes with reading | failed
    · simp [writing] at reading
    · simp [Option.isNone_iff_eq_none.mp written] at failed

/-- A monitor that exits while it is stopped leaves no mark. -/
theorem stops_marked_exited :
    ∃ final, execute (step config) start stopExited = some final ∧
      ∀ earlier later s,
        attemptsOf (step config) start stopExited = earlier ++ later →
          Run (step config) start earlier (.ok s) → MarksStops s := by
  have checked : (execute (step config) start stopExited).isSome ∧
      ((attemptsOf (step config) start stopExited).all fun attempt =>
        leavesNoMarkBy attempt.1 attempt.2) = true := by
    decide +kernel
  rcases Option.isSome_iff_exists.mp checked.1 with ⟨final, executed⟩
  refine ⟨final, executed,
    (stops_marked_iff start_built (.of_execute executed)).mpr ?_⟩
  intro attempt member
  exact leavesNoMark_of (List.all_eq_true.mp checked.2 attempt member)

/--
A monitor answers a stop and goes on running: its entry stays marked, and the
next stop is refused on account of one that was answered.
-/
theorem answered_stop_marked :
    ∃ s, Reached config s ∧ ¬ MarksStops s := by
  have setting : (execute (step config) start stopSurvived).any (fun s =>
      s.stops.isEmpty ∧ (s.objects.find? .monitor "Shoes").any fun stored =>
        stored.isBeingStopped) = true := by
    decide +kernel
  rcases (Option.any_eq_true _ _).mp setting with ⟨s, executed, facts⟩
  rcases of_decide_eq_true facts with ⟨idle, facts⟩
  rcases (Option.any_eq_true _ _).mp facts with ⟨stored, found, marked⟩
  refine ⟨s, reached executed, ?_⟩
  intro marks
  rcases marks.pending .monitor "Shoes" stored found marked with
    ⟨exchange, member, -⟩
  rw [List.isEmpty_iff.mp idle] at member
  simp at member

end KekMonitors.Manager
