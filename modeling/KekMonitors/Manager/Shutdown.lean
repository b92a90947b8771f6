import KekMonitors.Manager.Progress

/-!
# Shutting down

The shutdown closes the acceptor and the file watcher and terminates the
processes.  It does not refuse the commands of clients that are already
connected, nor the posted halves, so the manager stays down exactly as long as
none of these starts a process.
-/

namespace KekMonitors.Manager

open Connection
open Objects
open Transition

/-- The action reads a command to stop the manager. -/
def ReadsShutdown (action : Action) : Prop :=
  ∃ index events env cmd, action = .commandRead index events env ∧
    asyncReadCmd events = some (none, cmd) ∧
      cmd.cmd = Command.mmStopMonitorManager.code

/--
The step handles an add request that passes the checks of `onAdd` and whose
interpreter, registry and process start succeed.
-/
def StartsProcess (s : State) (action : Action) : Prop :=
  ∃ call className started, addCall s action = some call ∧
    call.Starts s.objects className started

def NoProcess (o : Objects) : Prop :=
  ∀ m className, o.processAt m className = none

/-- Nothing is queued or outstanding but the accept loop. -/
structure Drained (s : State) : Prop where
  completed : s.server.completed = []
  reading : s.server.reading = []
  posted : s.posted = []
  addWaits : s.objects.addWaits = ∅
  exits : ∀ child ∈ s.objects.children,
    child.alive = true ∨ child.exitPending = false
  verifications : s.verifications = []
  stops : s.stops = []

/--
After a shutdown no handler launches a process, and once all handlers have run
no entry has one.
-/
structure StaysDown (config : Config) (attempts : List (State × Action))
    (outcome : Except Fault State) : Prop where
  noLaunch : ∀ attempt ∈ attempts, ∀ next,
    step config attempt.1 attempt.2 = some (.ok next) →
      next.objects.children.length = attempt.1.objects.children.length
  noProcess : ∀ final, outcome = .ok final → Drained final →
    NoProcess final.objects

/-! ## The stored objects -/

/-- Only a launch brings a process back. -/
theorem NoProcess.changes {o next : Objects} (idle : NoProcess o)
    (changes : Changes o next) : NoProcess next := by
  intro m className
  apply Option.eq_none_iff_forall_ne_some.mpr
  intro process held
  have before := changes.processAt held
  rw [idle m className] at before
  simp at before

theorem terminated_noProcess (o : Objects) :
    NoProcess ((o.terminateProcesses .monitor).terminateProcesses
      .scraper) := by
  intro m className
  cases m with
  | monitor =>
      apply processAt_terminateFrom_of_none
      exact processAt_terminateProcesses .monitor o className
  | scraper => exact processAt_terminateProcesses .scraper _ className

/-! ## Steps -/

/-- A step that starts no process keeps the children and brings none back. -/
theorem step_quiet {config : Config} {s next : State} {action : Action}
    (aborted : Aborted s) (quiet : ¬ StartsProcess s action)
    (taken : step config s action = some (.ok next)) :
    Changes (leaveQueue s action).objects next.objects := by
  rcases (step_effect aborted taken).objects with
    ⟨changes, -⟩ | ⟨call, className, started, handles, starts, -⟩
  · exact changes
  · rw [leaveQueue_of_addCall handles] at starts
    exact absurd ⟨call, className, started, handles, starts⟩ quiet

/-- A step that starts a process has one child more. -/
theorem step_launches (config : Config) {s : State} {action : Action}
    (starts : StartsProcess s action) :
    ∃ next, step config s action = some (.ok next) ∧
      next.objects.children.length = s.objects.children.length + 1 := by
  rcases starts with ⟨call, className, started, handles, starts⟩
  rcases step_of_starts handles starts with ⟨next, taken, launched⟩
  refine ⟨next, taken, ?_⟩
  rw [launched]
  simp [AddCall.launch, launch]

/-- The shutdown itself succeeds and terminates what runs. -/
theorem step_shutdown {config : Config} {s : State} {action : Action}
    {result : Except Fault State} (reads : ReadsShutdown action)
    (taken : step config s action = some result) :
    ∃ next, result = .ok next ∧
      next.objects =
        (s.objects.terminateProcesses .monitor).terminateProcesses
          .scraper := by
  rcases reads with ⟨index, events, env, cmd, rfl, read, isShutdown⟩
  rcases Option.bind_eq_some_iff.mp taken with
    ⟨⟨connection, server⟩, accepted, -⟩
  have found : callbackMap.lookup cmd.cmd =
      some fun _ _ connection s => shutdown connection s := by
    rw [isShutdown]
    rfl
  have handled := readCommand_of_read accepted read env
  rw [handleCallback_of_lookup found] at handled
  rcases Option.some.inj (taken.symm.trans handled) with rfl
  exact ⟨_, rfl, rfl⟩

/--
After a shutdown the manager stays down precisely when no later handler gets
an add request that starts a process.
-/
theorem staysDown_iff {config : Config} {startUp : StartUp}
    {start s : State} {before after : List (State × Action)}
    {action : Action} {outcome : Except Fault State}
    (built : construct config startUp = .ok start)
    (run : Run (step config) start (before ++ (s, action) :: after) outcome)
    (reads : ReadsShutdown action) :
    StaysDown config after outcome ↔
      Meets (fun s action => ¬ StartsProcess s action) after := by
  rcases run.after_attempt with ⟨earlier, result, taken, rest⟩
  rcases step_shutdown reads taken with ⟨down, rfl, terminated⟩
  have idle : NoProcess down.objects :=
    terminated ▸ terminated_noProcess s.objects
  have reachable : Reachable (step config) start down :=
    Reachable.advance ⟨before, earlier⟩ taken
  have aborted : ∀ {front state},
      Run (step config) down front (.ok state) → Aborted state := by
    intro front state front_run
    apply aborted_of_reachable (construct_effect built).2
    exact reachable.continue ⟨front, front_run⟩
  constructor
  · intro stays attempt member starts
    rcases step_launches config starts with
      ⟨next, launched, more⟩
    have same := stays.noLaunch attempt member next launched
    omega
  · intro quiet
    constructor
    · rintro ⟨state, action⟩ member next taken
      rcases rest.attempt_reached member with ⟨front, back, -, front_run⟩
      rw [(step_quiet (aborted front_run) (quiet _ member)
        taken).children_length, leaveQueue_children]
    · rintro final rfl -
      have invariant := rest.invariant_of_meets
        (fun s action => ¬ StartsProcess s action)
        (fun s => Aborted s ∧ NoProcess s.objects)
        ⟨aborted .start, idle⟩ ?_ quiet rfl
      · exact invariant.2
      · intro state action next holds quiet taken
        have idle : NoProcess (leaveQueue state action).objects := by
          intro m className
          rw [processAt, leaveQueue_find?]
          exact holds.2 m className
        exact ⟨step_aborted holds.1 taken,
          idle.changes (step_quiet holds.1 quiet taken)⟩

/-! ## A client that is already connected -/

namespace Installation

/-- Two clients are connected, and the second has not sent its command. -/
def twoClients : List Action :=
  [.acceptCompletes 0 none, .runOnConnect 0, .acceptCompletes 0 none,
    .runOnConnect 0]

def stopManager : Cmd := { cmd := Command.mmStopMonitorManager.code }

/-- The first client stops the manager. -/
def stopAction : Action :=
  .commandRead 0 (transmit [stopManager.toString]) {}

private theorem reads_stopAction : ReadsShutdown stopAction :=
  ⟨0, _, _, stopManager, rfl, read_command (by decide +kernel), rfl⟩

/-- Then the command of the other client is read. -/
private theorem stopped_run (late : Action)
    (succeeds : (execute (step config) start
      (twoClients ++ [stopAction, late])).isSome = true) :
    ∃ s down final, execute (step config) start
        (twoClients ++ [stopAction]) = some down ∧
      step config down late = some (.ok final) ∧
      Run (step config) start
        (attemptsOf (step config) start twoClients ++
          (s, stopAction) :: [(down, late)]) (.ok final) := by
  rcases Option.isSome_iff_exists.mp succeeds with ⟨final, executed⟩
  have run := Run.of_execute executed
  rw [execute_append] at executed
  rcases Option.bind_eq_some_iff.mp executed with ⟨s, front, executed⟩
  rw [attemptsOf_append front] at run
  simp only [execute, attemptsOf] at executed run
  split at executed
  · rename_i down stopped
    split at executed
    · rename_i last ended
      rcases Option.some.inj executed with rfl
      refine ⟨s, down, last, ?_, ended, ?_⟩
      · rw [execute_append, front]
        simp [execute, stopped]
      · simpa [stopped, ended] using run
    · simp at executed
  · simp at executed

end Installation

open Installation

/-- A ping after the shutdown leaves the manager down. -/
theorem staysDown_ping :
    ∃ down final, StaysDown config
      [(down, .commandRead 0 (transmit [({} : Cmd).toString]) {})]
        (.ok final) := by
  rcases stopped_run
    (.commandRead 0 (transmit [({} : Cmd).toString]) {})
    (by decide +kernel) with ⟨s, down, final, -, -, run⟩
  refine ⟨down, final, (staysDown_iff start_built run
    reads_stopAction).mpr ?_⟩
  rintro attempt member ⟨call, className, started, handles, -⟩
  rcases List.mem_singleton.mp member with rfl
  rcases Option.bind_eq_some_iff.mp handles with
    ⟨⟨connection, server⟩, -, handles⟩
  rw [read_command (by decide +kernel)] at handles
  change commandCall none {} {} connection = some call at handles
  have isAdd := (commandCall_eq_some handles).2.1
  have isPing : ∀ m, ({} : Cmd).cmd ≠ (addCommand m).code := by
    rintro (_ | _) <;> decide
  exact isPing call.kind isAdd

/-- The other client adds a monitor, after the shutdown. -/
def lateAdd : Action :=
  .commandRead 0 (transmit [(about .mmAddMonitor "Shoes").toString])
    environment

/-- The late process is launched, so the manager does not stay down. -/
theorem add_after_shutdown :
    ∃ s before down final,
      Run (step config) start
        (before ++ (s, stopAction) :: [(down, lateAdd)]) (.ok final) ∧
      ReadsShutdown stopAction ∧
        ¬ StaysDown config [(down, lateAdd)] (.ok final) := by
  rcases stopped_run lateAdd (by decide +kernel) with
    ⟨s, down, final, stopped, launched, run⟩
  refine ⟨s, _, down, final, run, reads_stopAction, ?_⟩
  intro stays
  have same := stays.noLaunch _ List.mem_cons_self final launched
  have counts : ((execute (step config) start
      (twoClients ++ [stopAction])).bind fun down =>
        (execute (step config) down [lateAdd]).map fun final =>
          (down.objects.children.length, final.objects.children.length)) =
      some (0, 1) := by
    decide +kernel
  rw [stopped] at counts
  simp only [execute, launched, Option.bind_some, Option.map_some,
    Option.some.injEq, Prod.mk.injEq] at counts
  rw [counts.1, counts.2] at same
  simp at same

end KekMonitors.Manager
