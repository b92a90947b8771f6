import KekMonitors.Manager.Handling

/-!
# What one step does

Most handlers only take things away from the stored objects.  The others are
told apart here: a launch, a stop that begins, the handlers of a STOP exchange,
an exit and the events of files.  What any step can do is said once, so that an
invariant of the entries is checked against these cases alone.
-/

namespace KekMonitors.Manager

open Connection
open Objects
open Transition

/-- None of the deeds that only some handlers do. -/
abbrev NoDeed : Deed → Prop := fun _ => False

/-- What a step makes of the stored objects and of the STOP exchanges. -/
inductive StepEffect (config : Config) (s : State) (action : Action)
    (objects : Objects) (stops : List StopExchange) : Prop where
  | changes
      (unread : ∀ events, action ≠ .inotifyRead events)
      (unexited : ∀ child ec, action ≠ .runOnExit child ec)
      (changed : ChangesBy NoDeed (leaveQueue s action).objects objects)
      (kept : stops = s.stops)
  | launches (call : AddCall) (className : String) (started : Started)
      (handles : addCall s action = some call)
      (starts : call.Starts s.objects className started)
      (launched : objects = call.launch className started s.objects)
      (kept : stops = s.stops)
  | marks (exchange : StopExchange) (stored : StoredObject)
      (unread : ∀ events, action ≠ .inotifyRead events)
      (found : s.objects.find? exchange.kind exchange.className =
        some stored)
      (marked : objects =
        s.objects.put exchange.kind exchange.className
          { stored with isBeingStopped := true })
      (queued : stops = s.stops ++ [exchange])
  | exchanges (index : Nat) (exchange : StopExchange)
      (outcome : Except Response StopExchange)
      (runs : action = .runStop index)
      (queued : s.stops[index]? = some exchange)
      (handled : stopHandler exchange = some outcome)
      (stopped : objects = stopObjects exchange s.objects)
      (left : stops =
        s.stops.eraseIdx index ++ outcome.toOption.toList)
  | exits (child : Nat) (ec : Option ErrorCode) (c : Child)
      (runs : action = .runOnExit child ec)
      (found : s.objects.children[child]? = some c)
      (exited : objects =
        onProcessExit ec c.kind c.className (s.objects.deliverExit child))
      (kept : stops = s.stops)
  | reads (events : List KernelEvent) (fileWatcher : FileWatcher)
      (after : State)
      (runs : action = .inotifyRead events)
      (queued : s.fileWatcher.queueEvents events = .ok fileWatcher)
      (updated : onInotifyUpdate config
        { s with fileWatcher := fileWatcher } = .ok after)
      (same : objects = after.objects)
      (kept : stops = s.stops)

/-- The command handlers that add nothing to the entries, and mark none. -/
def Tame (handler : Cmd → Environment → Nat → State → Except Fault Handled) :
    Prop :=
  ∀ cmd env connection s handled,
    handler cmd env connection s = .ok handled →
      ChangesBy NoDeed s.objects handled.state.objects ∧
        handled.state.stops = s.stops

theorem tame_answer (answer : Nat → State → Callback × Response) :
    Tame fun _ _ connection s =>
      .ok
        { state := s
          answer := some (answer connection s) } := by
  intro cmd env connection s handled ran
  rcases Except.ok.inj ran with rfl
  exact ⟨.refl, rfl⟩

theorem tame_shutdown :
    Tame fun _ _ connection s => .ok (handledShutdown connection s) := by
  intro cmd env connection s handled ran
  rcases Except.ok.inj ran with rfl
  exact ⟨(terminateProcesses_changes .monitor s.objects).trans
    (terminateProcesses_changes .scraper _), rfl⟩

theorem tame_createCompletion (momanCb : MonitorManagerCallback) :
    Tame fun cmd _ connection s =>
      .ok { state := createCompletion momanCb cmd connection s } := by
  intro cmd env connection s handled ran
  rcases Except.ok.inj ran with rfl
  exact ⟨.refl, rfl⟩

/-- Only the adds and the stops are not tame. -/
theorem handledMap_tame {code : CommandType}
    {handler : Cmd → Environment → Nat → State → Except Fault Handled}
    (found : handledMap.lookup code = some handler) :
    (∃ m, code = (addCommand m).code ∧
        handler = fun cmd env connection s =>
          handledAdd m cmd env (.client connection) s) ∨
      (∃ m, handler = fun cmd env connection s =>
        handledStop m cmd env (.client connection) s) ∨
        Tame handler := by
  rcases List.lookup_eq_some_iff.mp found with ⟨front, back, split, -⟩
  have member : (code, handler) ∈ handledMap := by
    rw [split]
    simp
  simp only [handledMap, List.mem_cons, List.not_mem_nil, or_false,
    Prod.mk.injEq] at member
  rcases member with ⟨-, rfl⟩ | ⟨-, rfl⟩ | ⟨rfl, rfl⟩ | ⟨rfl, rfl⟩ |
    ⟨-, rfl⟩ | ⟨-, rfl⟩ | ⟨-, rfl⟩ | ⟨-, rfl⟩ | ⟨-, rfl⟩ | ⟨-, rfl⟩ |
    ⟨-, rfl⟩
  · exact Or.inr (Or.inr
      (tame_answer fun connection _ => (.client connection, onPing)))
  · exact Or.inr (Or.inr tame_shutdown)
  · exact Or.inl ⟨.monitor, rfl, rfl⟩
  · exact Or.inl ⟨.scraper, rfl, rfl⟩
  · exact Or.inr (Or.inr (tame_createCompletion .onAdd))
  · exact Or.inr (Or.inr (tame_answer fun connection s =>
      (.client connection, onGetStatus .monitor s.objects)))
  · exact Or.inr (Or.inr (tame_answer fun connection s =>
      (.client connection, onGetStatus .scraper s.objects)))
  · exact Or.inr (Or.inr (tame_createCompletion .onGetStatus))
  · exact Or.inr (Or.inl ⟨.monitor, rfl⟩)
  · exact Or.inr (Or.inl ⟨.scraper, rfl⟩)
  · exact Or.inr (Or.inr (tame_createCompletion .onStop))

/-- A step that handles neither waits nor exits nor files. -/
structure Plain (s : State) (action : Action) : Prop where
  unread : ∀ events, action ≠ .inotifyRead events
  unexited : ∀ child ec, action ≠ .runOnExit child ec
  queue : leaveQueue s action = s

/-- The state in which a command is handled has the same entries. -/
structure SameEntries (s middle : State) : Prop where
  objects : middle.objects = s.objects
  stops : middle.stops = s.stops

section Handlers

variable {config : Config} {s middle : State} {action : Action}
  {handled : Handled}

theorem Plain.changes (plain : Plain s action) {objects : Objects}
    (changed : ChangesBy NoDeed s.objects objects) :
    StepEffect config s action objects s.stops := by
  refine .changes plain.unread plain.unexited ?_ rfl
  rw [plain.queue]
  exact changed

theorem Plain.same (plain : Plain s action) (same : SameEntries s middle) :
    StepEffect config s action middle.objects middle.stops := by
  rw [same.objects, same.stops]
  exact plain.changes .refl

theorem handledAdd_effects {call : AddCall} (plain : Plain s action)
    (same : SameEntries s middle)
    (handles : addCall s action = some call)
    (ran : handledAdd call.kind call.cmd call.env call.callback middle =
      .ok handled) :
    StepEffect config s action handled.state.objects
      handled.state.stops := by
  rcases bind_eq_ok.mp ran with ⟨outcome, added, finished⟩
  rcases Except.ok.inj finished with rfl
  rw [same.objects] at added
  rcases onAdd_cases added with
    ⟨response, rfl, -⟩ | ⟨className, started, starts, rfl⟩
  · rw [← same.objects]
    exact plain.same same
  · exact .launches call className started handles starts rfl same.stops

theorem handledStop_effects {m : MonitorOrScraper} {cmd : Cmd}
    {env : Environment} {callback : Callback} (plain : Plain s action)
    (same : SameEntries s middle)
    (ran : handledStop m cmd env callback middle = .ok handled) :
    StepEffect config s action handled.state.objects
      handled.state.stops := by
  rcases bind_eq_ok.mp ran with ⟨outcome, stopped, finished⟩
  rw [same.objects] at stopped
  rcases onStop_cases stopped with
    ⟨response, rfl⟩ | ⟨exchange, stored, -, found, rfl⟩
  · rcases Except.ok.inj finished with rfl
    rw [← same.objects]
    exact plain.same same
  · rcases Except.ok.inj finished with rfl
    exact .marks exchange stored plain.unread found rfl
      (congrArg (· ++ [exchange]) same.stops)

theorem commandRead_effects {index : Nat} {events : List StreamEvent}
    {env : Environment}
    (ran : handle config s (.commandRead index events env) =
      some (.ok handled)) :
    StepEffect config s (.commandRead index events env)
      handled.state.objects handled.state.stops := by
  rcases Option.bind_eq_some_iff.mp ran with
    ⟨⟨connection, server⟩, accepted, ran⟩
  rcases Option.bind_eq_some_iff.mp ran with ⟨⟨err, cmd⟩, read, ran⟩
  have plain : Plain s (.commandRead index events env) :=
    ⟨by simp, by simp, rfl⟩
  have same : SameEntries s { s with server := server } := ⟨rfl, rfl⟩
  replace ran := Option.some.inj ran
  unfold handledCommand at ran
  split at ran
  · rcases Except.ok.inj ran with rfl
    exact plain.same same
  · rename_i unfailed
    split at ran
    · rcases Except.ok.inj ran with rfl
      exact plain.same same
    · rename_i handler found
      rcases handledMap_tame found with ⟨m, isAdd, rfl⟩ | ⟨m, rfl⟩ | tame
      · have read_ok : err = none := by simpa using unfailed
        have call : addCall s (.commandRead index events env) =
            commandCall none cmd env connection := by
          simp [addCall, accepted, read, read_ok]
        exact handledAdd_effects plain same
          (call.trans (commandCall_add isAdd env connection)) ran
      · exact handledStop_effects plain same ran
      · rcases tame cmd env connection _ handled ran with ⟨changed, kept⟩
        rw [kept]
        exact plain.changes changed

theorem runPosted_effects {env : Environment}
    (ran : handle config s (.runPosted env) = some (.ok handled)) :
    StepEffect config s (.runPosted env) handled.state.objects
      handled.state.stops := by
  have plain : Plain s (.runPosted env) := ⟨by simp, by simp, rfl⟩
  simp only [handle] at ran
  split at ran
  · simp at ran
  · rename_i half posted queued
    have same : SameEntries s { s with posted := posted } := ⟨rfl, rfl⟩
    replace ran := Option.some.inj ran
    unfold handledHalf at ran
    split at ran
    · rcases Except.ok.inj ran with rfl
      exact plain.same same
    · rename_i c found
      cases handler : c.momanCb with
      | onAdd =>
          rw [handler] at ran
          have present : s.completions[half.completion]? = some c := found
          let call : AddCall :=
            { kind := half.kind
              cmd := c.cmd
              env := env
              callback := .half half.completion }
          have handles : addCall s (.runPosted env) = some call := by
            simp [addCall, queued, halfCall, present, handler, call]
          exact handledAdd_effects plain same handles ran
      | onGetStatus =>
          rw [handler] at ran
          rcases Except.ok.inj ran with rfl
          exact plain.same same
      | onStop =>
          rw [handler] at ran
          exact handledStop_effects plain same ran

theorem runAddWait_effects {timer : Nat}
    (ran : handle config s (.runAddWait timer) = some (.ok handled)) :
    StepEffect config s (.runAddWait timer) handled.state.objects
      handled.state.stops := by
  rcases Option.map_eq_some_iff.mp ran with ⟨handler, waits, ran⟩
  rcases bind_eq_ok.mp ran with ⟨outcome, answered, finished⟩
  rcases Except.ok.inj finished with rfl
  unfold waitHandler at waits
  split at waits
  · simp at waits
  · split at waits
    · simp at waits
    · rcases Option.some.inj waits with rfl
      exact .changes (by simp) (by simp) (onAddTimer_changes answered) rfl

/-- A handler of an exchange takes it out, and may queue its next handler. -/
theorem runStop_takes {index : Nat}
    (ran : handle config s (.runStop index) = some (.ok handled)) :
    ∃ exchange outcome, s.stops[index]? = some exchange ∧
      stopHandler exchange = some outcome ∧
        handled.state.objects = stopObjects exchange s.objects ∧
          handled.state.stops =
            s.stops.eraseIdx index ++ outcome.toOption.toList := by
  rcases Option.bind_eq_some_iff.mp ran with ⟨exchange, queued, ran⟩
  rcases Option.bind_eq_some_iff.mp ran with ⟨outcome, ended, ran⟩
  refine ⟨exchange, outcome, queued, ended, ?_⟩
  cases outcome with
  | ok waiting =>
      rcases Except.ok.inj (Option.some.inj ran) with rfl
      exact ⟨rfl, rfl⟩
  | error response =>
      rcases Except.ok.inj (Option.some.inj ran) with rfl
      exact ⟨rfl, (List.append_nil _).symm⟩

/-- What the handler of any step does. -/
theorem handle_effects (aborted : Aborted s)
    (ran : handle config s action = some (.ok handled)) :
    StepEffect config s action handled.state.objects
      handled.state.stops := by
  cases action with
  | commandRead index events env => exact commandRead_effects ran
  | runPosted env => exact runPosted_effects ran
  | runAddWait timer => exact runAddWait_effects ran
  | runStop index =>
      rcases runStop_takes ran with
        ⟨exchange, outcome, queued, ended, objects, stops⟩
      exact .exchanges index exchange outcome rfl queued ended objects stops
  | acceptCompletes index err =>
      rcases acceptCompletes_takes (handled_of_plain ran).1 with
        ⟨server, -, same⟩
      rw [same]
      exact Plain.changes ⟨by simp, by simp, rfl⟩ .refl
  | runOnConnect index =>
      rcases runOnConnect_takes (handled_of_plain ran).1 with
        ⟨server, -, same⟩
      rw [same]
      exact Plain.changes ⟨by simp, by simp, rfl⟩ .refl
  | timerExpires timer =>
      rcases timerExpires_takes (handled_of_plain ran).1 with
        ⟨wait, -, -, same⟩
      rw [same]
      exact Plain.changes ⟨by simp, by simp, rfl⟩
        (.single (.expireTimer timer))
  | childExits child =>
      rcases childExits_takes (handled_of_plain ran).1 with
        ⟨c, -, -, same⟩
      rw [same]
      exact Plain.changes ⟨by simp, by simp, rfl⟩ (.single (.kill child))
  | runOnExit child ec =>
      rcases runOnExit_takes (handled_of_plain ran).1 with
        ⟨c, found, -, -, same⟩
      rw [same]
      exact .exits child ec c rfl found rfl rfl
  | inotifyRead events =>
      rcases inotifyRead_takes (handled_of_plain ran).1 with
        ⟨fileWatcher, queued, updated⟩
      exact .reads events fileWatcher _ rfl queued updated rfl
        (onInotifyUpdate_quiet updated).stops
  | runVerification index =>
      have same := runVerification_takes aborted (handled_of_plain ran).1
      rw [same]
      exact Plain.changes ⟨by simp, by simp, rfl⟩ .refl

end Handlers

/-- What any step does. -/
theorem step_effects {config : Config} {s next : State} {action : Action}
    (aborted : Aborted s)
    (taken : step config s action = some (.ok next)) :
    StepEffect config s action next.objects next.stops := by
  rcases step_handled taken with ⟨handled, ran, finished⟩
  have same := Handled.finish_same finished
  rw [same.objects, same.stops]
  exact handle_effects aborted ran

end KekMonitors.Manager
