import KekMonitors.Manager.AddRequests
import KekMonitors.Manager.Dispatch

/-!
# Handlers and their answers

Every step first does what its handler does on its own and then calls back
with the response, if there is one.  The two parts are separated here: the
first leaves the completions of combined commands alone, except that it may
create one, and the second touches nothing else but the written responses.
-/

namespace KekMonitors.Manager

open Connection
open Objects
open Timer
open Transition

/-- What a handler leaves behind, and what it calls back with. -/
structure Handled where
  state : State
  answer : Option (Callback × Response) := none

/-- Call back. -/
def Handled.finish (handled : Handled) : Except Fault State :=
  match handled.answer with
  | none => .ok handled.state
  | some (callback, response) => invoke callback response handled.state

def handledAdd (m : MonitorOrScraper) (cmd : Cmd) (env : Environment)
    (callback : Callback) (s : State) : Except Fault Handled := do
  let outcome ← onAdd m cmd env callback s.objects
  .ok
    { state := { s with objects := outcome.1 }
      answer := outcome.2.map fun response => (callback, response) }

def handledStop (m : MonitorOrScraper) (cmd : Cmd) (env : Environment)
    (callback : Callback) (s : State) : Except Fault Handled := do
  let (objects, outcome) ← onStop m cmd env callback s.objects
  let s := { s with objects := objects }
  match outcome with
  | .error response =>
      .ok
        { state := s
          answer := some (callback, response) }
  | .ok exchange => .ok { state := { s with stops := s.stops ++ [exchange] } }

def handledStatus (m : MonitorOrScraper) (callback : Callback) (s : State) :
    Except Fault Handled :=
  .ok
    { state := s
      answer := some (callback, onGetStatus m s.objects) }

def handledShutdown (connection : Nat) (s : State) : Handled where
  state :=
    { s with
      fileWatcher := s.fileWatcher.close
      server := UnixServer.shutdown s.server
      objects := (s.objects.terminateProcesses .monitor).terminateProcesses
        .scraper }
  answer := some (.client connection, Response.okResponse)

/-- The handlers of `p_callbacks`, before they call back. -/
def handledMap : List (CommandType ×
    (Cmd → Environment → Nat → State → Except Fault Handled)) :=
  [(Command.ping.code, fun _ _ connection s =>
      .ok
        { state := s
          answer := some (.client connection, onPing) }),
    (Command.mmStopMonitorManager.code, fun _ _ connection s =>
      .ok (handledShutdown connection s)),
    (Command.mmAddMonitor.code, fun cmd env connection s =>
      handledAdd .monitor cmd env (.client connection) s),
    (Command.mmAddScraper.code, fun cmd env connection s =>
      handledAdd .scraper cmd env (.client connection) s),
    (Command.mmAddMonitorScraper.code, fun cmd _ connection s =>
      .ok { state := createCompletion .onAdd cmd connection s }),
    (Command.mmGetMonitorStatus.code, fun _ _ connection s =>
      handledStatus .monitor (.client connection) s),
    (Command.mmGetScraperStatus.code, fun _ _ connection s =>
      handledStatus .scraper (.client connection) s),
    (Command.mmGetMonitorScraperStatus.code, fun cmd _ connection s =>
      .ok { state := createCompletion .onGetStatus cmd connection s }),
    (Command.mmStopMonitor.code, fun cmd env connection s =>
      handledStop .monitor cmd env (.client connection) s),
    (Command.mmStopScraper.code, fun cmd env connection s =>
      handledStop .scraper cmd env (.client connection) s),
    (Command.mmStopMonitorScraper.code, fun cmd _ connection s =>
      .ok { state := createCompletion .onStop cmd connection s })]

def handledCommand (err : Option ErrorCode) (cmd : Cmd) (env : Environment)
    (connection : Nat) (s : State) : Except Fault Handled :=
  if err.isSome then .ok { state := s }
  else
    match handledMap.lookup cmd.cmd with
    | none =>
        .ok
          { state := s
            answer := some (.client connection,
              { error := Error.unrecognizedCommand.code }) }
    | some handler => handler cmd env connection s

def handledHalf (half : PostedHalf) (env : Environment) (s : State) :
    Except Fault Handled :=
  match s.completions[half.completion]? with
  | none => .ok { state := s }
  | some c =>
      let callback := Callback.half half.completion
      match c.momanCb with
      | .onAdd => handledAdd half.kind c.cmd env callback s
      | .onGetStatus => handledStatus half.kind callback s
      | .onStop => handledStop half.kind c.cmd env callback s

def handledWait (timer : Nat) (s : State) : Option (Except Fault Handled) :=
  (waitHandler timer s).map fun handler => do
    let outcome ← handler.2
    .ok
      { state := { s with objects := outcome.1 }
        answer := outcome.2.map fun response =>
          (handler.1.callback, response) }

def handledExchange (index : Nat) (s : State) :
    Option (Except Fault Handled) := do
  let exchange ← s.stops[index]?
  let outcome ← stopHandler exchange
  let s :=
    { s with
      objects := stopObjects exchange s.objects
      stops := s.stops.eraseIdx index }
  match outcome with
  | .ok waiting =>
      some (.ok { state := { s with stops := s.stops ++ [waiting] } })
  | .error response =>
      some (.ok
        { state := s
          answer := some (exchange.callback, response) })

/-- The part of a step that comes before the answer. -/
def handle (config : Config) (s : State) :
    Action → Option (Except Fault Handled)
  | .commandRead index events env => do
      let (connection, server) ← UnixServer.commandRead index s.server
      let (err, cmd) ← asyncReadCmd events
      some (handledCommand err cmd env connection { s with server := server })
  | .runPosted env =>
      match s.posted with
      | [] => none
      | half :: posted =>
          some (handledHalf half env { s with posted := posted })
  | .runAddWait timer => handledWait timer s
  | .runStop index => handledExchange index s
  | action =>
      (step config s action).map fun result =>
        result.map fun next => { state := next }

/-! ## A step is a handler and its answer -/

theorem handleAdd_eq (m : MonitorOrScraper) (cmd : Cmd) (env : Environment)
    (callback : Callback) (s : State) :
    handleAdd m cmd env callback s =
      handledAdd m cmd env callback s >>= Handled.finish := by
  unfold handleAdd handledAdd
  cases onAdd m cmd env callback s.objects with
  | error fault => rfl
  | ok outcome =>
      rcases outcome with ⟨objects, _ | response⟩
      · rfl
      · rfl

theorem handleStop_eq (m : MonitorOrScraper) (cmd : Cmd) (env : Environment)
    (callback : Callback) (s : State) :
    handleStop m cmd env callback s =
      handledStop m cmd env callback s >>= Handled.finish := by
  unfold handleStop handledStop
  cases onStop m cmd env callback s.objects with
  | error fault => rfl
  | ok outcome =>
      rcases outcome with ⟨objects, response | exchange⟩
      · rfl
      · rfl

/-- The two tables have the same commands, with the same handlers. -/
theorem callbackMap_eq :
    callbackMap = handledMap.map fun entry =>
      (entry.1, fun cmd env connection s =>
        entry.2 cmd env connection s >>= Handled.finish) := by
  have add : ∀ m, (fun cmd env connection s =>
      handleAdd m cmd env (.client connection) s) =
        fun cmd env connection s =>
          handledAdd m cmd env (.client connection) s >>=
            Handled.finish := by
    intro m
    funext cmd env connection s
    exact handleAdd_eq ..
  have stop : ∀ m, (fun cmd env connection s =>
      handleStop m cmd env (.client connection) s) =
        fun cmd env connection s =>
          handledStop m cmd env (.client connection) s >>=
            Handled.finish := by
    intro m
    funext cmd env connection s
    exact handleStop_eq ..
  rw [callbackMap, add, add, stop, stop]
  rfl

theorem lookup_callbackMap (code : CommandType) :
    callbackMap.lookup code =
      (handledMap.lookup code).map fun handler cmd env connection s =>
        handler cmd env connection s >>= Handled.finish := by
  rw [callbackMap_eq]
  induction handledMap with
  | nil => rfl
  | cons entry entries ih =>
      rw [List.map_cons, List.lookup_cons, List.lookup_cons, ih]
      split <;> rfl

/-- The handlers that a command can reach. -/
inductive CommandHandler :
    (Cmd → Environment → Nat → State → Except Fault Handled) → Prop where
  | ping : CommandHandler fun _ _ connection s =>
      .ok
        { state := s
          answer := some (.client connection, onPing) }
  | shutdown : CommandHandler fun _ _ connection s =>
      .ok (handledShutdown connection s)
  | add (m : MonitorOrScraper) : CommandHandler fun cmd env connection s =>
      handledAdd m cmd env (.client connection) s
  | stop (m : MonitorOrScraper) : CommandHandler fun cmd env connection s =>
      handledStop m cmd env (.client connection) s
  | status (m : MonitorOrScraper) : CommandHandler fun _ _ connection s =>
      handledStatus m (.client connection) s
  | combined (momanCb : MonitorManagerCallback) :
      CommandHandler fun cmd _ connection s =>
        .ok { state := createCompletion momanCb cmd connection s }

theorem handledMap_cases {code : CommandType}
    {handler : Cmd → Environment → Nat → State → Except Fault Handled}
    (found : handledMap.lookup code = some handler) :
    CommandHandler handler := by
  rcases List.lookup_eq_some_iff.mp found with ⟨front, back, split, -⟩
  have member : (code, handler) ∈ handledMap := by
    rw [split]
    simp
  simp only [handledMap, List.mem_cons, List.not_mem_nil, or_false,
    Prod.mk.injEq] at member
  rcases member with ⟨-, rfl⟩ | ⟨-, rfl⟩ | ⟨-, rfl⟩ | ⟨-, rfl⟩ | ⟨-, rfl⟩ |
    ⟨-, rfl⟩ | ⟨-, rfl⟩ | ⟨-, rfl⟩ | ⟨-, rfl⟩ | ⟨-, rfl⟩ | ⟨-, rfl⟩
  · exact .ping
  · exact .shutdown
  · exact .add .monitor
  · exact .add .scraper
  · exact .combined .onAdd
  · exact .status .monitor
  · exact .status .scraper
  · exact .combined .onGetStatus
  · exact .stop .monitor
  · exact .stop .scraper
  · exact .combined .onStop

/-- What a command handler throws is not caught. -/
theorem CommandHandler.uncaught
    {handler : Cmd → Environment → Nat → State → Except Fault Handled}
    (handles : CommandHandler handler) (cmd : Cmd) (env : Environment)
    (connection : Nat) (s : State) {fault : Fault}
    (failed : handler cmd env connection s >>= Handled.finish =
      .error fault) : Uncaught fault := by
  cases handles with
  | ping => simp [bind, Except.bind, Handled.finish, invoke] at failed
  | shutdown =>
      simp [bind, Except.bind, Handled.finish, handledShutdown, invoke]
        at failed
  | status m =>
      simp [bind, Except.bind, Handled.finish, handledStatus, invoke]
        at failed
  | combined momanCb =>
      simp [bind, Except.bind, Handled.finish] at failed
  | add m =>
      by_cases fails : AddFails m cmd env s.objects
      · rcases onAdd_fails fails (.client connection) with
          ⟨raised, ran, uncaught⟩
        simp only [handledAdd, ran, bind, Except.bind,
          Except.error.injEq] at failed
        exact failed ▸ uncaught
      · rcases onAdd_returns fails (.client connection) with
          ⟨⟨objects, response⟩, ran⟩
        cases response <;>
          simp [handledAdd, ran, bind, Except.bind, Handled.finish, invoke]
            at failed
  | stop m =>
      by_cases fails : StopFails m cmd env s.objects
      · rcases onStop_fails fails (.client connection) with
          ⟨raised, ran, uncaught⟩
        simp only [handledStop, ran, bind, Except.bind,
          Except.error.injEq] at failed
        exact failed ▸ uncaught
      · rcases onStop_returns fails (.client connection) with
          ⟨⟨objects, outcome⟩, ran⟩
        cases outcome <;>
          simp [handledStop, ran, bind, Except.bind, Handled.finish, invoke]
            at failed

theorem handleCallback_eq (err : Option ErrorCode) (cmd : Cmd)
    (env : Environment) (connection : Nat) (s : State) :
    handleCallback err cmd env connection s =
      handledCommand err cmd env connection s >>= Handled.finish := by
  cases err with
  | some err => rfl
  | none =>
      cases found : handledMap.lookup cmd.cmd with
      | none =>
          have missing : callbackMap.lookup cmd.cmd = none := by
            rw [lookup_callbackMap, found]
            rfl
          rw [handleCallback_of_missing missing, handledCommand, found]
          rfl
      | some handler =>
          have known := lookup_callbackMap cmd.cmd
          rw [found] at known
          rw [handleCallback_of_lookup known, handledCommand, found]
          change catchOutOfRange _
              (handler cmd env connection s >>= Handled.finish) =
            handler cmd env connection s >>= Handled.finish
          cases ran : handler cmd env connection s >>= Handled.finish with
          | ok next => rfl
          | error fault =>
              exact catchOutOfRange_uncaught
                ((handledMap_cases found).uncaught cmd env connection s ran)

theorem runHalf_eq (half : PostedHalf) (env : Environment) (s : State) :
    runHalf half env s =
      handledHalf half env s >>= Handled.finish := by
  unfold runHalf handledHalf
  cases s.completions[half.completion]? with
  | none => rfl
  | some c =>
      dsimp only
      cases c.momanCb with
      | onAdd => exact handleAdd_eq ..
      | onGetStatus => rfl
      | onStop => exact handleStop_eq ..

theorem runAddWait_handled (timer : Nat) (s : State) :
    runAddWait timer s =
      (handledWait timer s).map (· >>= Handled.finish) := by
  rw [runAddWait_eq, handledWait, Option.map_map]
  congr 1
  funext handler
  rcases handler with ⟨request, fault | ⟨objects, _ | response⟩⟩
  · rfl
  · rfl
  · rfl

theorem runStop_handled (index : Nat) (s : State) :
    runStop index s =
      (handledExchange index s).map (· >>= Handled.finish) := by
  unfold runStop handledExchange
  cases s.stops[index]? with
  | none => rfl
  | some exchange =>
      dsimp only [Option.bind_eq_bind, Option.bind_some]
      cases stopHandler exchange with
      | none => rfl
      | some outcome => cases outcome <;> rfl

/-- Every step is its handler, followed by the answer. -/
theorem step_eq_handle (config : Config) (s : State) (action : Action) :
    step config s action =
      (handle config s action).map (· >>= Handled.finish) := by
  have plain : ∀ result : Option (Except Fault State), result =
      (result.map fun result =>
        result.map fun next => ({ state := next } : Handled)).map
          (· >>= Handled.finish) := by
    rintro (_ | _ | next) <;> rfl
  cases action with
  | commandRead index events env =>
      simp only [step, readCommand, handle]
      cases UnixServer.commandRead index s.server with
      | none => rfl
      | some accepted =>
          cases asyncReadCmd events with
          | none => rfl
          | some read =>
              exact congrArg some (handleCallback_eq ..)
  | runPosted env =>
      simp only [step, runPosted, handle]
      cases s.posted with
      | nil => rfl
      | cons half posted => exact congrArg some (runHalf_eq ..)
  | runAddWait timer => exact runAddWait_handled timer s
  | runStop index => exact runStop_handled index s
  | acceptCompletes index err => exact plain _
  | runOnConnect index => exact plain _
  | timerExpires timer => exact plain _
  | childExits child => exact plain _
  | runOnExit child ec => exact plain _
  | inotifyRead events => exact plain _
  | runVerification index => exact plain _

/-- A successful step has a successful handler, and its answer succeeds. -/
theorem step_handled {config : Config} {s next : State} {action : Action}
    (taken : step config s action = some (.ok next)) :
    ∃ handled, handle config s action = some (.ok handled) ∧
      handled.finish = .ok next := by
  rw [step_eq_handle] at taken
  rcases Option.map_eq_some_iff.mp taken with ⟨result, ran, finished⟩
  rcases bind_eq_ok.mp finished with ⟨handled, rfl, answered⟩
  exact ⟨handled, ran, answered⟩

/-- Calling back touches nothing that a handler does. -/
theorem Handled.finish_same {handled : Handled} {next : State}
    (finished : handled.finish = .ok next) :
    SameButAnswers handled.state next := by
  unfold Handled.finish at finished
  split at finished
  · rcases Except.ok.inj finished with rfl
    exact ⟨rfl, rfl, rfl, rfl, rfl, rfl, rfl⟩
  · exact invoke_same finished

/-! ## What a handler leaves alone -/

/-- The posted halves and their completions, once a handler has run. -/
inductive HalvesEffect (s : State) (action : Action) (next : State) :
    Prop where
  | same (other : ∀ env, action ≠ .runPosted env)
      (posted : next.posted = s.posted)
      (completions : next.completions = s.completions)
  | taken (env : Environment) (half : PostedHalf)
      (runs : action = .runPosted env)
      (posted : s.posted = half :: next.posted)
      (completions : next.completions = s.completions)
  | created (momanCb : MonitorManagerCallback) (cmd : Cmd)
      (connection : Nat) (other : ∀ env, action ≠ .runPosted env)
      (posted : next.posted = s.posted ++
        [{ kind := .monitor, completion := s.completions.length },
          { kind := .scraper, completion := s.completions.length }])
      (completions : next.completions = s.completions ++
        [{ momanCb := momanCb, cmd := cmd, connection := connection }])

/-- What the handler of a step does outside of the stored objects. -/
structure HandlerFrame (s : State) (action : Action) (next : State) :
    Prop where
  written : next.written = s.written
  fileWatcher : next.fileWatcher = s.fileWatcher ∨
    next.fileWatcher = s.fileWatcher.close ∨
      ∃ events, action = .inotifyRead events
  halves : HalvesEffect s action next
  sent : s.sent <+: next.sent

/-- A handler that touches the objects, the server and the stops alone. -/
theorem HandlerFrame.of_same {s next : State} {action : Action}
    (other : ∀ env, action ≠ .runPosted env)
    (written : next.written = s.written)
    (fileWatcher : next.fileWatcher = s.fileWatcher)
    (posted : next.posted = s.posted)
    (completions : next.completions = s.completions)
    (sent : next.sent = s.sent) : HandlerFrame s action next :=
  ⟨written, Or.inl fileWatcher, .same other posted completions,
    sent ▸ List.prefix_rfl⟩

/-- An add or a stop changes the objects and may queue an exchange. -/
theorem handledAdd_state {m : MonitorOrScraper} {cmd : Cmd}
    {env : Environment} {callback : Callback} {s : State}
    {handled : Handled}
    (ran : handledAdd m cmd env callback s = .ok handled) :
    ∃ objects, handled.state = { s with objects := objects } := by
  rcases bind_eq_ok.mp ran with ⟨outcome, -, same⟩
  rcases Except.ok.inj same with rfl
  exact ⟨outcome.1, rfl⟩

theorem handledStop_state {m : MonitorOrScraper} {cmd : Cmd}
    {env : Environment} {callback : Callback} {s : State}
    {handled : Handled}
    (ran : handledStop m cmd env callback s = .ok handled) :
    ∃ objects stops,
      handled.state = { s with objects := objects, stops := stops } := by
  rcases bind_eq_ok.mp ran with ⟨⟨objects, outcome⟩, -, same⟩
  cases outcome with
  | error response =>
      rcases Except.ok.inj same with rfl
      exact ⟨objects, s.stops, rfl⟩
  | ok exchange =>
      rcases Except.ok.inj same with rfl
      exact ⟨objects, _, rfl⟩

theorem handledCommand_frame {index : Nat} {events : List StreamEvent}
    {env : Environment} {err : Option ErrorCode} {cmd : Cmd}
    {connection : Nat} {s : State} {server : UnixServer.ServerState}
    {handled : Handled}
    (ran : handledCommand err cmd env connection
      { s with server := server } = .ok handled) :
    HandlerFrame s (.commandRead index events env) handled.state := by
  unfold handledCommand at ran
  split at ran
  · rcases Except.ok.inj ran with rfl
    exact .of_same (by simp) rfl rfl rfl rfl rfl
  · split at ran
    · rcases Except.ok.inj ran with rfl
      exact .of_same (by simp) rfl rfl rfl rfl rfl
    · rename_i handler found
      cases handledMap_cases found with
      | ping =>
          rcases Except.ok.inj ran with rfl
          exact .of_same (by simp) rfl rfl rfl rfl rfl
      | shutdown =>
          rcases Except.ok.inj ran with rfl
          exact ⟨rfl, Or.inr (Or.inl rfl), .same (by simp) rfl rfl,
            List.prefix_rfl⟩
      | add m =>
          rcases handledAdd_state ran with ⟨objects, same⟩
          rw [same]
          exact .of_same (by simp) rfl rfl rfl rfl rfl
      | stop m =>
          rcases handledStop_state ran with ⟨objects, stops, same⟩
          rw [same]
          exact .of_same (by simp) rfl rfl rfl rfl rfl
      | status m =>
          rcases Except.ok.inj ran with rfl
          exact .of_same (by simp) rfl rfl rfl rfl rfl
      | combined momanCb =>
          rcases Except.ok.inj ran with rfl
          exact ⟨rfl, Or.inl rfl,
            .created momanCb cmd connection (by simp) rfl rfl,
            List.prefix_rfl⟩

theorem handledHalf_state {half : PostedHalf} {env : Environment}
    {s : State} {handled : Handled}
    (ran : handledHalf half env s = .ok handled) :
    ∃ objects stops,
      handled.state = { s with objects := objects, stops := stops } := by
  unfold handledHalf at ran
  split at ran
  · rcases Except.ok.inj ran with rfl
    exact ⟨s.objects, s.stops, rfl⟩
  · dsimp only at ran
    split at ran
    · rcases handledAdd_state ran with ⟨objects, same⟩
      exact ⟨objects, s.stops, same⟩
    · rcases Except.ok.inj ran with rfl
      exact ⟨s.objects, s.stops, rfl⟩
    · exact handledStop_state ran

/-- A handler without an answer is the step itself. -/
theorem handled_of_plain {result : Option (Except Fault State)}
    {handled : Handled}
    (ran : (result.map fun result =>
      result.map fun next => ({ state := next } : Handled)) =
        some (.ok handled)) :
    result = some (.ok handled.state) ∧ handled.answer = none := by
  rcases Option.map_eq_some_iff.mp ran with ⟨outcome, rfl, mapped⟩
  cases outcome with
  | error fault => simp [Except.map] at mapped
  | ok next =>
      rcases Except.ok.inj mapped with rfl
      exact ⟨rfl, rfl⟩

theorem handledWait_state {timer : Nat} {s : State} {handled : Handled}
    (ran : handledWait timer s = some (.ok handled)) :
    ∃ objects, handled.state = { s with objects := objects } := by
  rcases Option.map_eq_some_iff.mp ran with ⟨handler, -, handled⟩
  rcases bind_eq_ok.mp handled with ⟨outcome, -, same⟩
  rcases Except.ok.inj same with rfl
  exact ⟨outcome.1, rfl⟩

theorem handledExchange_state {index : Nat} {s : State} {handled : Handled}
    (ran : handledExchange index s = some (.ok handled)) :
    ∃ objects stops,
      handled.state = { s with objects := objects, stops := stops } := by
  rcases Option.bind_eq_some_iff.mp ran with ⟨exchange, -, ran⟩
  rcases Option.bind_eq_some_iff.mp ran with ⟨outcome, -, ran⟩
  cases outcome with
  | ok waiting =>
      rcases Except.ok.inj (Option.some.inj ran) with rfl
      exact ⟨_, _, rfl⟩
  | error response =>
      rcases Except.ok.inj (Option.some.inj ran) with rfl
      exact ⟨_, _, rfl⟩

/-- The handler of any step stays within its frame. -/
theorem handle_frame {config : Config} {s : State} {action : Action}
    {handled : Handled}
    (ran : handle config s action = some (.ok handled)) :
    HandlerFrame s action handled.state := by
  cases action with
  | commandRead index events env =>
      rcases Option.bind_eq_some_iff.mp ran with
        ⟨⟨connection, server⟩, -, ran⟩
      rcases Option.bind_eq_some_iff.mp ran with ⟨⟨err, cmd⟩, -, ran⟩
      exact handledCommand_frame (Option.some.inj ran)
  | runPosted env =>
      simp only [handle] at ran
      split at ran
      · simp at ran
      · rename_i half posted queued
        rcases handledHalf_state (Option.some.inj ran) with
          ⟨objects, stops, same⟩
        rw [same]
        exact ⟨rfl, Or.inl rfl, .taken env half rfl queued rfl,
          List.prefix_rfl⟩
  | runAddWait timer =>
      rcases handledWait_state ran with ⟨objects, same⟩
      rw [same]
      exact .of_same (by simp) rfl rfl rfl rfl rfl
  | runStop index =>
      rcases handledExchange_state ran with ⟨objects, stops, same⟩
      rw [same]
      exact .of_same (by simp) rfl rfl rfl rfl rfl
  | acceptCompletes index err =>
      rcases acceptCompletes_takes (handled_of_plain ran).1 with
        ⟨server, -, same⟩
      rw [same]
      exact .of_same (by simp) rfl rfl rfl rfl rfl
  | runOnConnect index =>
      rcases runOnConnect_takes (handled_of_plain ran).1 with
        ⟨server, -, same⟩
      rw [same]
      exact .of_same (by simp) rfl rfl rfl rfl rfl
  | timerExpires timer =>
      rcases timerExpires_takes (handled_of_plain ran).1 with
        ⟨wait, -, -, same⟩
      rw [same]
      exact .of_same (by simp) rfl rfl rfl rfl rfl
  | childExits child =>
      rcases childExits_takes (handled_of_plain ran).1 with
        ⟨c, -, -, same⟩
      rw [same]
      exact .of_same (by simp) rfl rfl rfl rfl rfl
  | runOnExit child ec =>
      rcases runOnExit_takes (handled_of_plain ran).1 with
        ⟨c, -, -, -, same⟩
      rw [same]
      exact .of_same (by simp) rfl rfl rfl rfl rfl
  | inotifyRead events =>
      rcases inotifyRead_takes (handled_of_plain ran).1 with
        ⟨fileWatcher, -, updated⟩
      have quiet := onInotifyUpdate_quiet updated
      exact ⟨quiet.written, Or.inr (Or.inr ⟨events, rfl⟩),
        .same (by simp) quiet.posted quiet.completions, quiet.sent⟩
  | runVerification index =>
      rcases runVerification_state (handled_of_plain ran).1 with
        ⟨objects, verifications, same⟩
      rw [same]
      exact .of_same (by simp) rfl rfl rfl rfl rfl

/-- Only reading file events and the shutdown touch the file watcher. -/
theorem step_fileWatcher {config : Config} {s next : State}
    {action : Action} (taken : step config s action = some (.ok next)) :
    next.fileWatcher = s.fileWatcher ∨
      next.fileWatcher = s.fileWatcher.close ∨
        ∃ events, action = .inotifyRead events := by
  rcases step_handled taken with ⟨handled, ran, finished⟩
  rw [(Handled.finish_same finished).fileWatcher]
  exact (handle_frame ran).fileWatcher

/-- What has been sent stays sent. -/
theorem step_sent {config : Config} {s next : State} {action : Action}
    (taken : step config s action = some (.ok next)) :
    s.sent <+: next.sent := by
  rcases step_handled taken with ⟨handled, ran, finished⟩
  rw [(Handled.finish_same finished).sent]
  exact (handle_frame ran).sent

end KekMonitors.Manager
