import KekMonitors.Manager.Replies

/-!
# What a command is answered with

A client gets replies to its own command only, and each of them is one that
the handler of this command can give: at once, from an add timer, from the
process that was told to stop, or from the two halves of a combined command.
-/

namespace KekMonitors.Manager

open Connection
open Objects
open Timer
open Transition

/-! ## The contract -/

/-- The command that runs a handler for one kind. -/
def singleCommand : MonitorManagerCallback → MonitorOrScraper → Command
  | .onAdd, m => addCommand m
  | .onGetStatus, .monitor => .mmGetMonitorStatus
  | .onGetStatus, .scraper => .mmGetScraperStatus
  | .onStop, m => stopCommand m

/-- The command that runs a handler for both kinds. -/
def combinedCommand : MonitorManagerCallback → Command
  | .onAdd => .mmAddMonitorScraper
  | .onGetStatus => .mmGetMonitorScraperStatus
  | .onStop => .mmStopMonitorScraper

/-- The error codes of its own that the handler of one kind can report. -/
def ownErrors : MonitorManagerCallback → MonitorOrScraper → List Error
  | .onAdd, m =>
      [.ok, .missingPayload, .missingPayloadArgs, addError m,
        notRegisteredError m]
  | .onGetStatus, _ => [.ok]
  | .onStop, m =>
      [.missingPayload, .missingPayloadArgs, .socketDoesntExist, stopError m]

/-- The response reports an error of the handler's own. -/
def ReportsOwn (momanCb : MonitorManagerCallback) (m : MonitorOrScraper)
    (response : Response) : Prop :=
  ∃ error ∈ ownErrors momanCb m, response.error = error.code

/--
The handler of a stop passes on what the monitored process has sent, or the
default response where its reply could not be read.
-/
def HandsOn (s : State) (action : Action) (m : MonitorOrScraper)
    (callback : Callback) (response : Response) : Prop :=
  ∃ (index : Nat) (exchange : StopExchange) (err : Option ErrorCode),
    action = .runStop index ∧ s.stops[index]? = some exchange ∧
      exchange.stage = .reading ∧ exchange.kind = m ∧
        exchange.callback = callback ∧
          asyncReadResponse exchange.peer.reply = some (err, response)

/-- A stop of the run has passed on the response. -/
def PassedOn (attempts : List (State × Action)) (m : MonitorOrScraper)
    (callback : Callback) (response : Response) : Prop :=
  ∃ attempt ∈ attempts,
    HandsOn attempt.1 attempt.2 m callback response

/-- What the handler of one kind answers to its callback in a run. -/
inductive FitsHalf (attempts : List (State × Action)) (callback : Callback)
    (momanCb : MonitorManagerCallback) (m : MonitorOrScraper)
    (response : Response) : Prop where
  | own (reports : ReportsOwn momanCb m response)
  | passedOn (stops : momanCb = .onStop)
      (passed : PassedOn attempts m callback response)

/-- What is written to a client that has sent a command. -/
inductive Fits (attempts : List (State × Action)) (connection : Nat)
    (code : CommandType) (response : Response) : Prop where
  | ping (asked : code = Command.ping.code) (same : response = onPing)
  | shutdown (asked : code = Command.mmStopMonitorManager.code)
      (same : response = Response.okResponse)
  | single (momanCb : MonitorManagerCallback) (m : MonitorOrScraper)
      (asked : code = (singleCommand momanCb m).code)
      (fits : FitsHalf attempts (.client connection) momanCb m response)
  | combined (momanCb : MonitorManagerCallback) (completion : Nat)
      (first second : Response) (m other : MonitorOrScraper)
      (asked : code = (combinedCommand momanCb).code)
      (firstFits : FitsHalf attempts (.half completion) momanCb m first)
      (secondFits : FitsHalf attempts (.half completion) momanCb other second)
      (made : completionCb momanCb first second = .ok response)
  | unrecognized (unknown : callbackMap.lookup code = none)
      (same : response = { error := Error.unrecognizedCommand.code })

/-! ## Handlers -/

/-- The handler of one kind, before it calls back. -/
def handledKind (momanCb : MonitorManagerCallback) (m : MonitorOrScraper)
    (cmd : Cmd) (env : Environment) (callback : Callback) (s : State) :
    Except Fault Handled :=
  match momanCb with
  | .onAdd => handledAdd m cmd env callback s
  | .onGetStatus => handledStatus m callback s
  | .onStop => handledStop m cmd env callback s

/-- The handlers of `p_callbacks`, each with the command it is for. -/
inductive HandlerOf : CommandType →
    (Cmd → Environment → Nat → State → Except Fault Handled) → Prop where
  | ping : HandlerOf Command.ping.code fun _ _ connection s =>
      .ok
        { state := s
          answer := some (.client connection, onPing) }
  | shutdown : HandlerOf Command.mmStopMonitorManager.code
      fun _ _ connection s => .ok (handledShutdown connection s)
  | single (momanCb : MonitorManagerCallback) (m : MonitorOrScraper) :
      HandlerOf (singleCommand momanCb m).code fun cmd env connection s =>
        handledKind momanCb m cmd env (.client connection) s
  | combined (momanCb : MonitorManagerCallback) :
      HandlerOf (combinedCommand momanCb).code fun cmd _ connection s =>
        .ok { state := createCompletion momanCb cmd connection s }

theorem handledMap_handlerOf {code : CommandType}
    {handler : Cmd → Environment → Nat → State → Except Fault Handled}
    (found : handledMap.lookup code = some handler) :
    HandlerOf code handler := by
  rcases List.lookup_eq_some_iff.mp found with ⟨front, back, split, -⟩
  have member : (code, handler) ∈ handledMap := by
    rw [split]
    simp
  simp only [handledMap, List.mem_cons, List.not_mem_nil, or_false,
    Prod.mk.injEq] at member
  rcases member with ⟨rfl, rfl⟩ | ⟨rfl, rfl⟩ | ⟨rfl, rfl⟩ | ⟨rfl, rfl⟩ |
    ⟨rfl, rfl⟩ | ⟨rfl, rfl⟩ | ⟨rfl, rfl⟩ | ⟨rfl, rfl⟩ | ⟨rfl, rfl⟩ |
    ⟨rfl, rfl⟩ | ⟨rfl, rfl⟩
  · exact .ping
  · exact .shutdown
  · exact .single .onAdd .monitor
  · exact .single .onAdd .scraper
  · exact .combined .onAdd
  · exact .single .onGetStatus .monitor
  · exact .single .onGetStatus .scraper
  · exact .combined .onGetStatus
  · exact .single .onStop .monitor
  · exact .single .onStop .scraper
  · exact .combined .onStop

section Handlers

variable {m : MonitorOrScraper} {cmd : Cmd} {env : Environment}
  {callback : Callback} {o : Objects}

theorem nameArgument_error {response : Response}
    (refused : nameArgument cmd = .ok (.error response)) :
    response.error = Error.missingPayload.code ∨
      response.error = Error.missingPayloadArgs.code := by
  unfold nameArgument at refused
  split at refused
  · rcases Except.error.inj (Except.ok.inj refused) with rfl
    exact Or.inl rfl
  · split at refused
    · rcases Except.error.inj (Except.ok.inj refused) with rfl
      exact Or.inr rfl
    · split at refused <;> simp at refused

theorem refuse_error {stored : StoredObject} {response : Response}
    (refused : refuse m stored = some response) :
    response.error = (addError m).code := by
  unfold refuse at refused
  split at refused
  · rw [← Option.some.inj refused]
    rfl
  · split at refused
    · rw [← Option.some.inj refused]
      rfl
    · split at refused
      · rw [← Option.some.inj refused]
        rfl
      · simp at refused

theorem startProcess_error {response : Response}
    (refused : startProcess m env = .ok (.error response)) :
    response.error = (addError m).code ∨
      response.error = (notRegisteredError m).code := by
  unfold startProcess at refused
  split at refused
  · simp at refused
  · split at refused
    · rw [← Except.error.inj (Except.ok.inj refused)]
      exact Or.inl rfl
    · split at refused
      · rw [← Except.error.inj (Except.ok.inj refused)]
        exact Or.inl rfl
      · simp at refused
      · rw [← Except.error.inj (Except.ok.inj refused)]
        exact Or.inr rfl
      · simp at refused
      · split at refused <;> simp at refused

theorem onAdd_error {objects : Objects} {response : Response}
    (ran : onAdd m cmd env callback o = .ok (objects, some response)) :
    ReportsOwn .onAdd m response := by
  rcases bind_eq_ok.mp ran with ⟨argument, named, ran⟩
  cases argument with
  | error refused =>
      rcases Prod.mk.inj (Except.ok.inj ran) with ⟨-, same⟩
      rcases Option.some.inj same with rfl
      rcases nameArgument_error named with code | code
      · exact ⟨.missingPayload, by simp [ownErrors], code⟩
      · exact ⟨.missingPayloadArgs, by simp [ownErrors], code⟩
  | ok className =>
      dsimp only at ran
      split at ran
      · rename_i refused refuses
        rcases Prod.mk.inj (Except.ok.inj ran) with ⟨-, same⟩
        rcases Option.some.inj same with rfl
        rcases Option.bind_eq_some_iff.mp refuses with ⟨stored, -, refused⟩
        exact ⟨addError m, by simp [ownErrors], refuse_error refused⟩
      · rcases bind_eq_ok.mp ran with ⟨started, starts, ran⟩
        cases started with
        | error refused =>
            rcases Prod.mk.inj (Except.ok.inj ran) with ⟨-, same⟩
            rcases Option.some.inj same with rfl
            rcases startProcess_error starts with code | code
            · exact ⟨addError m, by simp [ownErrors], code⟩
            · exact ⟨notRegisteredError m, by simp [ownErrors], code⟩
        | ok started => simp at ran

theorem onAddTimer_error {request : AddRequest} {status : WaitStatus}
    {objects : Objects} {response : Response}
    (ran : onAddTimer request status o = .ok (objects, some response)) :
    ReportsOwn .onAdd request.kind response := by
  have failed : ∀ info, ReportsOwn .onAdd request.kind
      (addFailed request.kind info) := fun info =>
    ⟨addError request.kind, by simp [ownErrors], rfl⟩
  have succeeded : ReportsOwn .onAdd request.kind Response.okResponse :=
    ⟨.ok, by simp [ownErrors], rfl⟩
  unfold onAddTimer at ran
  cases status with
  | waiting => simp at ran
  | cancelled =>
      dsimp only at ran
      split at ran
      · rcases Prod.mk.inj (Except.ok.inj ran) with ⟨-, same⟩
        exact Option.some.inj same ▸ failed _
      · split at ran
        · rcases Prod.mk.inj (Except.ok.inj ran) with ⟨-, same⟩
          exact Option.some.inj same ▸ succeeded
        · simp at ran
  | expired =>
      dsimp only at ran
      split at ran
      · rcases Prod.mk.inj (Except.ok.inj ran) with ⟨-, same⟩
        exact Option.some.inj same ▸ failed _
      · split at ran
        · simp at ran
        · split at ran
          · rcases Prod.mk.inj (Except.ok.inj ran) with ⟨-, same⟩
            exact Option.some.inj same ▸ succeeded
          · rcases Prod.mk.inj (Except.ok.inj ran) with ⟨-, same⟩
            exact Option.some.inj same ▸ failed _

/-- A stop that is not sent is refused with one of its errors. -/
theorem onStop_error {objects : Objects} {response : Response}
    (ran : onStop m cmd env callback o = .ok (objects, .error response)) :
    ReportsOwn .onStop m response := by
  rcases bind_eq_ok.mp ran with ⟨argument, named, ran⟩
  cases argument with
  | error refused =>
      rcases Prod.mk.inj (Except.ok.inj ran) with ⟨-, same⟩
      rcases Except.error.inj same with rfl
      rcases nameArgument_error named with code | code
      · exact ⟨.missingPayload, by simp [ownErrors], code⟩
      · exact ⟨.missingPayloadArgs, by simp [ownErrors], code⟩
  | ok className =>
      dsimp only at ran
      split at ran
      · rcases Prod.mk.inj (Except.ok.inj ran) with ⟨-, same⟩
        rcases Except.error.inj same with rfl
        exact ⟨.socketDoesntExist, by simp [ownErrors], rfl⟩
      · split at ran
        · rcases Prod.mk.inj (Except.ok.inj ran) with ⟨-, same⟩
          rcases Except.error.inj same with rfl
          exact ⟨.socketDoesntExist, by simp [ownErrors], rfl⟩
        · split at ran
          · rcases Prod.mk.inj (Except.ok.inj ran) with ⟨-, same⟩
            rcases Except.error.inj same with rfl
            exact ⟨stopError m, by simp [ownErrors], rfl⟩
          · split at ran <;> simp at ran

/-- A stop is sent for its kind, and its client. -/
theorem onStop_sends {objects : Objects} {exchange : StopExchange}
    (ran : onStop m cmd env callback o = .ok (objects, .ok exchange)) :
    exchange.kind = m ∧ exchange.callback = callback := by
  rcases bind_eq_ok.mp ran with ⟨argument, -, ran⟩
  cases argument with
  | error refused => simp at ran
  | ok className =>
      dsimp only at ran
      split at ran
      · simp at ran
      · split at ran
        · simp at ran
        · split at ran
          · simp at ran
          · split at ran
            · simp at ran
            · rcases Prod.mk.inj (Except.ok.inj ran) with ⟨-, same⟩
              rw [← Except.ok.inj same]
              exact ⟨rfl, rfl⟩

/-- An exchange fails, has its response, or goes on for the same client. -/
theorem stopHandler_answers {exchange : StopExchange}
    {outcome : Except Response StopExchange}
    (handles : stopHandler exchange = some outcome) :
    (∀ response, outcome = .error response →
        ReportsOwn .onStop exchange.kind response ∨
        exchange.stage = .reading ∧ ∃ err,
          asyncReadResponse exchange.peer.reply = some (err, response)) ∧
      ∀ waiting, outcome = .ok waiting →
        waiting.kind = exchange.kind ∧
          waiting.callback = exchange.callback := by
  unfold stopHandler at handles
  split at handles
  · split at handles
    · rw [← Option.some.inj handles]
      refine ⟨by simp, fun waiting same => ?_⟩
      rw [← Except.ok.inj same]
      exact ⟨rfl, rfl⟩
    · rw [← Option.some.inj handles]
      refine ⟨fun response same => ?_, by simp⟩
      exact Except.error.inj same ▸
        Or.inl ⟨stopError exchange.kind, by simp [ownErrors], rfl⟩
  · rename_i reading
    rcases Option.map_eq_some_iff.mp handles with ⟨⟨err, answer⟩, read, rfl⟩
    refine ⟨fun response same => ?_, by simp⟩
    rcases Except.error.inj same with rfl
    exact Or.inr ⟨reading, err, read⟩

/-- What the handler of one kind does with its callback. -/
structure ServesHalf (momanCb : MonitorManagerCallback)
    (m : MonitorOrScraper) (callback : Callback) (s : State)
    (handled : Handled) : Prop where
  answer : ∀ called response, handled.answer = some (called, response) →
    called = callback ∧ ReportsOwn momanCb m response
  stops : ∀ exchange ∈ handled.state.stops, exchange ∈ s.stops ∨
    momanCb = .onStop ∧ exchange.kind = m ∧ exchange.callback = callback
  completions : handled.state.completions = s.completions
  written : handled.state.written = s.written

theorem handledKind_serves {momanCb : MonitorManagerCallback} {s : State}
    {handled : Handled}
    (ran : handledKind momanCb m cmd env callback s = .ok handled) :
    ServesHalf momanCb m callback s handled := by
  cases momanCb with
  | onAdd =>
      rcases bind_eq_ok.mp ran with ⟨⟨objects, outcome⟩, added, same⟩
      rcases Except.ok.inj same with rfl
      refine ⟨?_, fun _ => Or.inl, rfl, rfl⟩
      intro called response answered
      rcases Option.map_eq_some_iff.mp answered with ⟨value, rfl, pair⟩
      rcases Prod.mk.inj pair with ⟨rfl, rfl⟩
      exact ⟨rfl, onAdd_error added⟩
  | onGetStatus =>
      rcases Except.ok.inj ran with rfl
      refine ⟨?_, fun _ => Or.inl, rfl, rfl⟩
      intro called response answered
      rcases Prod.mk.inj (Option.some.inj answered) with ⟨rfl, rfl⟩
      exact ⟨rfl, .ok, by simp [ownErrors], rfl⟩
  | onStop =>
      rcases bind_eq_ok.mp ran with ⟨⟨objects, outcome⟩, stopped, ran⟩
      cases outcome with
      | error response =>
          rcases Except.ok.inj ran with rfl
          refine ⟨?_, fun _ => Or.inl, rfl, rfl⟩
          intro called other answered
          rcases Prod.mk.inj (Option.some.inj answered) with ⟨rfl, rfl⟩
          exact ⟨rfl, onStop_error stopped⟩
      | ok exchange =>
          rcases Except.ok.inj ran with rfl
          refine ⟨nofun, ?_, rfl, rfl⟩
          intro other member
          rcases List.mem_append.mp member with old | new
          · exact Or.inl old
          · rcases List.mem_singleton.mp new with rfl
            exact Or.inr ⟨rfl, onStop_sends stopped⟩

theorem handledHalf_eq {half : PostedHalf} {s : State}
    {completion : MonitorScraperCompletion}
    (found : s.completions[half.completion]? = some completion) :
    handledHalf half env s =
      handledKind completion.momanCb half.kind completion.cmd env
        (.half half.completion) s := by
  unfold handledHalf
  rw [found]
  cases same : completion.momanCb <;> simp [same, handledKind]

end Handlers

/-! ## Callbacks and the commands they are for -/

/-- A run has read this command from a connection. -/
def Received (attempts : List (State × Action)) (connection : Nat)
    (cmd : Cmd) : Prop :=
  ∃ attempt ∈ attempts,
    received attempt.1 attempt.2 = some (connection, cmd)

/-- The callback was given to the handler of one kind, for a command. -/
def Entrusted (attempts : List (State × Action))
    (completions : List MonitorScraperCompletion)
    (momanCb : MonitorManagerCallback) (m : MonitorOrScraper) :
    Callback → Prop
  | .client connection =>
      ∃ cmd, Received attempts connection cmd ∧
        cmd.cmd = (singleCommand momanCb m).code
  | .half c =>
      ∃ completion, completions[c]? = some completion ∧
        completion.momanCb = momanCb

/-- What a callback may be called with. -/
def Answerable (attempts : List (State × Action))
    (completions : List MonitorScraperCompletion) (response : Response) :
    Callback → Prop
  | .client connection =>
      ∃ cmd, Received attempts connection cmd ∧
        Fits attempts connection cmd.cmd response
  | .half c =>
      ∃ completion m, completions[c]? = some completion ∧
        FitsHalf attempts (.half c) completion.momanCb m response

/-- A completion is for a combined command, and has an answer of a half. -/
structure MadeFor (attempts : List (State × Action)) (c : Nat)
    (completion : MonitorScraperCompletion) : Prop where
  asked : ∃ cmd, Received attempts completion.connection cmd ∧
    cmd.cmd = (combinedCommand completion.momanCb).code
  first : completion.bothCompleted = true →
    ∃ m, FitsHalf attempts (.half c) completion.momanCb m
      completion.firstResponse

/-- Whatever is still to be called was given for a command of the run. -/
structure Entrusts (attempts : List (State × Action)) (s : State) :
    Prop where
  waits : ∀ timer request, s.objects.awaited timer = some request →
    Entrusted attempts s.completions .onAdd request.kind request.callback
  stops : ∀ exchange ∈ s.stops,
    Entrusted attempts s.completions .onStop exchange.kind exchange.callback
  completions : ∀ (c : Nat) (completion : MonitorScraperCompletion),
    s.completions[c]? = some completion → MadeFor attempts c completion
  written : ∀ connection response, (connection, response) ∈ s.written →
    ∃ cmd, Received attempts connection cmd ∧
      Fits attempts connection cmd.cmd response

section Callbacks

variable {attempts : List (State × Action)}
  {completions : List MonitorScraperCompletion} {connection : Nat}
  {cmd : Cmd} {momanCb : MonitorManagerCallback} {m : MonitorOrScraper}
  {callback : Callback} {response : Response}

theorem Received.mono (asked : Received attempts connection cmd)
    (attempt : State × Action) :
    Received (attempts ++ [attempt]) connection cmd := by
  rcases asked with ⟨earlier, member, read⟩
  exact ⟨earlier, List.mem_append_left _ member, read⟩

theorem Received.last {s : State} {action : Action}
    (read : received s action = some (connection, cmd)) :
    Received (attempts ++ [(s, action)]) connection cmd :=
  ⟨(s, action), by simp, read⟩

theorem PassedOn.mono (passed : PassedOn attempts m callback response)
    (attempt : State × Action) :
    PassedOn (attempts ++ [attempt]) m callback response := by
  rcases passed with ⟨earlier, member, hands⟩
  exact ⟨earlier, List.mem_append_left _ member, hands⟩

theorem FitsHalf.mono (fits : FitsHalf attempts callback momanCb m response)
    (attempt : State × Action) :
    FitsHalf (attempts ++ [attempt]) callback momanCb m response := by
  cases fits with
  | own reports => exact .own reports
  | passedOn stops passed => exact .passedOn stops (passed.mono attempt)

theorem Fits.mono {code : CommandType}
    (fits : Fits attempts connection code response)
    (attempt : State × Action) :
    Fits (attempts ++ [attempt]) connection code response := by
  cases fits with
  | ping asked same => exact .ping asked same
  | shutdown asked same => exact .shutdown asked same
  | single momanCb m asked fits =>
      exact .single momanCb m asked (fits.mono attempt)
  | combined momanCb c first second m other asked firstFits secondFits made =>
      exact .combined momanCb c first second m other asked
        (firstFits.mono attempt) (secondFits.mono attempt) made
  | unrecognized unknown same => exact .unrecognized unknown same

theorem Entrusted.later
    (entrusted : Entrusted attempts completions momanCb m callback)
    (attempt : State × Action) :
    Entrusted (attempts ++ [attempt]) completions momanCb m callback := by
  cases callback with
  | client connection =>
      rcases entrusted with ⟨cmd, asked, code⟩
      exact ⟨cmd, asked.mono attempt, code⟩
  | half c => exact entrusted

/-- Completions come after the ones that exist, and keep their handler. -/
def Extends (completions later : List MonitorScraperCompletion) : Prop :=
  ∀ (c : Nat) (completion : MonitorScraperCompletion),
    completions[c]? = some completion → ∃ other : MonitorScraperCompletion,
      later[c]? = some other ∧ other.momanCb = completion.momanCb

theorem Entrusted.extend {later : List MonitorScraperCompletion}
    (entrusted : Entrusted attempts completions momanCb m callback)
    (more : Extends completions later) :
    Entrusted attempts later momanCb m callback := by
  cases callback with
  | client connection => exact entrusted
  | half c =>
      rcases entrusted with ⟨completion, found, rfl⟩
      exact more c completion found

theorem MadeFor.later {c : Nat} {completion : MonitorScraperCompletion}
    (made : MadeFor attempts c completion) (attempt : State × Action) :
    MadeFor (attempts ++ [attempt]) c completion := by
  rcases made.asked with ⟨cmd, asked, code⟩
  refine ⟨⟨cmd, asked.mono attempt, code⟩, fun both => ?_⟩
  rcases made.first both with ⟨m, fits⟩
  exact ⟨m, fits.mono attempt⟩

theorem Entrusts.later {s : State} (entrusts : Entrusts attempts s)
    (attempt : State × Action) : Entrusts (attempts ++ [attempt]) s where
  waits := fun timer request waits =>
    (entrusts.waits timer request waits).later attempt
  stops := fun exchange member =>
    (entrusts.stops exchange member).later attempt
  completions := fun c completion found =>
    (entrusts.completions c completion found).later attempt
  written := by
    intro connection response member
    rcases entrusts.written connection response member with ⟨cmd, asked, fits⟩
    exact ⟨cmd, asked.mono attempt, fits.mono attempt⟩

/-- The handler of one kind answers what its callback may be called with. -/
theorem Entrusted.answers
    (entrusted : Entrusted attempts completions momanCb m callback)
    (fits : FitsHalf attempts callback momanCb m response) :
    Answerable attempts completions response callback := by
  cases callback with
  | client connection =>
      rcases entrusted with ⟨cmd, asked, code⟩
      exact ⟨cmd, asked, .single momanCb m code fits⟩
  | half c =>
      rcases entrusted with ⟨completion, found, rfl⟩
      exact ⟨completion, m, found, fits⟩

end Callbacks

/-! ## Steps -/

/-- What a handler leaves behind, and what it answers. -/
structure HandlesFor (attempts : List (State × Action)) (s : State)
    (handled : Handled) : Prop where
  answer : ∀ callback response,
    handled.answer = some (callback, response) →
      Answerable attempts handled.state.completions response callback
  stops : ∀ exchange ∈ handled.state.stops,
    Entrusted attempts handled.state.completions .onStop exchange.kind
      exchange.callback
  completions : ∀ (c : Nat) (completion : MonitorScraperCompletion),
    handled.state.completions[c]? = some completion →
      MadeFor attempts c completion
  written : handled.state.written = s.written

section Steps

variable {config : Config} {attempts : List (State × Action)}
  {s next : State} {action : Action} {handled : Handled}

theorem HandlesFor.of_silent (entrusts : Entrusts attempts s)
    (silent : handled.answer = none)
    (stops : handled.state.stops = s.stops)
    (completions : handled.state.completions = s.completions)
    (written : handled.state.written = s.written) :
    HandlesFor attempts s handled where
  answer := by
    intro callback response answered
    rw [silent] at answered
    simp at answered
  stops := by
    intro exchange member
    rw [completions]
    exact entrusts.stops exchange (stops ▸ member)
  completions := by
    rw [completions]
    exact entrusts.completions
  written := written

theorem ServesHalf.handles {before : State}
    {momanCb : MonitorManagerCallback} {m : MonitorOrScraper}
    {callback : Callback}
    (serves : ServesHalf momanCb m callback before handled)
    (entrusts : Entrusts attempts s) (stops : before.stops = s.stops)
    (completions : before.completions = s.completions)
    (written : before.written = s.written)
    (entrusted : Entrusted attempts s.completions momanCb m callback) :
    HandlesFor attempts s handled where
  answer := by
    intro called response answered
    rcases serves.answer called response answered with ⟨rfl, reports⟩
    rw [serves.completions, completions]
    exact entrusted.answers (.own reports)
  stops := by
    intro exchange member
    rw [serves.completions, completions]
    rcases serves.stops exchange member with old | ⟨rfl, kind, called⟩
    · exact entrusts.stops exchange (stops ▸ old)
    · rw [kind, called]
      exact entrusted
  completions := by
    rw [serves.completions, completions]
    exact entrusts.completions
  written := serves.written.trans written

/-- A handler that answers a client at once. -/
theorem HandlesFor.of_answered {connection : Nat} {response : Response}
    (entrusts : Entrusts attempts s)
    (answered : handled.answer = some (.client connection, response))
    (stops : handled.state.stops = s.stops)
    (completions : handled.state.completions = s.completions)
    (written : handled.state.written = s.written)
    (fits : ∃ cmd, Received attempts connection cmd ∧
      Fits attempts connection cmd.cmd response) :
    HandlesFor attempts s handled := by
  have silent : HandlesFor attempts s { state := handled.state } :=
    .of_silent entrusts rfl stops completions written
  refine ⟨?_, silent.stops, silent.completions, written⟩
  intro called other told
  rw [answered] at told
  rcases Prod.mk.inj (Option.some.inj told) with ⟨rfl, rfl⟩
  exact fits

theorem commandRead_handles {index : Nat} {events : List StreamEvent}
    {env : Environment} (entrusts : Entrusts attempts s)
    (ran : handle config s (.commandRead index events env) =
      some (.ok handled)) :
    HandlesFor (attempts ++ [(s, .commandRead index events env)]) s
      handled := by
  have entrusts := entrusts.later (s, .commandRead index events env)
  rcases Option.bind_eq_some_iff.mp ran with
    ⟨⟨connection, server⟩, accepted, ran⟩
  rcases Option.bind_eq_some_iff.mp ran with ⟨⟨err, cmd⟩, read, ran⟩
  have ran := Option.some.inj ran
  unfold handledCommand at ran
  split at ran
  · rcases Except.ok.inj ran with rfl
    exact .of_silent entrusts rfl rfl rfl rfl
  · rename_i readable
    have asked : Received
        (attempts ++ [(s, .commandRead index events env)]) connection cmd := by
      apply Received.last
      simp [received, accepted, read, readable]
    split at ran
    · rename_i missing
      rcases Except.ok.inj ran with rfl
      refine .of_answered entrusts rfl rfl rfl rfl ⟨cmd, asked, ?_⟩
      refine .unrecognized ?_ rfl
      rw [lookup_callbackMap, missing]
      rfl
    · rename_i handler found
      generalize coded : cmd.cmd = code at found
      cases handledMap_handlerOf found with
      | ping =>
          rcases Except.ok.inj ran with rfl
          exact .of_answered entrusts rfl rfl rfl rfl
            ⟨cmd, asked, .ping coded rfl⟩
      | shutdown =>
          rcases Except.ok.inj ran with rfl
          exact .of_answered entrusts rfl rfl rfl rfl
            ⟨cmd, asked, .shutdown coded rfl⟩
      | single momanCb m =>
          exact (handledKind_serves ran).handles entrusts rfl rfl rfl
            ⟨cmd, asked, coded⟩
      | combined momanCb =>
          rcases Except.ok.inj ran with rfl
          refine ⟨fun _ _ none => by simp at none, ?_, ?_, rfl⟩
          · intro exchange member
            refine (entrusts.stops exchange member).extend ?_
            intro c completion old
            have inside := (List.getElem?_eq_some_iff.mp old).1
            exact ⟨completion,
              (List.getElem?_append_left inside).trans old, rfl⟩
          · intro c completion found
            unfold createCompletion at found
            rcases Nat.lt_or_ge c s.completions.length with old | new
            · rw [List.getElem?_append_left old] at found
              exact entrusts.completions c completion found
            · rw [List.getElem?_append_right new] at found
              rcases List.mem_singleton.mp (List.mem_of_getElem? found)
                with rfl
              exact ⟨⟨cmd, asked, coded⟩, fun both => by simp at both⟩

/-- A posted half runs the handler of its kind for its completion. -/
theorem runPosted_kind {env : Environment} (known : HalvesKnown s)
    (ran : handle config s (.runPosted env) = some (.ok handled)) :
    ∃ half posted completion, s.posted = half :: posted ∧
      s.completions[half.completion]? = some completion ∧
        handledKind completion.momanCb half.kind completion.cmd env
          (.half half.completion) { s with posted := posted } =
            .ok handled := by
  simp only [handle] at ran
  split at ran
  · simp at ran
  · rename_i half posted queued
    have inside : half.completion < s.completions.length :=
      known.posted half (by simp [queued])
    have found := List.getElem?_eq_getElem inside
    have ran := Option.some.inj ran
    rw [handledHalf_eq (s := { s with posted := posted }) found] at ran
    exact ⟨half, posted, _, queued, found, ran⟩

theorem runPosted_handles {env : Environment} (known : HalvesKnown s)
    (entrusts : Entrusts attempts s)
    (ran : handle config s (.runPosted env) = some (.ok handled)) :
    HandlesFor attempts s handled := by
  rcases runPosted_kind known ran with
    ⟨half, posted, completion, -, found, ran⟩
  exact (handledKind_serves ran).handles entrusts rfl rfl rfl
    ⟨_, found, rfl⟩

theorem runAddWait_handles {timer : Nat} (sound : s.objects.Sound)
    (entrusts : Entrusts attempts s)
    (ran : handle config s (.runAddWait timer) = some (.ok handled)) :
    HandlesFor attempts s handled := by
  rcases runAddWait_due sound ran with
    ⟨wait, objects, response, found, -, waited, state, answer, -⟩
  have silent : HandlesFor attempts s { state := handled.state } := by
    exact .of_silent entrusts rfl (by rw [state]) (by rw [state])
      (by rw [state])
  refine ⟨?_, silent.stops, silent.completions, silent.written⟩
  intro called other told
  rw [answer] at told
  rcases Option.map_eq_some_iff.mp told with ⟨value, rfl, pair⟩
  rcases Prod.mk.inj pair with ⟨rfl, rfl⟩
  have awaits : s.objects.awaited timer = some wait.request := by
    simp [awaited, found]
  rw [state]
  exact (entrusts.waits timer wait.request awaits).answers
    (.own (onAddTimer_error waited))

theorem runStop_handles {index : Nat} (entrusts : Entrusts attempts s)
    (ran : handle config s (.runStop index) = some (.ok handled)) :
    HandlesFor (attempts ++ [(s, .runStop index)]) s handled := by
  have entrusts := entrusts.later (s, .runStop index)
  rcases Option.bind_eq_some_iff.mp ran with ⟨exchange, queued, ran⟩
  rcases Option.bind_eq_some_iff.mp ran with ⟨outcome, handles, ran⟩
  have entrusted :=
    entrusts.stops exchange (List.mem_of_getElem? queued)
  rcases stopHandler_answers handles with ⟨answers, waits⟩
  cases outcome with
  | ok waiting =>
      rcases Except.ok.inj (Option.some.inj ran) with rfl
      refine ⟨nofun, ?_, entrusts.completions, rfl⟩
      intro other member
      rcases List.mem_append.mp member with old | new
      · exact entrusts.stops other (List.mem_of_mem_eraseIdx old)
      · rcases List.mem_singleton.mp new with rfl
        rcases waits other rfl with ⟨kind, called⟩
        rw [kind, called]
        exact entrusted
  | error response =>
      rcases Except.ok.inj (Option.some.inj ran) with rfl
      refine ⟨?_, ?_, entrusts.completions, rfl⟩
      · intro called other told
        rcases Prod.mk.inj (Option.some.inj told) with ⟨rfl, rfl⟩
        apply entrusted.answers
        rcases answers response rfl with reports | ⟨reading, err, read⟩
        · exact .own reports
        · exact .passedOn rfl ⟨_, List.mem_append_right _ List.mem_cons_self,
            index, exchange, err, rfl, queued, reading, rfl, rfl, read⟩
      · intro other member
        exact entrusts.stops other (List.mem_of_mem_eraseIdx member)

/-- Every handler answers what its callback may be called with. -/
theorem handle_handles (reached : Reached config s)
    (known : HalvesKnown s) (entrusts : Entrusts attempts s)
    (ran : handle config s action = some (.ok handled)) :
    HandlesFor (attempts ++ [(s, action)]) s handled := by
  have later := entrusts.later (s, action)
  have silent : ∀ {next : State},
      handled.state = next ∧ handled.answer = none →
        next.stops = s.stops → next.completions = s.completions →
          next.written = s.written →
            HandlesFor (attempts ++ [(s, action)]) s handled := by
    rintro next ⟨rfl, none⟩ stops completions written
    exact .of_silent later none stops completions written
  cases action with
  | commandRead index events env => exact commandRead_handles entrusts ran
  | runPosted env => exact runPosted_handles known later ran
  | runAddWait timer => exact runAddWait_handles reached.sound later ran
  | runStop index => exact runStop_handles entrusts ran
  | acceptCompletes index err =>
      rcases handled_of_plain ran with ⟨taken, none⟩
      rcases acceptCompletes_takes taken with ⟨server, -, same⟩
      exact silent ⟨same, none⟩ rfl rfl rfl
  | runOnConnect index =>
      rcases handled_of_plain ran with ⟨taken, none⟩
      rcases runOnConnect_takes taken with ⟨server, -, same⟩
      exact silent ⟨same, none⟩ rfl rfl rfl
  | timerExpires timer =>
      rcases handled_of_plain ran with ⟨taken, none⟩
      rcases timerExpires_takes taken with ⟨wait, -, -, same⟩
      exact silent ⟨same, none⟩ rfl rfl rfl
  | childExits child =>
      rcases handled_of_plain ran with ⟨taken, none⟩
      rcases childExits_takes taken with ⟨c, -, -, same⟩
      exact silent ⟨same, none⟩ rfl rfl rfl
  | runOnExit child ec =>
      rcases handled_of_plain ran with ⟨taken, none⟩
      rcases runOnExit_takes taken with ⟨c, -, -, -, same⟩
      exact silent ⟨same, none⟩ rfl rfl rfl
  | inotifyRead events =>
      rcases handled_of_plain ran with ⟨taken, none⟩
      rcases inotifyRead_takes taken with ⟨fileWatcher, -, updated⟩
      have quiet := onInotifyUpdate_quiet updated
      exact silent ⟨rfl, none⟩ quiet.stops quiet.completions quiet.written
  | runVerification index =>
      rcases handled_of_plain ran with ⟨taken, none⟩
      rcases runVerification_state taken with
        ⟨objects, verifications, same⟩
      exact silent ⟨same, none⟩ rfl rfl rfl

/-- A launch takes over the callback of its command. -/
theorem Launches.entrusted {timer : Nat} {request : AddRequest}
    (launches : Launches s action timer request) :
    Entrusted (attempts ++ [(s, action)]) s.completions .onAdd request.kind
      request.callback := by
  rcases launches with ⟨call, className, started, handles, -, -, rfl⟩
  change Entrusted _ _ _ call.kind call.callback
  cases action with
  | commandRead index events env =>
      rcases Option.bind_eq_some_iff.mp handles with
        ⟨⟨connection, server⟩, accepted, handles⟩
      rcases Option.bind_eq_some_iff.mp handles with
        ⟨⟨err, cmd⟩, read, handles⟩
      rcases commandCall_eq_some handles with ⟨rfl, code, -, -, called⟩
      rw [called]
      refine ⟨cmd, Received.last ?_, code⟩
      simp [received, accepted, read]
  | runPosted env =>
      rcases Option.bind_eq_some_iff.mp handles with ⟨half, -, handles⟩
      rcases Option.bind_eq_some_iff.mp handles with ⟨c, found, handles⟩
      split at handles
      · rename_i isAdd
        rcases Option.some.inj handles with rfl
        exact ⟨c, found, isAdd⟩
      · simp at handles
  | _ => simp [addCall] at handles

theorem absorb_momanCb (completion : MonitorScraperCompletion)
    (response : Response) :
    (completion.absorb response).momanCb = completion.momanCb ∧
      (completion.absorb response).connection = completion.connection := by
  unfold MonitorScraperCompletion.absorb
  split <;> exact ⟨rfl, rfl⟩

/-- Calling back keeps the completions, and answers for the first half. -/
theorem HandlesFor.finish_completions
    (handles : HandlesFor attempts s handled)
    (finished : handled.finish = .ok next) :
    Extends handled.state.completions next.completions ∧
      ∀ (c : Nat) (completion : MonitorScraperCompletion),
        next.completions[c]? = some completion →
          MadeFor attempts c completion := by
  have after := Manager.finish_completions finished
  constructor
  · intro c completion found
    have now := after c
    rw [found, Option.map_some] at now
    refine ⟨_, now, ?_⟩
    split
    · rfl
    · exact (absorb_momanCb completion _).1
  · intro c completion found
    rw [after c] at found
    rcases Option.map_eq_some_iff.mp found with ⟨present, before, same⟩
    have made := handles.completions c present before
    cases told : handled.toHalf c with
    | none =>
        rw [told] at same
        exact same ▸ made
    | some response =>
        rw [told] at same
        subst same
        rcases handles.answer _ _ (answer_of_toHalf told) with
          ⟨other, m, there, fits⟩
        rcases Option.some.inj (before.symm.trans there) with rfl
        dsimp only [MonitorScraperCompletion.absorb]
        split
        · exact made
        · exact ⟨made.asked, fun _ => ⟨m, fits⟩⟩

/-- What is written to a client fits its command. -/
theorem HandlesFor.finish_written (handles : HandlesFor attempts s handled)
    (finished : handled.finish = .ok next) {connection : Nat}
    {response : Response}
    (member : (connection, response) ∈ next.written) :
    (connection, response) ∈ s.written ∨
      ∃ cmd, Received attempts connection cmd ∧
        Fits attempts connection cmd.cmd response := by
  unfold Handled.finish at finished
  split at finished
  · rcases Except.ok.inj finished with rfl
    exact Or.inl (handles.written ▸ member)
  · rename_i callback answer told
    have answerable := handles.answer callback answer told
    cases callback with
    | client client =>
        rcases Except.ok.inj finished with rfl
        rcases List.mem_append.mp member with old | new
        · exact Or.inl (handles.written ▸ old)
        · rcases Prod.mk.inj (List.mem_singleton.mp new) with ⟨rfl, rfl⟩
          exact Or.inr answerable
    | half c =>
        rcases answerable with ⟨completion, m, found, fits⟩
        change checkForCompletion c answer handled.state = .ok next
          at finished
        rw [checkForCompletion, found] at finished
        dsimp only at finished
        split at finished
        · rcases Except.ok.inj finished with rfl
          exact Or.inl (handles.written ▸ member)
        · rename_i both
          rcases bind_eq_ok.mp finished with ⟨common, made, same⟩
          rcases Except.ok.inj same with rfl
          rcases List.mem_append.mp member with old | new
          · exact Or.inl (handles.written ▸ old)
          · rcases Prod.mk.inj (List.mem_singleton.mp new) with ⟨rfl, rfl⟩
            have own := handles.completions c completion found
            rcases own.asked with ⟨cmd, asked, code⟩
            rcases own.first (by simpa using both) with ⟨other, first⟩
            exact Or.inr ⟨cmd, asked, .combined completion.momanCb c
              completion.firstResponse answer other m code first fits made⟩

/-- A step leaves no callback without the command it is for. -/
theorem step_entrusts (reached : Reached config s) (known : HalvesKnown s)
    (entrusts : Entrusts attempts s)
    (taken : step config s action = some (.ok next)) :
    Entrusts (attempts ++ [(s, action)]) next := by
  rcases step_handled taken with ⟨handled, ran, finished⟩
  have handles := handle_handles reached known entrusts ran
  have later := entrusts.later (s, action)
  rcases handles.finish_completions finished with ⟨kept, made⟩
  have grown : Extends s.completions next.completions := by
    intro c completion found
    rcases (step_completions ran).1 with same | ⟨momanCb, cmd, client, same⟩
    · exact kept c completion (same ▸ found)
    · refine kept c completion ?_
      rw [same, List.getElem?_append_left
        (List.getElem?_eq_some_iff.mp found).1]
      exact found
  constructor
  · intro timer request waits
    rcases (step_awaited reached.aborted reached.sound taken timer
      request).mp waits with launches | ⟨old, -⟩
    · exact launches.entrusted.extend grown
    · exact (later.waits timer request old).extend grown
  · intro exchange member
    rw [(finish_frame finished).2] at member
    exact (handles.stops exchange member).extend kept
  · exact made
  · intro connection response member
    rcases handles.finish_written finished member with old | new
    · exact later.written connection response old
    · exact new

end Steps

/-! ## Runs -/

section Runs

variable {config : Config} {startUp : StartUp} {start final : State}
  {attempts : List (State × Action)}

theorem construct_entrusts (built : construct config startUp = .ok start) :
    Entrusts [] start := by
  rcases construct_starts built with
    ⟨waits, -, stops, completions, written, -⟩
  constructor
  · intro timer request awaits
    rw [waits] at awaits
    simp at awaits
  · intro exchange member
    simp [stops] at member
  · intro c completion found
    simp [completions] at found
  · intro connection response member
    simp [written] at member

/-- After every run each callback has the command it is for. -/
theorem run_entrusts (built : construct config startUp = .ok start)
    (run : Run (step config) start attempts (.ok final)) :
    Entrusts attempts final := by
  generalize finished : Except.ok final = outcome at run
  induction run generalizing final with
  | start =>
      rcases Except.ok.inj finished with rfl
      exact construct_entrusts built
  | @next attempts s action outcome earlier taken ih =>
      subst finished
      exact step_entrusts ⟨startUp, start, built, attempts, earlier⟩
        (halvesKnown_of_reachable built ⟨attempts, earlier⟩) (ih rfl) taken

/--
Whatever a run writes to a client is written for a command that it has read
from this client, and is an answer that the handler of this command gives.
-/
theorem replies_fit (built : construct config startUp = .ok start)
    (run : Run (step config) start attempts (.ok final)) :
    ∀ connection response, (connection, response) ∈ final.written →
      ∃ cmd, Received attempts connection cmd ∧
        Fits attempts connection cmd.cmd response :=
  (run_entrusts built run).written

end Runs

open Installation

/-- A combined stop is answered once both its halves have been. -/
theorem stopsBoth_fits :
    ∃ final, execute (step config) start stopsBoth = some final ∧
      final.written.length = 1 ∧
        ∀ connection response, (connection, response) ∈ final.written →
          ∃ cmd, Received (attemptsOf (step config) start stopsBoth)
              connection cmd ∧
            Fits (attemptsOf (step config) start stopsBoth) connection
              cmd.cmd response := by
  have ran : (execute (step config) start stopsBoth).any (fun final =>
      final.written.length = 1) := by
    decide +kernel
  rcases (Option.any_eq_true _ _).mp ran with ⟨final, executed, one⟩
  exact ⟨final, executed, of_decide_eq_true one,
    replies_fit start_built (.of_execute executed)⟩

end KekMonitors.Manager
