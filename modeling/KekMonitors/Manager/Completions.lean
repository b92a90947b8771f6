import KekMonitors.Manager.Handling

/-!
# Combined commands

A combined command runs its handler for both kinds and answers its client when
both halves have called back.  The completion does not know which half calls:
the first response is stored, and any later one is taken for the second.
-/

namespace KekMonitors.Manager

open Connection
open Objects
open Timer
open Transition

/-! ## Who calls back -/

/-- The callback that a step may call. -/
inductive Calls (s : State) : Action → Callback → Prop where
  | command {index : Nat} {events : List StreamEvent} {env : Environment}
      (connection : Nat) :
      Calls s (.commandRead index events env) (.client connection)
  | posted {env : Environment} {half : PostedHalf}
      (first : s.posted.head? = some half) :
      Calls s (.runPosted env) (.half half.completion)
  | waited {timer : Nat} {request : AddRequest}
      (awaits : s.objects.awaited timer = some request) :
      Calls s (.runAddWait timer) request.callback
  | stopped {index : Nat} {exchange : StopExchange}
      (queued : s.stops[index]? = some exchange) :
      Calls s (.runStop index) exchange.callback

/-- The callbacks that a handler uses or leaves in an exchange. -/
structure CallsOnly (s : State) (action : Action) (handled : Handled) :
    Prop where
  answer : ∀ callback response,
    handled.answer = some (callback, response) → Calls s action callback
  stops : ∀ exchange ∈ handled.state.stops,
    exchange ∈ s.stops ∨ Calls s action exchange.callback

theorem handledAdd_calls {m : MonitorOrScraper} {cmd : Cmd}
    {env : Environment} {callback : Callback} {s t : State}
    {action : Action} {handled : Handled}
    (ran : handledAdd m cmd env callback s = .ok handled)
    (calls : Calls t action callback) (stops : s.stops = t.stops) :
    CallsOnly t action handled := by
  rcases bind_eq_ok.mp ran with ⟨⟨objects, outcome⟩, -, same⟩
  rcases Except.ok.inj same with rfl
  constructor
  · intro other response answered
    rcases Option.map_eq_some_iff.mp answered with ⟨value, -, pair⟩
    rcases Prod.mk.inj pair with ⟨rfl, -⟩
    exact calls
  · intro exchange member
    exact Or.inl (stops ▸ member)

/-- A stop that is sent keeps its callback. -/
theorem onStop_callback {m : MonitorOrScraper} {cmd : Cmd}
    {env : Environment} {callback : Callback} {o objects : Objects}
    {exchange : StopExchange}
    (ran : onStop m cmd env callback o = .ok (objects, .ok exchange)) :
    exchange.callback = callback := by
  rcases onStop_cases ran with
    ⟨response, same⟩ | ⟨started, stored, called, -, same⟩
  · simp at same
  · rw [Prod.mk.injEq, Except.ok.injEq] at same
    rw [same.2, called]

theorem handledStop_calls {m : MonitorOrScraper} {cmd : Cmd}
    {env : Environment} {callback : Callback} {s t : State}
    {action : Action} {handled : Handled}
    (ran : handledStop m cmd env callback s = .ok handled)
    (calls : Calls t action callback) (stops : s.stops = t.stops) :
    CallsOnly t action handled := by
  rcases bind_eq_ok.mp ran with ⟨⟨objects, outcome⟩, stopped, same⟩
  cases outcome with
  | error response =>
      rcases Except.ok.inj same with rfl
      constructor
      · intro other value answered
        rcases Prod.mk.inj (Option.some.inj answered) with ⟨rfl, -⟩
        exact calls
      · intro exchange member
        exact Or.inl (stops ▸ member)
  | ok started =>
      have callbackOf := onStop_callback stopped
      rcases Except.ok.inj same with rfl
      constructor
      · intro other value answered
        simp at answered
      · intro exchange member
        rcases List.mem_append.mp member with old | new
        · exact Or.inl (stops ▸ old)
        · right
          rw [List.mem_singleton.mp new, callbackOf]
          exact calls

/-- A handler with an answer for its caller, or none, that sends no stop. -/
theorem CallsOnly.of_stops {s : State} {action : Action} {handled : Handled}
    (stops : handled.state.stops = s.stops)
    (answer : ∀ callback response,
      handled.answer = some (callback, response) →
        Calls s action callback) : CallsOnly s action handled :=
  ⟨answer, fun _ member => Or.inl (stops ▸ member)⟩

theorem handledCommand_calls {index : Nat} {events : List StreamEvent}
    {env : Environment} {err : Option ErrorCode} {cmd : Cmd}
    {connection : Nat} {s : State} {server : UnixServer.ServerState}
    {handled : Handled}
    (ran : handledCommand err cmd env connection
      { s with server := server } = .ok handled) :
    CallsOnly s (.commandRead index events env) handled := by
  have client : Calls s (.commandRead index events env)
      (.client connection) := .command connection
  have told : ∀ {told callback : Callback} {value response : Response},
      some (told, value) = some (callback, response) →
        told = .client connection →
          Calls s (.commandRead index events env) callback := by
    rintro told callback value response same rfl
    rcases Prod.mk.inj (Option.some.inj same) with ⟨rfl, -⟩
    exact client
  unfold handledCommand at ran
  split at ran
  · rcases Except.ok.inj ran with rfl
    exact .of_stops rfl (by simp)
  · split at ran
    · rcases Except.ok.inj ran with rfl
      exact .of_stops rfl fun _ _ same => told same rfl
    · rename_i handler found
      cases handledMap_cases found with
      | ping =>
          rcases Except.ok.inj ran with rfl
          exact .of_stops rfl fun _ _ same => told same rfl
      | shutdown =>
          rcases Except.ok.inj ran with rfl
          exact .of_stops rfl fun _ _ same => told same rfl
      | add m => exact handledAdd_calls ran client rfl
      | stop m => exact handledStop_calls ran client rfl
      | status m =>
          rcases Except.ok.inj ran with rfl
          exact .of_stops rfl fun _ _ same => told same rfl
      | combined momanCb =>
          rcases Except.ok.inj ran with rfl
          exact .of_stops rfl (by simp)

theorem handledHalf_calls {env : Environment} {half : PostedHalf}
    {posted : List PostedHalf} {s : State} {handled : Handled}
    (queued : s.posted = half :: posted)
    (ran : handledHalf half env { s with posted := posted } =
      .ok handled) :
    CallsOnly s (.runPosted env) handled := by
  have calls : Calls s (.runPosted env) (.half half.completion) :=
    .posted (by simp [queued])
  unfold handledHalf at ran
  split at ran
  · rcases Except.ok.inj ran with rfl
    exact .of_stops rfl (by simp)
  · rename_i c found
    cases handler : c.momanCb with
    | onAdd =>
        rw [handler] at ran
        exact handledAdd_calls ran calls rfl
    | onGetStatus =>
        rw [handler] at ran
        rcases Except.ok.inj ran with rfl
        refine .of_stops rfl ?_
        intro callback response same
        rcases Prod.mk.inj (Option.some.inj same) with ⟨rfl, -⟩
        exact calls
    | onStop =>
        rw [handler] at ran
        exact handledStop_calls ran calls rfl

theorem handledWait_calls {timer : Nat} {s : State} {handled : Handled}
    (ran : handledWait timer s = some (.ok handled)) :
    CallsOnly s (.runAddWait timer) handled := by
  rcases Option.map_eq_some_iff.mp ran with ⟨⟨request, result⟩, waits, ran⟩
  rcases bind_eq_ok.mp ran with ⟨outcome, -, same⟩
  rcases Except.ok.inj same with rfl
  refine .of_stops rfl ?_
  intro callback response answered
  rcases Option.map_eq_some_iff.mp answered with ⟨value, -, pair⟩
  rcases Prod.mk.inj pair with ⟨rfl, -⟩
  refine .waited ?_
  unfold waitHandler at waits
  split at waits
  · simp at waits
  · rename_i wait found
    split at waits
    · simp at waits
    · rcases Prod.mk.inj (Option.some.inj waits) with ⟨rfl, -⟩
      simp [awaited, found]

theorem handledExchange_calls {index : Nat} {s : State} {handled : Handled}
    (ran : handledExchange index s = some (.ok handled)) :
    CallsOnly s (.runStop index) handled := by
  rcases Option.bind_eq_some_iff.mp ran with ⟨exchange, queued, ran⟩
  rcases Option.bind_eq_some_iff.mp ran with ⟨completion, handles, ran⟩
  have calls : Calls s (.runStop index) exchange.callback := .stopped queued
  cases completion with
  | ok waiting =>
      rcases Except.ok.inj (Option.some.inj ran) with rfl
      constructor
      · simp
      · intro other member
        rcases List.mem_append.mp member with old | new
        · exact Or.inl (List.mem_of_mem_eraseIdx old)
        · right
          have same : waiting.callback = exchange.callback := by
            unfold stopHandler at handles
            split at handles
            · split at handles
              · simp only [Option.some.injEq, Except.ok.injEq] at handles
                rw [← handles]
              · simp at handles
            · simp at handles
          rw [List.mem_singleton.mp new, same]
          exact calls
  | error response =>
      rcases Except.ok.inj (Option.some.inj ran) with rfl
      constructor
      · intro callback value answered
        rcases Prod.mk.inj (Option.some.inj answered) with ⟨rfl, -⟩
        exact calls
      · intro other member
        exact Or.inl (List.mem_of_mem_eraseIdx member)

/-- Every step calls back whom it was queued for. -/
theorem handle_calls {config : Config} {s : State} {action : Action}
    {handled : Handled}
    (ran : handle config s action = some (.ok handled)) :
    CallsOnly s action handled := by
  cases action with
  | commandRead index events env =>
      rcases Option.bind_eq_some_iff.mp ran with
        ⟨⟨connection, server⟩, -, ran⟩
      rcases Option.bind_eq_some_iff.mp ran with ⟨⟨err, cmd⟩, -, ran⟩
      exact handledCommand_calls (Option.some.inj ran)
  | runPosted env =>
      simp only [handle] at ran
      split at ran
      · simp at ran
      · rename_i half posted queued
        exact handledHalf_calls queued (Option.some.inj ran)
  | runAddWait timer => exact handledWait_calls ran
  | runStop index => exact handledExchange_calls ran
  | acceptCompletes index err =>
      rcases handled_of_plain ran with ⟨taken, none⟩
      rcases acceptCompletes_takes taken with ⟨server, -, same⟩
      exact .of_stops (by rw [same]) (by simp [none])
  | runOnConnect index =>
      rcases handled_of_plain ran with ⟨taken, none⟩
      rcases runOnConnect_takes taken with ⟨server, -, same⟩
      exact .of_stops (by rw [same]) (by simp [none])
  | timerExpires timer =>
      rcases handled_of_plain ran with ⟨taken, none⟩
      rcases timerExpires_takes taken with ⟨wait, -, -, same⟩
      exact .of_stops (by rw [same]) (by simp [none])
  | childExits child =>
      rcases handled_of_plain ran with ⟨taken, none⟩
      rcases childExits_takes taken with ⟨c, -, -, same⟩
      exact .of_stops (by rw [same]) (by simp [none])
  | runOnExit child ec =>
      rcases handled_of_plain ran with ⟨taken, none⟩
      rcases runOnExit_takes taken with ⟨c, -, -, -, same⟩
      exact .of_stops (by rw [same]) (by simp [none])
  | inotifyRead events =>
      rcases handled_of_plain ran with ⟨taken, none⟩
      rcases inotifyRead_takes taken with ⟨fileWatcher, -, updated⟩
      exact .of_stops (onInotifyUpdate_quiet updated).stops (by simp [none])
  | runVerification index =>
      rcases handled_of_plain ran with ⟨taken, none⟩
      rcases runVerification_state taken with
        ⟨objects, verifications, same⟩
      exact .of_stops (by rw [same]) (by simp [none])

/-! ## Known completions -/

/-- A callback that goes to a client or to a completion that exists. -/
def Known (s : State) : Callback → Prop
  | .client _ => True
  | .half completion => completion < s.completions.length

/-- Whatever is still to call back knows its completion. -/
structure HalvesKnown (s : State) : Prop where
  posted : ∀ half ∈ s.posted, half.completion < s.completions.length
  awaited : ∀ timer request, s.objects.awaited timer = some request →
    Known s request.callback
  stops : ∀ exchange ∈ s.stops, Known s exchange.callback

theorem HalvesKnown.calls {s : State} (known : HalvesKnown s)
    {action : Action} {callback : Callback}
    (calls : Calls s action callback) : Known s callback := by
  cases calls with
  | command connection => trivial
  | posted first =>
      exact known.posted _ (List.mem_of_mem_head? (by simp [first]))
  | waited awaits => exact known.awaited _ _ awaits
  | stopped queued => exact known.stops _ (List.mem_of_getElem? queued)

theorem Known.mono {s next : State} {callback : Callback}
    (known : Known s callback)
    (more : s.completions.length ≤ next.completions.length) :
    Known next callback := by
  cases callback with
  | client connection => trivial
  | half completion => exact Nat.lt_of_lt_of_le known more

/-- What a response makes of the completion that it is given to. -/
def MonitorScraperCompletion.absorb (response : Response)
    (c : MonitorScraperCompletion) : MonitorScraperCompletion :=
  if c.bothCompleted then c
  else { c with bothCompleted := true, firstResponse := response }

/-- The response that a handler gives to a completion. -/
def Handled.toHalf (handled : Handled) (completion : Nat) :
    Option Response :=
  match handled.answer with
  | some (.half other, response) =>
      if other = completion then some response else none
  | _ => none

theorem checkForCompletion_absorbs {completion : Nat} {response : Response}
    {s next : State}
    (checked : checkForCompletion completion response s = .ok next) (c : Nat) :
    next.completions[c]? = (s.completions[c]?).map fun present =>
      if completion = c then present.absorb response else present := by
  have kept : ∀ present : Option MonitorScraperCompletion,
      (completion = c → ∀ p, present = some p → p.bothCompleted = true) →
        present = present.map fun p =>
          if completion = c then p.absorb response else p := by
    rintro (_ | p) both
    · rfl
    · rw [Option.map_some]
      split
      · rename_i same
        rw [MonitorScraperCompletion.absorb, if_pos (both same p rfl)]
      · rfl
  unfold checkForCompletion at checked
  split at checked
  · rename_i absent
    rcases Except.ok.inj checked with rfl
    refine kept _ ?_
    rintro rfl p present
    rw [absent] at present
    simp at present
  · rename_i stored found
    split at checked
    · rename_i first
      rcases Except.ok.inj checked with rfl
      rw [List.getElem?_set]
      split
      · rename_i same
        subst same
        have inside : completion < s.completions.length :=
          (List.getElem?_eq_some_iff.mp found).1
        rw [if_pos inside, found, Option.map_some,
          MonitorScraperCompletion.absorb, if_neg first]
      · simp
    · rename_i both
      rcases bind_eq_ok.mp checked with ⟨common, -, same⟩
      rcases Except.ok.inj same with rfl
      refine kept _ ?_
      rintro rfl p present
      rcases Option.some.inj (found.symm.trans present) with rfl
      simpa using both

/-- The completions after a step, given the ones of its handler. -/
theorem finish_completions {handled : Handled} {next : State}
    (finished : handled.finish = .ok next) (c : Nat) :
    next.completions[c]? =
      (handled.state.completions[c]?).map fun present =>
        match handled.toHalf c with
        | none => present
        | some response => present.absorb response := by
  unfold Handled.finish at finished
  unfold Handled.toHalf
  split at finished
  · rename_i none
    rcases Except.ok.inj finished with rfl
    simp [none]
  · rename_i callback response answered
    rw [answered]
    cases callback with
    | client connection =>
        rcases Except.ok.inj finished with rfl
        simp [asyncWriteResponse]
    | half completion =>
        rw [checkForCompletion_absorbs finished c]
        congr 1
        funext present
        dsimp only
        split <;> simp [*]

/-- A step makes at most one completion and loses none. -/
theorem step_completions {config : Config} {s : State} {action : Action}
    {handled : Handled}
    (ran : handle config s action = some (.ok handled)) :
    (handled.state.completions = s.completions ∨
        ∃ momanCb cmd connection, handled.state.completions =
          s.completions ++
            [{ momanCb := momanCb, cmd := cmd, connection := connection }]) ∧
      ∀ half ∈ handled.state.posted, half ∈ s.posted ∨
        half.completion < handled.state.completions.length := by
  cases (handle_frame ran).halves with
  | same other posted completions =>
      exact ⟨Or.inl completions, fun half member =>
        Or.inl (posted ▸ member)⟩
  | taken env half runs posted completions =>
      refine ⟨Or.inl completions, fun other member => Or.inl ?_⟩
      rw [posted]
      exact List.mem_cons_of_mem _ member
  | created momanCb cmd connection other posted completions =>
      refine ⟨Or.inr ⟨momanCb, cmd, connection, completions⟩, ?_⟩
      intro half member
      rw [posted] at member
      rcases List.mem_append.mp member with old | new
      · exact Or.inl old
      · right
        rw [completions, List.length_append, List.length_singleton]
        simp only [List.mem_cons, List.not_mem_nil, or_false] at new
        rcases new with rfl | rfl <;> exact Nat.lt_succ_self _

theorem finish_length {handled : Handled} {next : State}
    (finished : handled.finish = .ok next) :
    next.completions.length = handled.state.completions.length := by
  have same := finish_completions finished
  apply le_antisymm
  · rw [← List.getElem?_eq_none_iff, same, List.getElem?_eq_none le_rfl]
    rfl
  · rw [← List.getElem?_eq_none_iff]
    have none := same next.completions.length
    rw [List.getElem?_eq_none le_rfl] at none
    exact Option.map_eq_none_iff.mp none.symm

theorem finish_frame {handled : Handled} {next : State}
    (finished : handled.finish = .ok next) :
    next.posted = handled.state.posted ∧
      next.stops = handled.state.stops :=
  have same := Handled.finish_same finished
  ⟨same.posted, same.stops⟩

theorem Launches.calls {s : State} {action : Action} {timer : Nat}
    {request : AddRequest} (launches : Launches s action timer request) :
    Calls s action request.callback := by
  rcases launches with ⟨call, className, started, handles, -, -, rfl⟩
  change Calls s action call.callback
  cases action with
  | commandRead index events env =>
      rcases Option.bind_eq_some_iff.mp handles with
        ⟨⟨connection, server⟩, -, handles⟩
      rcases Option.bind_eq_some_iff.mp handles with
        ⟨⟨err, cmd⟩, -, handles⟩
      rw [(commandCall_eq_some handles).2.2.2.2]
      exact .command connection
  | runPosted env =>
      rcases Option.bind_eq_some_iff.mp handles with ⟨half, first, handles⟩
      rcases Option.bind_eq_some_iff.mp handles with ⟨c, -, handles⟩
      split at handles
      · rcases Option.some.inj handles with rfl
        exact .posted first
      · simp at handles
  | _ => simp [addCall] at handles

/-- Every step keeps what is outstanding known. -/
theorem step_halvesKnown {config : Config} {s next : State}
    {action : Action} (aborted : Aborted s) (sound : s.objects.Sound)
    (known : HalvesKnown s)
    (taken : step config s action = some (.ok next)) :
    HalvesKnown next := by
  rcases step_handled taken with ⟨handled, ran, finished⟩
  rcases step_completions ran with ⟨made, queued⟩
  rcases finish_frame finished with ⟨posted, stops⟩
  have length := finish_length finished
  have more : s.completions.length ≤ next.completions.length := by
    rw [length]
    rcases made with same | ⟨momanCb, cmd, connection, same⟩
    · rw [same]
    · rw [same, List.length_append]
      exact Nat.le_add_right ..
  constructor
  · intro half member
    rcases queued half (posted ▸ member) with old | new
    · exact Nat.lt_of_lt_of_le (known.posted half old) more
    · exact length ▸ new
  · intro timer request waits
    rcases (step_awaited aborted sound taken timer request).mp waits with
      launches | ⟨old, -⟩
    · exact (known.calls launches.calls).mono more
    · exact (known.awaited timer request old).mono more
  · intro exchange member
    rcases (handle_calls ran).stops exchange (stops ▸ member) with
      old | calls
    · exact (known.stops exchange old).mono more
    · exact (known.calls calls).mono more

theorem construct_halvesKnown {config : Config} {startUp : StartUp}
    {start : State} (built : construct config startUp = .ok start) :
    start.completions = [] ∧ HalvesKnown start := by
  have waits : ∀ timer, start.objects.awaited timer = none := by
    intro timer
    rw [awaited_changes (construct_effect built).1]
    rfl
  rcases bind_eq_ok.mp built with ⟨watching, added, same⟩
  rcases Except.ok.inj same with rfl
  have quiet := (scanFiles_quiet config startUp.files {}).trans
    (addWatches_quiet added)
  have posted : watching.posted = [] := quiet.posted
  have stops : watching.stops = [] := quiet.stops
  refine ⟨quiet.completions, ?_, ?_, ?_⟩
  · intro half member
    change half ∈ watching.posted at member
    simp [posted] at member
  · intro timer request present
    rw [waits] at present
    simp at present
  · intro exchange member
    change exchange ∈ watching.stops at member
    simp [stops] at member

/-! ## The answers of the halves -/

/-- The kind of the handler that a step runs, if it has one. -/
def handlerKind (s : State) : Action → Option MonitorOrScraper
  | .runPosted _ => s.posted.head?.map PostedHalf.kind
  | .runAddWait timer => (s.objects.awaited timer).map AddRequest.kind
  | .runStop index => (s.stops[index]?).map StopExchange.kind
  | _ => none

/-- The half of a completion that a step calls back for, and its response. -/
def halfAnswer (config : Config) (completion : Nat)
    (attempt : State × Action) : Option (MonitorOrScraper × Response) :=
  match handle config attempt.1 attempt.2 with
  | some (.ok handled) =>
      (handled.toHalf completion).bind fun response =>
        (handlerKind attempt.1 attempt.2).map fun m => (m, response)
  | _ => none

def halfAnswers (config : Config) (completion : Nat)
    (attempts : List (State × Action)) : List (MonitorOrScraper × Response) :=
  attempts.filterMap (halfAnswer config completion)

def ofKind (m : MonitorOrScraper)
    (answers : List (MonitorOrScraper × Response)) : List Response :=
  (answers.filter fun answer => answer.1 = m).map Prod.snd

/-- The responses that one half gives. -/
def answersOf (config : Config) (completion : Nat) (m : MonitorOrScraper)
    (attempts : List (State × Action)) : List Response :=
  ofKind m (halfAnswers config completion attempts)

/-- The arguments of a call of `m_completionCb`. -/
def completionCall (config : Config) (completion : Nat)
    (attempt : State × Action) : Option (Response × Response) := do
  let answer ← halfAnswer config completion attempt
  let c ← attempt.1.completions[completion]?
  if c.bothCompleted then some (c.firstResponse, answer.2) else none

def completionCalls (config : Config) (completion : Nat)
    (attempts : List (State × Action)) : List (Response × Response) :=
  attempts.filterMap (completionCall config completion)

/-- What a step writes to clients when it answers for a completion. -/
def replyWritten (config : Config) (completion : Nat)
    (attempt : State × Action) : List (Nat × Response) :=
  match halfAnswer config completion attempt,
      step config attempt.1 attempt.2 with
  | some _, some (.ok next) =>
      next.written.drop attempt.1.written.length
  | _, _ => []

def repliesWritten (config : Config) (completion : Nat)
    (attempts : List (State × Action)) : List (Nat × Response) :=
  attempts.flatMap (replyWritten config completion)

/-- The second and any further answer are passed on with the first. -/
def callsFrom : List Response → List (Response × Response)
  | [] => []
  | first :: rest => rest.map fun response => (first, response)

/-- A completion has its first answer. -/
def Records (answers : List Response) :
    Option MonitorScraperCompletion → Prop
  | none => answers = []
  | some c =>
      match answers with
      | [] => c.bothCompleted = false
      | first :: _ => c.bothCompleted = true ∧ c.firstResponse = first

/-- A response to a half has a kind. -/
theorem halfAnswer_of_toHalf {config : Config} {s : State} {action : Action}
    {handled : Handled} {completion : Nat} {response : Response}
    (ran : handle config s action = some (.ok handled))
    (told : handled.toHalf completion = some response) :
    ∃ m, halfAnswer config completion (s, action) = some (m, response) := by
  unfold Handled.toHalf at told
  split at told
  · rename_i other value answered
    split at told
    · rename_i same
      subst same
      have calls := (handle_calls ran).answer _ _ answered
      have kind : ∃ m, handlerKind s action = some m := by
        generalize half : Callback.half other = callback at calls
        cases calls with
        | command connection => simp at half
        | @posted env first found =>
            exact ⟨first.kind, by simp [handlerKind, found]⟩
        | @waited timer request awaits =>
            exact ⟨request.kind, by simp [handlerKind, awaits]⟩
        | @stopped index exchange queued =>
            exact ⟨exchange.kind, by simp [handlerKind, queued]⟩
      rcases kind with ⟨m, kind⟩
      refine ⟨m, ?_⟩
      simp only [halfAnswer, ran, kind, Handled.toHalf, answered, if_true,
        Option.bind_some, Option.map_some]
      rw [Option.some.inj told]
    · simp at told
  · simp at told

/-- Only a handler that returns answers for a half. -/
theorem handle_of_halfAnswer {config : Config} {s : State}
    {action : Action} {completion : Nat}
    {answer : MonitorOrScraper × Response}
    (answers : halfAnswer config completion (s, action) = some answer) :
    ∃ handled, handle config s action = some (.ok handled) := by
  unfold halfAnswer at answers
  split at answers
  · rename_i handled ran
    exact ⟨handled, ran⟩
  · simp at answers

theorem toHalf_of_halfAnswer {config : Config} {s : State} {action : Action}
    {handled : Handled} {completion : Nat}
    {answer : MonitorOrScraper × Response}
    (ran : handle config s action = some (.ok handled))
    (answers : halfAnswer config completion (s, action) = some answer) :
    handled.toHalf completion = some answer.2 := by
  rw [halfAnswer, ran] at answers
  rcases Option.bind_eq_some_iff.mp answers with ⟨response, told, kind⟩
  rcases Option.map_eq_some_iff.mp kind with ⟨m, -, rfl⟩
  exact told

theorem answer_of_toHalf {handled : Handled} {completion : Nat}
    {response : Response}
    (told : handled.toHalf completion = some response) :
    handled.answer = some (.half completion, response) := by
  unfold Handled.toHalf at told
  split at told
  · rename_i other value answered
    split at told
    · rename_i same
      rw [answered, same, Option.some.inj told]
    · simp at told
  · simp at told

/-- The completion that a handler answers exists, and is not touched by it. -/
theorem HalvesKnown.completion {config : Config} {s : State}
    {action : Action} {handled : Handled} {c : Nat} {response : Response}
    (known : HalvesKnown s)
    (ran : handle config s action = some (.ok handled))
    (answered : handled.answer = some (.half c, response)) :
    ∃ completion, s.completions[c]? = some completion ∧
      handled.state.completions[c]? = some completion := by
  have inside : c < s.completions.length :=
    known.calls ((handle_calls ran).answer _ _ answered)
  have present := List.getElem?_eq_getElem inside
  refine ⟨s.completions[c], present, ?_⟩
  rcases (step_completions ran).1 with
    unchanged | ⟨momanCb, cmd, connection, appended⟩
  · rw [unchanged, present]
  · rw [appended, List.getElem?_append_left inside, present]

/-- What a step is for a completion. -/
inductive HalfStep (config : Config) (s : State) (action : Action)
    (next : State) (c : Nat) : Prop where
  | other (silent : halfAnswer config c (s, action) = none)
      (completion : next.completions[c]? = s.completions[c]? ∨
        s.completions[c]? = none ∧ ∃ completion,
          next.completions[c]? = some completion ∧
            completion.bothCompleted = false)
  | first (m : MonitorOrScraper) (response : Response)
      (completion : MonitorScraperCompletion)
      (answers : halfAnswer config c (s, action) = some (m, response))
      (present : s.completions[c]? = some completion)
      (fresh : completion.bothCompleted = false)
      (stored : next.completions[c]? = some
        { completion with bothCompleted := true, firstResponse := response })
      (written : next.written = s.written)
  | later (m : MonitorOrScraper) (response common : Response)
      (completion : MonitorScraperCompletion)
      (answers : halfAnswer config c (s, action) = some (m, response))
      (present : s.completions[c]? = some completion)
      (both : completion.bothCompleted = true)
      (stored : next.completions[c]? = some completion)
      (called : completionCb completion.momanCb completion.firstResponse
        response = .ok common)
      (written : next.written = s.written ++
        [(completion.connection, common)])

theorem step_half {config : Config} {s next : State} {action : Action}
    (known : HalvesKnown s)
    (taken : step config s action = some (.ok next)) (c : Nat) :
    HalfStep config s action next c := by
  rcases step_handled taken with ⟨handled, ran, finished⟩
  have frame := (handle_frame ran).written
  have made := (step_completions ran).1
  cases told : handled.toHalf c with
  | none =>
      apply HalfStep.other
      · simp [halfAnswer, ran, told]
      · have same := finish_completions finished c
        rw [told] at same
        have kept : next.completions[c]? = handled.state.completions[c]? := by
          rw [same]
          exact Option.map_id'
        rw [kept]
        rcases made with unchanged | ⟨momanCb, cmd, connection, appended⟩
        · rw [unchanged]
          exact Or.inl rfl
        · rw [appended, List.getElem?_append]
          split
          · exact Or.inl rfl
          · rename_i outside
            have absent := List.getElem?_eq_none (Nat.le_of_not_lt outside)
            rw [absent, List.getElem?_singleton]
            split
            · exact Or.inr ⟨rfl, _, rfl, rfl⟩
            · exact Or.inl rfl
  | some response =>
      rcases halfAnswer_of_toHalf ran told with ⟨m, answers⟩
      have answered := answer_of_toHalf told
      rcases known.completion ran answered with ⟨completion, present, found⟩
      have stored := finish_completions finished c
      rw [told, found] at stored
      rw [Handled.finish, answered] at finished
      change checkForCompletion c response handled.state = .ok next
        at finished
      rw [checkForCompletion, found] at finished
      dsimp only at finished
      cases both : completion.bothCompleted with
      | false =>
          rw [if_pos (by simp [both])] at finished
          rcases Except.ok.inj finished with rfl
          refine .first m response _ answers present both ?_ frame
          simp [stored, MonitorScraperCompletion.absorb, both]
      | true =>
          rw [if_neg (by simp [both])] at finished
          rcases bind_eq_ok.mp finished with ⟨common, called, same⟩
          rcases Except.ok.inj same with rfl
          refine .later m response common _ answers present both ?_ called ?_
          · simp [stored, MonitorScraperCompletion.absorb, both]
          · rw [← frame]
            rfl

/-! ## Runs -/

/-- A run has called and replied for a completion as its answers ask for. -/
structure Tallies (config : Config) (attempts : List (State × Action))
    (s : State) (c : Nat) : Prop where
  records : Records ((halfAnswers config c attempts).map Prod.snd)
    s.completions[c]?
  calls : completionCalls config c attempts =
    callsFrom ((halfAnswers config c attempts).map Prod.snd)
  replies : ∀ completion, s.completions[c]? = some completion →
    List.Forall₂ (fun call reply => reply.1 = completion.connection ∧
        completionCb completion.momanCb call.1 call.2 = .ok reply.2)
      (completionCalls config c attempts)
      (repliesWritten config c attempts)

theorem callsFrom_append {first : Response} (rest : List Response)
    (response : Response) :
    callsFrom (first :: rest ++ [response]) =
      callsFrom (first :: rest) ++ [(first, response)] := by
  simp [callsFrom]

/-- A call needs two answers. -/
theorem two_of_callsFrom {answers : List Response}
    (called : callsFrom answers ≠ []) : 2 ≤ answers.length := by
  rcases answers with _ | ⟨first, _ | ⟨second, rest⟩⟩
  · exact absurd rfl called
  · exact absurd rfl called
  · simp

section OneMore

variable {config : Config} {attempts : List (State × Action)}
  {s next : State} {action : Action} {c : Nat}

theorem halfAnswers_append :
    halfAnswers config c (attempts ++ [(s, action)]) =
      halfAnswers config c attempts ++
        (halfAnswer config c (s, action)).toList := by
  rw [halfAnswers, List.filterMap_append]
  cases answers : halfAnswer config c (s, action) <;>
    simp [halfAnswers, answers]

theorem completionCalls_append :
    completionCalls config c (attempts ++ [(s, action)]) =
      completionCalls config c attempts ++
        (completionCall config c (s, action)).toList := by
  rw [completionCalls, List.filterMap_append]
  cases called : completionCall config c (s, action) <;>
    simp [completionCalls, called]

theorem repliesWritten_append :
    repliesWritten config c (attempts ++ [(s, action)]) =
      repliesWritten config c attempts ++
        replyWritten config c (s, action) := by
  simp [repliesWritten]

theorem repliesWritten_eq_nil
    (none : halfAnswers config c attempts = []) :
    repliesWritten config c attempts = [] := by
  rw [repliesWritten, List.flatMap_eq_nil_iff]
  intro attempt member
  have silent := List.filterMap_eq_nil_iff.mp none attempt member
  simp [replyWritten, silent]

/-- A step that does not answer for the half counts nothing. -/
theorem tally_of_silent
    (silent : halfAnswer config c (s, action) = none) :
    halfAnswers config c (attempts ++ [(s, action)]) =
        halfAnswers config c attempts ∧
      completionCalls config c (attempts ++ [(s, action)]) =
          completionCalls config c attempts ∧
        repliesWritten config c (attempts ++ [(s, action)]) =
          repliesWritten config c attempts := by
  refine ⟨?_, ?_, ?_⟩
  · rw [halfAnswers_append, silent]
    exact List.append_nil _
  · rw [completionCalls_append,
      show completionCall config c (s, action) = none by
        simp [completionCall, silent]]
    exact List.append_nil _
  · rw [repliesWritten_append,
      show replyWritten config c (s, action) = [] by
        simp [replyWritten, silent]]
    exact List.append_nil _

/-- A completion that has not recorded an answer got none. -/
theorem Tallies.unanswered (tallies : Tallies config attempts s c)
    {completion : MonitorScraperCompletion}
    (present : s.completions[c]? = some completion)
    (fresh : completion.bothCompleted = false) :
    (halfAnswers config c attempts).map Prod.snd = [] := by
  have records := tallies.records
  rw [present] at records
  cases earlier : (halfAnswers config c attempts).map Prod.snd with
  | nil => rfl
  | cons before rest =>
      rw [earlier] at records
      rw [records.1] at fresh
      simp at fresh

theorem Tallies.step (tallies : Tallies config attempts s c)
    (taken : Manager.step config s action = some (.ok next))
    (half : HalfStep config s action next c) :
    Tallies config (attempts ++ [(s, action)]) next c := by
  cases half with
  | other silent completion =>
      rcases tally_of_silent silent with
        ⟨answers, calls, replies⟩
      have old := tallies.records
      rcases completion with same | ⟨absent, made, present, fresh⟩
      · constructor
        · rw [answers, same]
          exact old
        · rw [calls, answers]
          exact tallies.calls
        · rw [calls, replies, same]
          exact tallies.replies
      · rw [absent] at old
        have none : halfAnswers config c attempts = [] := by
          simpa [Records] using old
        constructor
        · rw [answers, none, present]
          exact fresh
        · rw [calls, answers]
          exact tallies.calls
        · intro completion found
          have noCalls : completionCalls config c attempts = [] := by
            rw [tallies.calls, none]
            rfl
          rw [calls, replies, noCalls, repliesWritten_eq_nil none]
          exact .nil
  | first m response completion answers present fresh stored written =>
      have called : completionCall config c (s, action) = none := by
        simp [completionCall, answers, present, fresh]
      have replied : replyWritten config c (s, action) = [] := by
        simp [replyWritten, answers, taken, written]
      have none := tallies.unanswered present fresh
      constructor
      · rw [halfAnswers_append, answers, List.map_append, none, stored]
        exact ⟨rfl, rfl⟩
      · rw [completionCalls_append, called, halfAnswers_append, answers,
          List.map_append, tallies.calls, none]
        rfl
      · intro other found
        rw [stored] at found
        rcases Option.some.inj found with rfl
        rw [completionCalls_append, called, repliesWritten_append, replied,
          Option.toList_none, List.append_nil, List.append_nil]
        exact tallies.replies completion present
  | later m response common completion answers present both stored called
      written =>
      have call : completionCall config c (s, action) =
          some (completion.firstResponse, response) := by
        simp [completionCall, answers, present, both]
      have replied : replyWritten config c (s, action) =
          [(completion.connection, common)] := by
        simp [replyWritten, answers, taken, written]
      have old := tallies.records
      rw [present] at old
      cases earlier : (halfAnswers config c attempts).map Prod.snd with
      | nil =>
          rw [earlier] at old
          rw [show completion.bothCompleted = false from old] at both
          simp at both
      | cons before rest =>
          rw [earlier] at old
          have all : (halfAnswers config c
              (attempts ++ [(s, action)])).map Prod.snd =
                before :: rest ++ [response] := by
            rw [halfAnswers_append, answers, List.map_append, earlier]
            rfl
          constructor
          · rw [all, stored]
            exact old
          · rw [completionCalls_append, call, all, callsFrom_append,
              tallies.calls, earlier, old.2]
            rfl
          · intro other found
            rw [stored] at found
            rcases Option.some.inj found with rfl
            rw [completionCalls_append, call, repliesWritten_append, replied]
            exact List.rel_append (tallies.replies completion present)
              (.cons ⟨rfl, called⟩ .nil)

end OneMore

section Runs

variable {config : Config} {startUp : StartUp} {start s : State}
  {attempts : List (State × Action)} {outcome : Except Fault State} {c : Nat}

theorem run_tallies (built : construct config startUp = .ok start)
    (run : Run (step config) start attempts outcome)
    (finished : outcome = .ok s) :
    HalvesKnown s ∧ ∀ c, Tallies config attempts s c := by
  induction run generalizing s with
  | start =>
      rcases Except.ok.inj finished with rfl
      rcases construct_halvesKnown built with ⟨none, known⟩
      refine ⟨known, fun c => ⟨?_, rfl, fun completion found => ?_⟩⟩
      · rw [none]
        rfl
      · rw [none] at found
        simp at found
  | next earlier taken ih =>
      subst finished
      have reached : Reached config _ := ⟨startUp, start, built, _, earlier⟩
      rcases ih rfl with ⟨known, tallies⟩
      exact ⟨step_halvesKnown reached.aborted reached.sound known taken,
        fun c => (tallies c).step taken (step_half known taken c)⟩

/-- A completion keeps its command and its client. -/
structure SameRequest (completion other : MonitorScraperCompletion) :
    Prop where
  momanCb : other.momanCb = completion.momanCb
  connection : other.connection = completion.connection

theorem HalfStep.persists {next : State} {action : Action}
    (half : HalfStep config s action next c)
    {completion : MonitorScraperCompletion}
    (found : s.completions[c]? = some completion) :
    ∃ other, next.completions[c]? = some other ∧
      SameRequest completion other := by
  cases half with
  | other silent kept =>
      rcases kept with same | ⟨absent, -⟩
      · exact ⟨completion, same.trans found, rfl, rfl⟩
      · simp [absent] at found
  | first m response present answers old fresh stored written =>
      rcases Option.some.inj (old.symm.trans found) with rfl
      exact ⟨_, stored, rfl, rfl⟩
  | later m response common present answers old both stored called written =>
      rcases Option.some.inj (old.symm.trans found) with rfl
      exact ⟨_, stored, rfl, rfl⟩

/-- A completion that exists at some time of a run exists at its end. -/
theorem visited_persists (built : construct config startUp = .ok start)
    (run : Run (step config) start attempts outcome)
    (finished : outcome = .ok s) {v : State}
    (visited : Visits attempts outcome v)
    {completion : MonitorScraperCompletion}
    (found : v.completions[c]? = some completion) :
    ∃ other, s.completions[c]? = some other ∧
      SameRequest completion other := by
  induction run generalizing s with
  | start =>
      rcases visited with ⟨action, member⟩ | ended
      · simp at member
      · rcases Except.ok.inj (finished.symm.trans ended) with rfl
        exact ⟨completion, found, rfl, rfl⟩
  | @next attempts middle action outcome earlier taken ih =>
      subst finished
      have known := (run_tallies built earlier rfl).1
      have before : Visits attempts (.ok middle : Except Fault State) v →
          ∃ other, s.completions[c]? = some other ∧
            SameRequest completion other := by
        intro old
        rcases ih rfl old with ⟨between, present, same⟩
        rcases (step_half known taken c).persists present with
          ⟨other, later, alike⟩
        exact ⟨other, later, alike.momanCb.trans same.momanCb,
          alike.connection.trans same.connection⟩
      rcases visited with ⟨taken', member⟩ | ended
      · rcases List.mem_append.mp member with old | new
        · exact before (Or.inl ⟨taken', old⟩)
        · rcases Prod.mk.inj (List.mem_singleton.mp new) with ⟨rfl, -⟩
          exact before (Or.inr rfl)
      · rcases Except.ok.inj ended with rfl
        exact ⟨completion, found, rfl, rfl⟩

end Runs

/-! ## Two answers -/

/-- The error code of the response has a name. -/
def Registered (response : Response) : Prop :=
  (errorNames[response.error.toNat]?).isSome = true

theorem errorToString_registered {response : Response}
    (registered : Registered response) :
    ∃ name, Utils.errorToString response.error = .ok name := by
  rcases Option.isSome_iff_exists.mp registered with ⟨name, found⟩
  exact ⟨name, by rw [Utils.errorToString, found]⟩

theorem failureInfo_registered {response : Response}
    (registered : Registered response) :
    ∃ info, Utils.failureInfo response = .ok info := by
  rcases errorToString_registered registered with ⟨name, named⟩
  unfold Utils.failureInfo
  split
  · rw [named]
    simp only [bind, Except.bind]
    split
    · exact ⟨_, rfl⟩
    · exact ⟨_, rfl⟩
  · exact ⟨_, rfl⟩

/-- A common response is a success just when both responses are. -/
theorem makeCommonResponse_error {first second reply : Response}
    {commonError : Error} (failure : commonError.code ≠ Error.ok.code)
    (made : Utils.makeCommonResponse first second commonError = .ok reply) :
    reply.error = Error.ok.code ↔
      first.error = Error.ok.code ∧ second.error = Error.ok.code := by
  have ok : Error.ok.code = 0 := rfl
  unfold Utils.makeCommonResponse at made
  split at made
  · rename_i either
    rcases bind_eq_ok.mp made with ⟨firstInfo, -, made⟩
    rcases bind_eq_ok.mp made with ⟨secondInfo, -, made⟩
    rcases Except.ok.inj made with rfl
    refine iff_of_false failure ?_
    rintro ⟨firstOk, secondOk⟩
    rcases either with failed | failed
    · exact failed firstOk
    · exact failed secondOk
  · rename_i neither
    rcases Except.ok.inj made with rfl
    rw [not_or, not_not, not_not] at neither
    exact iff_of_true rfl neither

theorem makeCommonResponse_registered {first second : Response}
    (firstRegistered : Registered first)
    (secondRegistered : Registered second) (commonError : Error) :
    ∃ reply, Utils.makeCommonResponse first second commonError =
      .ok reply := by
  rcases failureInfo_registered firstRegistered with ⟨info, told⟩
  rcases failureInfo_registered secondRegistered with ⟨more, toldMore⟩
  unfold Utils.makeCommonResponse
  split
  · rw [told, toldMore]
    exact ⟨_, rfl⟩
  · exact ⟨_, rfl⟩

/-- What one half has not said, the other one has. -/
theorem ofKind_silent {m other : MonitorOrScraper} (different : other ≠ m)
    {answers : List (MonitorOrScraper × Response)} {said : List Response}
    (silent : ofKind m answers = []) (others : ofKind other answers = said) :
    answers = said.map fun response => (other, response) := by
  have kinds : ∀ answer ∈ answers, answer.1 = other := by
    intro answer member
    rw [ofKind, List.map_eq_nil_iff, List.filter_eq_nil_iff] at silent
    have not := silent answer member
    cases kind : answer.1 <;> cases m <;> cases other <;> simp_all
  have all : answers.filter (fun answer => answer.1 = other) = answers :=
    List.filter_eq_self.mpr fun answer member => by
      simpa using kinds answer member
  rw [ofKind, all] at others
  rw [← others, List.map_map]
  symm
  calc answers.map ((fun response => (other, response)) ∘ Prod.snd)
      = answers.map id := List.map_congr_left fun answer member => by
        rw [Function.comp_apply, ← kinds answer member]
        rfl
    _ = answers := List.map_id _

/-- One answer of each half are two answers, in one of the two orders. -/
theorem two_answers {answers : List (MonitorOrScraper × Response)}
    {monitor scraper : Response}
    (monitorAnswers : ofKind .monitor answers = [monitor])
    (scraperAnswers : ofKind .scraper answers = [scraper]) :
    answers = [(.monitor, monitor), (.scraper, scraper)] ∨
      answers = [(.scraper, scraper), (.monitor, monitor)] := by
  cases answers with
  | nil => simp [ofKind] at monitorAnswers
  | cons answer answers =>
      rcases answer with ⟨_ | _, response⟩
      · left
        have once : response = monitor ∧ ofKind .monitor answers = [] := by
          simpa [ofKind] using monitorAnswers
        have rest : ofKind .scraper answers = [scraper] := by
          simpa [ofKind] using scraperAnswers
        rw [once.1, ofKind_silent (by decide) once.2 rest]
        rfl
      · right
        have once : response = scraper ∧ ofKind .scraper answers = [] := by
          simpa [ofKind] using scraperAnswers
        have rest : ofKind .monitor answers = [monitor] := by
          simpa [ofKind] using monitorAnswers
        rw [once.1, ofKind_silent (by decide) once.2 rest]
        rfl

/-- A combined add or stop can be answered once its codes have names. -/
theorem completionCb_registered {momanCb : MonitorManagerCallback}
    {first second : Response} (combined : momanCb ≠ .onGetStatus)
    (firstRegistered : Registered first)
    (secondRegistered : Registered second) :
    ∃ reply, completionCb momanCb first second = .ok reply := by
  cases momanCb with
  | onAdd =>
      exact makeCommonResponse_registered firstRegistered secondRegistered _
  | onGetStatus => exact absurd rfl combined
  | onStop =>
      exact makeCommonResponse_registered firstRegistered secondRegistered _

theorem completionCb_error {momanCb : MonitorManagerCallback}
    {first second reply : Response} (combined : momanCb ≠ .onGetStatus)
    (made : completionCb momanCb first second = .ok reply) :
    reply.error = Error.ok.code ↔
      first.error = Error.ok.code ∧ second.error = Error.ok.code := by
  cases momanCb with
  | onAdd => exact makeCommonResponse_error (by decide) made
  | onGetStatus => exact absurd rfl combined
  | onStop => exact makeCommonResponse_error (by decide) made

section Runs

variable {config : Config} {startUp : StartUp} {start : State}
  {attempts : List (State × Action)} {outcome : Except Fault State} {c : Nat}

/-- An answer with a registered code does not end the run. -/
theorem halfAnswer_of_failed {s : State} {action : Action} {fault : Fault}
    (known : HalvesKnown s) (tallies : Tallies config attempts s c)
    {completion : MonitorScraperCompletion}
    (present : s.completions[c]? = some completion)
    (combined : completion.momanCb ≠ .onGetStatus)
    (registered : ∀ answer ∈
      halfAnswers config c (attempts ++ [(s, action)]), Registered answer.2)
    (failed : step config s action = some (.error fault)) :
    halfAnswer config c (s, action) = none := by
  by_contra answers
  rcases Option.ne_none_iff_exists'.mp answers with ⟨⟨m, response⟩, answers⟩
  rcases handle_of_halfAnswer answers with ⟨handled, ran⟩
  have told := toHalf_of_halfAnswer ran answers
  have answered := answer_of_toHalf told
  rcases known.completion ran answered with ⟨other, there, found⟩
  rcases Option.some.inj (present.symm.trans there) with rfl
  have mine : Registered response := by
    apply registered (m, response)
    rw [halfAnswers_append, answers]
    exact List.mem_append_right _ List.mem_cons_self
  have first : completion.bothCompleted = true →
      Registered completion.firstResponse := by
    intro both
    have records := tallies.records
    rw [present] at records
    cases earlier : halfAnswers config c attempts with
    | nil =>
        rw [earlier] at records
        have fresh : completion.bothCompleted = false := records
        rw [fresh] at both
        simp at both
    | cons before rest =>
        rw [earlier] at records
        have same : completion.firstResponse = before.2 := records.2
        rw [same]
        apply registered before
        rw [halfAnswers_append, earlier]
        exact List.mem_cons_self
  have succeeds : ∃ next, handled.finish = .ok next := by
    rw [Handled.finish, answered]
    change ∃ next, checkForCompletion c response handled.state = .ok next
    rw [checkForCompletion, found]
    dsimp only
    split
    · exact ⟨_, rfl⟩
    · rename_i both
      rcases completionCb_registered combined (first (by simpa using both))
        mine with ⟨reply, made⟩
      rw [made]
      exact ⟨_, rfl⟩
  rcases succeeds with ⟨next, finished⟩
  rw [step_eq_handle, ran] at failed
  have same : handled.finish = .error fault := Option.some.inj failed
  rw [finished] at same
  simp at same

/-- What a run has called and replied for a combined add or stop. -/
theorem run_calls (built : construct config startUp = .ok start)
    (run : Run (step config) start attempts outcome) {v : State}
    {completion : MonitorScraperCompletion}
    (visited : Visits attempts outcome v)
    (found : v.completions[c]? = some completion)
    (combined : completion.momanCb ≠ .onGetStatus)
    (registered : ∀ answer ∈ halfAnswers config c attempts,
      Registered answer.2) :
    completionCalls config c attempts =
        callsFrom ((halfAnswers config c attempts).map Prod.snd) ∧
      List.Forall₂ (fun call reply => reply.1 = completion.connection ∧
          completionCb completion.momanCb call.1 call.2 = .ok reply.2)
        (completionCalls config c attempts)
        (repliesWritten config c attempts) := by
  have atEnd : ∀ {attempts s}, Run (step config) start attempts (.ok s) →
      Visits attempts (.ok s : Except Fault State) v →
        ∃ other, s.completions[c]? = some other ∧
          SameRequest completion other :=
    fun run visited => visited_persists built run rfl visited found
  cases run with
  | start =>
      rcases atEnd .start visited with ⟨other, present, same⟩
      have tallies := (run_tallies built .start rfl).2 c
      rw [← same.connection, ← same.momanCb]
      exact ⟨tallies.calls, tallies.replies other present⟩
  | @next attempts s action _ earlier taken =>
      cases outcome with
      | ok next =>
          rcases atEnd (earlier.next taken) visited with
            ⟨other, present, same⟩
          have tallies := (run_tallies built (earlier.next taken) rfl).2 c
          rw [← same.connection, ← same.momanCb]
          exact ⟨tallies.calls, tallies.replies other present⟩
      | error fault =>
          have before : Visits attempts (.ok s : Except Fault State) v := by
            rcases visited with ⟨taken', member⟩ | ended
            · rcases List.mem_append.mp member with old | new
              · exact Or.inl ⟨taken', old⟩
              · rcases Prod.mk.inj (List.mem_singleton.mp new) with ⟨rfl, -⟩
                exact Or.inr rfl
            · simp at ended
          rcases atEnd earlier before with ⟨other, present, same⟩
          rcases run_tallies built earlier rfl with ⟨known, tallies⟩
          have silent := halfAnswer_of_failed known (tallies c) present
            (same.momanCb ▸ combined) registered taken
          have called : completionCall config c (s, action) = none := by
            simp [completionCall, silent]
          have replied : replyWritten config c (s, action) = [] := by
            simp [replyWritten, silent]
          rw [completionCalls_append, called, halfAnswers_append, silent,
            repliesWritten_append, replied, Option.toList_none,
            Option.toList_none, List.append_nil, List.append_nil,
            List.append_nil, ← same.connection, ← same.momanCb]
          exact ⟨(tallies c).calls, (tallies c).replies other present⟩

end Runs

/--
A combined add or stop whose halves each call back once, with registered
codes, calls its completion callback exactly once, after both halves have
called back and with their two responses, and writes one reply to its client,
which is a success just when both responses are.
-/
theorem completion_called_once {config : Config} {startUp : StartUp}
    {start : State} (built : construct config startUp = .ok start)
    {attempts : List (State × Action)} {outcome : Except Fault State}
    (run : Run (step config) start attempts outcome) {c : Nat} {v : State}
    {completion : MonitorScraperCompletion}
    (visited : Visits attempts outcome v)
    (found : v.completions[c]? = some completion)
    (combined : completion.momanCb ≠ .onGetStatus)
    {monitor scraper : Response}
    (monitorAnswers : answersOf config c .monitor attempts = [monitor])
    (scraperAnswers : answersOf config c .scraper attempts = [scraper])
    (monitorRegistered : Registered monitor)
    (scraperRegistered : Registered scraper) :
    ∃ first second reply,
      ((first, second) = (monitor, scraper) ∨
          (first, second) = (scraper, monitor)) ∧
        completionCalls config c attempts = [(first, second)] ∧
        repliesWritten config c attempts =
          [(completion.connection, reply)] ∧
        (reply.error = Error.ok.code ↔
          monitor.error = Error.ok.code ∧ scraper.error = Error.ok.code) ∧
        ∀ earlier later, attempts = earlier ++ later →
          completionCalls config c earlier ≠ [] →
            answersOf config c .monitor earlier = [monitor] ∧
              answersOf config c .scraper earlier = [scraper] := by
  have two := two_answers monitorAnswers scraperAnswers
  have registered : ∀ answer ∈ halfAnswers config c attempts,
      Registered answer.2 := by
    intro answer member
    rcases two with order | order <;> rw [order] at member <;>
      rcases List.mem_pair.mp member with rfl | rfl <;> assumption
  have order : ∃ first second,
      ((first, second) = (monitor, scraper) ∨
          (first, second) = (scraper, monitor)) ∧
        (halfAnswers config c attempts).map Prod.snd = [first, second] := by
    rcases two with order | order
    · exact ⟨monitor, scraper, Or.inl rfl, by rw [order]; rfl⟩
    · exact ⟨scraper, monitor, Or.inr rfl, by rw [order]; rfl⟩
  rcases order with ⟨first, second, pair, answers⟩
  rcases run_calls built run visited found combined registered with
    ⟨calls, replies⟩
  rw [answers] at calls
  have once : completionCalls config c attempts = [(first, second)] := calls
  rw [once] at replies
  rcases List.forall₂_cons_left_iff.mp replies with
    ⟨⟨connection, reply⟩, none, ⟨rfl, made⟩, rest, written⟩
  rcases List.forall₂_nil_left_iff.mp rest with rfl
  refine ⟨first, second, reply, pair, once, written, ?_, ?_⟩
  · rw [completionCb_error combined made]
    rcases pair with same | same
    · rcases Prod.mk.inj same with ⟨rfl, rfl⟩
      exact Iff.rfl
    · rcases Prod.mk.inj same with ⟨rfl, rfl⟩
      exact and_comm
  · rintro earlier later rfl called
    have all : halfAnswers config c (earlier ++ later) =
        halfAnswers config c earlier ++ halfAnswers config c later :=
      List.filterMap_append ..
    suffices silent : halfAnswers config c later = [] by
      rw [silent, List.append_nil] at all
      rw [answersOf, ← all, answersOf, ← all]
      exact ⟨monitorAnswers, scraperAnswers⟩
    cases later with
    | nil => rfl
    | cons attempt later =>
        have tallies := (run_tallies built run.after_attempt.1 rfl).2 c
        rw [tallies.calls] at called
        -- a call needs two answers, and there are no more than two
        have length := congrArg List.length answers
        rw [all, List.length_map, List.length_append] at length
        have two := two_of_callsFrom called
        rw [List.length_map] at two
        apply List.eq_nil_of_length_eq_zero
        simp only [List.length_cons, List.length_nil] at length
        omega

namespace Installation

/-- A client stops the monitor and the scraper of a class that has neither. -/
def stopsBoth : List Action :=
  request (about .mmStopMonitorScraper "Shoes") {} ++
    [.runPosted {}, .runPosted {}]

end Installation

open Installation

/-- Both halves find no socket, and the client gets one error. -/
theorem completion_called_missing :
    ∃ call reply,
      completionCalls config 0 (attemptsOf (step config) start stopsBoth) =
          [call] ∧
        repliesWritten config 0 (attemptsOf (step config) start stopsBoth) =
          [reply] := by
  have setting : (execute (step config) start stopsBoth).any (fun s =>
      (s.completions[0]?).any fun completion =>
        completion.momanCb = .onStop) ∧
      ([MonitorOrScraper.monitor, .scraper].map fun m =>
        (answersOf config 0 m (attemptsOf (step config) start stopsBoth)).map
          fun response =>
            (errorNames[response.error.toNat]?).isSome) =
          [[true], [true]] := by
    decide +kernel
  rcases (Option.any_eq_true _ _).mp setting.1 with ⟨s, executed, facts⟩
  rcases (Option.any_eq_true _ _).mp facts with ⟨completion, found, isStop⟩
  have answers := setting.2
  simp only [List.map_cons, List.map_nil, List.cons.injEq, and_true]
    at answers
  rcases List.map_eq_singleton_iff.mp answers.1 with
    ⟨monitor, monitorAnswers, monitorRegistered⟩
  rcases List.map_eq_singleton_iff.mp answers.2 with
    ⟨scraper, scraperAnswers, scraperRegistered⟩
  rcases completion_called_once start_built (.of_execute executed)
    (Or.inr rfl) found (by simp [of_decide_eq_true isStop]) monitorAnswers
    scraperAnswers monitorRegistered scraperRegistered with
      ⟨first, second, reply, -, calls, replies, -⟩
  exact ⟨_, _, calls, replies⟩

end KekMonitors.Manager
