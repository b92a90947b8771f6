import KekMonitors.Manager.Completions

/-!
# The queue of the event loop

The loop runs ready handlers first come first served, posted halves among
them, on one thread.  So nothing is queued between the two halves that a
combined command posts, the monitor half runs first, and the next handler is
the scraper half.
-/

namespace KekMonitors.Manager

open Connection
open Objects
open Timer
open Transition

/-- A ready handler; a posted half is the next one of the manager's. -/
inductive Queued where
  | handler (action : Action)
  | posted

structure Loop where
  manager : State
  queue : List Queued := []

/--
Something happens outside, a handler becomes ready, or the loop runs the first
handler of its queue.
-/
inductive LoopAction where
  | outside (action : Action)
  | arrives (action : Action)
  | runs (env : Environment)

/-- What the kernel does while handlers wait or run. -/
def Action.isOutside : Action → Bool
  | .acceptCompletes .. => true
  | .timerExpires _ => true
  | .childExits _ => true
  | _ => false

/-- The handlers that are not posted halves. -/
def Action.isHandler : Action → Bool
  | .runPosted _ => false
  | action => ¬ action.isOutside

/-- The loop after a handler, with the halves that it has posted. -/
def Loop.after (loop : Loop) (queue : List Queued) (next : State) : Loop where
  manager := next
  queue := queue ++ List.replicate
    (next.posted.length - loop.manager.posted.length) .posted

def loopStep (config : Config) : StepFunction Loop LoopAction Fault
  | loop, .outside action =>
      if action.isOutside then
        (step config loop.manager action).map fun result =>
          result.map fun next => { loop with manager := next }
      else none
  | loop, .arrives action =>
      if action.isHandler then
        some (.ok { loop with queue := loop.queue ++ [.handler action] })
      else none
  | loop, .runs env =>
      match loop.queue with
      | [] => none
      | .handler action :: queue =>
          (step config loop.manager action).map fun result =>
            result.map (loop.after queue)
      | .posted :: queue =>
          (step config loop.manager (.runPosted env)).map fun result =>
            result.map (loop.after queue)

/-- What the manager does in a step of the loop. -/
def Loop.attempt (loop : Loop) : LoopAction → Option (State × Action)
  | .outside action =>
      if action.isOutside then some (loop.manager, action) else none
  | .arrives _ => none
  | .runs env =>
      loop.queue.head?.map fun
        | .handler action => (loop.manager, action)
        | .posted => (loop.manager, .runPosted env)

/-- The half of a combined command that the loop runs next. -/
def Loop.RunsNext (loop : Loop) (half : PostedHalf) : Prop :=
  loop.queue.head? = some .posted ∧ loop.manager.posted.head? = some half

/-- The reply to a request for the status of both stores. -/
def statusReply (o : Objects) : Response :=
  { Response.okResponse with
    payload := (Json.null.set "monitors" (onGetStatus .monitor o).payload).set
      "scrapers" (onGetStatus .scraper o).payload }

/-- The reply carries the status of each store under its name. -/
structure ReportsStatus (o : Objects) (reply : Response) : Prop where
  error : reply.error = Error.ok.code
  monitors : reply.payload.find? "monitors" =
    some (onGetStatus .monitor o).payload
  scrapers : reply.payload.find? "scrapers" =
    some (onGetStatus .scraper o).payload

theorem statusReply_reports (o : Objects) :
    ReportsStatus o (statusReply o) where
  error := rfl
  monitors := by
    rw [statusReply, Json.find?_set_of_ne (by decide)]
    exact Json.find?_set_self ..
  scrapers := Json.find?_set_self ..

/-! ## Status commands -/

/-- The completion is that of a request for the status of both stores. -/
def IsStatus (s : State) (c : Nat) : Prop :=
  ∃ completion, s.completions[c]? = some completion ∧
    completion.momanCb = .onGetStatus

/-- Nothing but its posted halves calls back for a status command. -/
structure StatusIdle (s : State) : Prop where
  awaited : ∀ timer request, s.objects.awaited timer = some request →
    ∀ c, request.callback = .half c → ¬ IsStatus s c
  stops : ∀ exchange ∈ s.stops,
    ∀ c, exchange.callback = .half c → ¬ IsStatus s c

/-- A status half answers at once with the status of its kind. -/
theorem runPosted_status (config : Config) {s : State} {half : PostedHalf}
    {posted : List PostedHalf} (queued : s.posted = half :: posted)
    (status : IsStatus s half.completion) (env : Environment) :
    handle config s (.runPosted env) =
      some (.ok
        { state := { s with posted := posted }
          answer := some (.half half.completion,
            onGetStatus half.kind s.objects) }) := by
  rcases status with ⟨completion, found, isStatus⟩
  simp [handle, queued, handledHalf, found, isStatus, handledStatus]

theorem IsStatus.of_known {config : Config} {s next : State}
    {action : Action} {c : Nat} (known : HalvesKnown s)
    (taken : step config s action = some (.ok next))
    (inside : c < s.completions.length) (status : IsStatus next c) :
    IsStatus s c := by
  have present := List.getElem?_eq_getElem inside
  rcases (step_half known taken c).persists present with
    ⟨other, found, same⟩
  rcases status with ⟨completion, stored, isStatus⟩
  rcases Option.some.inj (found.symm.trans stored) with rfl
  exact ⟨_, present, same.momanCb.symm.trans isStatus⟩

/-- A status command is called back by its posted halves alone. -/
theorem StatusIdle.calls {s : State} {action : Action} {c : Nat}
    (idle : StatusIdle s) (calls : Calls s action (.half c))
    (status : IsStatus s c) :
    ∃ env half, action = .runPosted env ∧ s.posted.head? = some half ∧
      half.completion = c := by
  generalize half : Callback.half c = callback at calls
  cases calls with
  | command connection => simp at half
  | @posted env first found =>
      exact ⟨env, first, rfl, found, (Callback.half.inj half).symm⟩
  | waited awaits =>
      exact absurd status (idle.awaited _ _ awaits c half.symm)
  | stopped queued =>
      exact absurd status
        (idle.stops _ (List.mem_of_getElem? queued) c half.symm)

/-- An add that launches is none for a status command. -/
theorem Launches.not_status {s : State} {action : Action} {timer c : Nat}
    {request : AddRequest} (launches : Launches s action timer request)
    (half : request.callback = .half c) : ¬ IsStatus s c := by
  rintro ⟨completion, found, status⟩
  rcases launches with ⟨call, className, started, handles, -, -, rfl⟩
  change call.callback = .half c at half
  cases action with
  | commandRead index events env =>
      rcases Option.bind_eq_some_iff.mp handles with
        ⟨⟨connection, server⟩, -, handles⟩
      rcases Option.bind_eq_some_iff.mp handles with
        ⟨⟨err, cmd⟩, -, handles⟩
      rw [(commandCall_eq_some handles).2.2.2.2] at half
      simp at half
  | runPosted env =>
      rcases Option.bind_eq_some_iff.mp handles with ⟨first, -, handles⟩
      rcases Option.bind_eq_some_iff.mp handles with ⟨other, there, handles⟩
      split at handles
      · rename_i isAdd
        rcases Option.some.inj handles with rfl
        rcases Callback.half.inj half with rfl
        rcases Option.some.inj (found.symm.trans there) with rfl
        rw [status] at isAdd
        simp at isAdd
      · simp at handles
  | _ => simp [addCall] at handles

theorem step_statusIdle {config : Config} {s next : State}
    {action : Action} (aborted : Aborted s) (sound : s.objects.Sound)
    (known : HalvesKnown s) (idle : StatusIdle s)
    (taken : step config s action = some (.ok next)) :
    StatusIdle next := by
  have before : ∀ {callback : Callback} {c : Nat}, Known s callback →
      callback = .half c → IsStatus next c → IsStatus s c := by
    rintro callback c inside rfl status
    exact status.of_known known taken inside
  constructor
  · intro timer request waits c half status
    rcases (step_awaited aborted sound taken timer request).mp waits with
      launches | ⟨old, -⟩
    · exact launches.not_status half
        (before (known.calls launches.calls) half status)
    · exact idle.awaited timer request old c half
        (before (known.awaited timer request old) half status)
  · intro exchange member c half status
    rcases step_handled taken with ⟨handled, ran, finished⟩
    have left : exchange ∈ handled.state.stops :=
      (finish_frame finished).2 ▸ member
    rcases (handle_calls ran).stops exchange left with old | calls
    · exact idle.stops exchange old c half
        (before (known.stops exchange old) half status)
    · have earlier := before (known.calls calls) half status
      rw [half] at calls
      rcases idle.calls calls earlier with ⟨env, first, rfl, queued, rfl⟩
      rcases List.head?_eq_some_iff.mp queued with ⟨posted, split⟩
      rw [runPosted_status config split earlier] at ran
      rcases Except.ok.inj (Option.some.inj ran) with rfl
      exact idle.stops exchange left _ half earlier

/-! ## Pairs of halves -/

/-- The queued halves come in pairs, each of a later completion. -/
inductive Paired : List Queued → List PostedHalf → Prop where
  | nil : Paired [] []
  | handler {queue : List Queued} {posted : List PostedHalf}
      (action : Action) (isHandler : action.isHandler = true)
      (rest : Paired queue posted) :
      Paired (.handler action :: queue) posted
  | pair {queue : List Queued} {posted : List PostedHalf} (c : Nat)
      (later : ∀ half ∈ posted, c < half.completion)
      (rest : Paired queue posted) :
      Paired (.posted :: .posted :: queue)
        ({ kind := .monitor, completion := c } ::
          { kind := .scraper, completion := c } :: posted)

theorem Paired.append_handler {queue : List Queued}
    {posted : List PostedHalf} (paired : Paired queue posted)
    {action : Action} (isHandler : action.isHandler = true) :
    Paired (queue ++ [.handler action]) posted := by
  induction paired with
  | nil => exact .handler action isHandler .nil
  | handler first firstHandler rest ih =>
      exact .handler first firstHandler ih
  | pair c later rest ih => exact .pair c later ih

theorem Paired.append_pair {queue : List Queued}
    {posted : List PostedHalf} (paired : Paired queue posted) {c : Nat}
    (earlier : ∀ half ∈ posted, half.completion < c) :
    Paired (queue ++ [.posted, .posted])
      (posted ++ [{ kind := .monitor, completion := c },
        { kind := .scraper, completion := c }]) := by
  induction paired with
  | nil => exact .pair c (by simp) .nil
  | handler first firstHandler rest ih =>
      exact .handler first firstHandler (ih earlier)
  | pair d later rest ih =>
      refine .pair d ?_ (ih fun half member =>
        earlier half (by simp [member]))
      intro half member
      rcases List.mem_append.mp member with old | new
      · exact later half old
      · have lower : d < c := earlier _ List.mem_cons_self
        simp only [List.mem_cons, List.not_mem_nil, or_false] at new
        rcases new with rfl | rfl <;> exact lower

/-- The status commands of these halves have no answer yet. -/
def Unanswered (s : State) (posted : List PostedHalf) : Prop :=
  ∀ half ∈ posted, ∀ completion,
    s.completions[half.completion]? = some completion →
      completion.momanCb = .onGetStatus → completion.bothCompleted = false

/-- The first answer of a status command is the current monitor status. -/
def HasMonitors (s : State) (c : Nat) : Prop :=
  ∀ completion, s.completions[c]? = some completion →
    completion.momanCb = .onGetStatus →
      completion.bothCompleted = true ∧
        completion.firstResponse = onGetStatus .monitor s.objects

/--
All halves are in pairs, or the next handler is the scraper half of a command
whose monitor half has just run.
-/
inductive InOrder (loop : Loop) : Prop where
  | pairs (paired : Paired loop.queue loop.manager.posted)
      (unanswered : Unanswered loop.manager loop.manager.posted)
  | between (c : Nat) (queue : List Queued) (posted : List PostedHalf)
      (queued : loop.queue = .posted :: queue)
      (first : loop.manager.posted =
        { kind := .scraper, completion := c } :: posted)
      (later : ∀ half ∈ posted, c < half.completion)
      (paired : Paired queue posted)
      (unanswered : Unanswered loop.manager posted)
      (monitors : HasMonitors loop.manager c)

/-- What holds of the loop in every reached state. -/
structure LoopInvariant (config : Config) (loop : Loop) : Prop where
  reached : Reached config loop.manager
  known : HalvesKnown loop.manager
  idle : StatusIdle loop.manager
  inOrder : InOrder loop

section Steps

variable {config : Config} {s next : State} {action : Action}

theorem onGetStatus_congr {o other : Objects} {m : MonitorOrScraper}
    (same : other.store m = o.store m) :
    onGetStatus m other = onGetStatus m o := by
  rw [onGetStatus, onGetStatus, same]

/-- What happens outside touches neither the stores nor the halves. -/
theorem step_outside (isOutside : action.isOutside = true)
    (taken : step config s action = some (.ok next)) :
    next.posted = s.posted ∧ next.completions = s.completions ∧
      ∀ m, onGetStatus m next.objects = onGetStatus m s.objects := by
  cases action with
  | acceptCompletes index err =>
      rcases acceptCompletes_takes taken with ⟨server, -, rfl⟩
      exact ⟨rfl, rfl, fun _ => rfl⟩
  | timerExpires timer =>
      rcases timerExpires_takes taken with ⟨wait, -, -, rfl⟩
      exact ⟨rfl, rfl, fun m => onGetStatus_congr (by cases m <;> rfl)⟩
  | childExits child =>
      rcases childExits_takes taken with ⟨c, -, -, rfl⟩
      exact ⟨rfl, rfl, fun m => onGetStatus_congr (by cases m <;> rfl)⟩
  | _ => simp [Action.isOutside] at isOutside

/-- A status command is answered by a step that runs its half. -/
theorem halfAnswer_status {c : Nat} (idle : StatusIdle s)
    (status : IsStatus s c) {answer : MonitorOrScraper × Response}
    (answers : halfAnswer config c (s, action) = some answer) :
    ∃ env half, action = .runPosted env ∧ s.posted.head? = some half ∧
      half.completion = c := by
  rcases handle_of_halfAnswer answers with ⟨handled, ran⟩
  have told := answer_of_toHalf (toHalf_of_halfAnswer ran answers)
  exact idle.calls ((handle_calls ran).answer _ _ told) status

theorem Unanswered.step {posted : List PostedHalf} (known : HalvesKnown s)
    (idle : StatusIdle s) (unanswered : Unanswered s posted)
    (inside : ∀ half ∈ posted, half.completion < s.completions.length)
    (apart : ∀ env half, action = .runPosted env →
      s.posted.head? = some half →
        ∀ other ∈ posted, other.completion ≠ half.completion)
    (taken : Manager.step config s action = some (.ok next)) :
    Unanswered next posted := by
  intro half member completion found status
  have before : IsStatus s half.completion :=
    IsStatus.of_known known taken (inside half member)
      ⟨completion, found, status⟩
  have silent : halfAnswer config half.completion (s, action) = none := by
    by_contra answers
    rcases Option.ne_none_iff_exists'.mp answers with ⟨answer, answers⟩
    rcases halfAnswer_status idle before answers with
      ⟨env, first, runs, queued, same⟩
    exact apart env first runs queued half member same.symm
  cases step_half known taken half.completion with
  | other none kept =>
      rcases kept with same | ⟨absent, made, stored, fresh⟩
      · rw [same] at found
        exact unanswered half member completion found status
      · rcases Option.some.inj (stored.symm.trans found) with rfl
        exact fresh
  | first m response old answers => simp [silent] at answers
  | later m response common old answers => simp [silent] at answers

/-- A posted half is taken from the front of its queue. -/
theorem step_posted {env : Environment} {half : PostedHalf}
    {posted : List PostedHalf} (queued : s.posted = half :: posted)
    (taken : step config s (.runPosted env) = some (.ok next)) :
    next.posted = posted := by
  rcases step_handled taken with ⟨handled, ran, finished⟩
  rw [(finish_frame finished).1]
  cases (handle_frame ran).halves with
  | same other => exact absurd rfl (other env)
  | taken _ first _ split =>
      rw [queued] at split
      exact (List.cons.inj split).2.symm
  | created _ _ _ other => exact absurd rfl (other env)

theorem step_statusHalf (config : Config) {half : PostedHalf}
    {posted : List PostedHalf} (queued : s.posted = half :: posted)
    (status : IsStatus s half.completion) (env : Environment) :
    step config s (.runPosted env) =
      some (checkForCompletion half.completion
        (onGetStatus half.kind s.objects) { s with posted := posted }) := by
  rw [step_eq_handle, runPosted_status config queued status]
  rfl

/-- The monitor half of a status command stores the monitor status. -/
theorem step_monitorHalf (config : Config) {half : PostedHalf}
    {posted : List PostedHalf} (queued : s.posted = half :: posted)
    {completion : MonitorScraperCompletion}
    (found : s.completions[half.completion]? = some completion)
    (status : completion.momanCb = .onGetStatus)
    (fresh : completion.bothCompleted = false) (env : Environment) :
    step config s (.runPosted env) =
      some (.ok
        { s with
          posted := posted
          completions := s.completions.set half.completion
            { completion with
              bothCompleted := true
              firstResponse := onGetStatus half.kind s.objects } }) := by
  rw [step_statusHalf config queued ⟨completion, found, status⟩ env]
  simp [checkForCompletion, found, fresh]

theorem orEmptyObject_status (m : MonitorOrScraper) (o : Objects) :
    orEmptyObject (onGetStatus m o).payload = (onGetStatus m o).payload := by
  have filled : (onGetStatus m o).payload.isNull = false :=
    notNull_of_find? (Json.find?_set_self ..)
  simp [orEmptyObject, filled]

theorem completionCb_status (o : Objects) :
    completionCb .onGetStatus (onGetStatus .monitor o)
      (onGetStatus .scraper o) = .ok (statusReply o) := by
  unfold completionCb
  dsimp only
  rw [orEmptyObject_status, orEmptyObject_status]
  rfl

/-- The scraper half, next to it, answers the client. -/
theorem step_scraperHalf (config : Config) {c : Nat}
    {posted : List PostedHalf}
    (queued : s.posted = { kind := .scraper, completion := c } :: posted)
    {completion : MonitorScraperCompletion}
    (found : s.completions[c]? = some completion)
    (status : completion.momanCb = .onGetStatus)
    (monitors : HasMonitors s c) (env : Environment) :
    step config s (.runPosted env) =
      some (.ok
        { s with
          posted := posted
          written := s.written ++
            [(completion.connection, statusReply s.objects)] }) := by
  rcases monitors completion found status with ⟨both, first⟩
  rw [step_statusHalf config queued ⟨completion, found, status⟩ env]
  simp only [checkForCompletion, found, both, status, first,
    completionCb_status, not_true_eq_false, if_false]
  rfl

end Steps

/-! ## The loop -/

theorem Loop.after_eq (loop : Loop) {queue : List Queued} {next : State}
    (fewer : next.posted.length ≤ loop.manager.posted.length) :
    loop.after queue next = { manager := next, queue := queue } := by
  simp [Loop.after, Nat.sub_eq_zero_of_le fewer]

section LoopSteps

variable {config : Config} {loop : Loop} {next : State} {queue : List Queued}

theorem map_map_eq_ok {after : State → Loop} {result : Loop}
    {outcome : Option (Except Fault State)}
    (mapped : (outcome.map fun ran => ran.map after) = some (.ok result)) :
    ∃ next, outcome = some (.ok next) ∧ after next = result := by
  rcases Option.map_eq_some_iff.mp mapped with ⟨ran, same, mapped⟩
  cases ran with
  | error fault => simp [Except.map] at mapped
  | ok next => exact ⟨next, same, Except.ok.inj mapped⟩

theorem HasMonitors.congr {s next : State} {c : Nat}
    (monitors : HasMonitors s c) (completions : next.completions =
      s.completions)
    (status : onGetStatus .monitor next.objects =
      onGetStatus .monitor s.objects) : HasMonitors next c := by
  intro completion found isStatus
  rw [status]
  exact monitors completion (completions ▸ found) isStatus

theorem InOrder.outside (inOrder : InOrder loop) {action : Action}
    (isOutside : action.isOutside = true)
    (taken : step config loop.manager action = some (.ok next)) :
    InOrder { loop with manager := next } := by
  rcases step_outside isOutside taken with ⟨posted, completions, status⟩
  have keeps : ∀ {halves}, Unanswered loop.manager halves →
      Unanswered next halves := by
    intro halves unanswered half member completion found isStatus
    exact unanswered half member completion (completions ▸ found) isStatus
  cases inOrder with
  | pairs paired unanswered =>
      refine .pairs ?_ ?_
      · rw [posted]
        exact paired
      · rw [posted]
        exact keeps unanswered
  | between c queue halves queued first later paired unanswered monitors =>
      exact .between c queue halves queued (posted.trans first) later paired
        (keeps unanswered) (monitors.congr completions (status .monitor))

theorem InOrder.arrives (inOrder : InOrder loop) {action : Action}
    (isHandler : action.isHandler = true) :
    InOrder { loop with queue := loop.queue ++ [.handler action] } := by
  cases inOrder with
  | pairs paired unanswered =>
      exact .pairs (paired.append_handler isHandler) unanswered
  | between c queue halves queued first later paired unanswered monitors =>
      refine .between c (queue ++ [.handler action]) halves ?_ first later
        (paired.append_handler isHandler) unanswered monitors
      simp [queued]

/-- Another handler is not at the front between the halves of a command. -/
theorem InOrder.front (inOrder : InOrder loop) {action : Action}
    (queued : loop.queue = .handler action :: queue) :
    action.isHandler = true ∧ Paired queue loop.manager.posted ∧
      Unanswered loop.manager loop.manager.posted := by
  cases inOrder with
  | pairs paired unanswered =>
      rw [queued] at paired
      cases paired with
      | handler _ isHandler rest => exact ⟨isHandler, rest, unanswered⟩
  | between c rest posted isQueued =>
      simp [queued] at isQueued

/-- A handler leaves the halves in order, and posts at most a pair. -/
theorem InOrder.handler (known : HalvesKnown loop.manager)
    (idle : StatusIdle loop.manager) {action : Action}
    (isHandler : action.isHandler = true)
    (paired : Paired queue loop.manager.posted)
    (unanswered : Unanswered loop.manager loop.manager.posted)
    (taken : step config loop.manager action = some (.ok next)) :
    InOrder (loop.after queue next) := by
  have old : Unanswered next loop.manager.posted := by
    apply unanswered.step known idle known.posted ?_ taken
    rintro env half rfl
    simp [Action.isHandler] at isHandler
  rcases step_handled taken with ⟨handled, ran, finished⟩
  have posted := (finish_frame finished).1
  cases (handle_frame ran).halves with
  | same _ unchanged =>
      rw [unchanged] at posted
      rw [loop.after_eq (by rw [posted])]
      exact .pairs (posted ▸ paired) (posted ▸ old)
  | taken env half runs =>
      rw [runs] at isHandler
      simp [Action.isHandler] at isHandler
  | created momanCb cmd connection _ appended completions =>
      rw [appended] at posted
      have two : next.posted.length - loop.manager.posted.length = 2 := by
        simp [posted]
      rw [Loop.after, two]
      apply InOrder.pairs
      · change Paired (queue ++ [.posted, .posted]) next.posted
        rw [posted]
        exact paired.append_pair known.posted
      · change Unanswered next next.posted
        rw [posted]
        intro half member completion found isStatus
        rcases List.mem_append.mp member with before | new
        · exact old half before completion found isStatus
        · have here : half.completion =
              loop.manager.completions.length := by
            simp only [List.mem_cons, List.not_mem_nil, or_false] at new
            rcases new with rfl | rfl <;> rfl
          have absent : loop.manager.completions[half.completion]? =
              none := by
            rw [here]
            exact List.getElem?_eq_none le_rfl
          cases step_half known taken half.completion with
          | other _ kept =>
              rcases kept with same | ⟨-, made, stored, fresh⟩
              · rw [same, absent] at found
                simp at found
              · rcases Option.some.inj (stored.symm.trans found) with rfl
                exact fresh
          | first _ _ _ _ present => simp [absent] at present
          | later _ _ _ _ _ present => simp [absent] at present

theorem InOrder.runs (known : HalvesKnown loop.manager)
    (idle : StatusIdle loop.manager) (inOrder : InOrder loop)
    (queued : loop.queue = .posted :: queue) {env : Environment}
    (taken : step config loop.manager (.runPosted env) =
      some (.ok next)) :
    InOrder (loop.after queue next) := by
  have fewer : ∀ {half : PostedHalf} {posted : List PostedHalf},
      loop.manager.posted = half :: posted →
        next.posted.length ≤ loop.manager.posted.length := by
    intro half posted first
    rw [step_posted first taken, first]
    exact Nat.le_succ _
  -- a later completion is not answered by this half
  have keeps : ∀ {c : Nat} {halves rest : List PostedHalf}
      {kind : MonitorOrScraper},
      loop.manager.posted = { kind, completion := c } :: rest →
        (∀ half ∈ halves, half ∈ rest) →
          (∀ half ∈ halves, c < half.completion) →
            Unanswered loop.manager halves → Unanswered next halves := by
    intro c halves rest kind first among later unanswered
    apply unanswered.step known idle ?_ ?_ taken
    · intro half member
      apply known.posted
      rw [first]
      exact List.mem_cons_of_mem _ (among half member)
    · intro env' front _ found other member
      rw [first] at found
      rcases Option.some.inj found with rfl
      exact (later other member).ne'
  cases inOrder with
  | pairs paired unanswered =>
      generalize halvesAre : loop.manager.posted = halves at paired
      rw [queued] at paired
      cases paired with
      | @pair rest posted c later paired =>
          have left := step_posted halvesAre taken
          rw [loop.after_eq (fewer halvesAre)]
          refine .between c rest posted rfl left later paired ?_ ?_
          · apply keeps halvesAre (fun half => List.mem_cons_of_mem _) later
            intro half member
            apply unanswered half
            rw [halvesAre]
            exact List.mem_cons_of_mem _ (List.mem_cons_of_mem _ member)
          · intro stored found isStatus
            have member : { kind := .monitor, completion := c } ∈
                loop.manager.posted := by simp [halvesAre]
            have inside := known.posted _ member
            rcases IsStatus.of_known known taken inside
              ⟨stored, found, isStatus⟩ with ⟨completion, there, status⟩
            have fresh := unanswered _ member completion there status
            rw [step_monitorHalf config halvesAre there status fresh] at taken
            rcases Except.ok.inj (Option.some.inj taken) with rfl
            rw [List.getElem?_set_self inside] at found
            rcases Option.some.inj found with rfl
            exact ⟨rfl, rfl⟩
  | between c rest posted isQueued first later paired unanswered _ =>
      rcases List.cons.inj (queued.symm.trans isQueued) with ⟨-, rfl⟩
      have left := step_posted first taken
      rw [loop.after_eq (fewer first)]
      refine .pairs ?_ ?_
      · rw [left]
        exact paired
      · rw [left]
        exact keeps first (fun _ => id) later unanswered

theorem LoopInvariant.step {next : Loop} {action : LoopAction}
    (invariant : LoopInvariant config loop)
    (taken : loopStep config loop action = some (.ok next)) :
    LoopInvariant config next := by
  have advance : ∀ {queue : List Queued} {manager : State}
      {action : Action}, InOrder { manager, queue } →
        Manager.step config loop.manager action = some (.ok manager) →
          LoopInvariant config { manager, queue } := by
    intro queue manager action inOrder ran
    have aborted := invariant.reached.aborted
    have sound := invariant.reached.sound
    exact
      { reached := invariant.reached.advance ran
        known := step_halvesKnown aborted sound invariant.known ran
        idle := step_statusIdle aborted sound invariant.known
          invariant.idle ran
        inOrder := inOrder }
  cases action with
  | outside action =>
      simp only [loopStep] at taken
      split at taken
      · rename_i isOutside
        rcases map_map_eq_ok taken with ⟨manager, ran, rfl⟩
        exact advance (invariant.inOrder.outside isOutside ran) ran
      · simp at taken
  | arrives action =>
      simp only [loopStep] at taken
      split at taken
      · rename_i isHandler
        rcases Except.ok.inj (Option.some.inj taken) with rfl
        exact
          { reached := invariant.reached
            known := invariant.known
            idle := invariant.idle
            inOrder := invariant.inOrder.arrives isHandler }
      · simp at taken
  | runs env =>
      simp only [loopStep] at taken
      split at taken
      · simp at taken
      · rename_i action queue queued
        rcases map_map_eq_ok taken with ⟨manager, ran, rfl⟩
        rcases invariant.inOrder.front queued with
          ⟨isHandler, paired, unanswered⟩
        exact advance (.handler invariant.known invariant.idle isHandler
          paired unanswered ran) ran
      · rename_i queue queued
        rcases map_map_eq_ok taken with ⟨manager, ran, rfl⟩
        exact advance
          (invariant.inOrder.runs invariant.known invariant.idle queued ran)
          ran

theorem loop_invariant {startUp : StartUp} {start : State}
    (built : construct config startUp = .ok start)
    (reachable : Reachable (loopStep config) { manager := start } loop) :
    LoopInvariant config loop := by
  rcases reachable with ⟨attempts, run⟩
  apply run.invariant (LoopInvariant config) ?_
    fun invariant taken => invariant.step taken
  rcases construct_halvesKnown built with ⟨none, known⟩
  have nothing : ∀ {c : Nat}, ¬ IsStatus start c := by
    rintro c ⟨completion, found, -⟩
    simp [none] at found
  have posted : start.posted = [] := by
    apply List.eq_nil_iff_forall_not_mem.mpr
    intro half member
    simpa [none] using known.posted half member
  refine ⟨⟨startUp, start, built, .refl⟩, known, ⟨?_, ?_⟩, .pairs ?_ ?_⟩
  · exact fun _ _ _ _ _ => nothing
  · exact fun _ _ _ _ => nothing
  · change Paired [] start.posted
    rw [posted]
    exact .nil
  · intro half member
    simp [posted] at member

end LoopSteps

/--
The loop runs the halves of a status command one after the other, and the
reply carries the status of each store under its name, both as the stores are
when the second half runs.  No other step answers for the command.
-/
theorem status_reply_of_one_moment {config : Config} {startUp : StartUp}
    {start : State} (built : construct config startUp = .ok start)
    {loop : Loop}
    (reachable : Reachable (loopStep config) { manager := start } loop)
    {c : Nat} {completion : MonitorScraperCompletion}
    (found : loop.manager.completions[c]? = some completion)
    (status : completion.momanCb = .onGetStatus) :
    (∀ m env, loop.RunsNext { kind := m, completion := c } →
      ∃ next, loopStep config loop (.runs env) = some (.ok next) ∧
        match m with
        | .monitor =>
            next.manager.written = loop.manager.written ∧
              next.RunsNext { kind := .scraper, completion := c }
        | .scraper =>
            ∃ reply, ReportsStatus loop.manager.objects reply ∧
              next.manager.written =
                loop.manager.written ++ [(completion.connection, reply)]) ∧
      ∀ action answer,
        (loop.attempt action).bind (halfAnswer config c) = some answer →
          ∃ m, loop.RunsNext { kind := m, completion := c } := by
  have invariant := loop_invariant built reachable
  constructor
  · rintro m env ⟨next, half⟩
    rcases List.head?_eq_some_iff.mp next with ⟨queue, queued⟩
    rcases List.head?_eq_some_iff.mp half with ⟨posted, split⟩
    have runs : ∀ manager : State, manager.posted = posted →
        step config loop.manager (.runPosted env) = some (.ok manager) →
          loopStep config loop (.runs env) =
            some (.ok { manager, queue }) := by
      intro manager left taken
      simp only [loopStep, queued, taken, Option.map_some, Except.map]
      rw [loop.after_eq (by simp [left, split])]
    cases invariant.inOrder with
    | pairs paired unanswered =>
        generalize posted : loop.manager.posted = halves at paired
        rw [queued] at paired
        cases paired with
        | @pair rest halves d later paired =>
            rcases List.cons.inj (split.symm.trans posted) with ⟨same, rfl⟩
            rcases PostedHalf.mk.inj same with ⟨rfl, rfl⟩
            have member : { kind := .monitor, completion := c } ∈
                loop.manager.posted := by simp [split]
            have fresh := unanswered _ member completion found status
            have taken :=
              step_monitorHalf config split found status fresh env
            exact ⟨_, runs _ rfl taken, rfl, rfl, rfl⟩
    | between d rest halves isQueued first later paired unanswered
        monitors =>
        rcases List.cons.inj (split.symm.trans first) with ⟨same, rfl⟩
        rcases PostedHalf.mk.inj same with ⟨rfl, rfl⟩
        have taken :=
          step_scraperHalf config split found status monitors env
        exact ⟨_, runs _ rfl taken, _, statusReply_reports _, rfl⟩
  · intro action answer answers
    rcases Option.bind_eq_some_iff.mp answers with
      ⟨⟨s, handler⟩, attempted, answers⟩
    have half : s = loop.manager → ∃ env half, handler = .runPosted env ∧
        loop.manager.posted.head? = some half ∧ half.completion = c := by
      rintro rfl
      exact halfAnswer_status invariant.idle ⟨completion, found, status⟩
        answers
    cases action with
    | outside action =>
        simp only [Loop.attempt] at attempted
        split at attempted
        · rename_i isOutside
          rcases Prod.mk.inj (Option.some.inj attempted) with ⟨rfl, rfl⟩
          rcases half rfl with ⟨env, first, rfl, -⟩
          simp [Action.isOutside] at isOutside
        · simp at attempted
    | arrives action => simp [Loop.attempt] at attempted
    | runs env =>
        rcases Option.map_eq_some_iff.mp attempted with
          ⟨queued, next, same⟩
        cases queued with
        | handler action =>
            rcases Prod.mk.inj same with ⟨rfl, rfl⟩
            rcases half rfl with ⟨env', first, rfl, -⟩
            rcases List.head?_eq_some_iff.mp next with ⟨queue, isQueue⟩
            have isHandler := (invariant.inOrder.front isQueue).1
            simp [Action.isHandler] at isHandler
        | posted =>
            rcases Prod.mk.inj same with ⟨rfl, rfl⟩
            rcases half rfl with ⟨env', first, -, here, rfl⟩
            exact ⟨first.kind, next, here⟩

namespace Installation

/--
A client asks for the status of both stores while a monitor is being added;
the monitor half has run.
-/
def statusAmidAdd : List LoopAction :=
  let add := request (about .mmAddMonitor "Shoes")
  let status := request (about .mmGetMonitorScraperStatus "Shoes")
  (add ++ status).flatMap (fun action =>
    if action.isOutside then [.outside action]
    else [.arrives action, .runs environment]) ++ [.runs environment]

end Installation

open Installation

/-- The client gets the status of the monitor that is being added. -/
theorem status_reply_amid_add :
    ∃ loop next reply,
      Reachable (loopStep config) { manager := start } loop ∧
        loopStep config loop (.runs {}) = some (.ok next) ∧
        ReportsStatus loop.manager.objects reply ∧
        (∃ connection, next.manager.written =
          loop.manager.written ++ [(connection, reply)]) := by
  have setting :
      (execute (loopStep config) { manager := start } statusAmidAdd).any
        (fun loop =>
          (loop.manager.completions[0]?).any
            (fun completion => completion.momanCb = .onGetStatus) ∧
          (loop.queue.head?).any (fun | .posted => true | _ => false) ∧
          loop.manager.posted.head? =
            some { kind := .scraper, completion := 0 }) = true := by
    decide +kernel
  rcases (Option.any_eq_true _ _).mp setting with ⟨loop, executed, facts⟩
  rcases of_decide_eq_true facts with ⟨stored, isPosted, half⟩
  rcases (Option.any_eq_true _ _).mp stored with
    ⟨completion, found, status⟩
  rcases (Option.any_eq_true _ _).mp isPosted with ⟨queued, first, posted⟩
  have reachable : Reachable (loopStep config) { manager := start } loop :=
    ⟨_, .of_execute executed⟩
  cases queued with
  | handler action => simp at posted
  | posted =>
      rcases (status_reply_of_one_moment start_built reachable found
        (of_decide_eq_true status)).1 .scraper {} ⟨first, half⟩ with
          ⟨next, taken, reply, reports, written⟩
      exact ⟨loop, next, reply, reachable, taken, reports, _, written⟩

end KekMonitors.Manager
