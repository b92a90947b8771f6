import KekMonitors.Manager.Completions
import KekMonitors.Transition.Balance
import Mathlib.Algebra.Order.BigOperators.Group.Finset

/-!
# One reply for each command

A command that has been read asks for one call of a callback.  The call is due
at a posted half, at an add timer or at a STOP exchange until a handler makes
it, and a combined command needs one of its two calls for itself.  What is owed
to a connection, together with the replies that were written there, never
exceeds the commands that were read from it.
-/

namespace KekMonitors.Manager

open Connection
open Objects
open Timer
open Transition

/-! ## Calls that are due -/

/-- The add timers whose handlers are to call back here. -/
def waiting (o : Objects) (callback : Callback) : Finset Nat :=
  (Finset.range o.children.length).filter fun timer =>
    (o.awaited timer).map AddRequest.callback = some callback

def PostedHalf.callback (half : PostedHalf) : Callback :=
  .half half.completion

/-- How many calls of a callback are due. -/
def due (s : State) (callback : Callback) : Nat :=
  (s.posted.map PostedHalf.callback).count callback +
    (waiting s.objects callback).card +
      (s.stops.map StopExchange.callback).count callback

/-- The calls that a handler makes before it returns. -/
def Handled.calls (handled : Handled) (callback : Callback) : Nat :=
  if handled.answer.map Prod.fst = some callback then 1 else 0

/-- A handler that was given a callback has called it, or is still to. -/
def Handled.Uses (handled : Handled) (callback : Callback) (s : State) :
    Prop :=
  ∀ other, handled.calls other + due handled.state other =
    due s other + if callback = other then 1 else 0

section Waiting

variable {o next : Objects} {timer : Nat} {request : AddRequest}

theorem mem_waiting (owned : o.TimersOwned) {callback : Callback} :
    timer ∈ waiting o callback ↔
      ∃ request, o.awaited timer = some request ∧
        request.callback = callback := by
  rw [waiting, Finset.mem_filter, Option.map_eq_some_iff, Finset.mem_range]
  constructor
  · exact And.right
  · rintro ⟨request, awaits, same⟩
    exact ⟨owned.awaited_lt awaits, request, awaits, same⟩

theorem waiting_changes (changes : Changes o next) (callback : Callback) :
    waiting next callback = waiting o callback := by
  simp only [waiting, changes.children_length, awaited_changes changes]

/-- A launch leaves its callback with a new timer. -/
theorem card_waiting_launch
    (absent : o.find? request.kind request.className = none)
    (commandLine : String) (pid creation : Json.Integer)
    (callback : Callback) :
    (waiting (o.launch request commandLine pid creation) callback).card =
      (waiting o callback).card +
        if request.callback = callback then 1 else 0 := by
  have length : (o.launch request commandLine pid creation).children.length =
      o.children.length + 1 := by
    rw [children_launch (by simp [absent])]
    simp
  have others : ∀ timer ∈ Finset.range o.children.length,
      (o.launch request commandLine pid creation).awaited timer =
        o.awaited timer := by
    intro timer inside
    rw [awaited_launch absent, if_neg (Finset.mem_range.mp inside).ne]
  have old : (Finset.range o.children.length).filter (fun timer =>
      ((o.launch request commandLine pid creation).awaited timer).map
        AddRequest.callback = some callback) = waiting o callback := by
    apply Finset.filter_congr
    intro timer inside
    rw [others timer inside]
  have outside : o.children.length ∉ waiting o callback := by
    simp [waiting]
  rw [waiting, length, Finset.range_add_one, Finset.filter_insert, old,
    awaited_launch absent, if_pos rfl]
  by_cases same : request.callback = callback
  · simp [same, outside]
  · simp [same]

/-- The handler of a timer takes its callback away from it. -/
theorem card_waiting_takeWait (owned : o.TimersOwned)
    (awaits : o.awaited timer = some request) (callback : Callback) :
    (waiting (o.takeWait timer) callback).card +
        (if request.callback = callback then 1 else 0) =
      (waiting o callback).card := by
  have others : waiting (o.takeWait timer) callback =
      (waiting o callback).erase timer := by
    ext other
    rw [Finset.mem_erase, waiting, waiting, Finset.mem_filter,
      Finset.mem_filter, awaited_takeWait]
    by_cases same : other = timer
    · simp [same]
    · simp only [ne_eq, same, not_false_eq_true, true_and]
      rfl
  rw [others]
  by_cases same : request.callback = callback
  · have member : timer ∈ waiting o callback :=
      (mem_waiting owned).mpr ⟨request, awaits, same⟩
    rw [if_pos same, Finset.card_erase_add_one member]
  · have absent : timer ∉ waiting o callback := by
      intro member
      rcases (mem_waiting owned).mp member with ⟨other, found, called⟩
      rcases Option.some.inj (awaits.symm.trans found) with rfl
      exact same called
    rw [if_neg same, Finset.erase_eq_of_notMem absent, Nat.add_zero]

end Waiting

/-! ## Handlers that are given a callback -/

section Handlers

variable {m : MonitorOrScraper} {cmd : Cmd} {env : Environment}
  {callback : Callback} {s : State} {handled : Handled}

theorem handledAdd_uses (sound : s.objects.Sound)
    (ran : handledAdd m cmd env callback s = .ok handled) :
    handled.Uses callback s := by
  rcases bind_eq_ok.mp ran with ⟨outcome, added, same⟩
  rcases Except.ok.inj same with rfl
  let call : AddCall :=
    { kind := m, cmd := cmd, env := env, callback := callback }
  have launches : (∃ response, outcome = (s.objects, some response) ∧
        ∀ className started, ¬ call.Starts s.objects className started) ∨
      ∃ className started, call.Starts s.objects className started ∧
        outcome = (call.launch className started s.objects, none) :=
    onAdd_cases added
  intro other
  rcases launches with
    ⟨response, rfl, -⟩ | ⟨className, started, starts, rfl⟩
  · simp [Handled.calls, due, Nat.add_comm]
  · have absent := sound.wellKept.absent starts.admits
    have card : (waiting (call.launch className started s.objects)
        other).card = (waiting s.objects other).card +
          if callback = other then 1 else 0 :=
      card_waiting_launch absent started.commandLine started.pid
        started.creation other
    simp only [Handled.calls, due, card, Option.map_none, reduceCtorEq,
      if_false]
    omega

theorem handledStop_uses
    (ran : handledStop m cmd env callback s = .ok handled) :
    handled.Uses callback s := by
  rcases bind_eq_ok.mp ran with ⟨⟨objects, outcome⟩, stopped, same⟩
  have kept := waiting_changes (onStop_changes stopped)
  intro other
  cases outcome with
  | error response =>
      rcases Except.ok.inj same with rfl
      simp [Handled.calls, due, kept, Nat.add_comm]
  | ok exchange =>
      rcases Except.ok.inj same with rfl
      have called := onStop_callback stopped
      simp [Handled.calls, due, kept, called, List.count_singleton]
      omega

theorem handledStatus_uses
    (ran : handledStatus m callback s = .ok handled) :
    handled.Uses callback s := by
  rcases Except.ok.inj ran with rfl
  intro other
  simp [Handled.calls, Nat.add_comm]

/-- The handler of a posted half answers for it, now or later. -/
theorem handledHalf_uses {half : PostedHalf} (sound : s.objects.Sound)
    (inside : half.completion < s.completions.length)
    (ran : handledHalf half env s = .ok handled) :
    handled.Uses half.callback s := by
  unfold handledHalf at ran
  rw [List.getElem?_eq_getElem inside] at ran
  dsimp only at ran
  split at ran
  · exact handledAdd_uses sound ran
  · exact handledStatus_uses ran
  · exact handledStop_uses ran

end Handlers

/-! ## What becomes of a command and of the calls that are due -/

/-- The command that a step reads without an error, and where. -/
def received (s : State) : Action → Option (Nat × Cmd)
  | .commandRead index events _ => do
      let (connection, _) ← UnixServer.commandRead index s.server
      let (err, cmd) ← asyncReadCmd events
      if err.isSome then none else some (connection, cmd)
  | _ => none

def asker (s : State) (action : Action) : Option Nat :=
  (received s action).map Prod.fst

/--
A cancelled wait finds an entry whose add has not been confirmed: its handler
returns without calling back.
-/
def Forfeits (s : State) (action : Action) : Prop :=
  ∃ timer wait stored, action = .runAddWait timer ∧
    s.objects.addWaits.lookup timer = some wait ∧
      wait.status = .cancelled ∧
        s.objects.find? wait.request.kind wait.request.className =
          some stored ∧ stored.confirmAdded = false

/-- How a handler deals with the calls that are due. -/
inductive Dealing (s : State) (action : Action) (handled : Handled) :
    Prop where
  /-- A command is answered, or its call becomes due. -/
  | serves (connection : Nat) (asks : asker s action = some connection)
      (completions : handled.state.completions = s.completions)
      (uses : handled.Uses (.client connection) s)
  /-- A combined command makes two calls due, of a completion of its own. -/
  | splits (momanCb : MonitorManagerCallback) (cmd : Cmd)
      (connection : Nat) (asks : asker s action = some connection)
      (completions : handled.state.completions = s.completions ++
        [{ momanCb := momanCb, cmd := cmd, connection := connection }])
      (silent : handled.answer = none)
      (halves : ∀ other, due handled.state other = due s other +
        if other = .half s.completions.length then 2 else 0)
  /-- The calls that were due are made or stay due. -/
  | keeps (silent : asker s action = none)
      (completions : handled.state.completions = s.completions)
      (kept : ∀ other,
        handled.calls other + due handled.state other = due s other)
  | forfeits (callback : Callback) (silent : asker s action = none)
      (lost : Forfeits s action)
      (completions : handled.state.completions = s.completions)
      (unanswered : handled.answer = none)
      (dropped : ∀ other, due handled.state other +
        (if callback = other then 1 else 0) = due s other)

section Dealings

variable {config : Config} {s : State} {action : Action}
  {handled : Handled}

theorem due_of_changes {next : State} (posted : next.posted = s.posted)
    (stops : next.stops = s.stops)
    (changes : Changes s.objects next.objects) (callback : Callback) :
    due next callback = due s callback := by
  simp only [due, posted, stops, waiting_changes changes]

theorem calls_of_silent (silent : handled.answer = none)
    (callback : Callback) : handled.calls callback = 0 := by
  simp [Handled.calls, silent]

/-- A handler that has nobody to call back. -/
theorem Dealing.of_silent (asks : asker s action = none)
    (silent : handled.answer = none)
    (completions : handled.state.completions = s.completions)
    (posted : handled.state.posted = s.posted)
    (stops : handled.state.stops = s.stops)
    (changes : Changes s.objects handled.state.objects) :
    Dealing s action handled := by
  refine .keeps asks completions fun other => ?_
  rw [calls_of_silent silent, due_of_changes posted stops changes,
    Nat.zero_add]

theorem commandRead_dealing {index : Nat} {events : List StreamEvent}
    {env : Environment} (sound : s.objects.Sound)
    (ran : handle config s (.commandRead index events env) =
      some (.ok handled)) :
    Dealing s (.commandRead index events env) handled := by
  rcases Option.bind_eq_some_iff.mp ran with
    ⟨⟨connection, server⟩, accepted, ran⟩
  rcases Option.bind_eq_some_iff.mp ran with ⟨⟨err, cmd⟩, read, ran⟩
  have asks : asker s (.commandRead index events env) =
      if err.isSome then none else some connection := by
    simp only [asker, received, accepted, read, Option.bind_eq_bind,
      Option.bind_some]
    split <;> rfl
  have ran := Option.some.inj ran
  unfold handledCommand at ran
  split at ran
  · rename_i failed
    rcases Except.ok.inj ran with rfl
    rw [if_pos failed] at asks
    exact .of_silent asks rfl rfl rfl rfl .refl
  · rename_i readable
    rw [if_neg readable] at asks
    have answered : ∀ response : Response, Handled.Uses
        { state := { s with server := server }
          answer := some (.client connection, response) }
        (.client connection) s := by
      intro response other
      simp [Handled.calls, due, Nat.add_comm]
    split at ran
    · rcases Except.ok.inj ran with rfl
      exact .serves connection asks rfl (answered _)
    · rename_i handler found
      cases handledMap_cases found with
      | ping =>
          rcases Except.ok.inj ran with rfl
          exact .serves connection asks rfl (answered _)
      | shutdown =>
          rcases Except.ok.inj ran with rfl
          refine .serves connection asks rfl fun other => ?_
          have changes : Changes s.objects
              ((s.objects.terminateProcesses .monitor).terminateProcesses
                .scraper) :=
            (terminateProcesses_changes _ _).trans
              (terminateProcesses_changes _ _)
          simp [Handled.calls, due, handledShutdown,
            waiting_changes changes, Nat.add_comm]
      | add m =>
          rcases handledAdd_state ran with ⟨objects, same⟩
          have uses : handled.Uses (.client connection)
              { s with server := server } := handledAdd_uses sound ran
          exact .serves connection asks (by rw [same]) uses
      | stop m =>
          rcases handledStop_state ran with ⟨objects, stops, same⟩
          have uses : handled.Uses (.client connection)
              { s with server := server } := handledStop_uses ran
          exact .serves connection asks (by rw [same]) uses
      | status m =>
          have uses := handledStatus_uses ran
          rcases Except.ok.inj ran with rfl
          exact .serves connection asks rfl uses
      | combined momanCb =>
          rcases Except.ok.inj ran with rfl
          refine .splits momanCb cmd connection asks rfl rfl ?_
          intro other
          by_cases same : other = .half s.completions.length
          · subst same
            simp [due, createCompletion, PostedHalf.callback]
            omega
          · simp [due, createCompletion, PostedHalf.callback, same,
              Ne.symm same]

theorem runPosted_dealing {env : Environment} (sound : s.objects.Sound)
    (known : HalvesKnown s)
    (ran : handle config s (.runPosted env) = some (.ok handled)) :
    Dealing s (.runPosted env) handled := by
  simp only [handle] at ran
  split at ran
  · simp at ran
  · rename_i half posted queued
    have ran := Option.some.inj ran
    have inside : half.completion < s.completions.length :=
      known.posted half (by simp [queued])
    rcases handledHalf_state ran with ⟨objects, stops, same⟩
    have uses : handled.Uses half.callback { s with posted := posted } :=
      handledHalf_uses sound inside ran
    refine .keeps rfl (by rw [same]) fun other => ?_
    rw [uses other]
    simp only [due, queued, List.map_cons, List.count_cons, beq_iff_eq]
    omega

theorem waitHandler_eq_some {timer : Nat} {request : AddRequest}
    {result : Except Fault (Objects × Option Response)}
    (handler : waitHandler timer s = some (request, result)) :
    ∃ wait, s.objects.addWaits.lookup timer = some wait ∧
      request = wait.request ∧
        result = onAddTimer wait.request wait.status
          (s.objects.takeWait timer) ∧ wait.status ≠ .waiting := by
  unfold waitHandler at handler
  split at handler
  · simp at handler
  · rename_i wait found
    split at handler
    · simp at handler
    · rename_i settled
      rcases Prod.mk.inj (Option.some.inj handler) with ⟨rfl, rfl⟩
      exact ⟨wait, found, rfl, rfl, settled⟩

/-- Only a cancelled wait that finds an unconfirmed entry is silent. -/
theorem onAddTimer_silent {request : AddRequest} {status : WaitStatus}
    {o objects : Objects} (settled : status ≠ .waiting)
    (ran : onAddTimer request status o = .ok (objects, none)) :
    status = .cancelled ∧ ∃ stored,
      o.find? request.kind request.className = some stored ∧
        stored.confirmAdded = false := by
  unfold onAddTimer at ran
  cases status with
  | waiting => exact absurd rfl settled
  | cancelled =>
      dsimp only at ran
      split at ran
      · simp at ran
      · rename_i stored found
        split at ran
        · simp at ran
        · rename_i unconfirmed
          exact ⟨rfl, stored, found, by simpa using unconfirmed⟩
  | expired =>
      dsimp only at ran
      split at ran
      · simp at ran
      · split at ran
        · simp at ran
        · split at ran <;> simp at ran

/-- The wait handler takes its callback from the calls that are due. -/
theorem runAddWait_due {timer : Nat} (sound : s.objects.Sound)
    (ran : handle config s (.runAddWait timer) = some (.ok handled)) :
    ∃ wait objects response,
      s.objects.addWaits.lookup timer = some wait ∧
        wait.status ≠ .waiting ∧
          onAddTimer wait.request wait.status (s.objects.takeWait timer) =
            .ok (objects, response) ∧
          handled.state = { s with objects := objects } ∧
          handled.answer = response.map (fun response =>
            (wait.request.callback, response)) ∧
          ∀ other, due handled.state other +
            (if wait.request.callback = other then 1 else 0) =
              due s other := by
  rcases Option.map_eq_some_iff.mp ran with
    ⟨⟨request, result⟩, handler, ran⟩
  rcases bind_eq_ok.mp ran with ⟨⟨objects, response⟩, answered, finished⟩
  rcases Except.ok.inj finished with rfl
  rcases waitHandler_eq_some handler with ⟨wait, found, rfl, rfl, settled⟩
  refine ⟨wait, objects, response, found, settled, answered, rfl, rfl, ?_⟩
  intro other
  have awaits : s.objects.awaited timer = some wait.request := by
    simp [awaited, found]
  have card := card_waiting_takeWait sound.timersOwned awaits other
  rw [← waiting_changes (onAddTimer_changes answered)] at card
  dsimp only at card
  simp only [due]
  omega

/-- The wait handler calls back, or it forfeits the call. -/
theorem runAddWait_dealing {timer : Nat} (sound : s.objects.Sound)
    (ran : handle config s (.runAddWait timer) = some (.ok handled)) :
    Dealing s (.runAddWait timer) handled := by
  rcases runAddWait_due sound ran with
    ⟨wait, objects, response, found, settled, waited, state, answer, taken⟩
  have completions : handled.state.completions = s.completions := by
    rw [state]
  cases response with
  | some response =>
      refine .keeps rfl completions fun other => ?_
      rw [← taken other]
      simp only [Handled.calls, answer, Option.map_some, Option.some.injEq]
      omega
  | none =>
      rcases onAddTimer_silent settled waited with
        ⟨cancelled, stored, entry, unconfirmed⟩
      rw [find?_takeWait] at entry
      exact .forfeits wait.request.callback rfl
        ⟨timer, wait, stored, rfl, found, cancelled, entry, unconfirmed⟩
        completions answer taken

/-- A handler that forfeits its call does not answer. -/
theorem Forfeits.drops (lost : Forfeits s action)
    (sound : s.objects.Sound)
    (ran : handle config s action = some (.ok handled)) :
    ∃ callback, handled.answer = none ∧
      handled.state.completions = s.completions ∧
        ∀ other, due handled.state other +
          (if callback = other then 1 else 0) = due s other := by
  rcases lost with ⟨timer, wait, stored, rfl, found, cancelled, entry, silent⟩
  rcases runAddWait_due sound ran with
    ⟨own, objects, response, queued, settled, waited, state, answer, taken⟩
  rcases Option.some.inj (found.symm.trans queued) with rfl
  rw [cancelled] at waited
  simp only [onAddTimer, find?_takeWait, entry, silent] at waited
  rcases Prod.mk.inj (Except.ok.inj waited) with ⟨-, rfl⟩
  exact ⟨wait.request.callback, answer, by rw [state], taken⟩

/-- An exchange keeps the callback it was started with. -/
theorem stopHandler_callback {exchange waiting : StopExchange}
    (handles : stopHandler exchange = some (.ok waiting)) :
    waiting.callback = exchange.callback := by
  unfold stopHandler at handles
  split at handles
  · split at handles
    · simp only [Option.some.injEq, Except.ok.injEq] at handles
      rw [← handles]
    · simp at handles
  · simp at handles

theorem runStop_dealing {index : Nat}
    (ran : handle config s (.runStop index) = some (.ok handled)) :
    Dealing s (.runStop index) handled := by
  rcases handledExchange_state ran with ⟨state, stops, same⟩
  have completions : handled.state.completions = s.completions := by
    rw [same]
  rcases Option.bind_eq_some_iff.mp ran with ⟨exchange, queued, ran⟩
  rcases Option.bind_eq_some_iff.mp ran with ⟨outcome, handles, ran⟩
  have changes : Changes s.objects (stopObjects exchange s.objects) :=
    stopObjects_changes exchange s.objects
  have taken : ∀ other, (s.stops.map StopExchange.callback).count other =
      ((s.stops.eraseIdx index).map StopExchange.callback).count other +
        if exchange.callback = other then 1 else 0 := by
    intro other
    rcases List.getElem?_eq_some_iff.mp queued with ⟨inside, rfl⟩
    have perm := (List.getElem_cons_eraseIdx_perm inside).map
      StopExchange.callback
    rw [← perm.count_eq other, List.map_cons, List.count_cons]
    simp only [beq_iff_eq]
  refine .keeps rfl completions fun other => ?_
  have before := taken other
  cases outcome with
  | ok waiting =>
      rcases Except.ok.inj (Option.some.inj ran) with rfl
      have called := stopHandler_callback handles
      simp only [Handled.calls, due, waiting_changes changes,
        List.map_append, List.map_cons, List.map_nil, List.count_append,
        List.count_singleton, called, beq_iff_eq, Option.map_none,
        reduceCtorEq, if_false]
      omega
  | error response =>
      rcases Except.ok.inj (Option.some.inj ran) with rfl
      simp only [Handled.calls, due, waiting_changes changes,
        Option.map_some, Option.some.injEq]
      omega

/-- Every step deals with the calls in one of these ways. -/
theorem handle_dealing (aborted : Aborted s) (sound : s.objects.Sound)
    (known : HalvesKnown s)
    (ran : handle config s action = some (.ok handled)) :
    Dealing s action handled := by
  cases action with
  | commandRead index events env => exact commandRead_dealing sound ran
  | runPosted env => exact runPosted_dealing sound known ran
  | runAddWait timer => exact runAddWait_dealing sound ran
  | runStop index => exact runStop_dealing ran
  | acceptCompletes index err =>
      rcases handled_of_plain ran with ⟨taken, silent⟩
      rcases acceptCompletes_takes taken with ⟨server, -, same⟩
      exact .of_silent rfl silent (by rw [same]) (by rw [same])
        (by rw [same]) (by rw [same])
  | runOnConnect index =>
      rcases handled_of_plain ran with ⟨taken, silent⟩
      rcases runOnConnect_takes taken with ⟨server, -, same⟩
      exact .of_silent rfl silent (by rw [same]) (by rw [same])
        (by rw [same]) (by rw [same])
  | timerExpires timer =>
      rcases handled_of_plain ran with ⟨taken, silent⟩
      rcases timerExpires_takes taken with ⟨wait, -, -, same⟩
      exact .of_silent rfl silent (by rw [same]) (by rw [same])
        (by rw [same]) (by rw [same]; exact .single (.expireTimer timer))
  | childExits child =>
      rcases handled_of_plain ran with ⟨taken, silent⟩
      rcases childExits_takes taken with ⟨c, -, -, same⟩
      exact .of_silent rfl silent (by rw [same]) (by rw [same])
        (by rw [same]) (by rw [same]; exact .single (.kill child))
  | runOnExit child ec =>
      rcases handled_of_plain ran with ⟨taken, silent⟩
      rcases runOnExit_takes taken with ⟨c, -, -, -, same⟩
      have delivered : Changes s.objects (s.objects.deliverExit child) :=
        .single (.deliverExit child trivial)
      exact .of_silent rfl silent (by rw [same]) (by rw [same])
        (by rw [same])
        (by rw [same]; exact delivered.trans (onProcessExit_changes ..))
  | inotifyRead events =>
      rcases handled_of_plain ran with ⟨taken, silent⟩
      rcases inotifyRead_takes taken with ⟨fileWatcher, -, updated⟩
      have quiet := onInotifyUpdate_quiet updated
      exact .of_silent rfl silent quiet.completions quiet.posted quiet.stops
        (quiet.objects.mono fun _ _ => trivial)
  | runVerification index =>
      rcases handled_of_plain ran with ⟨taken, silent⟩
      have same := runVerification_takes aborted taken
      exact .of_silent rfl silent (by rw [same]) (by rw [same])
        (by rw [same]) (by rw [same])

end Dealings

/-! ## What a connection is owed -/

/-- What the calls that are due to a completion are worth to its client. -/
def share (completions : List MonitorScraperCompletion)
    (calls : Callback → Nat) (connection c : Nat) : Nat :=
  match completions[c]? with
  | none => 0
  | some completion =>
      if completion.connection = connection then
        -- the first call of a completion is not passed on
        if completion.bothCompleted then calls (.half c)
        else calls (.half c) - 1
      else 0

/-- The replies that a connection gets out of some calls. -/
def repliesFrom (completions : List MonitorScraperCompletion)
    (calls : Callback → Nat) (connection : Nat) : Nat :=
  calls (.client connection) +
    ∑ c ∈ Finset.range completions.length,
      share completions calls connection c

/-- The replies that a connection is still to get. -/
def owed (s : State) (connection : Nat) : Nat :=
  repliesFrom s.completions (due s) connection

def repliesTo (s : State) (connection : Nat) : Nat :=
  (s.written.map Prod.fst).count connection

section Owed

variable {completions : List MonitorScraperCompletion}
  {calls other : Callback → Nat} {connection c : Nat}

theorem share_mono (fewer : ∀ callback, calls callback ≤ other callback) :
    share completions calls connection c ≤
      share completions other connection c := by
  unfold share
  have here := fewer (.half c)
  split
  · exact le_rfl
  · split
    · split <;> omega
    · exact le_rfl

theorem repliesFrom_mono
    (fewer : ∀ callback, calls callback ≤ other callback) :
    repliesFrom completions calls connection ≤
      repliesFrom completions other connection :=
  Nat.add_le_add (fewer _) (Finset.sum_le_sum fun _ _ => share_mono fewer)

/-- A call to a client is a reply there. -/
theorem repliesFrom_client (client : Nat)
    (more : ∀ callback, other callback = calls callback +
      if Callback.client client = callback then 1 else 0) :
    repliesFrom completions other connection =
      repliesFrom completions calls connection +
        if client = connection then 1 else 0 := by
  have halves : ∀ c, share completions other connection c =
      share completions calls connection c := by
    intro c
    simp [share, more]
  simp only [repliesFrom, halves, more, Callback.client.injEq]
  omega

/-- A new completion makes one reply of its two calls. -/
theorem repliesFrom_concat (momanCb : MonitorManagerCallback) (cmd : Cmd)
    (client : Nat) (fresh : calls (.half completions.length) = 0)
    (more : ∀ callback, other callback = calls callback +
      if callback = .half completions.length then 2 else 0) :
    repliesFrom (completions ++
        [{ momanCb := momanCb, cmd := cmd, connection := client }])
        other connection =
      repliesFrom completions calls connection +
        if client = connection then 1 else 0 := by
  have old : ∀ c ∈ Finset.range completions.length,
      share (completions ++
          [{ momanCb := momanCb, cmd := cmd, connection := client }])
          other connection c = share completions calls connection c := by
    intro c inside
    have below := Finset.mem_range.mp inside
    simp [share, List.getElem?_append_left below, more, below.ne]
  have new : share (completions ++
      [{ momanCb := momanCb, cmd := cmd, connection := client }])
      other connection completions.length =
        if client = connection then 1 else 0 := by
    simp [share, more, fresh]
  have clients : other (.client connection) =
      calls (.client connection) := by
    simp [more]
  rw [repliesFrom, List.length_append, List.length_singleton,
    Finset.sum_range_succ, Finset.sum_congr rfl old, new, clients]
  exact (Nat.add_assoc ..).symm

/-- The first call of a completion is kept for the second. -/
theorem repliesFrom_first {completion : MonitorScraperCompletion}
    (found : completions[c]? = some completion)
    (first : completion.bothCompleted = false) (response : Response)
    (more : ∀ callback, other callback = calls callback +
      if Callback.half c = callback then 1 else 0) :
    repliesFrom completions other connection =
      repliesFrom (completions.set c
        { completion with
          bothCompleted := true
          firstResponse := response }) calls connection := by
  rcases List.getElem?_eq_some_iff.mp found with ⟨inside, rfl⟩
  simp only [repliesFrom, List.length_set, more, reduceCtorEq, if_false,
    Nat.add_zero]
  congr 1
  apply Finset.sum_congr rfl
  intro d _
  by_cases same : d = c
  · subst same
    simp [share, inside, first, more]
  · simp [share, more, Ne.symm same]

/-- A later call is a reply to the client of the completion. -/
theorem repliesFrom_later {completion : MonitorScraperCompletion}
    (found : completions[c]? = some completion)
    (both : completion.bothCompleted = true)
    (more : ∀ callback, other callback = calls callback +
      if Callback.half c = callback then 1 else 0) :
    repliesFrom completions other connection =
      repliesFrom completions calls connection +
        if completion.connection = connection then 1 else 0 := by
  have inside : c < completions.length :=
    (List.getElem?_eq_some_iff.mp found).1
  have member : c ∈ Finset.range completions.length :=
    Finset.mem_range.mpr inside
  have rest : ∀ d ∈ (Finset.range completions.length).erase c,
      share completions other connection d =
        share completions calls connection d := by
    intro d elsewhere
    simp [share, more, (Finset.ne_of_mem_erase elsewhere).symm]
  have here : share completions other connection c =
      share completions calls connection c +
        if completion.connection = connection then 1 else 0 := by
    by_cases own : completion.connection = connection
    · simp [share, found, both, own, more]
    · simp [share, found, own]
  have clients : other (.client connection) =
      calls (.client connection) := by
    simp [more]
  have sums : ∑ d ∈ (Finset.range completions.length).erase c,
      share completions other connection d =
        ∑ d ∈ (Finset.range completions.length).erase c,
          share completions calls connection d :=
    Finset.sum_congr rfl rest
  rw [repliesFrom, ← Finset.add_sum_erase _ _ member, clients, here, sums,
    repliesFrom, ← Finset.add_sum_erase _ _ member]
  omega

/-- A lost call costs a reply, unless one was lost before. -/
theorem repliesFrom_lost {completion : MonitorScraperCompletion}
    (found : completions[c]? = some completion)
    (unlost : completion.bothCompleted = false → 2 ≤ other (.half c))
    (more : ∀ callback, other callback = calls callback +
      if Callback.half c = callback then 1 else 0) :
    repliesFrom completions calls completion.connection <
      repliesFrom completions other completion.connection := by
  have fewer : ∀ callback, calls callback ≤ other callback := by
    intro callback
    rw [more]
    exact Nat.le_add_right ..
  have here := more (.half c)
  rw [if_pos rfl] at here
  have less : share completions calls completion.connection c <
      share completions other completion.connection c := by
    simp only [share, found, if_true]
    split
    · omega
    · rename_i fresh
      have two := unlost (by simpa using fresh)
      omega
  refine Nat.add_lt_add_of_le_of_lt (fewer _) ?_
  exact Finset.sum_lt_sum (fun _ _ => share_mono fewer)
    ⟨c, Finset.mem_range.mpr (List.getElem?_eq_some_iff.mp found).1, less⟩

end Owed

section Finishing

variable {handled : Handled} {next : State}

theorem finish_due (finished : handled.finish = .ok next)
    (callback : Callback) : due next callback = due handled.state callback := by
  have same := Handled.finish_same finished
  simp only [due, same.posted, same.stops, same.objects]

theorem replies_asyncWriteResponse (client : Nat) (response : Response)
    (s : State) (connection : Nat) :
    repliesTo (asyncWriteResponse client response s) connection =
      repliesTo s connection + if client = connection then 1 else 0 := by
  simp [repliesTo, asyncWriteResponse, List.count_singleton]

/--
Calling back turns what the call is worth into a reply, unless it is the first
call of a completion.
-/
theorem finish_replies
    (known : ∀ callback response,
      handled.answer = some (callback, response) →
        Known handled.state callback)
    (finished : handled.finish = .ok next) (connection : Nat) :
    repliesTo next connection + owed next connection =
      repliesTo handled.state connection +
        repliesFrom handled.state.completions
          (fun callback => handled.calls callback +
            due handled.state callback) connection := by
  have kept := finish_due finished
  unfold Handled.finish at finished
  split at finished
  · rename_i silent
    rcases Except.ok.inj finished with rfl
    simp only [calls_of_silent silent, Nat.zero_add]
    rfl
  · rename_i callback response answered
    have more : ∀ other, handled.calls other + due handled.state other =
        due handled.state other + if callback = other then 1 else 0 := by
      intro other
      rw [Nat.add_comm]
      simp [Handled.calls, answered]
    cases callback with
    | client client =>
        rcases Except.ok.inj finished with rfl
        rw [repliesFrom_client client more, replies_asyncWriteResponse,
          Nat.add_right_comm, Nat.add_assoc]
        rfl
    | half c =>
        have inside : c < handled.state.completions.length :=
          known _ _ answered
        have found := List.getElem?_eq_getElem inside
        simp only [invoke, checkForCompletion, found] at finished
        split at finished
        · rename_i first
          rcases Except.ok.inj finished with rfl
          rw [repliesFrom_first found (by simpa using first) response more]
          simp only [owed, funext kept]
          rfl
        · rename_i both
          rcases bind_eq_ok.mp finished with ⟨common, -, finished⟩
          rcases Except.ok.inj finished with rfl
          rw [repliesFrom_later found (by simpa using both) more,
            replies_asyncWriteResponse, Nat.add_right_comm, Nat.add_assoc]
          rfl

end Finishing

/-! ## Balance -/

/-- The commands that a step reads from a connection. -/
def asks (connection : Nat) (s : State) (action : Action) : Nat :=
  if asker s action = some connection then 1 else 0

section Steps

variable {config : Config} {s next : State} {action : Action}

/-- Nothing is due to a completion that does not exist. -/
theorem HalvesKnown.due_eq_zero (known : HalvesKnown s)
    (owned : s.objects.TimersOwned) {c : Nat}
    (outside : s.completions.length ≤ c) : due s (.half c) = 0 := by
  have unknown : ∀ {callback : Callback}, Known s callback →
      callback ≠ .half c := by
    rintro callback inside rfl
    exact absurd outside (not_le.mpr inside)
  have posted : (s.posted.map PostedHalf.callback).count (.half c) = 0 := by
    rw [List.count_eq_zero]
    intro member
    rcases List.mem_map.mp member with ⟨half, queued, same⟩
    have inside : Known s half.callback := known.posted half queued
    exact unknown inside same
  have waits : waiting s.objects (.half c) = ∅ := by
    rw [Finset.eq_empty_iff_forall_notMem]
    intro timer member
    rcases (mem_waiting owned).mp member with ⟨request, awaits, same⟩
    exact unknown (known.awaited timer request awaits) same
  have stops : (s.stops.map StopExchange.callback).count (.half c) = 0 := by
    rw [List.count_eq_zero]
    intro member
    rcases List.mem_map.mp member with ⟨exchange, queued, same⟩
    exact unknown (known.stops exchange queued) same
  simp [due, posted, waits, stops]

/-- What is owed does not grow but for the command that is read. -/
theorem Dealing.worth {handled : Handled} (known : HalvesKnown s)
    (owned : s.objects.TimersOwned) (dealing : Dealing s action handled)
    (connection : Nat) :
    repliesFrom handled.state.completions (fun callback =>
        handled.calls callback + due handled.state callback) connection ≤
      owed s connection + asks connection s action ∧
    (¬ Forfeits s action →
      repliesFrom handled.state.completions (fun callback =>
          handled.calls callback + due handled.state callback) connection =
        owed s connection + asks connection s action) := by
  cases dealing with
  | serves client asked completions uses =>
      rw [completions, repliesFrom_client client uses, asks, asked]
      simp [owed]
  | splits momanCb cmd client asked completions silent halves =>
      have calls : (fun callback => handled.calls callback +
          due handled.state callback) = due handled.state := by
        funext callback
        rw [calls_of_silent silent, Nat.zero_add]
      rw [completions, calls, repliesFrom_concat momanCb cmd client
        (known.due_eq_zero owned le_rfl) halves, asks, asked]
      simp [owed]
  | keeps silent completions kept =>
      simp [completions, funext kept, asks, silent, owed]
  | forfeits callback silent lost completions unanswered dropped =>
      refine ⟨?_, fun kept => absurd lost kept⟩
      rw [completions]
      refine Nat.le_add_right_of_le (repliesFrom_mono fun other => ?_)
      rw [calls_of_silent unanswered, ← dropped other]
      omega

/-- The replies and what is owed grow with the commands alone. -/
theorem step_balance (reached : Reached config s) (known : HalvesKnown s)
    (taken : step config s action = some (.ok next)) (connection : Nat) :
    repliesTo next connection + owed next connection ≤
      repliesTo s connection + owed s connection +
        asks connection s action ∧
    (¬ Forfeits s action →
      repliesTo next connection + owed next connection =
        repliesTo s connection + owed s connection +
          asks connection s action) := by
  rcases step_handled taken with ⟨handled, ran, finished⟩
  have worth := (handle_dealing reached.aborted reached.sound known ran).worth
    known reached.sound.timersOwned connection
  have more : s.completions.length ≤ handled.state.completions.length := by
    rcases (step_completions ran).1 with same | ⟨momanCb, cmd, client, same⟩
    · rw [same]
    · rw [same, List.length_append]
      exact Nat.le_add_right ..
  have written : repliesTo handled.state connection =
      repliesTo s connection := by
    rw [repliesTo, (handle_frame ran).written]
    rfl
  rw [finish_replies (fun callback response answered =>
    (known.calls ((handle_calls ran).answer callback response answered)).mono
      more) finished, written]
  constructor
  · have atMost := worth.1
    omega
  · intro kept
    have exact := worth.2 kept
    omega

/-- A command handler leaves the server alone, or it shuts it down. -/
theorem handledCommand_server {err : Option ErrorCode} {cmd : Cmd}
    {env : Environment} {connection : Nat} {handled : Handled}
    (ran : handledCommand err cmd env connection s = .ok handled) :
    handled.state.server = s.server ∨
      handled.state.server = UnixServer.shutdown s.server := by
  unfold handledCommand at ran
  split at ran
  · rcases Except.ok.inj ran with rfl
    exact Or.inl rfl
  · split at ran
    · rcases Except.ok.inj ran with rfl
      exact Or.inl rfl
    · rename_i handler found
      cases handledMap_cases found with
      | ping =>
          rcases Except.ok.inj ran with rfl
          exact Or.inl rfl
      | shutdown =>
          rcases Except.ok.inj ran with rfl
          exact Or.inr rfl
      | add m =>
          rcases handledAdd_state ran with ⟨objects, same⟩
          exact Or.inl (by rw [same])
      | stop m =>
          rcases handledStop_state ran with ⟨objects, stops, same⟩
          exact Or.inl (by rw [same])
      | status m =>
          rcases Except.ok.inj ran with rfl
          exact Or.inl rfl
      | combined momanCb =>
          rcases Except.ok.inj ran with rfl
          exact Or.inl rfl

/-- What a step does to the server. -/
inductive ServerEffect (s : State) (action : Action)
    (server : UnixServer.ServerState) : Prop where
  | same (unread : asker s action = none) (kept : server = s.server)
  | accepts (index : Nat) (err : Option ErrorCode)
      (unread : asker s action = none)
      (completed :
        UnixServer.acceptCompletes index err s.server = some server)
  | connects (index : Nat) (unread : asker s action = none)
      (ran : UnixServer.runOnConnect index s.server = some server)
  | reads (index connection : Nat) (after : UnixServer.ServerState)
      (read : UnixServer.commandRead index s.server =
        some (connection, after))
      (asked : ∀ client, asker s action = some client →
        client = connection)
      (kept : server = after ∨ server = UnixServer.shutdown after)

theorem step_server (taken : step config s action = some (.ok next)) :
    ServerEffect s action next.server := by
  rcases step_handled taken with ⟨handled, ran, finished⟩
  rw [(Handled.finish_same finished).server]
  cases action with
  | commandRead index events env =>
      rcases Option.bind_eq_some_iff.mp ran with
        ⟨⟨connection, server⟩, accepted, ran⟩
      rcases Option.bind_eq_some_iff.mp ran with ⟨⟨err, cmd⟩, read, ran⟩
      refine .reads index connection server accepted ?_
        (handledCommand_server (Option.some.inj ran))
      intro client asked
      simp only [asker, received, accepted, read, Option.bind_eq_bind,
        Option.bind_some] at asked
      split at asked
      · simp at asked
      · exact (Option.some.inj asked).symm
  | runPosted env =>
      simp only [handle] at ran
      split at ran
      · simp at ran
      · rcases handledHalf_state (Option.some.inj ran) with
          ⟨objects, stops, same⟩
        exact .same rfl (by rw [same])
  | runAddWait timer =>
      rcases handledWait_state ran with ⟨objects, same⟩
      exact .same rfl (by rw [same])
  | runStop index =>
      rcases handledExchange_state ran with ⟨objects, stops, same⟩
      exact .same rfl (by rw [same])
  | acceptCompletes index err =>
      rcases acceptCompletes_takes (handled_of_plain ran).1 with
        ⟨server, completed, same⟩
      exact .accepts index err rfl (by rw [same]; exact completed)
  | runOnConnect index =>
      rcases runOnConnect_takes (handled_of_plain ran).1 with
        ⟨server, connected, same⟩
      exact .connects index rfl (by rw [same]; exact connected)
  | timerExpires timer =>
      rcases timerExpires_takes (handled_of_plain ran).1 with
        ⟨wait, -, -, same⟩
      exact .same rfl (by rw [same])
  | childExits child =>
      rcases childExits_takes (handled_of_plain ran).1 with ⟨c, -, -, same⟩
      exact .same rfl (by rw [same])
  | runOnExit child ec =>
      rcases runOnExit_takes (handled_of_plain ran).1 with
        ⟨c, -, -, -, same⟩
      exact .same rfl (by rw [same])
  | inotifyRead events =>
      rcases inotifyRead_takes (handled_of_plain ran).1 with
        ⟨fileWatcher, -, updated⟩
      exact .same rfl (onInotifyUpdate_quiet updated).server
  | runVerification index =>
      rcases runVerification_state (handled_of_plain ran).1 with
        ⟨objects, verifications, same⟩
      exact .same rfl (by rw [same])

/-- A connection from which a command is read is not read again. -/
theorem step_stake (taken : step config s action = some (.ok next))
    (connection : Nat) :
    next.server.stake connection + asks connection s action ≤
      s.server.stake connection := by
  have unasked : asker s action = none → asks connection s action = 0 := by
    intro unread
    simp [asks, unread]
  cases step_server taken with
  | same unread kept => rw [kept, unasked unread, Nat.add_zero]
  | accepts index err unread completed =>
      rw [UnixServer.acceptCompletes_stake completed, unasked unread,
        Nat.add_zero]
  | connects index unread ran =>
      rw [unasked unread, Nat.add_zero]
      exact UnixServer.runOnConnect_stake ran connection
  | reads index client after read asked kept =>
      have used := UnixServer.commandRead_stake read connection
      have once : asks connection s action ≤
          if client = connection then 1 else 0 := by
        unfold asks
        split
        · rename_i own
          rw [asked _ own, if_pos rfl]
        · exact Nat.zero_le _
      rcases kept with same | down
      · rw [same]
        omega
      · rw [down, UnixServer.shutdown_stake]
        omega

end Steps

/-! ## Runs -/

/-- How many commands a run has read from a connection. -/
def commandsRead (connection : Nat) (attempts : List (State × Action)) :
    Nat :=
  total (asks connection) attempts

section Runs

variable {config : Config} {startUp : StartUp} {start final : State}
  {attempts : List (State × Action)}

theorem halvesKnown_of_reachable
    (built : construct config startUp = .ok start) {s : State}
    (reachable : Reachable (step config) start s) : HalvesKnown s := by
  rcases reachable with ⟨attempts, run⟩
  have both := run.invariant
    (fun s => Reached config s ∧ HalvesKnown s)
    ⟨⟨startUp, start, built, .refl⟩, (construct_halvesKnown built).2⟩ ?_
  · exact both.2
  · intro state action next holds taken
    exact ⟨holds.1.advance taken, step_halvesKnown holds.1.aborted
      holds.1.sound holds.2 taken⟩

/-- The constructed manager has nothing to do but to accept. -/
theorem construct_starts (built : construct config startUp = .ok start) :
    (∀ timer, start.objects.awaited timer = none) ∧
      start.posted = [] ∧ start.stops = [] ∧ start.completions = [] ∧
        start.written = [] ∧
          start.server = UnixServer.startAccepting .bound := by
  have waits : ∀ timer, start.objects.awaited timer = none := by
    intro timer
    rw [awaited_changes (construct_effect built).1]
    rfl
  rcases bind_eq_ok.mp built with ⟨watching, added, same⟩
  rcases Except.ok.inj same with rfl
  have quiet := (scanFiles_quiet config startUp.files {}).trans
    (addWatches_quiet added)
  exact ⟨waits, quiet.posted, quiet.stops, quiet.completions, quiet.written,
    congrArg UnixServer.startAccepting quiet.server⟩

/-- The constructed manager owes nothing, and no connection is taken. -/
theorem construct_balance (built : construct config startUp = .ok start)
    (connection : Nat) :
    repliesTo start connection + owed start connection = 0 ∧
      start.server.stake connection ≤ 1 := by
  rcases construct_starts built with
    ⟨waits, posted, stops, completions, written, server⟩
  constructor
  · have none : ∀ callback, waiting start.objects callback = ∅ := by
      intro callback
      simp only [waiting] at waits ⊢
      simp [waits]
    simp [repliesTo, owed, repliesFrom, due, written, posted, completions,
      stops, none]
  · rw [server]
    exact Nat.le_trans (UnixServer.startAccepting_stake _ _)
      (by simp [UnixServer.ServerState.stake, UnixServer.ServerState.held,
        UnixServer.ServerState.bound])

theorem replies_le_commands (built : construct config startUp = .ok start)
    (run : Run (step config) start attempts (.ok final))
    (connection : Nat) :
    repliesTo final connection + owed final connection ≤
      commandsRead connection attempts := by
  have nothing := (construct_balance built connection).1
  have earned := run.balance_le
    (fun s => repliesTo s connection + owed s connection)
    (asks connection) (fun _ _ => 0) (fun reachable taken =>
      (step_balance ⟨startUp, start, built, reachable⟩
        (halvesKnown_of_reachable built reachable) taken connection).1)
  have none : total (fun (_ : State) (_ : Action) => 0) attempts = 0 := by
    simp [total]
  rw [none] at earned
  rw [commandsRead]
  omega

/-- No connection is read a second time. -/
theorem commandsRead_le_one (built : construct config startUp = .ok start)
    (run : Run (step config) start attempts (.ok final))
    (connection : Nat) : commandsRead connection attempts ≤ 1 := by
  have unopened := (construct_balance built connection).2
  have opened := run.balance_le (fun s => s.server.stake connection)
    (fun _ _ => 0) (asks connection)
    (fun _ taken => step_stake taken connection)
  have none : total (fun (_ : State) (_ : Action) => 0) attempts = 0 := by
    simp [total]
  rw [none] at opened
  rw [commandsRead]
  omega

/--
In every run, a connection gets no more replies, the ones still owed to it
included, than commands were read from it, and at most one command is.
-/
theorem replied_at_most_once (built : construct config startUp = .ok start)
    (run : Run (step config) start attempts (.ok final))
    (connection : Nat) :
    repliesTo final connection + owed final connection ≤
        commandsRead connection attempts ∧
      commandsRead connection attempts ≤ 1 :=
  ⟨replies_le_commands built run connection,
    commandsRead_le_one built run connection⟩

/-- Everything that the manager has to do for its clients has been done. -/
structure Idle (s : State) : Prop where
  posted : s.posted = []
  waits : ∀ timer, s.objects.awaited timer = none
  stops : s.stops = []

theorem Idle.owed_eq_zero {s : State} (idle : Idle s) (connection : Nat) :
    owed s connection = 0 := by
  have none : ∀ callback, due s callback = 0 := by
    intro callback
    simp [due, waiting, idle.posted, idle.waits, idle.stops]
  have shares : ∀ c, share s.completions (due s) connection c = 0 := by
    intro c
    unfold share
    split
    · rfl
    · simp [none]
  simp [owed, repliesFrom, none, shares]

/-- Both calls of a completion that has had none are still due. -/
def Unlost (s : State) : Prop :=
  ∀ c completion, s.completions[c]? = some completion →
    completion.bothCompleted = false → 2 ≤ due s (.half c)

theorem calls_half (handled : Handled) (c : Nat) :
    handled.calls (.half c) =
      if (handled.toHalf c).isSome then 1 else 0 := by
  unfold Handled.calls Handled.toHalf
  rcases handled.answer with _ | ⟨client | other, response⟩
  · rfl
  · simp
  · by_cases same : other = c <;> simp [same]

theorem step_unlost {s next : State} {action : Action}
    (reached : Reached config s) (known : HalvesKnown s)
    (unlost : Unlost s) (kept : ¬ Forfeits s action)
    (taken : step config s action = some (.ok next)) : Unlost next := by
  rcases step_handled taken with ⟨handled, ran, finished⟩
  intro c completion found fresh
  rw [finish_completions finished] at found
  rcases Option.map_eq_some_iff.mp found with ⟨present, before, same⟩
  rw [finish_due finished]
  cases told : handled.toHalf c with
  | some response =>
      -- a completion that has just been called is not fresh any more
      rw [told] at same
      have called : (present.absorb response).bothCompleted = true := by
        unfold MonitorScraperCompletion.absorb
        split
        · assumption
        · rfl
      change present.absorb response = completion at same
      rw [same, fresh] at called
      simp at called
  | none =>
      rw [told] at same
      change present = completion at same
      subst same
      have uncalled : handled.calls (.half c) = 0 := by
        simp [calls_half, told]
      cases handle_dealing reached.aborted reached.sound known ran with
      | serves client asked completions uses =>
          have two := unlost c present (completions ▸ before) fresh
          have used := uses (.half c)
          simp only [uncalled, reduceCtorEq, if_false] at used
          omega
      | keeps silent completions kept =>
          have two := unlost c present (completions ▸ before) fresh
          have used := kept (.half c)
          omega
      | splits momanCb cmd client asked completions silent halves =>
          rw [halves]
          by_cases new : c = s.completions.length
          · simp [new]
          · have inside := (List.getElem?_eq_some_iff.mp before).1
            rw [completions, List.length_append, List.length_singleton]
              at inside
            rw [completions, List.getElem?_append_left (by omega)] at before
            have two := unlost c present before fresh
            omega
      | forfeits _ _ lost => exact absurd lost kept

/-- The first call that is forfeited costs its client the reply. -/
theorem step_forfeits {s next : State} {action : Action}
    (reached : Reached config s) (known : HalvesKnown s)
    (unlost : Unlost s) (lost : Forfeits s action)
    (taken : step config s action = some (.ok next)) :
    ∃ connection, repliesTo next connection + owed next connection <
      repliesTo s connection + owed s connection := by
  rcases step_handled taken with ⟨handled, ran, finished⟩
  rcases lost.drops reached.sound ran with
    ⟨callback, silent, completions, dropped⟩
  have same : next = handled.state := by
    rw [Handled.finish, silent] at finished
    exact (Except.ok.inj finished).symm
  have written : ∀ connection,
      repliesTo next connection = repliesTo s connection := by
    intro connection
    rw [same, repliesTo, (handle_frame ran).written]
    rfl
  have more : ∀ other, due s other = due next other +
      if callback = other then 1 else 0 := by
    intro other
    rw [same, dropped other]
  have kept : next.completions = s.completions := same ▸ completions
  cases callback with
  | client client =>
      refine ⟨client, ?_⟩
      rw [written, owed, owed, kept, repliesFrom_client client more,
        if_pos rfl]
      omega
  | half c =>
      have called := more (.half c)
      rw [if_pos rfl] at called
      have inside : c < s.completions.length := by
        by_contra outside
        have none := known.due_eq_zero reached.sound.timersOwned
          (not_lt.mp outside)
        omega
      have found := List.getElem?_eq_getElem inside
      have less := repliesFrom_lost found (unlost c _ found) more
      refine ⟨s.completions[c].connection, ?_⟩
      rw [written, owed, owed, kept]
      omega

/--
In a run each command that is read gets exactly one reply, written or still
owed, precisely when no cancelled wait finds an unconfirmed entry; an idle
manager owes nothing.
-/
theorem replied_exactly_once_iff
    (built : construct config startUp = .ok start)
    (run : Run (step config) start attempts (.ok final)) :
    ((∀ connection, repliesTo final connection + owed final connection =
        commandsRead connection attempts) ↔
      Meets (fun s action => ¬ Forfeits s action) attempts) ∧
      (Idle final → ∀ connection, owed final connection = 0) := by
  refine ⟨?_, Idle.owed_eq_zero⟩
  suffices both : ((∀ connection, repliesTo final connection +
      owed final connection = commandsRead connection attempts) ↔
        Meets (fun s action => ¬ Forfeits s action) attempts) ∧
      (Meets (fun s action => ¬ Forfeits s action) attempts →
        Unlost final) from both.1
  generalize finished : Except.ok final = outcome at run
  induction run generalizing final with
  | start =>
      rcases Except.ok.inj finished with rfl
      constructor
      · refine iff_of_true (fun connection => ?_) (by simp [Meets])
        exact (construct_balance built connection).1
      · intro _ c completion found
        rw [(construct_halvesKnown built).1] at found
        simp at found
  | @next attempts s action outcome earlier taken ih =>
      subst finished
      rcases ih rfl with ⟨exact, unlost⟩
      have reached : Reached config s :=
        ⟨startUp, start, built, attempts, earlier⟩
      have known := halvesKnown_of_reachable built ⟨attempts, earlier⟩
      have bounded := fun connection =>
        replies_le_commands built earlier connection
      have balance := step_balance reached known taken
      have read : ∀ connection,
          commandsRead connection (attempts ++ [(s, action)]) =
            commandsRead connection attempts + asks connection s action := by
        intro connection
        simp [commandsRead]
      constructor
      · constructor
        · intro all
          have before : Meets (fun s action => ¬ Forfeits s action)
              attempts := by
            refine exact.mp fun connection => ?_
            have now := all connection
            have atMost := (balance connection).1
            have earlier := bounded connection
            rw [read] at now
            omega
          intro attempt member
          rcases List.mem_append.mp member with old | new
          · exact before attempt old
          · rcases List.mem_singleton.mp new with rfl
            intro lost
            rcases step_forfeits reached known (unlost before) lost taken
              with ⟨connection, less⟩
            have now := all connection
            have earlier := bounded connection
            rw [read] at now
            omega
        · intro kept connection
          have last : ¬ Forfeits s action := kept.last
          have now := (balance connection).2 last
          have before := exact.mpr kept.of_append connection
          rw [read]
          omega
      · intro kept
        exact step_unlost reached known (unlost kept.of_append) kept.last
          taken

end Runs

/-! ## Clients that are answered -/

namespace Installation

/-- Two clients send a ping, one after the other. -/
def pings : List Action := request {} ++ request {}

end Installation

open Installation

/-- Each of the two pings is read once, and answered. -/
theorem pings_replied :
    ∃ final, execute (step config) start pings = some final ∧
      ∀ connection, repliesTo final connection + owed final connection ≤
          commandsRead connection
            (attemptsOf (step config) start pings) ∧
        commandsRead connection
          (attemptsOf (step config) start pings) ≤ 1 := by
  have ran : (execute (step config) start pings).isSome := by
    decide +kernel
  rcases Option.isSome_iff_exists.mp ran with ⟨final, executed⟩
  exact ⟨final, executed,
    replied_at_most_once start_built (.of_execute executed)⟩

theorem not_forfeits_of {s : State} {action : Action}
    (checked : findsOwnBy s action = true) : ¬ Forfeits s action := by
  rintro ⟨timer, wait, stored, rfl, found, cancelled, entry, -⟩
  simp [findsOwnBy, found, entry, cancelled] at checked

/-- A monitor is added: its client has exactly one reply. -/
theorem added_replied :
    ∃ final, execute (step config) start addedShoes = some final ∧
      ∀ connection, repliesTo final connection + owed final connection =
        commandsRead connection
          (attemptsOf (step config) start addedShoes) := by
  have checked : (execute (step config) start addedShoes).isSome ∧
      ((attemptsOf (step config) start addedShoes).all fun attempt =>
        findsOwnBy attempt.1 attempt.2) = true := by
    decide +kernel
  rcases Option.isSome_iff_exists.mp checked.1 with ⟨final, executed⟩
  refine ⟨final, executed, ?_⟩
  refine (replied_exactly_once_iff start_built (.of_execute executed)).1.mpr
    ?_
  intro attempt member
  exact not_forfeits_of (List.all_eq_true.mp checked.2 attempt member)

end KekMonitors.Manager
