import KekMonitors.Session

/-!
# The requesting side of a connection

A connection that was given a command writes it, closes its sending half and
reads one response, under a timer of three seconds that is started with the
read.  Whoever asked gets the response or an error code.  A connection that
nobody else holds is destroyed once its last handler has returned.
-/

namespace KekMonitors.Client

open Connection
open Json
open Session (Wait)
open Transition

/-- What the connection does for `quickWriteCmd`. -/
inductive Phase where
  | writing
  /-- The write has completed; its handler is queued. -/
  | written (err : Option ErrorCode)
  | reading (received : List Byte)
  /-- The read has completed; its handler is queued. -/
  | read (err : Option ErrorCode) (received : List Byte)
  /-- `cb` or `on_any_error` has been called. -/
  | finished

inductive Handler where
  | onTimeout (err : Option ErrorCode)
  | onWrite (err : Option ErrorCode)
  | onRead (err : Option ErrorCode) (received : List Byte)

/-- A call of `cb`, or of `on_any_error`. -/
abbrev Call := Except ErrorCode Response

/-- The connection of a client, and what its owner has been called with. -/
structure Requester where
  isOpen : Bool
  /-- No wait has been started while `handled`. -/
  wait : Wait
  phase : Phase
  queue : List Handler
  destroyed : Bool
  called : List Call

/-- A connected socket, to which `async_write` writes the command. -/
def start : Requester where
  isOpen := true
  wait := .handled
  phase := .writing
  queue := []
  destroyed := false
  called := []

def writeCompletes (err : Option ErrorCode) (s : Requester) : Requester :=
  { s with
    phase := .written err
    queue := s.queue ++ [.onWrite err] }

def readCompletes (err : Option ErrorCode) (received : List Byte)
    (s : Requester) : Requester :=
  { s with
    phase := .read err received
    queue := s.queue ++ [.onRead err received] }

/-- `p_endpoint.close()` aborts what is outstanding on the socket. -/
def close (s : Requester) : Requester :=
  let s := { s with isOpen := false }
  match s.phase with
  | .writing => writeCompletes (some .operationAborted) s
  | .reading received => readCompletes (some .operationAborted) received s
  | _ => s

/-- `m_timeout.cancel()` has no effect on a wait that has expired. -/
def cancel (s : Requester) : Requester :=
  match s.wait with
  | .outstanding =>
      { s with
        wait := .completed (some .operationAborted)
        queue := s.queue ++ [.onTimeout (some .operationAborted)] }
  | _ => s

/-- The destructor, unless the connection is held outside its handlers. -/
def release (held : Bool) (s : Requester) : Requester :=
  if held then s else { cancel s with isOpen := false, destroyed := true }

/-- The handler of the timer does not keep the connection alive. -/
def onTimeout (err : Option ErrorCode) (s : Requester) :
    Except Fault Requester :=
  match err with
  | some _ => .ok s
  | none =>
      if s.destroyed then .error .undefinedBehaviour else .ok (close s)

/-- The callback is called, and the handler releases the connection. -/
def finish (held : Bool) (call : Call) (s : Requester) : Requester :=
  release held
    { s with
      phase := .finished
      called := s.called ++ [call] }

/-- `asyncReadResponse` starts the timer and the read. -/
def asyncReadResponse (s : Requester) : Requester :=
  { s with
    wait := .outstanding
    phase := .reading [] }

/-- `shutdown` raises on a closed socket. -/
def onWrite (held : Bool) (err : Option ErrorCode) (s : Requester) :
    Except Fault Requester :=
  if s.isOpen then
    match err with
    | some err => .ok (finish held (.error err) s)
    | none => .ok (asyncReadResponse s)
  else .error (.raised .system)

/-- The callback gets the response, or the error code. -/
def callOf : Option ErrorCode × Response → Call
  | (none, response) => .ok response
  | (some err, _) => .error err

def onRead (held : Bool) (err : Option ErrorCode) (received : List Byte)
    (s : Requester) : Requester :=
  let s := if err = none ∨ err = some .eof then cancel s else s
  finish held (callOf (Connection.onRead Response.codec err received)) s

/-- What the server's end of the stream does to an outstanding read. -/
def readSome (received : List Byte) (s : Requester) :
    StreamEvent → Option Requester
  | .data chunk =>
      let received := (received ++ chunk).take bufferSize
      some (if received.length = bufferSize then
        readCompletes none received s
      else { s with phase := .reading received })
  | .eof => some (readCompletes (some .eof) received s)
  | .failed error => some (readCompletes (some error) received s)
  | .timeout => none

def runHandler (held : Bool) (s : Requester) :
    Handler → Except Fault Requester
  | .onTimeout err => onTimeout err { s with wait := .handled }
  | .onWrite err => onWrite held err s
  | .onRead err received => .ok (onRead held err received s)

/-- What can happen to the connection. -/
inductive RequestAction where
  | timerExpires
  | writeCompletes (err : Option ErrorCode)
  | arrives (event : StreamEvent)
  | run

/-- The event loop runs the handlers in the order they were queued. -/
def requestStep (held : Bool) : StepFunction Requester RequestAction Fault
  | s, .timerExpires =>
      match s.wait with
      | .outstanding =>
          some (.ok
            { s with
              wait := .completed none
              queue := s.queue ++ [.onTimeout none] })
      | _ => none
  | s, .writeCompletes err =>
      match s.phase with
      | .writing => some (.ok (writeCompletes err s))
      | _ => none
  | s, .arrives event =>
      match s.phase with
      | .reading received => (readSome received s event).map .ok
      | _ => none
  | s, .run =>
      match s.queue with
      | handler :: queue => some (runHandler held { s with queue } handler)
      | [] => none

/-- A step that is taken, with what it finds. -/
inductive Taken (held : Bool) (s : Requester) :
    RequestAction → Except Fault Requester → Prop where
  | timerExpires (outstanding : s.wait = .outstanding) :
      Taken held s .timerExpires (.ok
        { s with
          wait := .completed none
          queue := s.queue ++ [.onTimeout none] })
  | writeCompletes (err : Option ErrorCode) (writes : s.phase = .writing) :
      Taken held s (.writeCompletes err) (.ok (writeCompletes err s))
  | arrives {received : List Byte} {event : StreamEvent} {next : Requester}
      (reads : s.phase = .reading received)
      (arrives : readSome received s event = some next) :
      Taken held s (.arrives event) (.ok next)
  | run {handler : Handler} {queue : List Handler}
      {outcome : Except Fault Requester} (queued : s.queue = handler :: queue)
      (ran : runHandler held { s with queue } handler = outcome) :
      Taken held s .run outcome

theorem requestStep_taken {held : Bool} {s : Requester}
    {action : RequestAction} {outcome : Except Fault Requester}
    (taken : requestStep held s action = some outcome) :
    Taken held s action outcome := by
  cases action with
  | timerExpires =>
      simp only [requestStep] at taken
      split at taken
      · rename_i outstanding
        exact Option.some.inj taken ▸ .timerExpires outstanding
      · simp at taken
  | writeCompletes err =>
      simp only [requestStep] at taken
      split at taken
      · rename_i writes
        exact Option.some.inj taken ▸ .writeCompletes err writes
      · simp at taken
  | arrives event =>
      simp only [requestStep] at taken
      split at taken
      · rename_i received reads
        rcases Option.map_eq_some_iff.mp taken with ⟨next, arrives, rfl⟩
        exact .arrives reads arrives
      · simp at taken
  | run =>
      simp only [requestStep] at taken
      split at taken
      · rename_i handler queue queued
        exact .run queued (Option.some.inj taken)
      · simp at taken

/-! ## The handlers of a request -/

def Handler.isTimeout : Handler → Bool
  | .onTimeout _ => true
  | _ => false

/-- The handler of the timer that is queued. -/
def handlersOf : Wait → List Handler
  | .completed err => [.onTimeout err]
  | _ => []

def Phase.handlers : Phase → List Handler
  | .written err => [.onWrite err]
  | .read err received => [.onRead err received]
  | _ => []

/-- The command is not known to have been written. -/
def Phase.isWriting : Phase → Bool
  | .writing | .written _ => true
  | _ => false

/-- What holds of a request in every reached state. -/
structure Consistent (s : Requester) : Prop where
  timeouts : s.queue.filter Handler.isTimeout = handlersOf s.wait
  completions : s.queue.filter (fun h => ! h.isTimeout) = s.phase.handlers
  /-- No timer runs while the command is written. -/
  writing : s.phase.isWriting = true → s.isOpen = true ∧ s.wait = .handled
  reading : ∀ received, s.phase = .reading received →
    s.wait = .outstanding ∨ s.wait = .completed none
  calls : s.called.length = match s.phase with
    | .finished => 1
    | _ => 0
  destroyed : s.destroyed = true →
    s.phase = .finished ∧ s.wait ≠ .outstanding

theorem start_consistent : Consistent start where
  timeouts := rfl
  completions := rfl
  writing := fun _ => ⟨rfl, rfl⟩
  reading := fun received reads => by simp [start] at reads
  calls := rfl
  destroyed := fun gone => by simp [start] at gone

section Steps

variable {held : Bool} {s next : Requester} {action : RequestAction}
  {handler : Handler} {queue : List Handler}

/-- The handler at the front belongs to the timer. -/
theorem Consistent.timeout_front (consistent : Consistent s)
    {err : Option ErrorCode} (queued : s.queue = .onTimeout err :: queue) :
    s.wait = .completed err ∧ queue.filter Handler.isTimeout = [] ∧
      queue.filter (fun h => ! h.isTimeout) = s.phase.handlers := by
  have timeouts := consistent.timeouts
  have completions := consistent.completions
  rw [queued] at timeouts completions
  cases waits : s.wait with
  | completed other =>
      simp only [waits, handlersOf, List.filter_cons, Handler.isTimeout,
        if_true] at timeouts
      rcases List.cons.inj timeouts with ⟨same, none⟩
      rcases Handler.onTimeout.inj same with rfl
      exact ⟨rfl, none, completions⟩
  | outstanding => simp [waits, handlersOf, Handler.isTimeout] at timeouts
  | handled => simp [waits, handlersOf, Handler.isTimeout] at timeouts

/-- The handler at the front belongs to the write or to the read. -/
theorem Consistent.completion_front (consistent : Consistent s)
    (queued : s.queue = handler :: queue)
    (completion : handler.isTimeout = false) :
    s.phase.handlers = [handler] ∧
      queue.filter Handler.isTimeout = handlersOf s.wait ∧
      queue.filter (fun h => ! h.isTimeout) = [] := by
  have timeouts := consistent.timeouts
  have completions := consistent.completions
  rw [queued] at timeouts completions
  simp only [List.filter_cons, completion, Bool.not_false, if_true,
    Bool.false_eq_true, if_false] at timeouts completions
  cases works : s.phase with
  | written err =>
      rw [works] at completions
      rcases List.cons.inj completions with ⟨rfl, none⟩
      exact ⟨rfl, timeouts, none⟩
  | read err received =>
      rw [works] at completions
      rcases List.cons.inj completions with ⟨rfl, none⟩
      exact ⟨rfl, timeouts, none⟩
  | writing => simp [works, Phase.handlers] at completions
  | reading received => simp [works, Phase.handlers] at completions
  | finished => simp [works, Phase.handlers] at completions

theorem handlers_eq_onWrite {phase : Phase} {err : Option ErrorCode}
    (writes : phase.handlers = [.onWrite err]) : phase = .written err := by
  cases phase with
  | written other =>
      rcases Handler.onWrite.inj (List.singleton_inj.mp writes) with rfl
      rfl
  | _ => simp [Phase.handlers] at writes

theorem handlers_eq_onRead {phase : Phase} {err : Option ErrorCode}
    {received : List Byte}
    (reads : phase.handlers = [.onRead err received]) :
    phase = .read err received := by
  cases phase with
  | read other bytes =>
      rcases Handler.onRead.inj (List.singleton_inj.mp reads) with
        ⟨rfl, rfl⟩
      rfl
  | _ => simp [Phase.handlers] at reads

theorem Consistent.unfinished (consistent : Consistent s)
    (works : s.phase ≠ .finished) :
    s.called = [] ∧ s.destroyed = false := by
  constructor
  · apply List.eq_nil_of_length_eq_zero
    have calls := consistent.calls
    split at calls
    · exact absurd ‹_› works
    · exact calls
  · by_contra gone
    exact works (consistent.destroyed (by simpa using gone)).1

theorem cancel_wait (s : Requester) : (cancel s).wait ≠ .outstanding := by
  unfold cancel
  split
  · simp
  · assumption

theorem cancel_of_completed (completed : s.wait ≠ .outstanding) :
    cancel s = s := by
  unfold cancel
  split
  · contradiction
  · rfl

/-- Cancelling a wait changes nothing but its handlers. -/
theorem cancel_frame (s : Requester) :
    (cancel s).phase = s.phase ∧ (cancel s).called = s.called ∧
      (cancel s).destroyed = s.destroyed ∧
        (cancel s).isOpen = s.isOpen := by
  unfold cancel
  split <;> exact ⟨rfl, rfl, rfl, rfl⟩

theorem cancel_timeouts
    (timeouts : s.queue.filter Handler.isTimeout = handlersOf s.wait) :
    (cancel s).queue.filter Handler.isTimeout =
      handlersOf (cancel s).wait := by
  unfold cancel
  split
  · rename_i outstanding
    rw [outstanding] at timeouts
    simp [timeouts, handlersOf, Handler.isTimeout]
  · exact timeouts

theorem cancel_completions :
    (cancel s).queue.filter (fun h => ! h.isTimeout) =
      s.queue.filter (fun h => ! h.isTimeout) := by
  unfold cancel
  split
  · simp [Handler.isTimeout]
  · rfl

theorem finish_consistent (call : Call)
    (timeouts : s.queue.filter Handler.isTimeout = handlersOf s.wait)
    (alone : s.queue.filter (fun h => ! h.isTimeout) = [])
    (uncalled : s.called = []) (kept : s.destroyed = false) :
    Consistent (finish held call s) := by
  unfold finish release
  split
  · exact
      { timeouts := timeouts
        completions := alone
        writing := nofun
        reading := nofun
        calls := by simp [uncalled]
        destroyed := fun gone => by simp [kept] at gone }
  · let t : Requester :=
      { s with
        phase := .finished
        called := s.called ++ [call] }
    rcases cancel_frame t with ⟨phase, called, -, -⟩
    exact
      { timeouts := cancel_timeouts (s := t) timeouts
        completions := by
          change List.filter _ (cancel t).queue = (cancel t).phase.handlers
          rw [cancel_completions, phase]
          exact alone
        writing := fun writes => by
          change (cancel t).phase.isWriting = true at writes
          rw [phase] at writes
          simp [t, Phase.isWriting] at writes
        reading := fun received reads => by
          change (cancel t).phase = _ at reads
          rw [phase] at reads
          simp [t] at reads
        calls := by
          change (cancel t).called.length = match (cancel t).phase with
            | .finished => 1
            | _ => 0
          rw [called, phase]
          simp [t, uncalled]
        destroyed := fun _ => ⟨phase, cancel_wait t⟩ }

theorem readCompletes_consistent (err : Option ErrorCode)
    (received : List Byte)
    (timeouts : s.queue.filter Handler.isTimeout = handlersOf s.wait)
    (alone : s.queue.filter (fun h => ! h.isTimeout) = [])
    (uncalled : s.called = []) (kept : s.destroyed = false) :
    Consistent (readCompletes err received s) where
  timeouts := by simp [readCompletes, timeouts, Handler.isTimeout]
  completions := by
    rw [readCompletes, List.filter_append, alone]
    rfl
  writing := nofun
  reading := nofun
  calls := by simp [readCompletes, uncalled]
  destroyed := fun gone => by simp [readCompletes, kept] at gone

/-- A handler that the timer has run leaves its wait. -/
theorem Consistent.handled (consistent : Consistent s)
    {err : Option ErrorCode} (queued : s.queue = .onTimeout err :: queue)
    (isOpen : Bool) (waits : ∀ received, s.phase ≠ .reading received) :
    Consistent { s with queue, isOpen, wait := .handled } := by
  rcases consistent.timeout_front queued with ⟨wait, timeouts, alone⟩
  exact
    { timeouts := timeouts
      completions := alone
      writing := fun writes => by
        have unstarted := (consistent.writing writes).2
        simp [wait] at unstarted
      reading := fun received reads => absurd reads (waits received)
      calls := consistent.calls
      destroyed := fun gone => ⟨(consistent.destroyed gone).1, by simp⟩ }

theorem onTimeout_consistent (consistent : Consistent s)
    {err : Option ErrorCode} (queued : s.queue = .onTimeout err :: queue)
    (ran : onTimeout err { s with queue, wait := .handled } = .ok next) :
    Consistent next := by
  rcases consistent.timeout_front queued with ⟨wait, timeouts, alone⟩
  cases err with
  | some err =>
      rcases Except.ok.inj ran with rfl
      apply consistent.handled queued s.isOpen
      -- the wait is aborted only when a read has ended
      intro received reads
      rcases consistent.reading received reads with other | other <;>
        simp [wait] at other
  | none =>
      rw [onTimeout] at ran
      split at ran
      · simp at ran
      · rcases Except.ok.inj ran with rfl
        cases works : s.phase with
        | reading received =>
            have unfinished := consistent.unfinished (by simp [works])
            simp only [close]
            rw [works] at alone
            exact readCompletes_consistent _ _ timeouts alone unfinished.1
              unfinished.2
        | writing =>
            have unstarted := (consistent.writing (by rw [works]; rfl)).2
            simp [wait] at unstarted
        | _ =>
            have handled := consistent.handled queued false (by simp [works])
            simp only [close]
            rw [works] at handled
            exact handled

theorem onWrite_consistent (consistent : Consistent s)
    {err : Option ErrorCode} (queued : s.queue = .onWrite err :: queue)
    (ran : onWrite held err { s with queue } = .ok next) :
    Consistent next := by
  rcases consistent.completion_front queued rfl with
    ⟨handlers, timeouts, alone⟩
  have writes := handlers_eq_onWrite handlers
  rcases consistent.unfinished (by simp [writes]) with ⟨uncalled, kept⟩
  unfold onWrite at ran
  split at ran
  · cases err with
    | some err =>
        rcases Except.ok.inj ran with rfl
        exact finish_consistent _ timeouts alone uncalled kept
    | none =>
        have unstarted := (consistent.writing (by rw [writes]; rfl)).2
        rcases Except.ok.inj ran with rfl
        exact
          { timeouts := by
              rw [unstarted] at timeouts
              exact timeouts
            completions := alone
            writing := nofun
            reading := fun _ _ => Or.inl rfl
            calls := by simp [asyncReadResponse, uncalled]
            destroyed := fun gone => by
              simp [asyncReadResponse, kept] at gone }
  · simp at ran

theorem onRead_consistent (consistent : Consistent s)
    {err : Option ErrorCode} {received : List Byte}
    (queued : s.queue = .onRead err received :: queue) :
    Consistent (onRead held err received { s with queue }) := by
  rcases consistent.completion_front queued rfl with
    ⟨handlers, timeouts, alone⟩
  have reads := handlers_eq_onRead handlers
  rcases consistent.unfinished (by simp [reads]) with ⟨uncalled, kept⟩
  unfold onRead
  dsimp only
  split
  · rcases cancel_frame { s with queue } with ⟨-, called, destroyed, -⟩
    exact finish_consistent _ (cancel_timeouts timeouts)
      (cancel_completions.trans alone) (called.trans uncalled)
      (destroyed.trans kept)
  · exact finish_consistent _ timeouts alone uncalled kept

theorem runHandler_consistent (consistent : Consistent s)
    (queued : s.queue = handler :: queue)
    (ran : runHandler held { s with queue } handler = .ok next) :
    Consistent next := by
  cases handler with
  | onTimeout err => exact onTimeout_consistent consistent queued ran
  | onWrite err => exact onWrite_consistent consistent queued ran
  | onRead err received =>
      rcases Except.ok.inj ran with rfl
      exact onRead_consistent consistent queued

theorem readSome_consistent (consistent : Consistent s)
    {received : List Byte} (reads : s.phase = .reading received)
    {event : StreamEvent} (arrives : readSome received s event = some next) :
    Consistent next := by
  have alone := consistent.completions
  rw [reads] at alone
  rcases consistent.unfinished (by simp [reads]) with ⟨uncalled, kept⟩
  have completed : ∀ err received,
      Consistent (readCompletes err received s) := fun err received =>
    readCompletes_consistent err received consistent.timeouts alone uncalled
      kept
  cases event with
  | data chunk =>
      rcases Option.some.inj arrives with rfl
      split
      · exact completed _ _
      · exact
          { timeouts := consistent.timeouts
            completions := alone
            writing := nofun
            reading := fun _ _ => consistent.reading received reads
            calls := by simp [uncalled]
            destroyed := fun gone => by simp [kept] at gone }
  | timeout => simp [readSome] at arrives
  | _ =>
      rcases Option.some.inj arrives with rfl
      exact completed _ _

theorem step_consistent (consistent : Consistent s)
    (taken : requestStep held s action = some (.ok next)) :
    Consistent next := by
  cases requestStep_taken taken with
  | timerExpires outstanding =>
      have timeouts := consistent.timeouts
      rw [outstanding] at timeouts
      exact
        { timeouts := by
            rw [List.filter_append, timeouts]
            rfl
          completions := by
            rw [List.filter_append, consistent.completions]
            exact List.append_nil _
          writing := fun writes => by
            have unstarted := (consistent.writing writes).2
            simp [outstanding] at unstarted
          reading := fun _ _ => Or.inr rfl
          calls := consistent.calls
          destroyed := fun gone =>
            ⟨(consistent.destroyed gone).1, by simp⟩ }
  | writeCompletes err writes =>
      have alone := consistent.completions
      have busy := consistent.writing (by rw [writes]; rfl)
      rcases consistent.unfinished (by simp [writes]) with ⟨uncalled, kept⟩
      rw [writes] at alone
      exact
        { timeouts := by
            simp [writeCompletes, consistent.timeouts, Handler.isTimeout]
          completions := by
            rw [writeCompletes, List.filter_append, alone]
            rfl
          writing := fun _ => busy
          reading := nofun
          calls := by simp [writeCompletes, uncalled]
          destroyed := fun gone => by simp [writeCompletes, kept] at gone }
  | arrives reads arrives => exact readSome_consistent consistent reads arrives
  | run queued ran => exact runHandler_consistent consistent queued ran

end Steps

section Runs

variable {held : Bool} {attempts : List (Requester × RequestAction)}
  {outcome : Except Fault Requester}

theorem run_consistent {s : Requester}
    (run : Run (requestStep held) start attempts (.ok s)) : Consistent s :=
  run.invariant Consistent start_consistent
    fun consistent taken => step_consistent consistent taken

/-- The command is written, no timer runs, and no handler is queued. -/
structure Settled (s : Requester) : Prop where
  written : s.phase ≠ .writing
  timer : s.wait ≠ .outstanding
  queue : s.queue = []

/--
Whatever the other side does or does not do, at most one callback is called,
and one has been called once nothing is queued or outstanding any more.
-/
theorem called_once {s : Requester}
    (run : Run (requestStep held) start attempts (.ok s)) :
    s.called.length ≤ 1 ∧ (Settled s → s.called.length = 1) := by
  have consistent := run_consistent run
  have calls := consistent.calls
  constructor
  · rw [calls]
    split <;> simp
  · intro settled
    have timeouts := consistent.timeouts
    have completions := consistent.completions
    rw [settled.queue] at timeouts completions
    cases works : s.phase with
    | writing => exact absurd works settled.written
    | written err => simp [works, Phase.handlers] at completions
    | read err received => simp [works, Phase.handlers] at completions
    | reading received =>
        rcases consistent.reading received works with waits | expired
        · exact absurd waits settled.timer
        · simp [expired, handlersOf] at timeouts
    | finished =>
        rw [works] at calls
        exact calls

end Runs

/-! ## The timer of a connection that is gone -/

/-- The last handler runs while the handler of an expired timer is queued. -/
def FinishesLate (s : Requester) (action : RequestAction) : Prop :=
  ∃ err received queue, action = .run ∧
    s.queue = .onRead err received :: queue ∧ s.wait = .completed none

/-- No handler of an expired timer is left for a destroyed connection. -/
def InTime (s : Requester) : Prop :=
  s.destroyed = true → s.wait ≠ .completed none

def Doomed (s : Requester) : Prop :=
  s.destroyed = true ∧ s.wait = .completed none

/-- The callback has been called and no handler is left, or one has failed. -/
def Over : Except Fault Requester → Prop
  | .ok s => s.phase = .finished ∧ s.queue = []
  | .error _ => True

section Steps

variable {held : Bool} {s next : Requester} {action : RequestAction}
  {handler : Handler} {queue : List Handler}
  {outcome : Except Fault Requester}

theorem cancel_expired (s : Requester) :
    (cancel s).wait = .completed none ↔ s.wait = .completed none := by
  unfold cancel
  split
  · rename_i outstanding
    simp [outstanding]
  · exact Iff.rfl

theorem InTime.of_kept (kept : s.destroyed = false) : InTime s := by
  intro gone
  simp [kept] at gone

theorem finish_inTime (call : Call) (kept : s.destroyed = false)
    (prompt : held = true ∨ s.wait ≠ .completed none) :
    InTime (finish held call s) := by
  unfold finish release
  split
  · exact .of_kept kept
  · rename_i free
    intro _ expired
    rcases prompt with held | waits
    · exact free held
    · let t : Requester :=
        { s with
          phase := .finished
          called := s.called ++ [call] }
      exact waits ((cancel_expired t).mp expired)

theorem runHandler_inTime (consistent : Consistent s) (inTime : InTime s)
    (prompt : held = true ∨ ¬ FinishesLate s .run)
    (queued : s.queue = handler :: queue) :
    ∃ next, runHandler held { s with queue } handler = .ok next ∧
      InTime next := by
  cases handler with
  | onTimeout err =>
      rcases consistent.timeout_front queued with ⟨expired, -, -⟩
      cases err with
      | some err => exact ⟨_, rfl, fun _ => by simp⟩
      | none =>
          have kept : s.destroyed = false := by
            by_contra gone
            exact inTime (by simpa using gone) expired
          refine ⟨_, if_neg (by simp [kept]), .of_kept ?_⟩
          unfold close
          dsimp only
          split <;> exact kept
  | onWrite err =>
      have writes := handlers_eq_onWrite
        (consistent.completion_front queued rfl).1
      rcases consistent.writing (by rw [writes]; rfl) with
        ⟨isOpen, unstarted⟩
      have kept := (consistent.unfinished (by simp [writes])).2
      cases err with
      | some err =>
          refine ⟨_, if_pos isOpen, finish_inTime _ kept (Or.inr ?_)⟩
          simp [unstarted]
      | none => exact ⟨_, if_pos isOpen, .of_kept kept⟩
  | onRead err received =>
      have reads := handlers_eq_onRead
        (consistent.completion_front queued rfl).1
      have kept := (consistent.unfinished (by simp [reads])).2
      have waits : held = true ∨ s.wait ≠ .completed none := by
        rcases prompt with held | prompt
        · exact Or.inl held
        · refine Or.inr fun expired => prompt ?_
          exact ⟨err, received, queue, rfl, queued, expired⟩
      refine ⟨_, rfl, ?_⟩
      unfold onRead
      dsimp only
      split
      · refine finish_inTime _ ?_ ?_
        · exact (cancel_frame { s with queue }).2.2.1.trans kept
        · rw [ne_eq, cancel_expired]
          exact waits
      · exact finish_inTime _ kept waits

/-- A request that is in time takes every step without a failure. -/
theorem step_inTime (consistent : Consistent s) (inTime : InTime s)
    (prompt : held = true ∨ ¬ FinishesLate s action)
    (taken : requestStep held s action = some outcome) :
    ∃ next, outcome = .ok next ∧ InTime next := by
  cases requestStep_taken taken with
  | timerExpires outstanding =>
      refine ⟨_, rfl, fun gone => ?_⟩
      exact absurd outstanding (consistent.destroyed gone).2
  | writeCompletes err writes =>
      exact ⟨_, rfl, .of_kept (consistent.unfinished (by simp [writes])).2⟩
  | @arrives received event next reads arrives =>
      have kept := (consistent.unfinished (by simp [reads])).2
      refine ⟨next, rfl, .of_kept ?_⟩
      cases event with
      | data chunk =>
          rcases Option.some.inj arrives with rfl
          split <;> exact kept
      | timeout => simp [readSome] at arrives
      | _ =>
          rcases Option.some.inj arrives with rfl
          exact kept
  | run queued ran =>
      rcases runHandler_inTime consistent inTime prompt queued with
        ⟨next, succeeds, after⟩
      exact ⟨next, ran.symm.trans succeeds, after⟩

/-- A late last handler leaves the timer's handler without a connection. -/
theorem FinishesLate.doomed (late : FinishesLate s action)
    (taken : requestStep false s action = some outcome) :
    ∃ next, outcome = .ok next ∧ Doomed next := by
  rcases late with ⟨err, received, queue, rfl, queued, expired⟩
  simp only [requestStep, queued] at taken
  rcases Option.some.inj taken with rfl
  have uncancelled : cancel { s with queue } = { s with queue } :=
    cancel_of_completed (by simp [expired])
  refine ⟨_, rfl, ?_⟩
  unfold onRead
  dsimp only
  rw [uncancelled, ite_self]
  exact ⟨rfl, (cancel_expired _).mpr expired⟩

/-- All that is left is the handler of the timer, which fails. -/
theorem step_doomed (consistent : Consistent s) (doomed : Doomed s)
    (taken : requestStep held s action = some outcome) :
    outcome = .error .undefinedBehaviour := by
  have ended := (consistent.destroyed doomed.1).1
  cases requestStep_taken taken with
  | timerExpires outstanding => simp [doomed.2] at outstanding
  | writeCompletes err writes => simp [ended] at writes
  | arrives reads arrives => simp [ended] at reads
  | @run handler queue outcome queued ran =>
      cases handler with
      | onTimeout err =>
          have same := (consistent.timeout_front queued).1
          rw [doomed.2] at same
          rcases Session.Wait.completed.inj same with rfl
          rw [← ran]
          exact if_pos doomed.1
      | onWrite err =>
          have works := (consistent.completion_front queued rfl).1
          simp [ended, Phase.handlers] at works
      | onRead err received =>
          have works := (consistent.completion_front queued rfl).1
          simp [ended, Phase.handlers] at works

end Steps

section Runs

variable {held : Bool} {attempts : List (Requester × RequestAction)}
  {outcome : Except Fault Requester}

theorem run_inTime (run : Run (requestStep held) start attempts outcome)
    (prompt : held = true ∨
      Meets (fun s action => ¬ FinishesLate s action) attempts) :
    ∃ s, outcome = .ok s ∧ InTime s := by
  induction run with
  | start => exact ⟨start, rfl, .of_kept rfl⟩
  | next earlier taken ih =>
      rcases ih (prompt.imp_right Meets.of_append) with ⟨s, same, inTime⟩
      rcases Except.ok.inj same with rfl
      exact step_inTime (run_consistent earlier) inTime
        (prompt.imp_right Meets.last) taken

/-- After a late last handler the run has failed, or it will. -/
theorem run_doomed (run : Run (requestStep false) start attempts outcome)
    {attempt : Requester × RequestAction} (member : attempt ∈ attempts)
    (late : FinishesLate attempt.1 attempt.2) :
    (∃ s, outcome = .ok s ∧ Doomed s) ∨
      outcome = .error .undefinedBehaviour := by
  induction run with
  | start => simp at member
  | next earlier taken ih =>
      have consistent := run_consistent earlier
      rcases List.mem_append.mp member with before | last
      · rcases ih before with ⟨s, same, doomed⟩ | failed
        · rcases Except.ok.inj same with rfl
          exact Or.inr (step_doomed consistent doomed taken)
        · simp at failed
      · rcases List.mem_singleton.mp last with rfl
        exact Or.inl (late.doomed taken)

/--
No handler of a request fails, and the timer never finds its connection gone,
as long as somebody else holds the connection or no last handler runs with an
expired timer behind it.  Otherwise a request that is over has failed.
-/
theorem returns_iff_prompt
    (run : Run (requestStep held) start attempts outcome) :
    ((held = true ∨
        Meets (fun s action => ¬ FinishesLate s action) attempts) →
      ∃ s, outcome = .ok s) ∧
    (Over outcome → ((∃ s, outcome = .ok s) ↔ held = true ∨
      Meets (fun s action => ¬ FinishesLate s action) attempts)) := by
  have safe : (held = true ∨
      Meets (fun s action => ¬ FinishesLate s action) attempts) →
        ∃ s, outcome = .ok s := fun prompt => by
    rcases run_inTime run prompt with ⟨s, same, -⟩
    exact ⟨s, same⟩
  refine ⟨safe, fun ended => ⟨?_, safe⟩⟩
  rintro ⟨s, rfl⟩
  cases held with
  | true => exact Or.inl rfl
  | false =>
      right
      intro attempt member late
      rcases run_doomed run member late with ⟨t, same, doomed⟩ | failed
      · rcases Except.ok.inj same with rfl
        have timeouts := (run_consistent run).timeouts
        rw [ended.2, doomed.2] at timeouts
        simp [handlersOf] at timeouts
      · simp at failed

end Runs

/-! ## A request and its answer -/

/-- The command has been written, and a response arrives in one piece. -/
def answered : List RequestAction :=
  [.writeCompletes none, .run] ++
    (transmit [Response.okResponse.toString]).map .arrives

/-- The handlers of the read and of the cancelled timer run. -/
def promptAnswer : List RequestAction := answered ++ [.run, .run]

/-- The timer expires once the read has completed. -/
def lateAnswer : List RequestAction := answered ++ [.timerExpires, .run]

/-- An answered request has called its owner once. -/
theorem prompt_called :
    ∃ s, execute (requestStep false) start promptAnswer = some s ∧
      Settled s ∧ s.called.length = 1 := by
  have setting : (execute (requestStep false) start promptAnswer).any
      (fun s =>
        (match s.phase with
          | .finished => true
          | _ => false) &&
        (match s.wait with
          | .handled => true
          | _ => false) && s.queue.isEmpty) = true := by
    decide +kernel
  rcases (Option.any_eq_true _ _).mp setting with ⟨s, executed, facts⟩
  simp only [Bool.and_eq_true, List.isEmpty_iff] at facts
  have settled : Settled s := by
    refine ⟨?_, ?_, facts.2⟩
    · intro writes
      simp [writes] at facts
    · intro waits
      simp [waits] at facts
  exact ⟨s, executed, settled,
    (called_once (.of_execute executed)).2 settled⟩

/-- A timer that expires just before the last handler runs is fatal. -/
theorem late_fails :
    ∃ attempts, Run (requestStep false) start attempts
        (.error .undefinedBehaviour) ∧
      ¬ Meets (fun s action => ¬ FinishesLate s action) attempts := by
  have setting : (execute (requestStep false) start lateAnswer).any
      (fun s => (requestStep false s .run).any fun result =>
        match result with
        | .error fault => fault = .undefinedBehaviour
        | .ok _ => false) = true := by
    decide +kernel
  rcases (Option.any_eq_true _ _).mp setting with ⟨s, executed, facts⟩
  rcases (Option.any_eq_true _ _).mp facts with ⟨result, taken, fails⟩
  cases result with
  | ok next => simp at fails
  | error fault =>
      rcases of_decide_eq_true fails with rfl
      have run := (Run.of_execute executed).next taken
      refine ⟨_, run, fun prompt => ?_⟩
      rcases (returns_iff_prompt run).1 (Or.inr prompt) with ⟨s, same⟩
      simp at same

end KekMonitors.Client
