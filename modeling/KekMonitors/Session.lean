import KekMonitors.Connection
import KekMonitors.Transition.Run

/-!
# The read timer of a connection

The server reads one command from a connection, under a timer of one second,
and answers it with one response.  The state below holds one connection: its
socket, the wait of its timer, what it is doing for its client, and the
handlers that the event loop has queued for it.  A wait that has expired can
no longer be cancelled.
-/

namespace KekMonitors.Session

open Connection
open Json
open Transition

/-- The wait of `m_timeout`. -/
inductive Wait where
  | outstanding
  /-- Its handler is queued with this error. -/
  | completed (err : Option ErrorCode)
  | handled
  deriving DecidableEq

/-- What the connection does for its client. -/
inductive Phase where
  | reading (received : List Byte)
  /-- The read has completed; its handler is queued. -/
  | read (err : Option ErrorCode) (received : List Byte)
  /-- The callback has the command; its response has not been written. -/
  | serving (cmd : Cmd)
  | writing (response : Response)
  /-- The write has completed; its handler is queued. -/
  | answered (err : Option ErrorCode)
  | destroyed

inductive Handler where
  | onTimeout (err : Option ErrorCode)
  | onRead (err : Option ErrorCode) (received : List Byte)
  | onWrite (err : Option ErrorCode)

structure Connected where
  isOpen : Bool
  wait : Wait
  phase : Phase
  queue : List Handler

/-- `asyncReadCmd` starts the timer and the read. -/
def start : Connected where
  isOpen := true
  wait := .outstanding
  phase := .reading []
  queue := []

def readCompletes (err : Option ErrorCode) (received : List Byte)
    (s : Connected) : Connected :=
  { s with
    phase := .read err received
    queue := s.queue ++ [.onRead err received] }

def writeCompletes (err : Option ErrorCode) (s : Connected) : Connected :=
  { s with
    phase := .answered err
    queue := s.queue ++ [.onWrite err] }

/-- `p_endpoint.close()` aborts what is outstanding on the socket. -/
def close (s : Connected) : Connected :=
  let s := { s with isOpen := false }
  match s.phase with
  | .reading received => readCompletes (some .operationAborted) received s
  | .writing _ => writeCompletes (some .operationAborted) s
  | _ => s

/-- `m_timeout.cancel()` has no effect on a wait that has expired. -/
def cancel (s : Connected) : Connected :=
  match s.wait with
  | .outstanding =>
      { s with
        wait := .completed (some .operationAborted)
        queue := s.queue ++ [.onTimeout (some .operationAborted)] }
  | _ => s

/-- The destructor. -/
def destroy (s : Connected) : Connected :=
  { cancel s with isOpen := false, phase := .destroyed }

/-- The handler of the timer does not keep the connection alive. -/
def onTimeout (err : Option ErrorCode) (s : Connected) :
    Except Fault Connected :=
  match err, s.phase with
  | some _, _ => .ok s
  | none, .destroyed => .error .undefinedBehaviour
  | none, _ => .ok (close s)

/-- Nothing holds a connection whose command could not be read. -/
def handleCallback (err : Option ErrorCode) (cmd : Cmd) (s : Connected) :
    Connected :=
  match err with
  | some _ => destroy s
  | none => { s with phase := .serving cmd }

def onRead (err : Option ErrorCode) (received : List Byte)
    (s : Connected) : Connected :=
  let s := if err = none ∨ err = some .eof then cancel s else s
  let (ec, cmd) := Connection.onRead Cmd.codec err received
  handleCallback ec cmd s

/-- `shutdown` raises on a closed socket; the callback does nothing. -/
def onWrite (s : Connected) : Except Fault Connected :=
  if s.isOpen then .ok (destroy s) else .error (.raised .system)

def asyncWriteResponse (response : Response) (s : Connected) : Connected :=
  if s.isOpen then { s with phase := .writing response }
  else writeCompletes (some .badDescriptor) s

/-- What the client's end of the stream does to an outstanding read. -/
def readSome (received : List Byte) (s : Connected) :
    StreamEvent → Option Connected
  | .data chunk =>
      let received := (received ++ chunk).take bufferSize
      some (if received.length = bufferSize then
        readCompletes none received s
      else { s with phase := .reading received })
  | .eof => some (readCompletes (some .eof) received s)
  | .failed error => some (readCompletes (some error) received s)
  | .timeout => none

def runHandler (s : Connected) : Handler → Except Fault Connected
  | .onTimeout err => onTimeout err { s with wait := .handled }
  | .onRead err received => .ok (onRead err received s)
  | .onWrite _ => onWrite s

/-- What can happen to a connection; the command is answered at any time. -/
inductive SessionAction where
  | timerExpires
  | arrives (event : StreamEvent)
  | responds (response : Response)
  | writeCompletes (err : Option ErrorCode)
  | run

/-- The event loop runs the handlers in the order they were queued. -/
def sessionStep : StepFunction Connected SessionAction Fault
  | s, .timerExpires =>
      match s.wait with
      | .outstanding =>
          some (.ok
            { s with
              wait := .completed none
              queue := s.queue ++ [.onTimeout none] })
      | _ => none
  | s, .arrives event =>
      match s.phase with
      | .reading received => (readSome received s event).map .ok
      | _ => none
  | s, .responds response =>
      match s.phase with
      | .serving _ => some (.ok (asyncWriteResponse response s))
      | _ => none
  | s, .writeCompletes err =>
      match s.phase with
      | .writing _ => some (.ok (writeCompletes err s))
      | _ => none
  | s, .run =>
      match s.queue with
      | handler :: queue => some (runHandler { s with queue } handler)
      | [] => none

/-- A step that is taken, with what it finds. -/
inductive Taken (s : Connected) :
    SessionAction → Except Fault Connected → Prop where
  | timerExpires (outstanding : s.wait = .outstanding) :
      Taken s .timerExpires (.ok
        { s with
          wait := .completed none
          queue := s.queue ++ [.onTimeout none] })
  | arrives {received : List Byte} {event : StreamEvent} {next : Connected}
      (reads : s.phase = .reading received)
      (arrives : readSome received s event = some next) :
      Taken s (.arrives event) (.ok next)
  | responds {cmd : Cmd} (response : Response)
      (serves : s.phase = .serving cmd) :
      Taken s (.responds response) (.ok (asyncWriteResponse response s))
  | writeCompletes {response : Response} (err : Option ErrorCode)
      (writes : s.phase = .writing response) :
      Taken s (.writeCompletes err) (.ok (writeCompletes err s))
  | run {handler : Handler} {queue : List Handler}
      {outcome : Except Fault Connected} (queued : s.queue = handler :: queue)
      (ran : runHandler { s with queue } handler = outcome) :
      Taken s .run outcome

theorem sessionStep_taken {s : Connected} {action : SessionAction}
    {outcome : Except Fault Connected}
    (taken : sessionStep s action = some outcome) :
    Taken s action outcome := by
  cases action with
  | timerExpires =>
      simp only [sessionStep] at taken
      split at taken
      · rename_i outstanding
        exact Option.some.inj taken ▸ .timerExpires outstanding
      · simp at taken
  | arrives event =>
      simp only [sessionStep] at taken
      split at taken
      · rename_i received reads
        rcases Option.map_eq_some_iff.mp taken with ⟨next, arrives, rfl⟩
        exact .arrives reads arrives
      · simp at taken
  | responds response =>
      simp only [sessionStep] at taken
      split at taken
      · rename_i cmd serves
        exact Option.some.inj taken ▸ .responds response serves
      · simp at taken
  | writeCompletes err =>
      simp only [sessionStep] at taken
      split at taken
      · rename_i response writes
        exact Option.some.inj taken ▸ .writeCompletes err writes
      · simp at taken
  | run =>
      simp only [sessionStep] at taken
      split at taken
      · rename_i handler queue queued
        exact .run queued (Option.some.inj taken)
      · simp at taken

/-- A command has been delivered, and its response not yet written. -/
def AwaitsResponse (s : Connected) : Prop :=
  (∃ cmd, s.phase = .serving cmd) ∨ ∃ response, s.phase = .writing response

/--
The socket stays open until the response has been written, and no exception
escapes from the write completion.
-/
structure Answers (attempts : List (Connected × SessionAction))
    (outcome : Except Fault Connected) : Prop where
  isOpen : ∀ s, Visits attempts outcome s → AwaitsResponse s →
    s.isOpen = true
  returns : outcome ≠ .error (.raised .system)

/-- A handler about to run delivers a command after its timer has expired. -/
def DeliversLate (s : Connected) (action : SessionAction) : Prop :=
  ∃ err received queue cmd, action = .run ∧
    s.queue = .onRead err received :: queue ∧
    Connection.onRead Cmd.codec err received = (none, cmd) ∧
    s.wait ≠ .outstanding

/-- The exchange is over. -/
def Ended : Except Fault Connected → Prop
  | .ok s => s.phase = .destroyed
  | .error _ => True

/-! ## The handlers of a connection -/

def Handler.isTimeout : Handler → Bool
  | .onTimeout _ => true
  | _ => false

def Wait.handlers : Wait → List Handler
  | .completed err => [.onTimeout err]
  | _ => []

def Phase.handlers : Phase → List Handler
  | .read err received => [.onRead err received]
  | .answered err => [.onWrite err]
  | _ => []

/-- The client has not been answered and the connection still exists. -/
def Phase.isServed : Phase → Bool
  | .serving _ | .writing _ | .answered _ => true
  | _ => false

def Phase.isReading : Phase → Bool
  | .reading _ | .read _ _ => true
  | _ => false

/-- What holds of a connection in every reached state. -/
structure Consistent (s : Connected) : Prop where
  timeouts : s.queue.filter Handler.isTimeout = s.wait.handlers
  completions : s.queue.filter (fun h => ! h.isTimeout) = s.phase.handlers
  /-- While it reads, only an expired timer has a handler. -/
  reading : s.phase.isReading = true →
    s.wait = .outstanding ∧ s.isOpen = true ∨
      s.wait = .completed none ∨ s.wait = .handled ∧ s.isOpen = false
  served : s.phase.isServed = true → s.wait ≠ .outstanding
  destroyed : s.phase = .destroyed → s.wait ≠ .outstanding

theorem start_consistent : Consistent start where
  timeouts := rfl
  completions := rfl
  reading := fun _ => Or.inl ⟨rfl, rfl⟩
  served := fun reads => by simp [start, Phase.isServed] at reads
  destroyed := fun ended => by simp [start] at ended

section Steps

variable {s next : Connected} {action : SessionAction}
  {handler : Handler} {queue : List Handler}

/-- The handler at the front belongs to the timer. -/
theorem Consistent.timeout_front (consistent : Consistent s)
    {err : Option ErrorCode} (queued : s.queue = .onTimeout err :: queue) :
    s.wait = .completed err ∧ queue.filter Handler.isTimeout = [] ∧
      queue.filter (fun h => ! h.isTimeout) = s.phase.handlers := by
  have timeouts := consistent.timeouts
  have completions := consistent.completions
  rw [queued] at timeouts completions
  cases waits : s.wait with
  | completed other =>
      simp only [waits, Wait.handlers, List.filter_cons, Handler.isTimeout,
        if_true] at timeouts
      rcases List.cons.inj timeouts with ⟨same, none⟩
      rcases Handler.onTimeout.inj same with rfl
      exact ⟨rfl, none, completions⟩
  | outstanding =>
      simp [waits, Wait.handlers, Handler.isTimeout] at timeouts
  | handled => simp [waits, Wait.handlers, Handler.isTimeout] at timeouts

/-- The handler at the front belongs to the read or to the write. -/
theorem Consistent.completion_front (consistent : Consistent s)
    (queued : s.queue = handler :: queue)
    (completion : handler.isTimeout = false) :
    s.phase.handlers = [handler] ∧
      queue.filter Handler.isTimeout = s.wait.handlers ∧
      queue.filter (fun h => ! h.isTimeout) = [] := by
  have timeouts := consistent.timeouts
  have completions := consistent.completions
  rw [queued] at timeouts completions
  simp only [List.filter_cons, completion, Bool.not_false, if_true,
    Bool.false_eq_true, if_false] at timeouts completions
  cases works : s.phase with
  | read err received =>
      rw [works] at completions
      rcases List.cons.inj completions with ⟨rfl, none⟩
      exact ⟨rfl, timeouts, none⟩
  | answered err =>
      rw [works] at completions
      rcases List.cons.inj completions with ⟨rfl, none⟩
      exact ⟨rfl, timeouts, none⟩
  | reading received => simp [works, Phase.handlers] at completions
  | serving cmd => simp [works, Phase.handlers] at completions
  | writing response => simp [works, Phase.handlers] at completions
  | destroyed => simp [works, Phase.handlers] at completions

theorem handlers_eq_onRead {phase : Phase} {err : Option ErrorCode}
    {received : List Byte}
    (reads : phase.handlers = [.onRead err received]) :
    phase = .read err received := by
  cases phase with
  | read other bytes =>
      rcases Handler.onRead.inj (List.singleton_inj.mp reads) with
        ⟨rfl, rfl⟩
      rfl
  | _ => simp [Phase.handlers] at reads

theorem handlers_eq_onWrite {phase : Phase} {err : Option ErrorCode}
    (writes : phase.handlers = [.onWrite err]) : phase = .answered err := by
  cases phase with
  | answered other =>
      rcases Handler.onWrite.inj (List.singleton_inj.mp writes) with rfl
      rfl
  | _ => simp [Phase.handlers] at writes

theorem cancel_wait (s : Connected) : (cancel s).wait ≠ .outstanding := by
  unfold cancel
  split
  · simp
  · assumption

theorem cancel_timeouts
    (timeouts : s.queue.filter Handler.isTimeout = s.wait.handlers) :
    (cancel s).queue.filter Handler.isTimeout =
      (cancel s).wait.handlers := by
  unfold cancel
  split
  · rename_i outstanding
    rw [outstanding] at timeouts
    simp [timeouts, Wait.handlers, Handler.isTimeout]
  · exact timeouts

theorem cancel_completions :
    (cancel s).queue.filter (fun h => ! h.isTimeout) =
      s.queue.filter (fun h => ! h.isTimeout) := by
  unfold cancel
  split
  · simp [Handler.isTimeout]
  · rfl

/-- Cancelling leaves a wait that has completed. -/
theorem cancel_of_completed (completed : s.wait ≠ .outstanding) :
    cancel s = s := by
  unfold cancel
  split
  · contradiction
  · rfl

theorem destroy_consistent
    (timeouts : s.queue.filter Handler.isTimeout = s.wait.handlers)
    (completions : s.queue.filter (fun h => ! h.isTimeout) = []) :
    Consistent (destroy s) where
  timeouts := cancel_timeouts timeouts
  completions := cancel_completions.trans completions
  reading := fun reads => by simp [destroy, Phase.isReading] at reads
  served := fun served => by simp [destroy, Phase.isServed] at served
  destroyed := fun _ => cancel_wait s

theorem readCompletes_consistent (err : Option ErrorCode)
    (received : List Byte)
    (timeouts : s.queue.filter Handler.isTimeout = s.wait.handlers)
    (alone : s.queue.filter (fun h => ! h.isTimeout) = [])
    (reading : s.wait = .outstanding ∧ s.isOpen = true ∨
      s.wait = .completed none ∨ s.wait = .handled ∧ s.isOpen = false) :
    Consistent (readCompletes err received s) where
  timeouts := by simp [readCompletes, timeouts, Handler.isTimeout]
  completions := by
    rw [readCompletes, List.filter_append, alone]
    rfl
  reading := fun _ => reading
  served := fun served => by simp [readCompletes, Phase.isServed] at served
  destroyed := fun ended => by simp [readCompletes] at ended

theorem writeCompletes_consistent (err : Option ErrorCode)
    (timeouts : s.queue.filter Handler.isTimeout = s.wait.handlers)
    (alone : s.queue.filter (fun h => ! h.isTimeout) = [])
    (completed : s.wait ≠ .outstanding) :
    Consistent (writeCompletes err s) where
  timeouts := by simp [writeCompletes, timeouts, Handler.isTimeout]
  completions := by
    rw [writeCompletes, List.filter_append, alone]
    rfl
  reading := fun reads => by
    simp [writeCompletes, Phase.isReading] at reads
  served := fun _ => completed
  destroyed := fun ended => by simp [writeCompletes] at ended

/-- A handler that the timer has run leaves its wait. -/
theorem Consistent.handled (consistent : Consistent s)
    {err : Option ErrorCode} (queued : s.queue = .onTimeout err :: queue)
    (isOpen : Bool)
    (closed : s.phase.isReading = true → isOpen = false) :
    Consistent { s with queue, isOpen, wait := .handled } := by
  rcases consistent.timeout_front queued with ⟨-, timeouts, completions⟩
  exact
    { timeouts := timeouts
      completions := completions
      reading := fun reads => Or.inr (Or.inr ⟨rfl, closed reads⟩)
      served := fun _ => by simp
      destroyed := fun _ => by simp }

theorem onTimeout_consistent (consistent : Consistent s)
    {err : Option ErrorCode} (queued : s.queue = .onTimeout err :: queue)
    (ran : onTimeout err { s with queue, wait := .handled } = .ok next) :
    Consistent next := by
  rcases consistent.timeout_front queued with ⟨wait, timeouts, alone⟩
  cases err with
  | some err =>
      rcases Except.ok.inj ran with rfl
      apply consistent.handled queued s.isOpen
      -- the wait is aborted only when a read has ended
      intro reads
      rcases consistent.reading reads with ⟨other, -⟩ | other | ⟨other, -⟩ <;>
        simp [wait] at other
  | none =>
      rw [onTimeout.eq_def] at ran
      cases works : s.phase with
      | reading received =>
          simp only [works] at ran
          rcases Except.ok.inj ran with rfl
          rw [works] at alone
          exact readCompletes_consistent _ _ timeouts alone
            (Or.inr (Or.inr ⟨rfl, rfl⟩))
      | writing response =>
          simp only [works] at ran
          rcases Except.ok.inj ran with rfl
          rw [works] at alone
          exact writeCompletes_consistent _ timeouts alone (by simp)
      | destroyed => simp [works] at ran
      | _ =>
          simp only [works] at ran
          rcases Except.ok.inj ran with rfl
          have handled := consistent.handled queued false fun _ => rfl
          rw [works] at handled
          exact handled

theorem destroy_cancel (s : Connected) : destroy (cancel s) = destroy s := by
  rw [destroy, cancel_of_completed (cancel_wait s), destroy]

/-- A command is served once its timer is cancelled; an error ends it. -/
theorem onRead_eq (err : Option ErrorCode) (received : List Byte)
    (s : Connected) :
    onRead err received s =
      match Connection.onRead Cmd.codec err received with
      | (some _, _) => destroy s
      | (none, cmd) => { cancel s with phase := .serving cmd } := by
  unfold onRead
  dsimp only
  by_cases decoded : err = none ∨ err = some .eof
  · rw [if_pos decoded]
    rcases Connection.onRead Cmd.codec err received with ⟨ec, cmd⟩
    cases ec with
    | none => rfl
    | some ec => exact destroy_cancel s
  · rw [if_neg decoded, Connection.onRead, if_neg decoded]
    cases err with
    | none => simp at decoded
    | some ec => rfl

theorem onRead_consistent (consistent : Consistent s)
    {err : Option ErrorCode} {received : List Byte}
    (queued : s.queue = .onRead err received :: queue) :
    Consistent (onRead err received { s with queue }) := by
  rcases consistent.completion_front queued rfl with
    ⟨-, timeouts, alone⟩
  rw [onRead_eq]
  split
  · exact destroy_consistent timeouts alone
  · exact
      { timeouts := cancel_timeouts timeouts
        completions := cancel_completions.trans alone
        reading := fun reads => by simp [Phase.isReading] at reads
        served := fun _ => cancel_wait _
        destroyed := fun ended => by simp at ended }

theorem runHandler_consistent (consistent : Consistent s)
    (queued : s.queue = handler :: queue)
    (ran : runHandler { s with queue } handler = .ok next) :
    Consistent next := by
  cases handler with
  | onTimeout err => exact onTimeout_consistent consistent queued ran
  | onRead err received =>
      rcases Except.ok.inj ran with rfl
      exact onRead_consistent consistent queued
  | onWrite err =>
      rcases consistent.completion_front queued rfl with
        ⟨-, timeouts, alone⟩
      simp only [runHandler, onWrite] at ran
      split at ran
      · rcases Except.ok.inj ran with rfl
        exact destroy_consistent timeouts alone
      · simp at ran

theorem readSome_consistent (consistent : Consistent s)
    {received : List Byte} (reads : s.phase = .reading received)
    {event : StreamEvent} (arrives : readSome received s event = some next) :
    Consistent next := by
  have alone := consistent.completions
  rw [reads] at alone
  have reading := consistent.reading (by rw [reads]; rfl)
  cases event with
  | data chunk =>
      rcases Option.some.inj arrives with rfl
      split
      · exact readCompletes_consistent _ _ consistent.timeouts alone reading
      · exact
          { timeouts := consistent.timeouts
            completions := alone
            reading := fun _ => reading
            served := fun served => by simp [Phase.isServed] at served
            destroyed := fun ended => by simp at ended }
  | timeout => simp [readSome] at arrives
  | _ =>
      rcases Option.some.inj arrives with rfl
      exact readCompletes_consistent _ _ consistent.timeouts alone reading

theorem step_consistent (consistent : Consistent s)
    (taken : sessionStep s action = some (.ok next)) : Consistent next := by
  cases sessionStep_taken taken with
  | timerExpires outstanding =>
      have timeouts := consistent.timeouts
      rw [outstanding] at timeouts
      exact
        { timeouts := by
            rw [List.filter_append, timeouts]
            rfl
          completions := by
            rw [List.filter_append, consistent.completions]
            exact List.append_nil _
          reading := fun _ => Or.inr (Or.inl rfl)
          served := fun _ => by simp
          destroyed := fun _ => by simp }
  | arrives reads arrives => exact readSome_consistent consistent reads arrives
  | responds response serves =>
      have alone := consistent.completions
      have completed := consistent.served (by rw [serves]; rfl)
      rw [serves] at alone
      unfold asyncWriteResponse
      split
      · exact
          { timeouts := consistent.timeouts
            completions := alone
            reading := fun reads => by simp [Phase.isReading] at reads
            served := fun _ => completed
            destroyed := fun ended => by simp at ended }
      · exact writeCompletes_consistent _ consistent.timeouts alone completed
  | writeCompletes err writes =>
      have alone := consistent.completions
      have completed := consistent.served (by rw [writes]; rfl)
      rw [writes] at alone
      exact writeCompletes_consistent _ consistent.timeouts alone completed
  | run queued ran => exact runHandler_consistent consistent queued ran

end Steps

/-! ## What is delivered -/

/-- What has been read of the stream's events so far. -/
def ReadsStream (s : Connected) : Prop :=
  match s.phase with
  | .reading received => ∃ events, ∀ more,
      asyncRead [] (events ++ more) = asyncRead received more
  | .read err received => ∃ events,
      asyncRead [] events = some (err, received)
  | .serving cmd => ∃ events, asyncReadCmd events = some (none, cmd)
  | _ => True

section Steps

variable {s next : Connected} {action : SessionAction}

theorem readsStream_readCompletes {err : Option ErrorCode}
    {events : List StreamEvent} {before received : List Byte}
    (reads : ∀ more, asyncRead [] (events ++ more) = asyncRead before more)
    (event : StreamEvent)
    (completes : asyncRead before [event] = some (err, received)) :
    ReadsStream (readCompletes err received s) :=
  ⟨events ++ [event], (reads [event]).trans completes⟩

theorem readSome_readsStream {received : List Byte}
    (reads : s.phase = .reading received) (stream : ReadsStream s)
    {event : StreamEvent} (arrives : readSome received s event = some next) :
    ReadsStream next := by
  rw [ReadsStream, reads] at stream
  rcases stream with ⟨events, stream⟩
  cases event with
  | data chunk =>
      rcases Option.some.inj arrives with rfl
      split
      · rename_i full
        exact readsStream_readCompletes stream (.data chunk)
          (by simp only [asyncRead, full, if_true])
      · rename_i notFull
        refine ⟨events ++ [.data chunk], fun more => ?_⟩
        rw [List.append_assoc, stream, List.singleton_append, asyncRead]
        exact if_neg notFull
  | timeout => simp [readSome] at arrives
  | eof =>
      rcases Option.some.inj arrives with rfl
      exact readsStream_readCompletes stream .eof rfl
  | failed error =>
      rcases Option.some.inj arrives with rfl
      exact readsStream_readCompletes stream (.failed error) rfl

theorem runHandler_readsStream (consistent : Consistent s)
    (stream : ReadsStream s) {handler : Handler} {queue : List Handler}
    (queued : s.queue = handler :: queue)
    (ran : runHandler { s with queue } handler = .ok next) :
    ReadsStream next := by
  cases handler with
  | onTimeout err =>
      simp only [runHandler] at ran
      cases err with
      | some err =>
          rcases Except.ok.inj ran with rfl
          exact stream
      | none =>
          rw [onTimeout.eq_def] at ran
          cases works : s.phase <;>
            simp only [ReadsStream, works] at ran stream <;>
            first
              | contradiction
              | rcases Except.ok.inj ran with rfl
          case reading received =>
            rcases stream with ⟨events, stream⟩
            exact ⟨events ++ [.timeout], stream [.timeout]⟩
          all_goals exact stream
  | onRead err received =>
      have reads := handlers_eq_onRead
        (consistent.completion_front queued rfl).1
      rw [ReadsStream, reads] at stream
      rcases stream with ⟨events, stream⟩
      rcases Except.ok.inj ran with rfl
      rw [onRead_eq]
      split
      · trivial
      · rename_i cmd delivered
        refine ⟨events, ?_⟩
        rw [asyncReadCmd, readMessage, stream]
        exact congrArg some delivered
  | onWrite err =>
      simp only [runHandler, onWrite] at ran
      split at ran
      · rcases Except.ok.inj ran with rfl
        trivial
      · simp at ran

theorem step_readsStream (consistent : Consistent s)
    (stream : ReadsStream s)
    (taken : sessionStep s action = some (.ok next)) :
    ReadsStream next := by
  cases sessionStep_taken taken with
  | timerExpires outstanding => exact stream
  | arrives reads arrives => exact readSome_readsStream reads stream arrives
  | responds response serves =>
      unfold asyncWriteResponse
      split <;> trivial
  | writeCompletes err writes => trivial
  | run queued ran =>
      exact runHandler_readsStream consistent stream queued ran

end Steps

/-- The callback gets what the read makes of the stream. -/
theorem served_command_read {attempts : List (Connected × SessionAction)}
    {s : Connected} (run : Run sessionStep start attempts (.ok s))
    {cmd : Cmd} (serves : s.phase = .serving cmd) :
    ∃ events, asyncReadCmd events = some (none, cmd) := by
  have holds : Consistent s ∧ ReadsStream s :=
    run.invariant (fun s => Consistent s ∧ ReadsStream s)
      ⟨start_consistent, [], fun _ => rfl⟩
      fun holds taken => ⟨step_consistent holds.1 taken,
        step_readsStream holds.1 holds.2 taken⟩
  have stream := holds.2
  rw [ReadsStream, serves] at stream
  exact stream

/-! ## Commands delivered in time -/

/-- A served connection is open, and no expired timer will close it. -/
def InTime (s : Connected) : Prop :=
  s.phase.isServed = true → s.isOpen = true ∧ s.wait ≠ .completed none

/-- A served connection is closed, or its expired timer runs next. -/
def Late (s : Connected) : Prop :=
  s.phase.isServed = true ∧
    (s.isOpen = false ∨ ∃ queue, s.queue = .onTimeout none :: queue)

theorem start_inTime : InTime start := by
  intro served
  simp [start, Phase.isServed] at served

section Steps

variable {s next : Connected} {action : SessionAction}
  {handler : Handler} {queue : List Handler}
  {outcome : Except Fault Connected}

theorem InTime.of_not_served (idle : s.phase.isServed = false) :
    InTime s := by
  intro served
  rw [idle] at served
  contradiction

theorem readSome_not_served {received : List Byte} {event : StreamEvent}
    (arrives : readSome received s event = some next) :
    next.phase.isServed = false := by
  cases event with
  | data chunk =>
      rcases Option.some.inj arrives with rfl
      split <;> rfl
  | timeout => simp [readSome] at arrives
  | _ =>
      rcases Option.some.inj arrives with rfl
      rfl

theorem onTimeout_inTime (consistent : Consistent s) (inTime : InTime s)
    {err : Option ErrorCode} (queued : s.queue = .onTimeout err :: queue)
    (ran : onTimeout err { s with queue, wait := .handled } = .ok next) :
    InTime next := by
  cases err with
  | some err =>
      rcases Except.ok.inj ran with rfl
      exact fun served => ⟨(inTime served).1, by simp⟩
  | none =>
      have expired := (consistent.timeout_front queued).1
      have idle : s.phase.isServed = false := by
        by_contra served
        exact (inTime (by simpa using served)).2 expired
      rw [onTimeout.eq_def] at ran
      apply InTime.of_not_served
      cases works : s.phase <;> simp only [works] at ran idle
      case destroyed => simp at ran
      all_goals
        rcases Except.ok.inj ran with rfl
        first
          | rfl
          | simp [Phase.isServed] at idle

theorem runHandler_inTime (consistent : Consistent s) (inTime : InTime s)
    (prompt : ¬ DeliversLate s .run) (queued : s.queue = handler :: queue)
    (ran : runHandler { s with queue } handler = .ok next) :
    InTime next := by
  cases handler with
  | onTimeout err => exact onTimeout_inTime consistent inTime queued ran
  | onRead err received =>
      rcases Except.ok.inj ran with rfl
      rw [onRead_eq]
      split
      · exact .of_not_served rfl
      · rename_i cmd delivered
        have outstanding : s.wait = .outstanding := by
          by_contra other
          exact prompt ⟨err, received, queue, cmd, rfl, queued, delivered,
            other⟩
        have reads := handlers_eq_onRead
          (consistent.completion_front queued rfl).1
        have isOpen : s.isOpen = true := by
          rcases consistent.reading (by rw [reads]; rfl) with
            ⟨-, isOpen⟩ | other | ⟨other, -⟩
          · exact isOpen
          · simp [outstanding] at other
          · simp [outstanding] at other
        intro
        simp [cancel, outstanding, isOpen]
  | onWrite err =>
      simp only [runHandler, onWrite] at ran
      split at ran
      · rcases Except.ok.inj ran with rfl
        exact .of_not_served rfl
      · simp at ran

theorem step_inTime (consistent : Consistent s) (inTime : InTime s)
    (prompt : ¬ DeliversLate s action)
    (taken : sessionStep s action = some (.ok next)) : InTime next := by
  cases sessionStep_taken taken with
  | timerExpires outstanding =>
      intro served
      exact absurd outstanding (consistent.served served)
  | arrives reads arrives =>
      exact .of_not_served (readSome_not_served arrives)
  | responds response serves =>
      have open' := inTime (by rw [serves]; rfl)
      rw [asyncWriteResponse, if_pos open'.1]
      exact fun _ => open'
  | writeCompletes err writes =>
      exact fun _ => inTime (by rw [writes]; rfl)
  | run queued ran =>
      exact runHandler_inTime consistent inTime prompt queued ran

/-- A connection that is in time does not raise in its write handler. -/
theorem step_not_raised (consistent : Consistent s) (inTime : InTime s) :
    sessionStep s action ≠ some (.error (.raised .system)) := by
  intro taken
  cases sessionStep_taken taken with
  | @run handler queue outcome queued ran =>
      cases handler with
      | onTimeout err =>
          simp only [runHandler, onTimeout.eq_def] at ran
          split at ran <;> simp at ran
      | onRead err received => simp [runHandler] at ran
      | onWrite err =>
          have writes := handlers_eq_onWrite
            (consistent.completion_front queued rfl).1
          have isOpen := (inTime (by rw [writes]; rfl)).1
          simp [runHandler, onWrite, isOpen] at ran

/-- The handler at the front of a connection that is late. -/
theorem runHandler_late (consistent : Consistent s) (late : Late s)
    (queued : s.queue = handler :: queue)
    (ran : runHandler { s with queue } handler = outcome) :
    (∃ next, outcome = .ok next ∧ Late next) ∨
      outcome = .error (.raised .system) := by
  subst ran
  rcases late with ⟨served, late⟩
  have closed : handler ≠ .onTimeout none → s.isOpen = false := by
    intro other
    rcases late with closed | ⟨rest, front⟩
    · exact closed
    · exact absurd (List.cons.inj (queued.symm.trans front)).1 other
  cases handler with
  | onTimeout err =>
      cases err with
      | some err =>
          have closed := closed (by simp)
          exact Or.inl ⟨_, rfl, served, Or.inl closed⟩
      | none =>
          refine Or.inl ⟨close { s with queue, wait := .handled }, ?_, ?_⟩
          · rw [runHandler, onTimeout.eq_def]
            cases works : s.phase <;>
              simp [works, Phase.isServed] at served ⊢
          · cases works : s.phase <;>
              simp [works, Phase.isServed, Late, close, writeCompletes]
                at served ⊢
  | onRead err received =>
      have reads := handlers_eq_onRead
        (consistent.completion_front queued rfl).1
      simp [reads, Phase.isServed] at served
  | onWrite err =>
      have closed := closed (by simp)
      right
      simp [runHandler, onWrite, closed]

/-- What has begun too late ends in an exception. -/
theorem step_late (consistent : Consistent s) (late : Late s)
    (taken : sessionStep s action = some outcome) :
    (∃ next, outcome = .ok next ∧ Late next) ∨
      outcome = .error (.raised .system) := by
  cases sessionStep_taken taken with
  | timerExpires outstanding =>
      exact absurd outstanding (consistent.served late.1)
  | arrives reads arrives =>
      have served := late.1
      simp [reads, Phase.isServed] at served
  | responds response serves =>
      refine Or.inl ⟨_, rfl, ?_⟩
      rw [asyncWriteResponse]
      rcases late.2 with closed | ⟨rest, front⟩
      · rw [if_neg (by simp [closed])]
        exact ⟨rfl, Or.inl closed⟩
      · split
        · exact ⟨rfl, Or.inr ⟨rest, front⟩⟩
        · exact ⟨rfl, Or.inr ⟨_, congrArg (· ++ _) front⟩⟩
  | writeCompletes err writes =>
      refine Or.inl ⟨_, rfl, rfl, ?_⟩
      rcases late.2 with closed | ⟨rest, front⟩
      · exact Or.inl closed
      · exact Or.inr ⟨_, congrArg (· ++ _) front⟩
  | run queued ran => exact runHandler_late consistent late queued ran

theorem DeliversLate.late (consistent : Consistent s)
    (delivers : DeliversLate s action)
    (taken : sessionStep s action = some outcome) :
    ∃ next, outcome = .ok next ∧ Late next := by
  rcases delivers with
    ⟨err, received, queue, cmd, rfl, queued, delivered, expired⟩
  rcases consistent.completion_front queued rfl with
    ⟨handlers, timeouts, alone⟩
  have reads := handlers_eq_onRead handlers
  simp only [sessionStep, queued] at taken
  rcases Option.some.inj taken with rfl
  have uncancelled : cancel { s with queue } = { s with queue } :=
    cancel_of_completed expired
  refine ⟨_, rfl, ?_⟩
  rw [onRead_eq, delivered]
  dsimp only
  rw [uncancelled]
  refine ⟨rfl, ?_⟩
  rcases consistent.reading (by rw [reads]; rfl) with
    ⟨outstanding, -⟩ | completed | ⟨-, closed⟩
  · exact absurd outstanding expired
  · right
    -- nothing but the expired timer has a handler
    have all : queue.filter Handler.isTimeout = queue := by
      apply List.filter_eq_self.mpr
      intro h member
      by_contra other
      have left : h ∈ queue.filter (fun h => ! h.isTimeout) :=
        List.mem_filter.mpr ⟨member, by simpa using other⟩
      simp [alone] at left
    rw [all, completed] at timeouts
    exact ⟨[], timeouts⟩
  · exact Or.inl closed

end Steps

section Runs

variable {attempts : List (Connected × SessionAction)}
  {outcome : Except Fault Connected}

theorem run_consistent {s : Connected}
    (run : Run sessionStep start attempts (.ok s)) : Consistent s :=
  run.invariant Consistent start_consistent
    fun consistent taken => step_consistent consistent taken

theorem run_inTime {s : Connected}
    (run : Run sessionStep start attempts (.ok s))
    (prompt : Meets (fun s action => ¬ DeliversLate s action) attempts) :
    Consistent s ∧ InTime s := by
  apply run.invariant_of_meets _ (fun s => Consistent s ∧ InTime s)
    ⟨start_consistent, start_inTime⟩ ?_ prompt rfl
  intro s action next holds prompt taken
  exact ⟨step_consistent holds.1 taken,
    step_inTime holds.1 holds.2 prompt taken⟩

/-- A run with a late delivery is late from then on, or has failed. -/
theorem run_late (run : Run sessionStep start attempts outcome)
    {attempt : Connected × SessionAction} (member : attempt ∈ attempts)
    (delivers : DeliversLate attempt.1 attempt.2) :
    (∃ s, outcome = .ok s ∧ Late s) ∨
      outcome = .error (.raised .system) := by
  induction run with
  | start => simp at member
  | next earlier taken ih =>
      have consistent := run_consistent earlier
      rcases List.mem_append.mp member with before | last
      · rcases ih before with ⟨s, same, late⟩ | failed
        · rcases Except.ok.inj same with rfl
          exact step_late consistent late taken
        · simp at failed
      · rcases List.mem_singleton.mp last with rfl
        exact Or.inl (delivers.late consistent taken)

theorem answers_of_prompt (run : Run sessionStep start attempts outcome)
    (prompt : Meets (fun s action => ¬ DeliversLate s action) attempts) :
    Answers attempts outcome := by
  constructor
  · intro s visited awaits
    rcases run.visited_reached visited with ⟨earlier, later, split, reached⟩
    have inTime := (run_inTime reached (split ▸ prompt).of_append).2
    apply And.left
    apply inTime
    rcases awaits with ⟨cmd, serves⟩ | ⟨response, writes⟩
    · rw [serves]
      rfl
    · rw [writes]
      rfl
  · rintro rfl
    cases run with
    | next earlier taken =>
        rcases run_inTime earlier prompt.of_append with
          ⟨consistent, inTime⟩
        exact step_not_raised consistent inTime taken

end Runs

/--
If the timer is still waiting when the read handler delivers a command, the
socket stays open until the response has been written, and the write handler
does not raise.  Otherwise an exchange that comes to its end raises in the
write handler.
-/
theorem answers_iff_prompt
    {attempts : List (Connected × SessionAction)}
    {outcome : Except Fault Connected}
    (run : Run sessionStep start attempts outcome) :
    (Meets (fun s action => ¬ DeliversLate s action) attempts →
        Answers attempts outcome) ∧
      (Ended outcome →
        (Answers attempts outcome ↔
          Meets (fun s action => ¬ DeliversLate s action) attempts)) := by
  refine ⟨answers_of_prompt run, fun ended => ⟨?_, answers_of_prompt run⟩⟩
  intro answers attempt member delivers
  rcases run_late run member delivers with ⟨s, rfl, served, -⟩ | failed
  · have destroyed : s.phase = .destroyed := ended
    rw [destroyed] at served
    contradiction
  · exact answers.returns failed

/-- A client sends a ping, and shuts down its sending half. -/
def ping : List SessionAction :=
  (transmit [({} : Cmd).toString]).map .arrives

/-- The ping is read, and answered as soon as it has been delivered. -/
def promptPing : List SessionAction :=
  ping ++ [.run, .run, .responds .okResponse, .writeCompletes none, .run]

/-- The timer expires when the read has completed, before its handler runs. -/
def latePing : List SessionAction :=
  ping ++ [.timerExpires, .run, .run, .responds .okResponse]

/-- The answer to the ping is written to an open socket. -/
theorem ping_answered :
    ∃ s, execute sessionStep start promptPing = some s ∧
      Answers (attemptsOf sessionStep start promptPing) (.ok s) := by
  have setting : (execute sessionStep start promptPing).isSome = true ∧
      (attemptsOf sessionStep start promptPing).all (fun attempt =>
        match attempt.2, attempt.1.queue with
        | .run, .onRead _ _ :: _ => attempt.1.wait = .outstanding
        | _, _ => true) = true := by
    decide +kernel
  rcases Option.isSome_iff_exists.mp setting.1 with ⟨s, executed⟩
  refine ⟨s, executed, (answers_iff_prompt (.of_execute executed)).1 ?_⟩
  rintro attempt member ⟨err, received, queue, cmd, runs, queued, -, late⟩
  have facts := List.all_eq_true.mp setting.2 attempt member
  simp only [runs, queued] at facts
  exact late (of_decide_eq_true facts)

def faultOf : Except Fault Connected → Option Fault
  | .error fault => some fault
  | .ok _ => none

/--
The expired timer closes the connection of a client whose command has been
delivered, and answering it raises in the write handler.
-/
theorem late_ping_raises :
    ∃ attempts outcome, Run sessionStep start attempts outcome ∧
      ¬ Answers attempts outcome := by
  have setting : (execute sessionStep start latePing).any (fun s =>
      (sessionStep s .run).any fun result =>
        faultOf result = some (.raised .system)) = true := by
    decide +kernel
  rcases (Option.any_eq_true _ _).mp setting with ⟨s, executed, facts⟩
  rcases (Option.any_eq_true _ _).mp facts with ⟨result, taken, raises⟩
  refine ⟨_, result, (Run.of_execute executed).next taken, ?_⟩
  intro answers
  cases result with
  | ok next => simp [faultOf] at raises
  | error fault =>
      have raised : fault = .raised .system := by
        simpa [faultOf] using raises
      exact answers.returns (congrArg Except.error raised)

end KekMonitors.Session
