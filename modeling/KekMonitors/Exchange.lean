import KekMonitors.Client
import KekMonitors.Json.Terminated
import KekMonitors.Transition.Channel

/-!
# A request and the server that answers it

A client and the server run in two processes and share a stream in each
direction.  Either side may be slow, lose its timer's race, fail to read or to
write, or die at any time, and its stream then ends where its writing stopped.
The command that is served is nevertheless the one that was sent, and what the
client's callback gets is the response to it.
-/

namespace KekMonitors

open Json

/-! ## Parts of a message -/

/-- A message that was cut anywhere is rejected, whatever the padding. -/
theorem MessageCodec.fromString_cut {Message : Type}
    (codec : MessageCodec Message) (message : Message)
    {received rest : List Byte}
    (split : codec.toString message = received ++ rest) (cut : rest ≠ [])
    (padding : Nat) :
    codec.fromString (received ++ List.replicate padding 0) none =
      (codec.default, some .invalidArgument) := by
  rw [fromString, parse_cut (codec.toJson_isObject message) split cut]

/-- A read that ends well has the whole message, or reports an error. -/
theorem Connection.onRead_part {Message : Type}
    (codec : MessageCodec Message) (message : Message)
    {received : List Byte} (part : received <+: codec.toString message)
    {err : Option ErrorCode} (ended : err = none ∨ err = some .eof) :
    Connection.onRead codec err received =
      if received = codec.toString message then (none, message)
      else (some .invalidArgument, codec.default) := by
  rw [Connection.onRead, if_pos ended, Connection.buffer]
  by_cases whole : received = codec.toString message
  · rw [if_pos whole, whole, codec.fromString_padded]
  · rcases part with ⟨rest, split⟩
    have cut : rest ≠ [] := by
      rintro rfl
      exact whole (by rw [← split, List.append_nil])
    rw [if_neg whole, codec.fromString_cut message split.symm cut]

theorem MessageCodec.toString_ne_nil {Message : Type}
    (codec : MessageCodec Message) (message : Message) :
    codec.toString message ≠ [] := by
  have object := codec.toJson_isObject message
  unfold isObject at object
  split at object
  · rename_i members same
    rcases dump_object_head members with ⟨rest, shape⟩
    simp [toString, toBytes, same, shape]
  · simp at object

theorem MessageCodec.toString_injective {Message : Type}
    (codec : MessageCodec Message) {message other : Message}
    (same : codec.toString message = codec.toString other) :
    message = other := by
  have read := codec.fromString_padded message 0
  rw [same, codec.fromString_padded other 0] at read
  exact (Prod.mk.inj read).1.symm

namespace Exchange

open Client (Requester requestStep)
open Connection
open Session (Connected sessionStep)
open Transition

/-! ## The two sides -/

/-- The two sides and the streams between them. -/
structure Sides where
  client : Requester
  clientAlive : Bool
  /-- The stream of the command. -/
  up : Channel Byte
  server : Connected
  serverAlive : Bool
  /-- The stream of the response. -/
  down : Channel Byte

/-- The client writes a command to a server that reads one. -/
def start (cmd : Cmd) : Sides where
  client := Client.start
  clientAlive := true
  up := .writing cmd.toString
  server := Session.start
  serverAlive := true
  down := {}

/-- What can happen on one side. -/
inductive SideAction where
  | writes (count : Nat)
  | written (err : Option ErrorCode)
  | reads (count : Nat)
  /-- The read finds the end of the stream. -/
  | ends
  | fails (err : ErrorCode)
  | timerExpires
  | run
  | dies

inductive ExchangeAction where
  | client (action : SideAction)
  | server (action : SideAction)
  /-- The handler of the command calls back. -/
  | responds (response : Response)

/-- A read asks for no more than fits the buffer. -/
def room (received : List Byte) (count : Nat) : Nat :=
  min count (bufferSize - received.length)

/-- The client's end of the command's stream is still open. -/
def clientSends (s : Sides) : Bool :=
  s.clientAlive && s.client.isOpen && s.client.phase.isWriting

/-- The server's end of the response's stream is still open. -/
def serverSends (s : Sides) : Bool := s.serverAlive && s.server.isOpen

/-- A failure of the client ends the run. -/
def advanceClient (held : Bool) (action : Client.RequestAction)
    (s : Sides) : Option (Except Fault Sides) :=
  (requestStep held s.client action).map fun result =>
    result.map fun client => { s with client := client }

/-- A failure of the server ends its process. -/
def advanceServer (action : Session.SessionAction) (s : Sides) :
    Option (Except Fault Sides) :=
  (sessionStep s.server action).map fun
    | .ok server => .ok { s with server := server }
    | .error _ => .ok { s with serverAlive := false }

def clientStep (held : Bool) (s : Sides) :
    SideAction → Option (Except Fault Sides)
  | .writes count =>
      match s.client.phase with
      | .writing => some (.ok { s with up := s.up.send count })
      | _ => none
  | .written none =>
      if s.up.unwritten = [] then
        advanceClient held (.writeCompletes none) s
      else none
  | .written (some err) =>
      advanceClient held (.writeCompletes (some err)) s
  | .reads count =>
      match s.client.phase with
      | .reading received =>
          let (chunk, down) := s.down.receive (room received count)
          advanceClient held (.arrives (.data chunk)) { s with down := down }
      | _ => none
  | .ends =>
      if s.down.inFlight = [] ∧ serverSends s = false then
        advanceClient held (.arrives .eof) s
      else none
  | .fails err =>
      if err ≠ .eof then advanceClient held (.arrives (.failed err)) s
      else none
  | .timerExpires => advanceClient held .timerExpires s
  | .run => advanceClient held .run s
  | .dies => some (.ok { s with clientAlive := false })

def serverStep (s : Sides) :
    SideAction → Option (Except Fault Sides)
  | .writes count =>
      match s.server.phase with
      | .writing _ => some (.ok { s with down := s.down.send count })
      | _ => none
  | .written none =>
      if s.down.unwritten = [] then advanceServer (.writeCompletes none) s
      else none
  | .written (some err) => advanceServer (.writeCompletes (some err)) s
  | .reads count =>
      match s.server.phase with
      | .reading received =>
          let (chunk, up) := s.up.receive (room received count)
          advanceServer (.arrives (.data chunk)) { s with up := up }
      | _ => none
  | .ends =>
      if s.up.inFlight = [] ∧ clientSends s = false then
        advanceServer (.arrives .eof) s
      else none
  | .fails err =>
      if err ≠ .eof then advanceServer (.arrives (.failed err)) s else none
  | .timerExpires => advanceServer .timerExpires s
  | .run => advanceServer .run s
  | .dies => some (.ok { s with serverAlive := false })

/-- A side that has died does nothing more. -/
def exchangeStep (held : Bool) :
    StepFunction Sides ExchangeAction Fault
  | s, .client action =>
      if s.clientAlive then clientStep held s action else none
  | s, .server action => if s.serverAlive then serverStep s action else none
  | s, .responds response =>
      if s.serverAlive then
        advanceServer (.responds response)
          { s with down := .writing response.toString }
      else none

/-! ## What is read of the command and of the response -/

/-- What the server has of the command. -/
def CommandRead (cmd : Cmd) (up : Channel Byte) : Session.Phase → Prop
  | .reading received => up.Carries received cmd.toString
  | .read err received =>
      err = none ∨ err = some .eof → received <+: cmd.toString
  | .serving other => other = cmd
  | _ => True

/-- What the client has of a text that the server writes. -/
def ResponseRead (text : List Byte) (down : Channel Byte) :
    Client.Phase → Prop
  | .writing | .written _ => down.Carries [] text
  | .reading received => down.Carries received text
  | .read err received =>
      err = none ∨ err = some .eof → received <+: text
  | .finished => True

/-- No response has been given yet. -/
def unanswered : Session.Phase → Bool
  | .reading _ | .read _ _ | .serving _ => true
  | _ => false

section Server

variable {cmd : Cmd} {up : Channel Byte} {s next : Connected}

theorem readSome_command {received : List Byte} {event : StreamEvent}
    {after : Channel Byte} (carries : up.Carries received cmd.toString)
    (arrives : Session.readSome received s event = some next)
    (delivered : ∀ chunk, event = .data chunk →
      after.Carries (received ++ chunk) cmd.toString)
    (failed : ∀ err, event = .failed err → err ≠ .eof) :
    CommandRead cmd after next.phase := by
  cases event with
  | data chunk =>
      rcases Option.some.inj arrives with rfl
      have carried := delivered chunk rfl
      split
      · intro _
        exact (List.take_prefix _ _).trans carried.isPrefix
      · rename_i short
        have all : (received ++ chunk).take bufferSize =
            received ++ chunk := by
          apply List.take_of_length_le
          rw [List.length_take] at short
          omega
        change after.Carries _ _
        rw [all]
        exact carried
  | eof =>
      rcases Option.some.inj arrives with rfl
      exact fun _ => carries.isPrefix
  | failed err =>
      rcases Option.some.inj arrives with rfl
      rintro (none | eof)
      · simp at none
      · exact absurd (Option.some.inj eof) (failed err rfl)
  | timeout => simp [Session.readSome] at arrives

/-- Whatever the server does but read keeps what it has read. -/
theorem sessionStep_command {action : Session.SessionAction}
    (consistent : Session.Consistent s)
    (read : CommandRead cmd up s.phase)
    (other : ∀ event, action ≠ .arrives event)
    (taken : sessionStep s action = some (.ok next)) :
    CommandRead cmd up next.phase := by
  cases Session.sessionStep_taken taken with
  | timerExpires outstanding => exact read
  | arrives reads arrives => exact absurd rfl (other _)
  | responds response serves =>
      unfold Session.asyncWriteResponse
      split <;> trivial
  | writeCompletes err writes => trivial
  | @run handler queue outcome queued ran =>
      cases handler with
      | onTimeout err =>
          cases err with
          | some err =>
              rcases Except.ok.inj ran with rfl
              exact read
          | none =>
              simp only [Session.runHandler, Session.onTimeout.eq_def] at ran
              cases works : s.phase <;> simp only [works] at ran read
              case destroyed => simp at ran
              all_goals
                rcases Except.ok.inj ran with rfl
                first
                  | trivial
                  | exact read
                  | (rintro (none | eof) <;> simp at *)
      | onRead err received =>
          rcases Except.ok.inj ran with rfl
          have reads := Session.handlers_eq_onRead
            (consistent.completion_front queued rfl).1
          rw [reads] at read
          rw [Session.onRead_eq]
          split
          · trivial
          · rename_i decoded
            have ended : err = none ∨ err = some .eof := by
              by_contra failed
              rw [Connection.onRead, if_neg failed] at decoded
              exact failed (Or.inl (Prod.mk.inj decoded).1)
            rw [Connection.onRead_part Cmd.codec cmd (read ended) ended]
              at decoded
            split at decoded
            · exact (Prod.mk.inj decoded).2.symm
            · simp at decoded
      | onWrite err =>
          simp only [Session.runHandler, Session.onWrite] at ran
          split at ran
          · rcases Except.ok.inj ran with rfl
            trivial
          · simp at ran

end Server

section Client

variable {held : Bool} {text : List Byte} {down : Channel Byte}
  {s next : Requester}

theorem readSome_response {received : List Byte} {event : StreamEvent}
    {after : Channel Byte} (carries : down.Carries received text)
    (arrives : Client.readSome received s event = some next)
    (delivered : ∀ chunk, event = .data chunk →
      after.Carries (received ++ chunk) text)
    (failed : ∀ err, event = .failed err → err ≠ .eof) :
    ResponseRead text after next.phase ∧ next.called = s.called := by
  cases event with
  | data chunk =>
      rcases Option.some.inj arrives with rfl
      have carried := delivered chunk rfl
      split
      · exact ⟨fun _ => (List.take_prefix _ _).trans carried.isPrefix, rfl⟩
      · rename_i short
        have all : (received ++ chunk).take bufferSize =
            received ++ chunk := by
          apply List.take_of_length_le
          rw [List.length_take] at short
          omega
        refine ⟨?_, rfl⟩
        change after.Carries _ _
        rw [all]
        exact carried
  | eof =>
      rcases Option.some.inj arrives with rfl
      exact ⟨fun _ => carries.isPrefix, rfl⟩
  | failed err =>
      rcases Option.some.inj arrives with rfl
      refine ⟨?_, rfl⟩
      rintro (none | eof)
      · simp at none
      · exact absurd (Option.some.inj eof) (failed err rfl)
  | timeout => simp [Client.readSome] at arrives

theorem finish_frame (held : Bool) (call : Client.Call) (s : Requester) :
    (Client.finish held call s).phase = .finished ∧
      (Client.finish held call s).called = s.called ++ [call] := by
  unfold Client.finish Client.release
  split
  · exact ⟨rfl, rfl⟩
  · rcases Client.cancel_frame
      { s with
        phase := .finished
        called := s.called ++ [call] } with ⟨phase, called, -, -⟩
    exact ⟨phase, called⟩

/-- The callback of a read gets a whole response, or an error. -/
theorem callOf_onRead {err : Option ErrorCode} {received : List Byte}
    {response : Response}
    (read : err = none ∨ err = some .eof → received <+: text)
    (called : Client.callOf
      (Connection.onRead Response.codec err received) = .ok response)
    (written : text = [] ∨ ∃ other : Response, text = other.toString) :
    text = response.toString := by
  have ended : err = none ∨ err = some .eof := by
    by_contra failed
    rw [Connection.onRead, if_neg failed] at called
    cases err with
    | none => exact failed (Or.inl rfl)
    | some err => simp [Client.callOf] at called
  have part := read ended
  have given : ∃ other : Response, received <+: other.toString ∧
      (received = other.toString → text = other.toString) := by
    rcases written with rfl | ⟨other, rfl⟩
    · refine ⟨{}, ?_, ?_⟩
      · rw [List.prefix_nil.mp part]
        exact List.nil_prefix
      · rw [List.prefix_nil.mp part]
        exact id
    · exact ⟨other, part, fun _ => rfl⟩
  rcases given with ⟨other, part, whole⟩
  rw [Connection.onRead_part Response.codec other part ended] at called
  split at called
  · rename_i all
    rcases Except.ok.inj called with rfl
    exact whole all
  · simp [Client.callOf] at called

/-- The last call reports the text of the response, or an error. -/
theorem finish_response {call : Client.Call} {t : Requester}
    (before : t.called = s.called)
    (reports : ∀ response, call = .ok response → text = response.toString) :
    ResponseRead text down (Client.finish held call t).phase ∧
      ∀ response, .ok response ∈ (Client.finish held call t).called →
        .ok response ∈ s.called ∨ text = response.toString := by
  rcases finish_frame held call t with ⟨phase, called⟩
  rw [phase, called, before]
  refine ⟨trivial, fun response member => ?_⟩
  rcases List.mem_append.mp member with old | new
  · exact Or.inl old
  · exact Or.inr (reports response (List.mem_singleton.mp new).symm)

/-- Whatever the client does but read keeps what it has read. -/
theorem requestStep_response {action : Client.RequestAction}
    (consistent : Client.Consistent s)
    (read : ResponseRead text down s.phase)
    (written : text = [] ∨ ∃ other : Response, text = other.toString)
    (other : ∀ event, action ≠ .arrives event)
    (taken : requestStep held s action = some (.ok next)) :
    ResponseRead text down next.phase ∧
      ∀ response, .ok response ∈ next.called →
        .ok response ∈ s.called ∨ text = response.toString := by
  cases Client.requestStep_taken taken with
  | timerExpires outstanding => exact ⟨read, fun _ => Or.inl⟩
  | arrives reads arrives => exact absurd rfl (other _)
  | writeCompletes err writes =>
      rw [writes] at read
      exact ⟨read, fun _ => Or.inl⟩
  | @run handler queue outcome queued ran =>
      cases handler with
      | onTimeout err =>
          cases err with
          | some err =>
              rcases Except.ok.inj ran with rfl
              exact ⟨read, fun _ => Or.inl⟩
          | none =>
              simp only [Client.runHandler, Client.onTimeout] at ran
              split at ran
              · simp at ran
              · rcases Except.ok.inj ran with rfl
                unfold Client.close
                dsimp only
                cases works : s.phase with
                | reading received =>
                    refine ⟨?_, fun _ => Or.inl⟩
                    rintro (none | eof) <;> simp at *
                | _ =>
                    rw [works] at read
                    exact ⟨read, fun _ => Or.inl⟩
      | onWrite err =>
          have writes := Client.handlers_eq_onWrite
            (consistent.completion_front queued rfl).1
          rw [writes] at read
          simp only [Client.runHandler, Client.onWrite] at ran
          split at ran
          · cases err with
            | none =>
                rcases Except.ok.inj ran with rfl
                exact ⟨read, fun _ => Or.inl⟩
            | some err =>
                rcases Except.ok.inj ran with rfl
                exact finish_response rfl (by simp)
          · simp at ran
      | onRead err received =>
          rcases Except.ok.inj ran with rfl
          have reads := Client.handlers_eq_onRead
            (consistent.completion_front queued rfl).1
          rw [reads] at read
          have reports : ∀ response : Response,
              Client.callOf (Connection.onRead Response.codec err received) =
                .ok response → text = response.toString :=
            fun response same => callOf_onRead read same written
          unfold Client.onRead
          dsimp only
          split
          · exact finish_response
              (Client.cancel_frame { s with queue }).2.1 reports
          · exact finish_response rfl reports

end Client

/-! ## Whole exchanges -/

/-- The server's handler has answered the command with this response. -/
def Responded (cmd : Cmd) (attempts : List (Sides × ExchangeAction))
    (response : Response) : Prop :=
  ∃ attempt ∈ attempts, attempt.2 = .responds response ∧
    attempt.1.server.phase = .serving cmd

theorem Responded.mono {cmd : Cmd}
    {attempts : List (Sides × ExchangeAction)} {response : Response}
    (responded : Responded cmd attempts response)
    (attempt : Sides × ExchangeAction) :
    Responded cmd (attempts ++ [attempt]) response := by
  rcases responded with ⟨earlier, member, facts⟩
  exact ⟨earlier, List.mem_append_left _ member, facts⟩

/-- What the response's stream is for. -/
structure Answering (cmd : Cmd) (attempts : List (Sides × ExchangeAction))
    (s : Sides) (text : List Byte) : Prop where
  written : text = [] ∨
    ∃ response, Responded cmd attempts response ∧ text = response.toString
  unanswered : unanswered s.server.phase = true → text = []
  read : ResponseRead text s.down s.client.phase

structure Delivering (cmd : Cmd) (attempts : List (Sides × ExchangeAction))
    (s : Sides) : Prop where
  client : Client.Consistent s.client
  server : Session.Consistent s.server
  command : CommandRead cmd s.up s.server.phase
  answering : ∃ text, Answering cmd attempts s text
  called : ∀ response, .ok response ∈ s.client.called →
    Responded cmd attempts response

theorem start_delivering (cmd : Cmd) : Delivering cmd [] (start cmd) where
  client := Client.start_consistent
  server := Session.start_consistent
  command := rfl
  answering := ⟨[], Or.inl rfl, fun _ => rfl, rfl⟩
  called := fun response member => by simp [start, Client.start] at member

section Steps

variable {held : Bool} {cmd : Cmd}
  {attempts : List (Sides × ExchangeAction)} {s next : Sides}

theorem Answering.mono {text : List Byte}
    (answering : Answering cmd attempts s text)
    (attempt : Sides × ExchangeAction) :
    Answering cmd (attempts ++ [attempt]) s text where
  written := by
    rcases answering.written with empty | ⟨response, responded, same⟩
    · exact Or.inl empty
    · exact Or.inr ⟨response, responded.mono attempt, same⟩
  unanswered := answering.unanswered
  read := answering.read

theorem Delivering.mono (delivering : Delivering cmd attempts s)
    (attempt : Sides × ExchangeAction) :
    Delivering cmd (attempts ++ [attempt]) s where
  client := delivering.client
  server := delivering.server
  command := delivering.command
  answering := by
    rcases delivering.answering with ⟨text, answering⟩
    exact ⟨text, answering.mono attempt⟩
  called := fun response member =>
    (delivering.called response member).mono attempt

theorem ResponseRead.of_carries {text : List Byte}
    {down after : Channel Byte} {phase : Client.Phase}
    (read : ResponseRead text down phase)
    (carries : ∀ received, down.Carries received text →
      after.Carries received text) : ResponseRead text after phase := by
  cases phase with
  | read err received => exact read
  | finished => trivial
  | _ => exact carries _ read

theorem CommandRead.of_carries {up after : Channel Byte}
    {phase : Session.Phase} (read : CommandRead cmd up phase)
    (carries : ∀ received, up.Carries received cmd.toString →
      after.Carries received cmd.toString) :
    CommandRead cmd after phase := by
  cases phase with
  | reading received => exact carries _ read
  | read err received => exact read
  | serving other => exact read
  | _ => trivial

theorem advanceClient_eq_some {action : Client.RequestAction}
    (taken : advanceClient held action s = some (.ok next)) :
    ∃ client, requestStep held s.client action = some (.ok client) ∧
      next = { s with client := client } := by
  rcases Option.map_eq_some_iff.mp taken with ⟨result, stepped, same⟩
  cases result with
  | error fault => simp [Except.map] at same
  | ok client => exact ⟨client, stepped, (Except.ok.inj same).symm⟩

/-- A step of the client that reads nothing. -/
theorem advanceClient_delivering {action : Client.RequestAction}
    (delivering : Delivering cmd attempts s)
    (other : ∀ event, action ≠ .arrives event)
    (taken : advanceClient held action s = some (.ok next)) :
    Delivering cmd attempts next := by
  rcases advanceClient_eq_some taken with ⟨client, stepped, rfl⟩
  rcases delivering.answering with ⟨text, answering⟩
  have written : text = [] ∨ ∃ other : Response, text = other.toString :=
    answering.written.imp_right fun ⟨response, _, same⟩ => ⟨response, same⟩
  rcases requestStep_response delivering.client answering.read written other
    stepped with ⟨read, called⟩
  refine
    { client := Client.step_consistent delivering.client stepped
      server := delivering.server
      command := delivering.command
      answering :=
        ⟨text, answering.written, answering.unanswered, read⟩
      called := fun response member => ?_ }
  rcases called response member with old | same
  · exact delivering.called response old
  · rcases answering.written with empty | ⟨given, responded, given'⟩
    · exact absurd (same.symm.trans empty)
        (Response.codec.toString_ne_nil response)
    · have equal := Response.codec.toString_injective
        (given'.symm.trans same)
      exact equal ▸ responded

/-- A step of the client that reads. -/
theorem arrives_delivering {event : StreamEvent} {received : List Byte}
    (down : Channel Byte) (delivering : Delivering cmd attempts s)
    (reads : s.client.phase = .reading received)
    (delivered : ∀ chunk, event = .data chunk → ∀ text,
      s.down.Carries received text → down.Carries (received ++ chunk) text)
    (failed : ∀ err, event = .failed err → err ≠ .eof)
    (taken : advanceClient held (.arrives event) { s with down := down } =
      some (.ok next)) :
    Delivering cmd attempts next := by
  rcases advanceClient_eq_some taken with ⟨client, stepped, rfl⟩
  rcases delivering.answering with ⟨text, answering⟩
  have read := answering.read
  rw [reads] at read
  have arrives : Client.readSome received s.client event = some client := by
    simp only [requestStep, reads] at stepped
    rcases Option.map_eq_some_iff.mp stepped with ⟨other, arrives, same⟩
    rcases Except.ok.inj same with rfl
    exact arrives
  rcases readSome_response read arrives
    (fun chunk same => delivered chunk same text read) failed with
      ⟨after, called⟩
  exact
    { client := Client.step_consistent delivering.client stepped
      server := delivering.server
      command := delivering.command
      answering := ⟨text, answering.written, answering.unanswered, after⟩
      called := fun response member =>
        delivering.called response (called ▸ member) }

theorem clientStep_delivering {action : SideAction}
    (delivering : Delivering cmd attempts s)
    (taken : clientStep held s action = some (.ok next)) :
    Delivering cmd attempts next := by
  cases action with
  | writes count =>
      simp only [clientStep] at taken
      split at taken
      · rcases Except.ok.inj (Option.some.inj taken) with rfl
        exact
          { delivering with
            command := delivering.command.of_carries
              fun _ carries => carries.send count
            answering := delivering.answering.imp fun text answering =>
              ⟨answering.written, answering.unanswered, answering.read⟩ }
      · simp at taken
  | written err =>
      cases err with
      | none =>
          simp only [clientStep] at taken
          split at taken
          · exact advanceClient_delivering delivering (by simp) taken
          · simp at taken
      | some err => exact advanceClient_delivering delivering (by simp) taken
  | reads count =>
      simp only [clientStep] at taken
      split at taken
      · rename_i received reads
        refine arrives_delivering _ delivering reads ?_ (by simp) taken
        intro chunk same text carries
        rcases StreamEvent.data.inj same with rfl
        exact carries.receive _
      · simp at taken
  | ends =>
      simp only [clientStep] at taken
      split at taken
      · cases reads : s.client.phase with
        | reading received =>
            exact arrives_delivering s.down delivering reads
              (by simp) (by simp) taken
        | _ => simp [advanceClient, requestStep, reads] at taken
      · simp at taken
  | fails err =>
      simp only [clientStep] at taken
      split at taken
      · rename_i other
        cases reads : s.client.phase with
        | reading received =>
            refine arrives_delivering s.down delivering reads
              (by simp) ?_ taken
            rintro _ same
            rcases StreamEvent.failed.inj same with rfl
            exact other
        | _ => simp [advanceClient, requestStep, reads] at taken
      · simp at taken
  | timerExpires => exact advanceClient_delivering delivering (by simp) taken
  | run => exact advanceClient_delivering delivering (by simp) taken
  | dies =>
      rcases Except.ok.inj (Option.some.inj taken) with rfl
      exact
        { delivering with
          answering := delivering.answering.imp fun text answering =>
            ⟨answering.written, answering.unanswered, answering.read⟩ }

/-- A step of the server, or its end. -/
theorem advanceServer_cases {action : Session.SessionAction}
    (taken : advanceServer action s = some (.ok next)) :
    (∃ server, sessionStep s.server action = some (.ok server) ∧
        next = { s with server := server }) ∨
      next = { s with serverAlive := false } := by
  rcases Option.map_eq_some_iff.mp taken with ⟨result, stepped, same⟩
  cases result with
  | ok server =>
      exact Or.inl ⟨server, stepped, (Except.ok.inj same).symm⟩
  | error fault => exact Or.inr (Except.ok.inj same).symm

/-- A process that has ended delivers nothing else. -/
theorem Delivering.dead (delivering : Delivering cmd attempts s) :
    Delivering cmd attempts { s with serverAlive := false } :=
  { delivering with
    answering := delivering.answering.imp fun _ answering =>
      ⟨answering.written, answering.unanswered, answering.read⟩ }

/-- A server that has answered does not go back to its command. -/
theorem sessionStep_answered {before after : Connected}
    {action : Session.SessionAction}
    (consistent : Session.Consistent before)
    (taken : sessionStep before action = some (.ok after))
    (fresh : unanswered after.phase = true) :
    unanswered before.phase = true := by
  cases Session.sessionStep_taken taken with
  | timerExpires outstanding => exact fresh
  | arrives reads arrives =>
      rw [reads]
      rfl
  | responds response serves =>
      rw [serves]
      rfl
  | writeCompletes err writes => simp [Session.writeCompletes,
      unanswered] at fresh
  | @run handler queue outcome queued ran =>
      cases handler with
      | onTimeout err =>
          cases err with
          | some err =>
              rcases Except.ok.inj ran with rfl
              exact fresh
          | none =>
              simp only [Session.runHandler, Session.onTimeout.eq_def] at ran
              cases works : before.phase <;> simp only [works] at ran
              case writing =>
                rcases Except.ok.inj ran with rfl
                simp [Session.close, Session.writeCompletes,
                  unanswered] at fresh
              case answered =>
                rcases Except.ok.inj ran with rfl
                simp [Session.close, unanswered] at fresh
              case destroyed => simp at ran
              all_goals rfl
      | onRead err received =>
          have reads := Session.handlers_eq_onRead
            (consistent.completion_front queued rfl).1
          rw [reads]
          rfl
      | onWrite err =>
          simp only [Session.runHandler, Session.onWrite] at ran
          split at ran
          · rcases Except.ok.inj ran with rfl
            simp [Session.destroy, unanswered] at fresh
          · simp at ran

/-- A step of the server that reads nothing and answers nothing. -/
theorem advanceServer_delivering {action : Session.SessionAction}
    (delivering : Delivering cmd attempts s)
    (other : ∀ event, action ≠ .arrives event)
    (taken : advanceServer action s = some (.ok next)) :
    Delivering cmd attempts next := by
  rcases advanceServer_cases taken with ⟨server, stepped, rfl⟩ | rfl
  · exact
      { delivering with
        server := Session.step_consistent delivering.server stepped
        command := sessionStep_command delivering.server delivering.command
          other stepped
        answering := delivering.answering.imp fun _ answering =>
          ⟨answering.written, fun fresh => answering.unanswered
            (sessionStep_answered delivering.server stepped fresh),
              answering.read⟩ }
  · exact delivering.dead

/-- A step of the server that reads. -/
theorem arrives_command {event : StreamEvent} {received : List Byte}
    (up : Channel Byte) (delivering : Delivering cmd attempts s)
    (reads : s.server.phase = .reading received)
    (delivered : ∀ chunk, event = .data chunk →
      s.up.Carries received cmd.toString →
        up.Carries (received ++ chunk) cmd.toString)
    (failed : ∀ err, event = .failed err → err ≠ .eof)
    (taken : advanceServer (.arrives event) { s with up := up } =
      some (.ok next)) :
    Delivering cmd attempts next := by
  have read := delivering.command
  rw [reads] at read
  have fresh : unanswered s.server.phase = true := by
    rw [reads]
    rfl
  rcases Option.map_eq_some_iff.mp taken with ⟨result, stepped, same⟩
  simp only [sessionStep, reads] at stepped
  rcases Option.map_eq_some_iff.mp stepped with ⟨server, arrives, rfl⟩
  rcases Except.ok.inj same with rfl
  have stepped : sessionStep s.server (.arrives event) =
      some (.ok server) := by
    simp [sessionStep, reads, arrives]
  exact
    { delivering with
      server := Session.step_consistent delivering.server stepped
      command := readSome_command read arrives
        (fun chunk same => delivered chunk same read) failed
      answering := delivering.answering.imp fun text answering =>
        ⟨answering.written, fun _ => answering.unanswered fresh,
          answering.read⟩ }

theorem serverStep_delivering {action : SideAction}
    (delivering : Delivering cmd attempts s)
    (taken : serverStep s action = some (.ok next)) :
    Delivering cmd attempts next := by
  cases action with
  | writes count =>
      simp only [serverStep] at taken
      split at taken
      · rcases Except.ok.inj (Option.some.inj taken) with rfl
        exact
          { delivering with
            answering := delivering.answering.imp fun text answering =>
              ⟨answering.written, answering.unanswered,
                answering.read.of_carries
                  fun _ carries => carries.send count⟩ }
      · simp at taken
  | written err =>
      cases err with
      | none =>
          simp only [serverStep] at taken
          split at taken
          · exact advanceServer_delivering delivering (by simp) taken
          · simp at taken
      | some err => exact advanceServer_delivering delivering (by simp) taken
  | reads count =>
      simp only [serverStep] at taken
      split at taken
      · rename_i received reads
        refine arrives_command _ delivering reads ?_ (by simp) taken
        intro chunk same carries
        rcases StreamEvent.data.inj same with rfl
        exact carries.receive _
      · simp at taken
  | ends =>
      simp only [serverStep] at taken
      split at taken
      · cases reads : s.server.phase with
        | reading received =>
            exact arrives_command s.up delivering reads (by simp)
              (by simp) taken
        | _ => simp [advanceServer, sessionStep, reads] at taken
      · simp at taken
  | fails err =>
      simp only [serverStep] at taken
      split at taken
      · rename_i other
        cases reads : s.server.phase with
        | reading received =>
            refine arrives_command s.up delivering reads (by simp) ?_
              taken
            rintro _ same
            rcases StreamEvent.failed.inj same with rfl
            exact other
        | _ => simp [advanceServer, sessionStep, reads] at taken
      · simp at taken
  | timerExpires => exact advanceServer_delivering delivering (by simp) taken
  | run => exact advanceServer_delivering delivering (by simp) taken
  | dies =>
      rcases Except.ok.inj (Option.some.inj taken) with rfl
      exact delivering.dead

/-- What has been read of no text is read of every text. -/
theorem ResponseRead.restart {down : Channel Byte} {phase : Client.Phase}
    (read : ResponseRead [] down phase) (text : List Byte) :
    ResponseRead text (.writing text) phase := by
  cases phase with
  | reading received =>
      have nothing : received = [] := List.prefix_nil.mp read.isPrefix
      rw [nothing]
      exact Channel.carries_writing text
  | read err received =>
      intro ended
      rw [List.prefix_nil.mp (read ended)]
      exact List.nil_prefix
  | finished => trivial
  | _ => exact Channel.carries_writing text

theorem responds_delivering {response : Response}
    (delivering : Delivering cmd attempts s)
    (taken : advanceServer (.responds response)
      { s with down := .writing response.toString } = some (.ok next)) :
    Delivering cmd (attempts ++ [(s, .responds response)]) next := by
  have command := delivering.command
  rcases Option.map_eq_some_iff.mp taken with ⟨result, stepped, same⟩
  have serves : s.server.phase = .serving cmd := by
    cases works : s.server.phase with
    | serving other =>
        rw [works] at command
        rw [command]
    | _ => simp [sessionStep, works] at stepped
  have responded : Responded cmd (attempts ++ [(s, .responds response)])
      response := ⟨(s, .responds response), by simp, rfl, serves⟩
  simp only [sessionStep, serves] at stepped
  rcases Option.some.inj stepped with rfl
  rcases Except.ok.inj same with rfl
  have stepped : sessionStep s.server (.responds response) =
      some (.ok (Session.asyncWriteResponse response s.server)) := by
    simp [sessionStep, serves]
  rcases delivering.answering with ⟨_, answering⟩
  have empty := answering.unanswered (by rw [serves]; rfl)
  subst empty
  have later := delivering.mono (s, .responds response)
  exact
    { later with
      server := Session.step_consistent delivering.server stepped
      command := sessionStep_command delivering.server command (by simp) stepped
      answering := ⟨response.toString, Or.inr ⟨response, responded, rfl⟩,
        fun fresh => by
          unfold Session.asyncWriteResponse at fresh
          split at fresh <;> simp [Session.writeCompletes,
            unanswered] at fresh,
        answering.read.restart _⟩ }

theorem step_delivering {action : ExchangeAction}
    (delivering : Delivering cmd attempts s)
    (taken : exchangeStep held s action = some (.ok next)) :
    Delivering cmd (attempts ++ [(s, action)]) next := by
  cases action with
  | client action =>
      simp only [exchangeStep] at taken
      split at taken
      · exact clientStep_delivering (delivering.mono _) taken
      · simp at taken
  | server action =>
      simp only [exchangeStep] at taken
      split at taken
      · exact serverStep_delivering (delivering.mono _) taken
      · simp at taken
  | responds response =>
      simp only [exchangeStep] at taken
      split at taken
      · exact responds_delivering delivering taken
      · simp at taken

end Steps

section Runs

variable {held : Bool} {cmd : Cmd}
  {attempts : List (Sides × ExchangeAction)} {s : Sides}

theorem run_delivering
    (run : Run (exchangeStep held) (start cmd) attempts (.ok s)) :
    Delivering cmd attempts s := by
  generalize finished : Except.ok s = outcome at run
  induction run generalizing s with
  | start =>
      rcases Except.ok.inj finished with rfl
      exact start_delivering cmd
  | next earlier taken ih =>
      subst finished
      exact step_delivering (ih rfl) taken

/--
However the two sides are interleaved and whatever fails, the server's handler
gets the command that was sent, the client's callback gets the response that
this handler gave to it, and it is called at most once.
-/
theorem exchange_delivers
    (run : Run (exchangeStep held) (start cmd) attempts (.ok s)) :
    (∀ other, s.server.phase = .serving other → other = cmd) ∧
      (∀ response, .ok response ∈ s.client.called →
        Responded cmd attempts response) ∧
      s.client.called.length ≤ 1 := by
  have delivering := run_delivering run
  refine ⟨?_, delivering.called, ?_⟩
  · intro other serves
    have command := delivering.command
    rw [serves] at command
    exact command
  · rw [delivering.client.calls]
    split <;> simp

end Runs

/-! ## A ping -/

/-- The whole command is written and read, and so is the response. -/
def pingExchange : List ExchangeAction :=
  [.client (.writes bufferSize), .client (.written none), .client .run,
    .server (.reads bufferSize), .server .ends, .server .run,
    .responds .okResponse, .server (.writes bufferSize),
    .server (.written none), .server .run, .server .run,
    .client (.reads bufferSize), .client .ends, .client .run]

def isFinished (s : Sides) : Bool :=
  match s.client.phase with
  | .finished => true
  | _ => false

/-- The client of a ping gets the response to it. -/
theorem ping_delivered :
    ∃ s, execute (exchangeStep false) (start {}) pingExchange = some s ∧
      ∃ response, s.client.called = [.ok response] ∧
        Responded {} (attemptsOf (exchangeStep false) (start {})
          pingExchange) response := by
  have setting : (execute (exchangeStep false) (start {})
      pingExchange).any (fun s =>
        s.client.called.length = 1 ∧
          s.client.called.all fun call => call.toOption.isSome) = true := by
    decide +kernel
  rcases (Option.any_eq_true _ _).mp setting with ⟨s, executed, facts⟩
  rcases of_decide_eq_true facts with ⟨one, ok⟩
  rcases List.length_eq_one_iff.mp one with ⟨call, called⟩
  cases call with
  | error err => simp [called, Except.toOption] at ok
  | ok response =>
      refine ⟨s, executed, response, called, ?_⟩
      exact (exchange_delivers (.of_execute executed)).2.1 response
        (by simp [called])

end Exchange

end KekMonitors
