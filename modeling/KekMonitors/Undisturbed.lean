import KekMonitors.Exchange

/-!
# Exchanges that nothing disturbs

If no timer expires, no read or write fails and neither side dies, the client
is told how its request went by the lengths of the two messages alone.
-/

namespace KekMonitors.Exchange

open Client (Requester requestStep)
open Connection
open Json
open Session (Connected sessionStep)
open Transition

/-- Nothing fails, and no timer expires. -/
def Calm : ExchangeAction → Prop
  | .client action | .server action =>
      match action with
      | .written (some _) | .fails _ | .timerExpires | .dies => False
      | _ => True
  | .responds _ => True

/-- The text fits the buffer of its reader. -/
def Fits (text : List Byte) : Prop := text.length ≤ bufferSize

instance (text : List Byte) : Decidable (Fits text) :=
  inferInstanceAs (Decidable (_ ≤ _))

/-- A read of a text has filled the buffer, or found the end of the text. -/
structure Completes (err : Option ErrorCode) (received text : List Byte) :
    Prop where
  part : received <+: text
  ended : err = none ∧ received.length = bufferSize ∨
    err = some .eof ∧ received = text ∧ text.length < bufferSize

theorem Completes.whole_iff {err : Option ErrorCode}
    {received text : List Byte} (completes : Completes err received text) :
    received = text ↔ Fits text := by
  unfold Fits
  rcases completes.ended with ⟨-, full⟩ | ⟨-, whole, short⟩
  · constructor
    · rintro rfl
      exact full.le
    · intro fits
      exact completes.part.eq_of_length_le (by omega)
  · exact iff_of_true whole short.le

/-- A completed read decodes the message exactly if its text fits. -/
theorem Completes.onRead_eq {Message : Type} {codec : MessageCodec Message}
    {message : Message} {err : Option ErrorCode} {received : List Byte}
    (completes : Completes err received (codec.toString message)) :
    Connection.onRead codec err received =
      if Fits (codec.toString message) then (none, message)
      else (some .invalidArgument, codec.default) := by
  have ended : err = none ∨ err = some .eof :=
    completes.ended.imp And.left And.left
  rw [Connection.onRead_part codec message completes.part ended]
  exact if_congr completes.whole_iff rfl rfl

/-- The text that the server writes. -/
def textOf (answer : Option Response) : List Byte :=
  match answer with
  | none => []
  | some response => response.toString

/-- What the client is told. -/
def verdict : Option Response → Client.Call
  | none => .error .invalidArgument
  | some response =>
      if Fits response.toString then .ok response
      else .error .invalidArgument

theorem callOf_completes {answer : Option Response}
    {err : Option ErrorCode} {received : List Byte}
    (completes : Completes err received (textOf answer)) :
    Client.callOf (Connection.onRead Response.codec err received) =
      verdict answer := by
  cases answer with
  | some response =>
      change Completes err received (Response.codec.toString response)
        at completes
      have read := completes.onRead_eq
      rw [read, verdict]
      change _ = if Fits (Response.codec.toString response) then _ else _
      split <;> rfl
  | none =>
      have empty : received = [] := List.prefix_nil.mp completes.part
      subst empty
      have ended : err = none ∨ err = some .eof :=
        completes.ended.imp And.left And.left
      rw [Connection.onRead_part Response.codec {} List.nil_prefix ended,
        if_neg (Response.codec.toString_ne_nil {}).symm]
      rfl

/-- The server while nothing is disturbed. -/
def ServerCalm (cmd : Cmd) (answer : Option Response) (s : Sides) : Prop :=
  match s.server.phase with
  | .reading received =>
      s.server.isOpen = true ∧ answer = none ∧ s.down.unwritten = [] ∧
        s.up.Carries received cmd.toString ∧ received.length < bufferSize
  | .read err received =>
      s.server.isOpen = true ∧ answer = none ∧ s.down.unwritten = [] ∧
        Completes err received cmd.toString
  | .serving _ =>
      s.server.isOpen = true ∧ answer = none ∧ s.down.unwritten = [] ∧
        Fits cmd.toString
  | .writing response =>
      s.server.isOpen = true ∧ answer = some response ∧ Fits cmd.toString
  | .answered err =>
      s.server.isOpen = true ∧ err = none ∧ answer.isSome = true ∧
        s.down.unwritten = [] ∧ Fits cmd.toString
  | .destroyed =>
      s.down.unwritten = [] ∧ (answer.isSome = true ↔ Fits cmd.toString)

/-- The client while nothing is disturbed. -/
def ClientCalm (answer : Option Response) (s : Sides) : Prop :=
  match s.client.phase with
  | .writing => s.client.isOpen = true ∧ s.down.Carries [] (textOf answer)
  | .written err =>
      s.client.isOpen = true ∧ err = none ∧ s.up.unwritten = [] ∧
        s.down.Carries [] (textOf answer)
  | .reading received =>
      s.client.isOpen = true ∧ s.up.unwritten = [] ∧
        s.down.Carries received (textOf answer) ∧
          received.length < bufferSize
  | .read err received =>
      s.up.unwritten = [] ∧ Completes err received (textOf answer) ∧
        (answer = none → s.server.phase = .destroyed)
  | .finished =>
      s.up.unwritten = [] ∧ s.client.called = [verdict answer] ∧
        (answer = none → s.server.phase = .destroyed)

/-- What holds as long as nothing is disturbed. -/
structure Undisturbed (cmd : Cmd)
    (attempts : List (Sides × ExchangeAction)) (s : Sides)
    (answer : Option Response) : Prop where
  clientAlive : s.clientAlive = true
  serverAlive : s.serverAlive = true
  clientTimer : s.client.wait ≠ .completed none
  serverTimer : s.server.wait ≠ .completed none
  client : ClientCalm answer s
  server : ServerCalm cmd answer s
  responded : ∀ response, answer = some response →
    Responded cmd attempts response

section Frames

variable {cmd : Cmd} {answer : Option Response} {s t : Sides}

theorem ClientCalm.of_same (calm : ClientCalm answer s)
    (client : t.client = s.client) (up : t.up.unwritten = s.up.unwritten)
    (down : ∀ received text, s.down.Carries received text →
      t.down.Carries received text)
    (gone : s.server.phase = .destroyed → t.server.phase = .destroyed) :
    ClientCalm answer t := by
  unfold ClientCalm at calm ⊢
  rw [client, up]
  split at calm
  · exact ⟨calm.1, down _ _ calm.2⟩
  · exact ⟨calm.1, calm.2.1, calm.2.2.1, down _ _ calm.2.2.2⟩
  · exact ⟨calm.1, calm.2.1, down _ _ calm.2.2.1, calm.2.2.2⟩
  · exact ⟨calm.1, calm.2.1, fun none => gone (calm.2.2 none)⟩
  · exact ⟨calm.1, calm.2.1, fun none => gone (calm.2.2 none)⟩

theorem ServerCalm.of_same (calm : ServerCalm cmd answer s)
    (server : t.server = s.server)
    (down : t.down.unwritten = s.down.unwritten)
    (up : ∀ received text, s.up.Carries received text →
      t.up.Carries received text) : ServerCalm cmd answer t := by
  unfold ServerCalm at calm ⊢
  rw [server, down]
  split at calm
  · exact ⟨calm.1, calm.2.1, calm.2.2.1, up _ _ calm.2.2.2.1, calm.2.2.2.2⟩
  all_goals exact calm

/-- The end of the command's stream comes after the whole command. -/
theorem ClientCalm.ended (calm : ClientCalm answer s)
    (alive : s.clientAlive = true) (ended : clientSends s = false) :
    s.up.unwritten = [] := by
  unfold ClientCalm at calm
  simp only [clientSends, alive, Bool.true_and] at ended
  split at calm
  · rename_i works
    simp [works, calm.1, Client.Phase.isWriting] at ended
  · exact calm.2.2.1
  · exact calm.2.1
  · exact calm.1
  · exact calm.1

/-- The end of the response's stream comes after the whole response. -/
theorem ServerCalm.ended (calm : ServerCalm cmd answer s)
    (alive : s.serverAlive = true) (ended : serverSends s = false) :
    s.server.phase = .destroyed ∧ s.down.unwritten = [] := by
  unfold ServerCalm at calm
  simp only [serverSends, alive, Bool.true_and] at ended
  split at calm
  case h_6 works => exact ⟨works, calm.1⟩
  all_goals simp [calm.1] at ended

theorem completes_eof {channel : Channel Byte} {received text : List Byte}
    (carries : channel.Carries received text)
    (short : received.length < bufferSize) (arrived : channel.inFlight = [])
    (written : channel.unwritten = []) :
    Completes (some .eof) received text := by
  have whole := carries.delivered arrived written
  exact ⟨carries.isPrefix, Or.inr ⟨rfl, whole, whole ▸ short⟩⟩

/-- A piece that fits the buffer is added to what has been received. -/
theorem receive_room {channel : Channel Byte} {received text : List Byte}
    (carries : channel.Carries received text)
    (short : received.length < bufferSize) (count : Nat) :
    let piece := channel.receive (room received count)
    (received ++ piece.1).length ≤ bufferSize ∧
      (received ++ piece.1).take bufferSize = received ++ piece.1 ∧
        piece.2.Carries (received ++ piece.1) text ∧
          piece.2.unwritten = channel.unwritten := by
  have bound : (received ++ (channel.receive (room received count)).1).length ≤
      bufferSize := by
    rw [List.length_append, Channel.receive, List.length_take, room]
    omega
  exact ⟨bound, List.take_of_length_le bound, carries.receive _, rfl⟩

end Frames

section Client

variable {held : Bool} {cmd : Cmd}
  {attempts : List (Sides × ExchangeAction)} {s next : Sides}
  {answer : Option Response}

theorem finish_wait (call : Client.Call) {s : Requester}
    (waits : s.wait ≠ .completed none) :
    (Client.finish held call s).wait ≠ .completed none := by
  unfold Client.finish Client.release
  split
  · exact waits
  · intro expired
    let t : Requester :=
      { s with
        phase := .finished
        called := s.called ++ [call] }
    exact waits ((Client.cancel_expired t).mp expired)

/-- The handlers of a calm client. -/
theorem clientRun_undisturbed (delivering : Delivering cmd attempts s)
    (calm : Undisturbed cmd attempts s answer)
    (taken : advanceClient held .run s = some (.ok next)) :
    Undisturbed cmd attempts next answer := by
  rcases advanceClient_eq_some taken with ⟨client, stepped, rfl⟩
  have consistent := delivering.client
  have own := calm.client
  -- the server's side does not change
  have server : ServerCalm cmd answer { s with client := client } :=
    calm.server.of_same rfl rfl fun _ _ => id
  suffices both : client.wait ≠ .completed none ∧
      ClientCalm answer { s with client := client } from
    { calm with
      clientTimer := both.1
      client := both.2
      server := server }
  cases Client.requestStep_taken stepped with
  | @run handler queue outcome queued ran =>
      cases handler with
      | onTimeout err =>
          have expired := (consistent.timeout_front queued).1
          cases err with
          | none => exact absurd expired calm.clientTimer
          | some err =>
              rcases Except.ok.inj ran with rfl
              refine ⟨by simp, ?_⟩
              unfold ClientCalm at own ⊢
              exact own
      | onWrite err =>
          have writes := Client.handlers_eq_onWrite
            (consistent.completion_front queued rfl).1
          unfold ClientCalm at own
          rw [writes] at own
          rcases own with ⟨isOpen, rfl, written, carries⟩
          simp only [Client.runHandler, Client.onWrite, isOpen, if_true]
            at ran
          rcases Except.ok.inj ran with rfl
          refine ⟨by simp [Client.asyncReadResponse], ?_⟩
          exact ⟨rfl, written, carries, by simp [bufferSize]⟩
      | onRead err received =>
          have reads := Client.handlers_eq_onRead
            (consistent.completion_front queued rfl).1
          have uncalled := (consistent.unfinished (by simp [reads])).1
          unfold ClientCalm at own
          rw [reads] at own
          rcases own with ⟨written, completes, gone⟩
          rcases Except.ok.inj ran with rfl
          have finished : ∀ t : Requester, t.called = [] →
              t.wait ≠ .completed none →
                (Client.finish held (verdict answer) t).wait ≠
                    .completed none ∧
                  ClientCalm answer { s with
                    client := Client.finish held (verdict answer) t } := by
            intro t none waits
            rcases finish_frame held (verdict answer) t with
              ⟨phase, called⟩
            refine ⟨finish_wait _ waits, ?_⟩
            unfold ClientCalm
            rw [phase]
            exact ⟨written, by rw [called, none]; rfl, gone⟩
          unfold Client.onRead
          dsimp only
          rw [callOf_completes completes]
          split
          · refine finished _ ?_ ?_
            · exact (Client.cancel_frame { s.client with queue }).2.1.trans
                uncalled
            · rw [ne_eq, Client.cancel_expired]
              exact calm.clientTimer
          · exact finished _ uncalled calm.clientTimer

/-- A piece of the response arrives, and may fill the buffer. -/
theorem clientReads_undisturbed {count : Nat}
    (calm : Undisturbed cmd attempts s answer)
    (taken : clientStep held s (.reads count) = some (.ok next)) :
    Undisturbed cmd attempts next answer := by
  have own := calm.client
  unfold ClientCalm at own
  simp only [clientStep] at taken
  split at taken
  · rename_i received reads
    rw [reads] at own
    rcases own with ⟨isOpen, written, carries, short⟩
    rcases receive_room carries short count with
      ⟨bound, whole, carried, rest⟩
    rcases advanceClient_eq_some taken with ⟨client, stepped, rfl⟩
    simp only [requestStep, reads] at stepped
    rcases Option.map_eq_some_iff.mp stepped with ⟨_, arrives, same⟩
    rcases Except.ok.inj same with rfl
    rcases Option.some.inj arrives with rfl
    rw [whole]
    have server : ∀ client, ServerCalm cmd answer
        { s with
          client := client
          down := (s.down.receive (room received count)).2 } :=
      fun client => calm.server.of_same rfl rest fun _ _ => id
    split
    · rename_i full
      -- the empty text does not fill the buffer
      have unanswered : answer = none → s.server.phase = .destroyed := by
        rintro rfl
        have nothing := List.prefix_nil.mp carried.isPrefix
        rw [nothing] at full
        simp [bufferSize] at full
      exact
        { calm with
          client := ⟨written, ⟨carried.isPrefix, Or.inl ⟨rfl, full⟩⟩,
            unanswered⟩
          server := server _ }
    · rename_i free
      exact
        { calm with
          client := ⟨isOpen, written, carried,
            Nat.lt_of_le_of_ne bound free⟩
          server := server _ }
  · simp at taken

theorem clientStep_undisturbed {action : SideAction}
    (delivering : Delivering cmd attempts s)
    (calm : Undisturbed cmd attempts s answer)
    (still : Calm (.client action))
    (taken : clientStep held s action = some (.ok next)) :
    Undisturbed cmd attempts next answer := by
  have own := calm.client
  unfold ClientCalm at own
  cases action with
  | writes count =>
      simp only [clientStep] at taken
      split at taken
      · rename_i writes
        rcases Except.ok.inj (Option.some.inj taken) with rfl
        rw [writes] at own
        exact
          { calm with
            client := by
              unfold ClientCalm
              dsimp only
              rw [writes]
              exact own
            server := calm.server.of_same rfl rfl
              fun _ _ carries => carries.send count }
      · simp at taken
  | written err =>
      cases err with
      | some err => exact absurd still id
      | none =>
          simp only [clientStep] at taken
          split at taken
          · rename_i written
            rcases advanceClient_eq_some taken with ⟨client, stepped, rfl⟩
            cases Client.requestStep_taken stepped with
            | writeCompletes err writes =>
                rw [writes] at own
                exact
                  { calm with
                    client := ⟨own.1, rfl, written, own.2⟩
                    server := calm.server.of_same rfl rfl fun _ _ => id }
          · simp at taken
  | reads count => exact clientReads_undisturbed calm taken
  | ends =>
      simp only [clientStep] at taken
      split at taken
      · rename_i ended
        rcases calm.server.ended calm.serverAlive ended.2 with
          ⟨gone, written⟩
        rcases advanceClient_eq_some taken with ⟨client, stepped, rfl⟩
        cases Client.requestStep_taken stepped with
        | @arrives received _ _ reads arrives =>
            rcases Option.some.inj arrives with rfl
            rw [reads] at own
            rcases own with ⟨-, sent, carries, short⟩
            exact
              { calm with
                client := ⟨sent,
                  completes_eof carries short ended.1 written,
                    fun _ => gone⟩
                server := calm.server.of_same rfl rfl fun _ _ => id }
      · simp at taken
  | run => exact clientRun_undisturbed delivering calm taken
  | fails err => exact absurd still id
  | timerExpires => exact absurd still id
  | dies => exact absurd still id

end Client

section Server

variable {cmd : Cmd} {attempts : List (Sides × ExchangeAction)}
  {s next : Sides} {answer : Option Response}

theorem session_cancel_expired (s : Connected) :
    (Session.cancel s).wait = .completed none ↔ s.wait = .completed none := by
  unfold Session.cancel
  split
  · rename_i outstanding
    simp [outstanding]
  · exact Iff.rfl

theorem session_cancel_isOpen (s : Connected) :
    (Session.cancel s).isOpen = s.isOpen := by
  unfold Session.cancel
  split <;> rfl

/-- The handlers of a calm server do not fail. -/
theorem serverRun_undisturbed (delivering : Delivering cmd attempts s)
    (calm : Undisturbed cmd attempts s answer)
    (taken : advanceServer .run s = some (.ok next)) :
    Undisturbed cmd attempts next answer := by
  have consistent := delivering.server
  have own := calm.server
  unfold ServerCalm at own
  rcases Option.map_eq_some_iff.mp taken with ⟨result, stepped, same⟩
  suffices both : ∃ server, result = .ok server ∧
      server.wait ≠ .completed none ∧
        ServerCalm cmd answer { s with server := server } ∧
          (s.server.phase = .destroyed → server.phase = .destroyed) by
    rcases both with ⟨server, rfl, waits, after, gone⟩
    rcases Except.ok.inj same with rfl
    exact
      { calm with
        serverTimer := waits
        server := after
        client := calm.client.of_same rfl rfl (fun _ _ => id) gone }
  cases Session.sessionStep_taken stepped with
  | @run handler queue outcome queued ran =>
      cases handler with
      | onTimeout err =>
          have expired := (consistent.timeout_front queued).1
          cases err with
          | none => exact absurd expired calm.serverTimer
          | some err =>
              refine ⟨_, ran.symm, by simp, ?_, id⟩
              unfold ServerCalm
              exact own
      | onRead err received =>
          have reads := Session.handlers_eq_onRead
            (consistent.completion_front queued rfl).1
          rw [reads] at own
          rcases own with ⟨isOpen, fresh, written, completes⟩
          have decoded : Connection.onRead Cmd.codec err received =
              if Fits cmd.toString then (none, cmd)
              else (some .invalidArgument, {}) := completes.onRead_eq
          have waits : (Session.cancel { s.server with queue }).wait ≠
              .completed none := by
            rw [ne_eq, session_cancel_expired]
            exact calm.serverTimer
          refine ⟨_, ran.symm, ?_, ?_, fun gone => by simp [reads] at gone⟩
          · rw [Session.onRead_eq]
            split <;> exact waits
          · rw [Session.onRead_eq, decoded]
            by_cases fits : Fits cmd.toString
            · rw [if_pos fits]
              exact ⟨(session_cancel_isOpen _).trans isOpen, fresh, written,
                fits⟩
            · rw [if_neg fits]
              exact ⟨written, by simp [fresh, fits]⟩
      | onWrite err =>
          have writes := Session.handlers_eq_onWrite
            (consistent.completion_front queued rfl).1
          rw [writes] at own
          rcases own with ⟨isOpen, -, given, written, fits⟩
          have waits : (Session.cancel { s.server with queue }).wait ≠
              .completed none := by
            rw [ne_eq, session_cancel_expired]
            exact calm.serverTimer
          refine ⟨Session.destroy { s.server with queue }, ?_, waits,
            ⟨written, iff_of_true given fits⟩,
              fun gone => by simp [writes] at gone⟩
          rw [← ran]
          exact if_pos isOpen

/-- A piece of the command arrives, and may fill the buffer. -/
theorem serverReads_undisturbed {count : Nat}
    (calm : Undisturbed cmd attempts s answer)
    (taken : serverStep s (.reads count) = some (.ok next)) :
    Undisturbed cmd attempts next answer := by
  have own := calm.server
  unfold ServerCalm at own
  simp only [serverStep] at taken
  split at taken
  · rename_i received reads
    rw [reads] at own
    rcases own with ⟨isOpen, none, written, carries, short⟩
    rcases receive_room carries short count with
      ⟨bound, whole, carried, rest⟩
    simp only [advanceServer, sessionStep, reads, Session.readSome,
      Option.map_some, whole] at taken
    rcases Except.ok.inj (Option.some.inj taken) with rfl
    have client : ∀ server, ClientCalm answer
        { s with
          server := server
          up := (s.up.receive (room received count)).2 } :=
      fun server => calm.client.of_same rfl rest (fun _ _ => id)
        fun gone => by simp [reads] at gone
    split
    · rename_i full
      exact
        { calm with
          client := client _
          server := ⟨isOpen, none, written,
            ⟨carried.isPrefix, Or.inl ⟨rfl, full⟩⟩⟩ }
    · rename_i free
      exact
        { calm with
          client := client _
          server := ⟨isOpen, none, written, carried,
            Nat.lt_of_le_of_ne bound free⟩ }
  · simp at taken

theorem serverStep_undisturbed {action : SideAction}
    (delivering : Delivering cmd attempts s)
    (calm : Undisturbed cmd attempts s answer)
    (still : Calm (.server action))
    (taken : serverStep s action = some (.ok next)) :
    Undisturbed cmd attempts next answer := by
  have own := calm.server
  unfold ServerCalm at own
  cases action with
  | writes count =>
      simp only [serverStep] at taken
      split at taken
      · rename_i response writes
        rcases Except.ok.inj (Option.some.inj taken) with rfl
        rw [writes] at own
        exact
          { calm with
            client := calm.client.of_same rfl rfl
              (fun _ _ carries => carries.send count) id
            server := by
              unfold ServerCalm
              dsimp only
              rw [writes]
              exact own }
      · simp at taken
  | written err =>
      cases err with
      | some err => exact absurd still id
      | none =>
          simp only [serverStep] at taken
          split at taken
          · rename_i written
            cases writes : s.server.phase with
            | writing response =>
                rw [writes] at own
                simp only [advanceServer, sessionStep, writes,
                  Option.map_some] at taken
                rcases Except.ok.inj (Option.some.inj taken) with rfl
                exact
                  { calm with
                    client := calm.client.of_same rfl rfl (fun _ _ => id)
                      fun gone => by simp [writes] at gone
                    server := ⟨own.1, rfl, by simp [own.2.1], written,
                      own.2.2⟩ }
            | _ => simp [advanceServer, sessionStep, writes] at taken
          · simp at taken
  | reads count => exact serverReads_undisturbed calm taken
  | ends =>
      simp only [serverStep] at taken
      split at taken
      · rename_i ended
        have sent := calm.client.ended calm.clientAlive ended.2
        cases reads : s.server.phase with
        | reading received =>
            rw [reads] at own
            rcases own with ⟨isOpen, none, written, carries, short⟩
            simp only [advanceServer, sessionStep, reads, Session.readSome,
              Option.map_some] at taken
            rcases Except.ok.inj (Option.some.inj taken) with rfl
            exact
              { calm with
                client := calm.client.of_same rfl rfl (fun _ _ => id)
                  fun gone => by simp [reads] at gone
                server := ⟨isOpen, none, written,
                  completes_eof carries short ended.1 sent⟩ }
        | _ => simp [advanceServer, sessionStep, reads] at taken
      · simp at taken
  | run => exact serverRun_undisturbed delivering calm taken
  | fails err => exact absurd still id
  | timerExpires => exact absurd still id
  | dies => exact absurd still id

/-- The answer starts the response's stream. -/
theorem responds_undisturbed {response : Response}
    (delivering : Delivering cmd attempts s)
    (calm : Undisturbed cmd attempts s answer)
    (taken : advanceServer (.responds response)
      { s with down := .writing response.toString } = some (.ok next)) :
    Undisturbed cmd (attempts ++ [(s, .responds response)]) next
      (some response) := by
  have command := delivering.command
  have own := calm.server
  unfold ServerCalm at own
  cases serves : s.server.phase with
  | serving other =>
      rw [serves] at own command
      rcases command with rfl
      rcases own with ⟨isOpen, rfl, written, fits⟩
      simp only [advanceServer, sessionStep, serves, Option.map_some,
        Session.asyncWriteResponse, isOpen, if_true] at taken
      rcases Except.ok.inj (Option.some.inj taken) with rfl
      refine
        { clientAlive := calm.clientAlive
          serverAlive := calm.serverAlive
          clientTimer := calm.clientTimer
          serverTimer := calm.serverTimer
          client := ?_
          server := ⟨rfl, rfl, fits⟩
          responded := ?_ }
      · have waits := calm.client
        unfold ClientCalm at waits ⊢
        dsimp only
        split at waits
        · exact ⟨waits.1, Channel.carries_writing _⟩
        · exact ⟨waits.1, waits.2.1, waits.2.2.1,
            Channel.carries_writing _⟩
        · rcases waits with ⟨clientOpen, sent, carries, short⟩
          have nothing := List.prefix_nil.mp carries.isPrefix
          rw [nothing]
          exact ⟨clientOpen, sent, Channel.carries_writing _,
            by simp [bufferSize]⟩
        · have gone := waits.2.2 rfl
          simp [serves] at gone
        · have gone := waits.2.2 rfl
          simp [serves] at gone
      · intro other same
        rcases Option.some.inj same with rfl
        exact ⟨(s, .responds response), by simp, rfl, serves⟩
  | _ => simp [advanceServer, sessionStep, serves] at taken

end Server

section Runs

variable {held : Bool} {cmd : Cmd}
  {attempts : List (Sides × ExchangeAction)} {s : Sides}

theorem Undisturbed.mono {answer : Option Response}
    (calm : Undisturbed cmd attempts s answer)
    (attempt : Sides × ExchangeAction) :
    Undisturbed cmd (attempts ++ [attempt]) s answer :=
  { calm with
    responded := fun response same =>
      (calm.responded response same).mono attempt }

theorem start_undisturbed (cmd : Cmd) :
    Undisturbed cmd [] (start cmd) none where
  clientAlive := rfl
  serverAlive := rfl
  clientTimer := by simp [start, Client.start]
  serverTimer := by simp [start, Session.start]
  client := ⟨rfl, rfl⟩
  server := ⟨rfl, rfl, rfl, Channel.carries_writing _,
    by simp [bufferSize]⟩
  responded := by simp

theorem step_undisturbed {next : Sides} {action : ExchangeAction}
    {answer : Option Response} (delivering : Delivering cmd attempts s)
    (calm : Undisturbed cmd attempts s answer) (still : Calm action)
    (taken : exchangeStep held s action = some (.ok next)) :
    ∃ answer, Undisturbed cmd (attempts ++ [(s, action)]) next answer := by
  cases action with
  | client action =>
      rw [exchangeStep, if_pos calm.clientAlive] at taken
      exact ⟨answer, clientStep_undisturbed (delivering.mono _)
        (calm.mono _) still taken⟩
  | server action =>
      rw [exchangeStep, if_pos calm.serverAlive] at taken
      exact ⟨answer, serverStep_undisturbed (delivering.mono _)
        (calm.mono _) still taken⟩
  | responds response =>
      rw [exchangeStep, if_pos calm.serverAlive] at taken
      exact ⟨some response, responds_undisturbed delivering calm taken⟩

theorem run_undisturbed
    (run : Run (exchangeStep held) (start cmd) attempts (.ok s))
    (still : Meets (fun _ action => Calm action) attempts) :
    ∃ answer, Undisturbed cmd attempts s answer := by
  generalize finished : Except.ok s = outcome at run
  induction run generalizing s with
  | start =>
      rcases Except.ok.inj finished with rfl
      exact ⟨none, start_undisturbed cmd⟩
  | next earlier taken ih =>
      subst finished
      rcases ih still.of_append rfl with ⟨answer, calm⟩
      exact step_undisturbed (run_delivering earlier) calm still.last taken

/--
When nothing is disturbed, a client whose request is over has been called once:
with the response of the server's handler if both texts fit the buffers, and
with a decoding error otherwise, for want of an answer or of its end.  On Linux
a server that closes its end over unread bytes of a longer command fails the
client's read or write, so such an exchange counts as disturbed.
-/
theorem undisturbed_called
    (run : Run (exchangeStep held) (start cmd) attempts (.ok s))
    (still : Meets (fun _ action => Calm action) attempts)
    (finished : s.client.phase = .finished) :
    (¬ Fits cmd.toString ∧ s.client.called = [.error .invalidArgument]) ∨
      Fits cmd.toString ∧ ∃ response, Responded cmd attempts response ∧
        s.client.called = [if Fits response.toString then .ok response
          else .error .invalidArgument] := by
  rcases run_undisturbed run still with ⟨answer, calm⟩
  have client := calm.client
  unfold ClientCalm at client
  rw [finished] at client
  rcases client with ⟨-, called, gone⟩
  cases answer with
  | some response =>
      right
      have command : Fits cmd.toString := by
        have server := calm.server
        unfold ServerCalm at server
        split at server
        · simp at server
        · simp at server
        · simp at server
        · exact server.2.2
        · exact server.2.2.2.2
        · exact server.2.mp rfl
      exact ⟨command, response, calm.responded response rfl, called⟩
  | none =>
      left
      refine ⟨fun fits => ?_, called⟩
      have server := calm.server
      unfold ServerCalm at server
      rw [gone rfl] at server
      have given := server.2.mpr fits
      simp at given

end Runs

/-- Nothing disturbs the ping, and its client is told how it went. -/
theorem ping_called :
    ∃ s, execute (exchangeStep false) (start {}) pingExchange = some s ∧
      ∃ response, s.client.called =
        [if Fits response.toString then .ok response
          else .error .invalidArgument] := by
  have setting : (execute (exchangeStep false) (start {})
      pingExchange).any isFinished = true := by
    decide +kernel
  rcases (Option.any_eq_true _ _).mp setting with ⟨s, executed, facts⟩
  have finished : s.client.phase = .finished := by
    unfold isFinished at facts
    split at facts
    · assumption
    · simp at facts
  have still : Meets (fun _ action => Calm action)
      (attemptsOf (exchangeStep false) (start {}) pingExchange) := by
    intro attempt member
    have listed := mem_attemptsOf member
    simp only [pingExchange, List.mem_cons, List.not_mem_nil,
      or_false] at listed
    rcases listed with same | same | same | same | same | same | same |
      same | same | same | same | same | same | same <;>
        rw [same] <;> trivial
  have small : Fits ({} : Cmd).toString := by
    decide +kernel
  rcases undisturbed_called (.of_execute executed) still finished with
    ⟨tooLong, -⟩ | ⟨-, response, -, called⟩
  · exact absurd small tooLong
  · exact ⟨s, executed, response, called⟩

end KekMonitors.Exchange
