import KekMonitors.Manager.Handling

/-!
# Stopping a monitored process

What a client is told after a STOP was written.  The response that was read is
passed on together with its error code, and the handler only logs the code, so
a reply that never came looks like one that reports success.
-/

namespace KekMonitors.Manager

open Connection
open Transition

/-- The reply was read and decoded to this response, without an error. -/
def Reads (events : List StreamEvent) (response : Response) : Prop :=
  ∃ err received, asyncRead [] events = some (err, received) ∧
    (err = none ∨ err = some .eof) ∧
      Response.fromString (buffer received) none = (response, none)

/--
The reply fills the buffer or ends with the stream, and is the text of a value
with a number or a boolean for its error.
-/
def Arrives (events : List StreamEvent) : Prop :=
  ∃ err received obj error, asyncRead [] events = some (err, received) ∧
    (err = none ∨ err = some .eof) ∧
      Json.parse (buffer received) = some obj ∧
        (obj.find? "_Response__error").bind Json.uint32? = some error

/-- A success that a stop reports is one that the process reported. -/
def SuccessIsReported (s : State) (action : Action) : Prop :=
  ∀ index exchange response, action = .runStop index →
    s.stops[index]? = some exchange →
      stopHandler exchange = some (.error response) →
        response.error = Error.ok.code →
          exchange.stage = .reading ∧ Reads exchange.peer.reply response

/-- The stop that the step handles gets a reply that arrives. -/
def ReplyArrives (s : State) (action : Action) : Prop :=
  ∀ index exchange, action = .runStop index →
    s.stops[index]? = some exchange → exchange.stage = .reading →
      Arrives exchange.peer.reply

/-! ## Decoding a reply -/

theorem fromString_eq_iff {text : List Json.Byte} :
    (∃ response, Response.fromString text none = (response, none)) ↔
      ∃ obj error, Json.parse text = some obj ∧
        (obj.find? "_Response__error").bind Json.uint32? = some error := by
  unfold Response.fromString MessageCodec.fromString
  cases parsed : Json.parse text with
  | none => simp
  | some obj =>
      cases found : (obj.find? "_Response__error").bind Json.uint32? with
      | none => simp [Response.codec, Response.fromJson, found]
      | some error => simp [Response.codec, Response.fromJson, found]

theorem arrives_iff {events : List StreamEvent} :
    Arrives events ↔ ∃ response, Reads events response := by
  constructor
  · rintro ⟨err, received, obj, error, read, ended, parsed, found⟩
    rcases fromString_eq_iff.mpr ⟨obj, error, parsed, found⟩ with
      ⟨response, decoded⟩
    exact ⟨response, err, received, read, ended, decoded⟩
  · rintro ⟨response, err, received, read, ended, decoded⟩
    rcases fromString_eq_iff.mp ⟨response, decoded⟩ with
      ⟨obj, error, parsed, found⟩
    exact ⟨err, received, obj, error, read, ended, parsed, found⟩

/-- A reply that arrives is what the callback is given. -/
theorem asyncReadResponse_of_reads {events : List StreamEvent}
    {response : Response} (reads : Reads events response) :
    asyncReadResponse events = some (none, response) := by
  rcases reads with ⟨err, received, read, ended, decoded⟩
  have decodedBy : Response.codec.fromString (buffer received) none =
      (response, none) := decoded
  simp [asyncReadResponse, readMessage, read, onRead, ended, decodedBy]

/-- Whatever else is read is given to the callback with the default error. -/
theorem asyncReadResponse_of_lost {events : List StreamEvent}
    (lost : ¬ Arrives events) {ec : Option ErrorCode} {response : Response}
    (completed : asyncReadResponse events = some (ec, response)) :
    response.error = Error.ok.code := by
  rcases Option.map_eq_some_iff.mp completed with
    ⟨⟨err, received⟩, read, handled⟩
  unfold onRead at handled
  split at handled
  · rename_i ended
    rcases decoded : Response.fromString (buffer received) none with
      ⟨message, failed⟩
    have decodedBy : Response.codec.fromString (buffer received) none =
        (message, failed) := decoded
    rw [decodedBy] at handled
    rcases Prod.mk.inj handled with ⟨rfl, rfl⟩
    cases failed with
    | none =>
        exact absurd
          (arrives_iff.mpr ⟨message, err, received, read, ended, decoded⟩)
          lost
    | some failure => exact Response.fromString_error_of_failed decoded
  · rcases Prod.mk.inj handled with ⟨-, rfl⟩
    rfl

/-! ## Stops -/

/-- The response to a command that could not be written is an error. -/
theorem stopWriteFailed_error (m : MonitorOrScraper) (errc : ErrorCode) :
    (stopWriteFailed m errc).error ≠ Error.ok.code := by
  change (stopError m).code ≠ Error.ok.code
  cases m <;> decide

/-- A step that handles a stop reports truly just when its reply arrives. -/
theorem successIsReported_iff {config : Config} {s : State}
    {action : Action} {result : Except Fault State}
    (taken : step config s action = some result) :
    SuccessIsReported s action ↔ ReplyArrives s action := by
  constructor
  · intro reported index exchange same queued reading
    by_contra lost
    subst same
    rcases Option.bind_eq_some_iff.mp taken with ⟨other, found, taken⟩
    rcases Option.some.inj (queued.symm.trans found) with rfl
    rcases Option.bind_eq_some_iff.mp taken with ⟨outcome, handled, -⟩
    have completes := handled
    simp only [stopHandler, reading] at completes
    rcases Option.map_eq_some_iff.mp completes with
      ⟨⟨ec, response⟩, completed, rfl⟩
    have success := asyncReadResponse_of_lost lost completed
    have reads := (reported index exchange response rfl queued handled
      success).2
    exact lost (arrives_iff.mpr ⟨response, reads⟩)
  · intro arrives index exchange response same queued handled success
    cases stage : exchange.stage with
    | writing =>
        simp only [stopHandler, stage] at handled
        split at handled
        · simp at handled
        · rename_i errc failed
          have told : stopWriteFailed exchange.kind errc = response := by
            simpa using handled
          rw [← told] at success
          exact absurd success (stopWriteFailed_error _ _)
    | reading =>
        refine ⟨rfl, ?_⟩
        rcases arrives_iff.mp (arrives index exchange same queued stage) with
          ⟨message, reads⟩
        simp only [stopHandler, stage, asyncReadResponse_of_reads reads]
          at handled
        have told : message = response := by simpa using handled
        exact told ▸ reads

/--
A run reports no success that the stopped process did not report precisely
when every reply that its stops read arrives.
-/
theorem stops_report_iff {config : Config} {start : State}
    {attempts : List (State × Action)} {outcome : Except Fault State}
    (run : Run (step config) start attempts outcome) :
    Meets SuccessIsReported attempts ↔ Meets ReplyArrives attempts := by
  constructor
  · rintro reported ⟨s, action⟩ member
    rcases run.attempt_taken member with ⟨result, taken⟩
    exact (successIsReported_iff taken).mp (reported _ member)
  · rintro arrives ⟨s, action⟩ member
    rcases run.attempt_taken member with ⟨result, taken⟩
    exact (successIsReported_iff taken).mpr (arrives _ member)

/-! ## A monitor that closes the connection -/

namespace Installation

/-- A monitor is added, and is asked to stop when its socket is there. -/
def stopShoes (reply : List StreamEvent) : List Action :=
  request (about .mmAddMonitor "Shoes") environment ++ [socketCreated] ++
    request (about .mmStopMonitor "Shoes") { peer := { reply := reply } } ++
      [.runStop 0]

end Installation

open Installation

/-- The replies that the stops of a run read. -/
def replies (attempts : List (State × Action)) : List (List StreamEvent) :=
  attempts.filterMap fun attempt =>
    match attempt.2 with
    | .runStop index =>
        match attempt.1.stops[index]? with
        | some exchange =>
            if exchange.stage = .reading then some exchange.peer.reply
            else none
        | none => none
    | _ => none

theorem meets_of_replies {attempts : List (State × Action)}
    (arrive : ∀ reply ∈ replies attempts, Arrives reply) :
    Meets ReplyArrives attempts := by
  rintro ⟨s, action⟩ member index exchange rfl queued reading
  apply arrive
  apply List.mem_filterMap.mpr
  exact ⟨_, member, by simp [queued, reading]⟩

/-- A monitor that answers is reported truly. -/
theorem stops_report_answered :
    Meets SuccessIsReported
      (attemptsOf (step config) start
        (stopShoes (transmit [Response.okResponse.toString]) ++
          [.runStop 0])) := by
  have succeeds : (execute (step config) start
      (stopShoes (transmit [Response.okResponse.toString]) ++
        [.runStop 0])).isSome = true := by
    decide +kernel
  have onlyReply : replies (attemptsOf (step config) start
      (stopShoes (transmit [Response.okResponse.toString]) ++
        [.runStop 0])) =
      [transmit [Response.okResponse.toString]] := by
    decide +kernel
  rcases Option.isSome_iff_exists.mp succeeds with ⟨final, executed⟩
  refine (stops_report_iff (.of_execute executed)).mpr
    (meets_of_replies ?_)
  intro reply member
  rw [onlyReply] at member
  rcases List.mem_singleton.mp member with rfl
  apply arrives_iff.mpr
  refine ⟨Response.okResponse, some .eof, Response.okResponse.toString,
    by rfl, Or.inr rfl, ?_⟩
  exact Response.codec.fromString_padded Response.okResponse _

/-- A connection that is closed without a reply delivers none. -/
theorem eof_lost : ¬ Arrives [.eof] := by
  intro arrives
  rcases arrives_iff.mp arrives with ⟨response, err, received, read, -, ok⟩
  rcases Prod.mk.inj (Option.some.inj read) with ⟨-, rfl⟩
  have rejected : (Response.fromString (buffer []) none).2 ≠ none := by
    decide +kernel
  rw [ok] at rejected
  exact rejected rfl

/--
A monitor that reads the STOP and closes the connection: the client is told
that it was stopped.
-/
theorem closed_connection_reported :
    ∃ s, Reached config s ∧ ¬ SuccessIsReported s (.runStop 0) := by
  have waiting : (execute (step config) start (stopShoes [.eof])).any
      (fun s => (s.stops[0]?).any fun exchange =>
        exchange.stage = .reading ∧ exchange.peer.reply = [.eof]) =
          true := by
    decide +kernel
  rcases (Option.any_eq_true _ _).mp waiting with ⟨s, executed, queued⟩
  rcases (Option.any_eq_true _ _).mp queued with ⟨exchange, found, facts⟩
  rcases of_decide_eq_true facts with ⟨reading, reply⟩
  have completes : (asyncReadResponse [.eof]).isSome = true := rfl
  rcases Option.isSome_iff_exists.mp completes with
    ⟨⟨ec, response⟩, completed⟩
  refine ⟨s, reached executed, ?_⟩
  intro reported
  have told : stopHandler exchange = some (.error response) := by
    simp [stopHandler, reading, reply, completed]
  have success := asyncReadResponse_of_lost eof_lost completed
  have reads := (reported 0 exchange response rfl found told success).2
  rw [reply] at reads
  exact eof_lost (arrives_iff.mpr ⟨response, reads⟩)

/-! ## Stops that are not delivered -/

/--
What a stop that cannot be delivered should do: call back once, with an error,
and leave the entry with the socket and the process that it had, not being
stopped.
-/
def RollsBack (m : MonitorOrScraper) (className : String)
    (stored : StoredObject) (callback : Callback)
    (outcome : Except Fault Handled) : Prop :=
  ∃ handled response entry, outcome = .ok handled ∧
    handled.answer = some (callback, response) ∧
      response.error ≠ Error.ok.code ∧
        handled.state.objects.find? m className = some entry ∧
          entry.endpoint = stored.endpoint ∧
            entry.process = stored.process ∧
              entry.isBeingStopped = false

/-- A stop request that passes the checks of `onStop`. -/
structure StopCall (m : MonitorOrScraper) (cmd : Cmd) (o : Objects)
    (className : String) (stored : StoredObject) : Prop where
  names : Names cmd className
  found : o.find? m className = some stored
  reachable : stored.endpoint.isSome = true
  idle : stored.isBeingStopped = false

section Undelivered

variable {m : MonitorOrScraper} {cmd : Cmd} {className : String}
  {stored : StoredObject}

/-- When connecting fails, the exception leaves the handler. -/
theorem StopCall.refused {s : State}
    (call : StopCall m cmd s.objects className stored) (env : Environment)
    (refused : env.peer.connect.isSome = true) (callback : Callback) :
    handledStop m cmd env callback s = .error (.raised .system) := by
  have present : stored.endpoint.isNone = false := by
    simpa using call.reachable
  simp [handledStop, onStop, nameArgument_of_names call.names, call.found,
    present, call.idle, refused, bind, Except.bind]

/-- Otherwise the command is being written, and the entry is marked. -/
theorem StopCall.writes {s : State}
    (call : StopCall m cmd s.objects className stored) (env : Environment)
    (connects : env.peer.connect = none) (callback : Callback) :
    handledStop m cmd env callback s =
      .ok
        { state :=
            { s with
              objects := s.objects.put m className
                { stored with isBeingStopped := true }
              stops := s.stops ++
                [{ kind := m
                   className := className
                   callback := callback
                   peer := env.peer }] } } := by
  have present : stored.endpoint.isNone = false := by
    simpa using call.reachable
  simp [handledStop, onStop, nameArgument_of_names call.names, call.found,
    present, call.idle, connects, bind, Except.bind]

/-- The socket of the class is gone whenever a write has completed. -/
theorem written_unreachable {s : State} {index : Nat}
    {exchange : StopExchange} (queued : s.stops[index]? = some exchange)
    (writing : exchange.stage = .writing)
    {outcome : Except Fault Handled}
    (handles : handledExchange index s = some outcome) :
    ∃ handled, outcome = .ok handled ∧ ∀ entry,
      handled.state.objects.find? exchange.kind exchange.className =
        some entry → entry.endpoint = none := by
  have gone : ∀ entry, (stopObjects exchange s.objects).find? exchange.kind
      exchange.className = some entry → entry.endpoint = none := by
    intro entry found
    simp only [stopObjects, writing] at found
    rcases Objects.found_removeStoredSocket found with
      ⟨old, -, ⟨-, rfl, -⟩ | ⟨elsewhere, -⟩⟩
    · rfl
    · exact absurd rfl elsewhere
  rw [handledExchange, queued] at handles
  rcases Option.bind_eq_some_iff.mp handles with ⟨same, read, handles⟩
  rcases Option.some.inj read with rfl
  rcases Option.bind_eq_some_iff.mp handles with ⟨completion, -, handles⟩
  cases completion with
  | ok waiting =>
      rcases Option.some.inj handles with rfl
      exact ⟨_, rfl, gone⟩
  | error response =>
      rcases Option.some.inj handles with rfl
      exact ⟨_, rfl, gone⟩

end Undelivered

/--
No stop of a class with a socket that is not being stopped rolls back.  When
connecting fails, the exception escapes; otherwise, whenever the write of its
command completes with an error, whatever happened in between, the entry has
lost its socket.
-/
theorem undelivered_not_rolled_back {s : State} {m : MonitorOrScraper}
    {cmd : Cmd} {className : String} {stored : StoredObject}
    (call : StopCall m cmd s.objects className stored) (env : Environment)
    (callback : Callback) :
    (env.peer.connect.isSome = true →
        ¬ RollsBack m className stored callback
          (handledStop m cmd env callback s)) ∧
      (env.peer.connect = none →
        ∃ middle exchange,
          handledStop m cmd env callback s = .ok middle ∧
            middle.state.stops = s.stops ++ [exchange] ∧
              exchange.peer = env.peer ∧
              ∀ later index outcome, later.stops[index]? = some exchange →
                env.peer.write.isSome = true →
                  handledExchange index later = some outcome →
                    ¬ RollsBack m className stored callback outcome) := by
  constructor
  · rintro refused ⟨handled, response, entry, ran, -⟩
    rw [call.refused env refused callback] at ran
    simp at ran
  · intro connects
    refine ⟨_, _, call.writes env connects callback, rfl, rfl, ?_⟩
    rintro later index outcome queued - handles
      ⟨handled, response, entry, ran, -, -, found, endpoint, -⟩
    rcases written_unreachable queued rfl handles with
      ⟨completed, same, gone⟩
    rcases Except.ok.inj (ran.symm.trans same) with rfl
    have reachable := call.reachable
    rw [← endpoint, gone entry found] at reachable
    simp at reachable

/-- A monitor with a socket can be asked to stop. -/
theorem stoppable_reached :
    ∃ s stored, Reached config s ∧
      StopCall .monitor (about .mmStopMonitor "Shoes") s.objects "Shoes"
        stored := by
  have setting : (execute (step config) start
      (request (about .mmAddMonitor "Shoes") environment ++
        [socketCreated])).any (fun s =>
          (s.objects.find? .monitor "Shoes").any fun stored =>
            stored.endpoint.isSome ∧ stored.isBeingStopped = false) =
              true := by
    decide +kernel
  rcases (Option.any_eq_true _ _).mp setting with ⟨s, executed, facts⟩
  rcases (Option.any_eq_true _ _).mp facts with ⟨stored, found, facts⟩
  rcases of_decide_eq_true facts with ⟨reachable, idle⟩
  exact ⟨s, stored, reached executed,
    ⟨Json.string "Shoes", Json.find?_set_self .., rfl⟩, found, reachable,
    idle⟩

/-- The monitor breaks the connection while the STOP is written to it. -/
theorem undelivered_not_rolled_back_broken :
    ∃ s stored middle exchange, Reached config s ∧
      handledStop .monitor (about .mmStopMonitor "Shoes")
          { peer := { write := some (.other 32 "Broken pipe") } } (.client 1)
          s = .ok middle ∧
        middle.state.stops = s.stops ++ [exchange] ∧
          ∀ later index outcome, later.stops[index]? = some exchange →
            handledExchange index later = some outcome →
              ¬ RollsBack .monitor "Shoes" stored (.client 1) outcome := by
  rcases stoppable_reached with ⟨s, stored, reached, call⟩
  rcases (undelivered_not_rolled_back call
    { peer := { write := some (.other 32 "Broken pipe") } } (.client 1)).2
      rfl with ⟨middle, exchange, ran, queued, -, never⟩
  exact ⟨s, stored, middle, exchange, reached, ran, queued,
    fun later index outcome found handles =>
      never later index outcome found rfl handles⟩

/-- The monitor is gone, and its socket file refuses the connection. -/
theorem refused_stop_throws :
    ∃ s stored, Reached config s ∧
      StopCall .monitor (about .mmStopMonitor "Shoes") s.objects "Shoes"
        stored ∧
      handledStop .monitor (about .mmStopMonitor "Shoes")
          { peer := { connect := some (.other 111 "Connection refused") } }
          (.client 1) s = .error (.raised .system) ∧
        ¬ RollsBack .monitor "Shoes" stored (.client 1)
          (handledStop .monitor (about .mmStopMonitor "Shoes")
            { peer := { connect := some (.other 111 "Connection refused") } }
            (.client 1) s) := by
  rcases stoppable_reached with ⟨s, stored, reached, call⟩
  have thrown := call.refused
    { peer := { connect := some (.other 111 "Connection refused") } } rfl
    (.client 1)
  refine ⟨s, stored, reached, call, thrown, ?_⟩
  rintro ⟨handled, response, entry, ran, -⟩
  rw [thrown] at ran
  simp at ran

end KekMonitors.Manager
