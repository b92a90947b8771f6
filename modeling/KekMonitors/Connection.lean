import KekMonitors.Message

/-!
# Connections

A connection reads one message into a zero-filled buffer of 1024 bytes and
writes messages of any length, closing its sending half afterwards.  The
reader is described by what the socket and the read timer do while the read is
outstanding; the composed read completes when the buffer is full, at the end
of the stream, or with an error.
-/

namespace KekMonitors.Connection

open Json

/-- `m_buffer(1024)`. -/
def bufferSize : Nat := 1024

/-- What can happen to a connection with an outstanding read. -/
inductive StreamEvent where
  | data (chunk : List Byte)
  | eof
  | failed (error : ErrorCode)
  | timeout
  deriving DecidableEq

/--
`async_read` into the buffer, with the bytes received so far.  The expiry of
the timer closes the socket (`onTimeout`), which aborts the read.  The result
is `none` while the read is outstanding.
-/
def asyncRead (received : List Byte) :
    List StreamEvent → Option (Option ErrorCode × List Byte)
  | [] => none
  | .data chunk :: events =>
      let received := (received ++ chunk).take bufferSize
      if received.length = bufferSize then some (none, received)
      else asyncRead received events
  | .eof :: _ => some (some .eof, received)
  | .failed error :: _ => some (some error, received)
  | .timeout :: _ => some (some .operationAborted, received)

/-- The whole buffer: the received bytes and the zeros after them. -/
def buffer (received : List Byte) : List Byte :=
  received ++ List.replicate (bufferSize - received.length) 0

section Reading

variable {Message : Type}

/--
The completion handler of a read.  Only a full buffer or the end of the stream
is decoded; every other error is passed on with a default message.
-/
def onRead (codec : MessageCodec Message) (err : Option ErrorCode)
    (received : List Byte) : Option ErrorCode × Message :=
  if err = none ∨ err = some .eof then
    let (message, ec) := codec.fromString (buffer received) none
    (ec, message)
  else (err, codec.default)

/-- A read from its start to the call of its callback. -/
def readMessage (codec : MessageCodec Message) (events : List StreamEvent) :
    Option (Option ErrorCode × Message) :=
  (asyncRead [] events).map fun completed =>
    onRead codec completed.1 completed.2

end Reading

def asyncReadCmd : List StreamEvent → Option (Option ErrorCode × Cmd) :=
  readMessage Cmd.codec

def asyncReadResponse :
    List StreamEvent → Option (Option ErrorCode × Response) :=
  readMessage Response.codec

/--
How the process behind a socket treats a connection: the outcome of the first
and of a second attempt to connect, of writing the command, and what it does
while the reply is read.
-/
structure Peer where
  connect : Option ErrorCode := none
  reconnect : Option ErrorCode := none
  write : Option ErrorCode := none
  reply : List StreamEvent := []
  deriving DecidableEq

/--
What a reader sees of a writer that sends a text in some chunks and then shuts
down its sending half.
-/
def transmit (chunks : List (List Byte)) : List StreamEvent :=
  chunks.map StreamEvent.data ++ [.eof]

/-! ## Chunking -/

/-- The read stops at the buffer size or at the end of the stream. -/
theorem asyncRead_transmit (chunks : List (List Byte))
    {received : List Byte} (notFull : received.length < bufferSize) :
    asyncRead received (transmit chunks) =
      if (received ++ chunks.flatten).length < bufferSize then
        some (some .eof, received ++ chunks.flatten)
      else some (none, (received ++ chunks.flatten).take bufferSize) := by
  induction chunks generalizing received with
  | nil =>
      simp [transmit, asyncRead, notFull]
  | cons chunk chunks ih =>
      have whole : received ++ (chunk :: chunks).flatten =
          (received ++ chunk) ++ chunks.flatten := by simp
      rw [whole, transmit, List.map_cons, List.cons_append, asyncRead]
      by_cases full : bufferSize ≤ (received ++ chunk).length
      · have length : ((received ++ chunk).take bufferSize).length =
            bufferSize := List.length_take_of_le full
        have notShort :
            ¬ ((received ++ chunk) ++ chunks.flatten).length <
              bufferSize := by
          rw [List.length_append]
          omega
        rw [if_pos length, if_neg notShort, List.take_append_of_le_length full]
      · have short : (received ++ chunk).length < bufferSize := by omega
        have unchanged : (received ++ chunk).take bufferSize =
            received ++ chunk := List.take_of_length_le (by omega)
        rw [unchanged, if_neg (by omega)]
        exact ih short

section RoundTrip

variable {Message : Type} {codec : MessageCodec Message}

/-- A text that fits is decoded with its padding. -/
theorem readMessage_short {chunks : List (List Byte)}
    (fits : chunks.flatten.length ≤ bufferSize) :
    readMessage codec (transmit chunks) =
      some ((codec.fromString (buffer chunks.flatten) none).2,
        (codec.fromString (buffer chunks.flatten) none).1) := by
  rw [readMessage, asyncRead_transmit chunks (by simp [bufferSize])]
  rw [List.nil_append]
  split
  · simp [onRead]
  · have whole : chunks.flatten.take bufferSize = chunks.flatten :=
      List.take_of_length_le fits
    simp [onRead, whole]

/-- A longer text is cut at the buffer size, without padding. -/
theorem readMessage_long {chunks : List (List Byte)}
    (tooLong : bufferSize < chunks.flatten.length) :
    readMessage codec (transmit chunks) =
      some ((codec.fromString (chunks.flatten.take bufferSize) none).2,
        (codec.fromString (chunks.flatten.take bufferSize) none).1) := by
  rw [readMessage, asyncRead_transmit chunks (by simp [bufferSize])]
  have length : (chunks.flatten.take bufferSize).length = bufferSize :=
    List.length_take_of_le (by omega)
  rw [List.nil_append, if_neg (by omega)]
  simp [onRead, buffer, length]

/-- Exactly the messages whose text fits the buffer arrive unchanged. -/
theorem readMessage_transmit_iff (message : Message)
    {chunks : List (List Byte)}
    (sent : chunks.flatten = codec.toString message) :
    readMessage codec (transmit chunks) = some (none, message) ↔
      (codec.toString message).length ≤ bufferSize := by
  by_cases fits : (codec.toString message).length ≤ bufferSize
  · have decoded := codec.fromString_padded message
      (bufferSize - (codec.toString message).length)
    rw [readMessage_short (sent ▸ fits), sent, buffer, decoded]
    simp [fits]
  · have tooLong : bufferSize < (codec.toString message).length :=
      not_le.mp fits
    rw [readMessage_long (sent ▸ tooLong), sent,
      codec.fromString_truncated message tooLong]
    simp [fits]

end RoundTrip

/--
A message written on one end and read on the other arrives unchanged, with no
error code and for every chunking, exactly when its text fits the buffer.
-/
theorem exchange_iff (cmd : Cmd) (response : Response)
    {cmdChunks responseChunks : List (List Byte)}
    (cmdSent : cmdChunks.flatten = cmd.toString)
    (responseSent : responseChunks.flatten = response.toString) :
    (asyncReadCmd (transmit cmdChunks) = some (none, cmd) ↔
        cmd.toString.length ≤ bufferSize) ∧
      (asyncReadResponse (transmit responseChunks) =
          some (none, response) ↔
        response.toString.length ≤ bufferSize) :=
  ⟨readMessage_transmit_iff cmd cmdSent,
    readMessage_transmit_iff response responseSent⟩

/-- Both messages of a ping, each sent as one chunk, fit the buffer. -/
theorem exchange_ping :
    asyncReadCmd (transmit [({} : Cmd).toString]) = some (none, {}) ∧
      asyncReadResponse (transmit [Response.okResponse.toString]) =
        some (none, Response.okResponse) := by
  have cmdSent : [({} : Cmd).toString].flatten = ({} : Cmd).toString := by
    simp
  have responseSent : [Response.okResponse.toString].flatten =
      Response.okResponse.toString := by
    simp
  have both := exchange_iff {} Response.okResponse cmdSent responseSent
  exact ⟨both.1.mpr (by decide), both.2.mpr (by decide)⟩

/-! ## Full and cut buffers -/

/--
A buffer with the beginning of a text decodes to the message if that is the
whole text, and is rejected if the text was cut.
-/
theorem fromString_buffer {Message : Type} (codec : MessageCodec Message)
    (message : Message) :
    codec.fromString
        (buffer ((codec.toString message).take bufferSize)) none =
      if (codec.toString message).length ≤ bufferSize then (message, none)
      else (codec.default, some .invalidArgument) := by
  split
  · rename_i fits
    rw [List.take_of_length_le fits]
    exact codec.fromString_padded message _
  · rename_i tooLong
    have cut : bufferSize < (codec.toString message).length :=
      not_le.mp tooLong
    have full : ((codec.toString message).take bufferSize).length =
        bufferSize := List.length_take_of_le (le_of_lt cut)
    rw [buffer, full, Nat.sub_self, List.replicate_zero, List.append_nil]
    exact codec.fromString_truncated message cut

/--
Both decoders, given the receiver's buffer, return the message that was sent
with a clear error code, or set the error code: no truncated message is taken
for another one.
-/
theorem buffers_decode (cmd : Cmd) (response : Response) :
    (Cmd.fromString (buffer (cmd.toString.take bufferSize)) none =
        if cmd.toString.length ≤ bufferSize then (cmd, none)
        else ({}, some .invalidArgument)) ∧
      (Response.fromString (buffer (response.toString.take bufferSize))
          none =
        if response.toString.length ≤ bufferSize then (response, none)
        else ({}, some .invalidArgument)) :=
  ⟨fromString_buffer Cmd.codec cmd,
    fromString_buffer Response.codec response⟩

/-- A status reply whose payload alone is as long as the buffer. -/
def longResponse : Response :=
  { payload := Json.string (String.ofList (List.replicate bufferSize 'm')) }

/-- A long response is cut, and the reader reports an error. -/
theorem long_response_lost :
    asyncReadResponse (transmit [longResponse.toString]) ≠
      some (none, longResponse) := by
  intro delivered
  have sent : [longResponse.toString].flatten = longResponse.toString := by
    simp
  have fits := (readMessage_transmit_iff longResponse sent).mp delivered
  have tooLong : ¬ longResponse.toString.length ≤ bufferSize := by
    decide +kernel
  exact tooLong fits

end KekMonitors.Connection
