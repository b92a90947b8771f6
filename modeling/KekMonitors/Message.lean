import KekMonitors.Core
import KekMonitors.Json.Prefix

/-!
# Messages

`Cmd` and `Response` with their JSON forms.  Both decoders go on after a
failed conversion: the error code is set and the remaining members are still
read, so a rejected text can leave a partly filled message behind.
-/

namespace KekMonitors

open Json

/-- A message type with its JSON form. -/
structure MessageCodec (Message : Type) where
  default : Message
  toJson : Message → Json
  /-- Decode with an error code, which is only ever set. -/
  fromJson : Json → Option ErrorCode → Message × Option ErrorCode
  toJson_isObject : ∀ message, (toJson message).isObject = true
  fromJson_toJson : ∀ message, fromJson (toJson message) none = (message, none)

namespace MessageCodec

variable {Message : Type}

def toString (codec : MessageCodec Message) (message : Message) : List Byte :=
  (codec.toJson message).toBytes

/-- A text that is not JSON gives a default message. -/
def fromString (codec : MessageCodec Message) (str : List Byte)
    (ec : Option ErrorCode) : Message × Option ErrorCode :=
  match Json.parse str with
  | some obj => codec.fromJson obj ec
  | none => (codec.default, some .invalidArgument)

/-- A text followed by NUL bytes decodes to its message. -/
theorem fromString_padded (codec : MessageCodec Message) (message : Message)
    (padding : Nat) :
    codec.fromString
        (codec.toString message ++ List.replicate padding 0) none =
      (message, none) := by
  rw [fromString, toString,
    Json.parse_toBytes (codec.toJson_isObject message) padding]
  exact codec.fromJson_toJson message

/-- A truncated text is rejected. -/
theorem fromString_truncated (codec : MessageCodec Message)
    (message : Message) {size : Nat}
    (cut : size < (codec.toString message).length) :
    codec.fromString ((codec.toString message).take size) none =
      (codec.default, some .invalidArgument) := by
  have rejected : Json.parse ((codec.toString message).take size) = none := by
    refine parse_prefix (codec.toJson_isObject message)
      (List.take_append_drop size _).symm ?_
    intro empty
    have length := congrArg List.length empty
    rw [List.length_drop, List.length_nil] at length
    unfold toString at cut
    omega
  rw [fromString, rejected]

end MessageCodec

structure Cmd where
  cmd : CommandType := Command.ping.code
  payload : Json := Json.null

namespace Cmd

/-- Decode with an error code, which is only ever set. -/
def fromJson (obj : Json) (ec : Option ErrorCode) : Cmd × Option ErrorCode :=
  let (code, ec) :=
    match (obj.find? "_Cmd__cmd").bind Json.uint32? with
    | some code => (code, ec)
    | none => (Command.ping.code, some .invalidArgument)
  let payload := (obj.find? "_Cmd__payload").getD Json.null
  ({ cmd := code, payload := payload }, ec)

def toJson (cmd : Cmd) : Json :=
  let j := Json.null.set "_Cmd__cmd" (Json.ofUInt32 cmd.cmd)
  if cmd.payload.isNull then j else j.set "_Cmd__payload" cmd.payload

theorem toJson_isObject (cmd : Cmd) : cmd.toJson.isObject = true := by
  unfold toJson
  split <;> rfl

/-- Decoding the JSON form gives the command back. -/
theorem fromJson_toJson (cmd : Cmd) :
    fromJson cmd.toJson none = (cmd, none) := by
  have otherKey : "_Cmd__cmd" ≠ "_Cmd__payload" := by decide
  rcases cmd with ⟨code, payload⟩
  by_cases empty : payload.isNull
  · have isNull : payload = Json.null := Json.isNull_iff.mp empty
    subst isNull
    simp [toJson, fromJson, empty, uint32?_ofUInt32,
      find?_set_of_ne otherKey.symm]
  · simp [toJson, fromJson, empty, uint32?_ofUInt32,
      find?_set_of_ne otherKey]

def codec : MessageCodec Cmd where
  default := {}
  toJson := toJson
  fromJson := fromJson
  toJson_isObject := toJson_isObject
  fromJson_toJson := fromJson_toJson

def toString : Cmd → List Byte := codec.toString

def fromString : List Byte → Option ErrorCode → Cmd × Option ErrorCode :=
  codec.fromString

end Cmd

structure Response where
  error : ErrorType := Error.ok.code
  info : String := ""
  payload : Json := Json.null

namespace Response

/-- Decode with an error code, which is only ever set. -/
def fromJson (obj : Json) (ec : Option ErrorCode) :
    Response × Option ErrorCode :=
  let (error, ec) :=
    match (obj.find? "_Response__error").bind Json.uint32? with
    | some error => (error, ec)
    | none => (Error.ok.code, some .invalidArgument)
  let payload := (obj.find? "_Response__payload").getD Json.null
  let info := ((obj.find? "_Response__info").bind Json.string?).getD ""
  ({ error := error, info := info, payload := payload }, ec)

def toJson (response : Response) : Json :=
  let j := Json.null.set "_Response__error" (Json.ofUInt32 response.error)
  let j :=
    if response.info.isEmpty then j
    else j.set "_Response__info" (Json.string response.info)
  if response.payload.isNull then j
  else j.set "_Response__payload" response.payload

def okResponse : Response := { error := Error.ok.code }

def badResponse : Response := { error := Error.otherError.code }

theorem toJson_isObject (response : Response) :
    response.toJson.isObject = true := by
  unfold toJson
  dsimp only
  split <;> split <;> rfl

/-- Decoding the JSON form gives the response back. -/
theorem fromJson_toJson (response : Response) :
    fromJson response.toJson none = (response, none) := by
  have infoKey : "_Response__error" ≠ "_Response__info" := by decide
  have payloadKey : "_Response__error" ≠ "_Response__payload" := by decide
  have lastKey : "_Response__info" ≠ "_Response__payload" := by decide
  rcases response with ⟨error, info, payload⟩
  by_cases noInfo : info.isEmpty <;> by_cases empty : payload.isNull
  · have infoEmpty : info = "" := String.isEmpty_iff.mp noInfo
    have isNull : payload = Json.null := Json.isNull_iff.mp empty
    subst infoEmpty isNull
    simp [toJson, fromJson, empty, uint32?_ofUInt32,
      find?_set_of_ne infoKey.symm, find?_set_of_ne payloadKey.symm]
  · have infoEmpty : info = "" := String.isEmpty_iff.mp noInfo
    subst infoEmpty
    simp [toJson, fromJson, empty, uint32?_ofUInt32,
      find?_set_of_ne payloadKey, find?_set_of_ne lastKey,
      find?_set_of_ne infoKey.symm]
  · have isNull : payload = Json.null := Json.isNull_iff.mp empty
    subst isNull
    simp [toJson, fromJson, noInfo, empty, uint32?_ofUInt32,
      find?_set_of_ne infoKey, find?_set_of_ne lastKey.symm,
      find?_set_of_ne payloadKey.symm, Json.string?, Json.string]
  · simp [toJson, fromJson, noInfo, empty, uint32?_ofUInt32,
      find?_set_of_ne infoKey, find?_set_of_ne payloadKey,
      find?_set_of_ne lastKey, Json.string?, Json.string]

def codec : MessageCodec Response where
  default := {}
  toJson := toJson
  fromJson := fromJson
  toJson_isObject := toJson_isObject
  fromJson_toJson := fromJson_toJson

def toString : Response → List Byte := codec.toString

def fromString : List Byte → Option ErrorCode → Response × Option ErrorCode :=
  codec.fromString

/-- A rejected member leaves the error at its default, which means success. -/
theorem fromJson_error_of_failed {obj : Json} {response : Response}
    {ec : ErrorCode}
    (decoded : fromJson obj none = (response, some ec)) :
    response.error = Error.ok.code := by
  unfold fromJson at decoded
  cases found : (obj.find? "_Response__error").bind Json.uint32? with
  | none =>
      simp only [found, Prod.mk.injEq] at decoded
      exact decoded.1 ▸ rfl
  | some error => simp [found] at decoded

/-- The same for a whole text: no failed decoding sets an error. -/
theorem fromString_error_of_failed {str : List Byte} {response : Response}
    {ec : ErrorCode}
    (decoded : fromString str none = (response, some ec)) :
    response.error = Error.ok.code := by
  unfold fromString MessageCodec.fromString at decoded
  cases parsed : Json.parse str with
  | none =>
      simp only [parsed, Prod.mk.injEq] at decoded
      exact decoded.1 ▸ rfl
  | some obj =>
      simp only [parsed] at decoded
      exact fromJson_error_of_failed decoded

end Response

/-! ## The throwing variants -/

/-- What leaves a decoder that is given no error code. -/
inductive DecodeError where
  | json
  | invalidArgument
  deriving DecidableEq, Repr

/-- Without an error code the first failed conversion ends the decoding. -/
def Cmd.fromJsonThrowing (obj : Json) : Except DecodeError Cmd :=
  match (obj.find? "_Cmd__cmd").bind Json.uint32? with
  | none => .error .invalidArgument
  | some code =>
      .ok
        { cmd := code
          payload := (obj.find? "_Cmd__payload").getD Json.null }

def Cmd.fromStringThrowing (str : List Byte) : Except DecodeError Cmd :=
  match Json.parse str with
  | none => .error .json
  | some obj => fromJsonThrowing obj

def Response.fromJsonThrowing (obj : Json) : Except DecodeError Response :=
  match (obj.find? "_Response__error").bind Json.uint32? with
  | none => .error .invalidArgument
  | some error =>
      let payload := (obj.find? "_Response__payload").getD Json.null
      let info := ((obj.find? "_Response__info").bind Json.string?).getD ""
      .ok { error := error, info := info, payload := payload }

def Response.fromStringThrowing (str : List Byte) :
    Except DecodeError Response :=
  match Json.parse str with
  | none => .error .json
  | some obj => fromJsonThrowing obj

/-- One decoder throws where the other sets its code, or both read alike. -/
def Agree {Message : Type} (thrown : Except DecodeError Message)
    (coded : Message × Option ErrorCode) : Prop :=
  ((∃ error, thrown = .error error) ↔ coded.2.isSome) ∧
    ∀ message, thrown = .ok message → coded = (message, none)

theorem agree_of_error {Message : Type} {coded : Message × Option ErrorCode}
    (error : DecodeError) (set : coded.2.isSome) :
    Agree (.error error) coded :=
  ⟨iff_of_true ⟨error, rfl⟩ set, by simp⟩

theorem agree_of_ok {Message : Type} (message : Message) :
    Agree (.ok message) (message, none) :=
  ⟨iff_of_false (by simp) (by simp),
    fun other same => Except.ok.inj same ▸ rfl⟩

theorem Cmd.fromJson_agree (obj : Json) :
    Agree (fromJsonThrowing obj) (fromJson obj none) := by
  unfold fromJsonThrowing fromJson
  cases (obj.find? "_Cmd__cmd").bind Json.uint32? with
  | none => exact agree_of_error .invalidArgument rfl
  | some code => exact agree_of_ok _

theorem Response.fromJson_agree (obj : Json) :
    Agree (fromJsonThrowing obj) (fromJson obj none) := by
  unfold fromJsonThrowing fromJson
  cases (obj.find? "_Response__error").bind Json.uint32? with
  | none => exact agree_of_error .invalidArgument rfl
  | some error => exact agree_of_ok _

/-- Both variants make the same of every text, for both messages. -/
theorem fromString_variants_agree (str : List Byte) :
    Agree (Cmd.fromStringThrowing str) (Cmd.fromString str none) ∧
      Agree (Response.fromStringThrowing str)
        (Response.fromString str none) := by
  unfold Cmd.fromStringThrowing Cmd.fromString Response.fromStringThrowing
    Response.fromString MessageCodec.fromString
  cases Json.parse str with
  | none => exact ⟨agree_of_error .json rfl, agree_of_error .json rfl⟩
  | some obj => exact ⟨Cmd.fromJson_agree obj, Response.fromJson_agree obj⟩

/-! ## Codes -/

/--
A decoder of one member accepts the integers in the range of a code and
nothing else, and gives what it was given.
-/
structure ReadsCodes (member : Option Json) (thrown : Option UInt32)
    (coded : UInt32 × Option ErrorCode) : Prop where
  throwing : ∀ code, thrown = some code ↔ member = some (Json.ofUInt32 code)
  accepts : coded.2 = none ↔ ∃ code, member = some (Json.ofUInt32 code)
  coded : ∀ code, member = some (Json.ofUInt32 code) → coded.1 = code

theorem readsCodes_iff (member : Option Json) (default : UInt32) :
    ReadsCodes member (member.bind Json.uint32?)
        ((member.bind Json.uint32?).elim (default, some .invalidArgument)
          fun code => (code, none)) ↔
      ∀ value, member = some value → ¬ value.Narrows := by
  cases member with
  | none => exact iff_of_true ⟨by simp, by simp, by simp⟩ (by simp)
  | some value =>
      simp only [Option.bind_some, Option.some.injEq, forall_eq']
      rcases value.uint32?_cases with
        ⟨code, rfl, read, exact_⟩ | ⟨foreign, converts⟩
      · rw [read]
        refine iff_of_true ⟨?_, ?_, ?_⟩ exact_
        · simp [Json.ofUInt32_injective.eq_iff]
        · exact iff_of_true rfl ⟨code, rfl⟩
        · intro other same
          exact Json.ofUInt32_injective (Option.some.inj same)
      · constructor
        · intro reads narrows
          rcases Option.isSome_iff_exists.mp (converts.mpr narrows) with
            ⟨code, read⟩
          exact foreign code (Option.some.inj ((reads.throwing code).mp read))
        · intro exact_
          have rejected : value.uint32? = none :=
            Option.not_isSome_iff_eq_none.mp (mt converts.mp exact_)
          rw [rejected]
          exact ⟨by simp [foreign], by simp [foreign], by simp [foreign]⟩

/-- What both variants of `Cmd::fromJson` make of the code. -/
def Cmd.ReadsCode (obj : Json) : Prop :=
  ReadsCodes (obj.find? "_Cmd__cmd")
    ((fromJsonThrowing obj).toOption.map Cmd.cmd)
    ((fromJson obj none).1.cmd, (fromJson obj none).2)

/-- The same for `Response::fromJson` and the error. -/
def Response.ReadsCode (obj : Json) : Prop :=
  ReadsCodes (obj.find? "_Response__error")
    ((fromJsonThrowing obj).toOption.map Response.error)
    ((fromJson obj none).1.error, (fromJson obj none).2)

/--
A code is read for what it is just when its member is not a boolean, a
floating point number or an integer outside of 32 bits.
-/
theorem readsCode_iff (obj : Json) :
    (Cmd.ReadsCode obj ↔
        ∀ code, obj.find? "_Cmd__cmd" = some code → ¬ code.Narrows) ∧
      (Response.ReadsCode obj ↔
        ∀ error, obj.find? "_Response__error" = some error →
          ¬ error.Narrows) := by
  constructor
  · rw [← readsCodes_iff _ Command.ping.code, Cmd.ReadsCode,
      Cmd.fromJsonThrowing, Cmd.fromJson]
    cases (obj.find? "_Cmd__cmd").bind Json.uint32? <;> rfl
  · rw [← readsCodes_iff _ Error.ok.code, Response.ReadsCode,
      Response.fromJsonThrowing, Response.fromJson]
    cases (obj.find? "_Response__error").bind Json.uint32? <;> rfl

/-- A number beyond 32 bits is read as the command that stops the manager. -/
theorem wide_code_stops_manager :
    ∃ wide : Json.Integer, wide.val = 2 ^ 32 + 24 ∧
      (Cmd.fromJson (Json.null.set "_Cmd__cmd" (Json.integer wide)) none
        ).1.cmd = Command.mmStopMonitorManager.code ∧
      ¬ Cmd.ReadsCode (Json.null.set "_Cmd__cmd" (Json.integer wide)) := by
  refine ⟨⟨2 ^ 32 + 24, by decide⟩, rfl, by decide +kernel, ?_⟩
  intro reads
  have accepted := reads.accepts.mp (by decide +kernel)
  rcases accepted with ⟨code, same⟩
  rw [Json.find?_set_self, Option.some.injEq,
    Json.integer_eq_ofUInt32_iff] at same
  have wide : (2 ^ 32 + 24 : Int) = code.toNat := same
  have bound := code.toNat_lt
  omega

end KekMonitors
