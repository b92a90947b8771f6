import KekMonitors.Json.Text

/-!
# Quoted strings

A string value is a sequence of UTF-8 code units.  The writer escapes the
quote, the backslash and the control characters and copies every other byte;
the reader is a transducer that also accepts the escapes the writer never
emits (a solidus, and code points above the control range, in surrogate pairs
where needed).
-/

namespace KekMonitors.Json

/-! ## Writing -/

def hexDigit (n : Nat) : Byte :=
  if n < 10 then UInt8.ofNat (48 + n) else UInt8.ofNat (87 + n)

/-- One code unit between the quotes. -/
def escapeByte (b : Byte) : List Byte :=
  if b = 0x08 then [byte '\\', byte 'b']
  else if b = 0x09 then [byte '\\', byte 't']
  else if b = 0x0a then [byte '\\', byte 'n']
  else if b = 0x0c then [byte '\\', byte 'f']
  else if b = 0x0d then [byte '\\', byte 'r']
  else if b = byte '"' then [byte '\\', byte '"']
  else if b = byte '\\' then [byte '\\', byte '\\']
  else if b < 0x20 then
    [byte '\\', byte 'u', byte '0', byte '0',
      hexDigit (b.toNat / 16), hexDigit (b.toNat % 16)]
  else [b]

/-- The code units of a string. -/
def encodeString (s : String) : List Byte :=
  s.toByteArray.data.toList

/-- A string with its quotes. -/
def quote (s : String) : List Byte :=
  byte '"' :: ((encodeString s).flatMap escapeByte ++ [byte '"'])

/-! ## Reading -/

/-- What the reader has seen since the last complete character. -/
inductive StringState where
  | plain
  | escape
  | unicode (high : Option Nat) (value : Nat) (missing : Nat)
  | lowEscape (high : Nat)
  | lowMark (high : Nat)
  deriving DecidableEq, Repr

def hexValue (b : Byte) : Option Nat :=
  if isDigit b then some (b.toNat - 48)
  else if byte 'a' ≤ b && b ≤ byte 'f' then some (b.toNat - 87)
  else if byte 'A' ≤ b && b ≤ byte 'F' then some (b.toNat - 55)
  else none

def unescape (b : Byte) : Option Byte :=
  if b = byte '"' then some (byte '"')
  else if b = byte '\\' then some (byte '\\')
  else if b = byte '/' then some (byte '/')
  else if b = byte 'b' then some 0x08
  else if b = byte 'f' then some 0x0c
  else if b = byte 'n' then some 0x0a
  else if b = byte 'r' then some 0x0d
  else if b = byte 't' then some 0x09
  else none

def isHighSurrogate (unit : Nat) : Bool := 0xd800 ≤ unit && unit ≤ 0xdbff

def isLowSurrogate (unit : Nat) : Bool := 0xdc00 ≤ unit && unit ≤ 0xdfff

/-- The code units of a code point. -/
def encodePoint (point : Nat) : List Byte :=
  String.utf8EncodeChar (Char.ofNat point)

/-- The four hex digits of an escape are complete. -/
def finishUnit :
    Option Nat → Nat → Option (List Byte × StringState)
  | none, unit =>
      if isHighSurrogate unit then some ([], .lowEscape unit)
      else if isLowSurrogate unit then none
      else some (encodePoint unit, .plain)
  | some high, unit =>
      if isLowSurrogate unit then
        some (encodePoint
          (0x10000 + (high - 0xd800) * 0x400 + (unit - 0xdc00)), .plain)
      else none

/-- One byte inside a string that does not close it. -/
def StringState.next :
    StringState → Byte → Option (List Byte × StringState)
  | .plain, b =>
      if b = byte '\\' then some ([], .escape)
      else if b < 0x20 then none
      else some ([b], .plain)
  | .escape, b =>
      if b = byte 'u' then some ([], .unicode none 0 3)
      else (unescape b).map fun c => ([c], .plain)
  | .unicode high value missing, b =>
      match hexValue b with
      | none => none
      | some digit =>
          match missing with
          | missing + 1 =>
              some ([], .unicode high (16 * value + digit) missing)
          | 0 => finishUnit high (16 * value + digit)
  | .lowEscape high, b =>
      if b = byte '\\' then some ([], .lowMark high) else none
  | .lowMark high, b =>
      if b = byte 'u' then some ([], .unicode (some high) 0 3) else none

/-- Read up to the closing quote, which only the plain state sees. -/
def scanStringFrom :
    StringState → List Byte → Option (List Byte × List Byte)
  | _, [] => none
  | state, b :: rest =>
      if state = .plain ∧ b = byte '"' then some ([], rest)
      else
        match state.next b with
        | none => none
        | some (output, next) =>
            (scanStringFrom next rest).map fun found =>
              (output ++ found.1, found.2)

/-- A string read to its closing quote does not depend on what follows. -/
theorem scanStringFrom_append {state : StringState}
    {input content rest : List Byte}
    (read : scanStringFrom state input = some (content, rest))
    (more : List Byte) :
    scanStringFrom state (input ++ more) = some (content, rest ++ more) := by
  induction input generalizing state content with
  | nil => simp [scanStringFrom] at read
  | cons b input ih =>
      simp only [scanStringFrom] at read
      split at read
      · rename_i closing
        rcases Prod.mk.inj (Option.some.inj read) with ⟨rfl, rfl⟩
        simp [scanStringFrom, closing]
      · rename_i opened
        cases step : state.next b with
        | none => simp [step] at read
        | some transition =>
            rcases transition with ⟨output, next⟩
            simp only [step, Option.map_eq_some_iff] at read
            rcases read with ⟨⟨inner, left⟩, innerRead, same⟩
            rcases Prod.mk.inj same with ⟨rfl, rfl⟩
            simp [scanStringFrom, opened, step, ih innerRead]

/-- A run of transitions that does not meet the closing quote. -/
def runString : StringState → List Byte → Option (List Byte × StringState)
  | state, [] => some ([], state)
  | state, b :: rest =>
      if state = .plain ∧ b = byte '"' then none
      else
        match state.next b with
        | none => none
        | some (output, next) =>
            (runString next rest).map fun found =>
              (output ++ found.1, found.2)

theorem scanStringFrom_of_run {state next : StringState}
    {bytes output : List Byte}
    (run : runString state bytes = some (output, next))
    (rest : List Byte) :
    scanStringFrom state (bytes ++ rest) =
      (scanStringFrom next rest).map fun found =>
        (output ++ found.1, found.2) := by
  induction bytes generalizing state output with
  | nil =>
      rcases Prod.mk.inj (Option.some.inj run) with ⟨rfl, rfl⟩
      simp
  | cons b bytes ih =>
      simp only [runString] at run
      split at run
      · simp at run
      · rename_i opened
        cases step : state.next b with
        | none => simp [step] at run
        | some transition =>
            rcases transition with ⟨first, middle⟩
            simp only [step, Option.map_eq_some_iff] at run
            rcases run with ⟨⟨inner, last⟩, innerRun, same⟩
            rcases Prod.mk.inj same with ⟨rfl, rfl⟩
            simp only [List.cons_append, scanStringFrom, opened,
              if_false, step, ih innerRun, Option.map_map]
            congr 1
            funext found
            simp

/-- The reader undoes the escape of every code unit. -/
theorem runString_escapeByte (b : Byte) :
    runString .plain (escapeByte b) = some ([b], .plain) := by
  have all : ∀ n : Fin 256,
      runString .plain (escapeByte (UInt8.ofNat n)) =
        some ([UInt8.ofNat n], .plain) := by
    decide +kernel
  have value : UInt8.ofNat b.toNat = b := UInt8.ofNat_toNat
  have unit := all ⟨b.toNat, b.toNat_lt⟩
  rwa [value] at unit

theorem scanStringFrom_escaped (content rest : List Byte) :
    scanStringFrom .plain
        (content.flatMap escapeByte ++ byte '"' :: rest) =
      some (content, rest) := by
  induction content with
  | nil => simp [scanStringFrom]
  | cons b content ih =>
      rw [List.flatMap_cons, List.append_assoc,
        scanStringFrom_of_run (runString_escapeByte b), ih]
      rfl

/-- The string of a list of code units, if they are valid UTF-8. -/
def decodeString (bytes : List Byte) : Option String :=
  String.fromUTF8? ⟨bytes.toArray⟩

theorem decodeString_encodeString (s : String) :
    decodeString (encodeString s) = some s := by
  have whole : (⟨s.toByteArray.data.toList.toArray⟩ : ByteArray) =
      s.toByteArray := by simp
  rw [decodeString, encodeString, whole, String.fromUTF8?,
    dif_pos s.isValidUTF8]
  rfl

theorem encodeString_of_decodeString {bytes : List Byte} {s : String}
    (decoded : decodeString bytes = some s) : encodeString s = bytes := by
  rw [decodeString, String.fromUTF8?] at decoded
  split at decoded
  · rcases Option.some.inj decoded with rfl
    rfl
  · simp at decoded

/-- Read a string after its opening quote. -/
def scanString (input : List Byte) : Option (String × List Byte) :=
  match scanStringFrom .plain input with
  | none => none
  | some (content, rest) =>
      (decodeString content).map fun s => (s, rest)

theorem scanString_quote (s : String) (rest : List Byte) :
    scanString ((encodeString s).flatMap escapeByte ++ byte '"' :: rest) =
      some (s, rest) := by
  simp [scanString, scanStringFrom_escaped, decodeString_encodeString]

theorem scanString_append {input rest : List Byte} {s : String}
    (read : scanString input = some (s, rest)) (more : List Byte) :
    scanString (input ++ more) = some (s, rest ++ more) := by
  unfold scanString at read
  cases found : scanStringFrom .plain input with
  | none => simp [found] at read
  | some result =>
      rcases result with ⟨content, left⟩
      simp only [found, Option.map_eq_some_iff] at read
      rcases read with ⟨decoded, decodedRead, same⟩
      rcases Prod.mk.inj same with ⟨rfl, rfl⟩
      simp [scanString, scanStringFrom_append found, decodedRead]

end KekMonitors.Json
