import KekMonitors.Utils
import Mathlib.Data.List.AList
import Mathlib.Data.List.TakeWhile

/-!
# The command line client

`main` of `cli.cpp`: it makes a command out of its arguments, sends it to the
manager and shows the response.  The arguments are bytes, of which only those
that end up in the message have to be UTF-8.
-/

namespace KekMonitors.Cli

open Json

/-! ## Reading the command -/

/-- `commandStringMap().right.at(str)`, which throws for an unknown name. -/
def stringToCommand (str : List Byte) : Option CommandType :=
  (commandStringMap.find? fun pair => word pair.2 = str).map
    fun pair => pair.1.code

/-- The blanks of the C locale. -/
def isBlank (b : Byte) : Bool :=
  b == 0x20 || (0x09 ≤ b && b ≤ 0x0d)

/-- The digits in front, if there are any. -/
def leadingDigits (str : List Byte) : Option Int :=
  if str.takeWhile isDigit = [] then none
  else some (ofDecimal (str.takeWhile isDigit))

/-- Blanks, a sign and digits; what follows these does not matter. -/
def strtol (str : List Byte) : Option Int :=
  match str.dropWhile isBlank with
  | [] => none
  | sign :: rest =>
      if sign = byte '-' then (leadingDigits rest).map fun value => -value
      else if sign = byte '+' then leadingDigits rest
      else leadingDigits (sign :: rest)

/-- The values of an `int`. -/
def IsInt (value : Int) : Prop := -2 ^ 31 ≤ value ∧ value < 2 ^ 31

instance (value : Int) : Decidable (IsInt value) :=
  inferInstanceAs (Decidable (_ ∧ _))

inductive NumberError where
  | invalidArgument
  | outOfRange
  deriving DecidableEq, Repr

def stoi (str : List Byte) : Except NumberError Int :=
  match strtol str with
  | none => .error .invalidArgument
  | some value => if IsInt value then .ok value else .error .outOfRange

/-! ## Reading the payload -/

/-- The object under construction; its texts are still bytes. -/
abbrev Payload := AList fun _ : List Byte => List Byte

def dashes : List Byte := [byte '-', byte '-']

/-- The loop over the pairs, which ends `main` at a key without dashes. -/
def readPayload (payload : Payload) :
    List (List Byte) → Except Nat Payload
  | key :: value :: options =>
      if dashes.isPrefixOf key then
        readPayload (payload.insert (key.drop 2) value) options
      else .error 4
  | _ => .ok payload

/-- The JSON value, if `dump` does not throw over one of its texts. -/
def membersToJson : List (Sigma fun _ : List Byte => List Byte) →
    Option Json
  | [] => some Json.null
  | ⟨key, value⟩ :: rest => do
      let key ← decodeString key
      let value ← decodeString value
      let payload ← membersToJson rest
      some (payload.set key (Json.string value))

/-! ## `main` -/

structure Outcome where
  sent : Option Cmd := none
  ended : Except Fault Nat

def Outcome.exit (code : Nat) : Outcome := { ended := .ok code }

def Outcome.raise (exception : Exception) : Outcome :=
  { ended := .error (.raised exception) }

/-- Of a response only the error can fail to be shown. -/
def showResponse (received : Option Response) : Except Fault Nat :=
  match received with
  | none => .ok 0
  | some resp => do
      let _ ← Utils.errorToString resp.error
      .ok 0

/-- The manager accepts the connection, and may answer. -/
def send (command : CommandType) (payload : Payload)
    (received : Option Response) : Outcome :=
  match membersToJson payload.entries with
  | none => .raise .jsonTypeError
  | some payload =>
      { sent := some { cmd := command, payload := payload }
        ended := showResponse received }

def mainWith (command : CommandType) (options : List (List Byte))
    (received : Option Response) : Outcome :=
  if options = [] then send command ∅ received
  else if options.length % 2 = 0 then
    match readPayload ∅ options with
    | .error code => .exit code
    | .ok payload => send command payload received
  else .exit 3

/-- The arguments are those after the name of the program. -/
def main (args : List (List Byte)) (received : Option Response) : Outcome :=
  match args with
  | [] => .exit 1
  | first :: options =>
      if first = word "--list-cmd" then .exit 0
      else
        match stringToCommand first with
        | some command => mainWith command options received
        | none =>
            match stoi first with
            | .ok command =>
                mainWith (UInt32.ofInt command) options received
            | .error .invalidArgument => .exit 2
            -- thrown in a handler, so no handler beside it sees it
            | .error .outOfRange => .raise .outOfRange

/-! ## What the command line says -/

/-- The first argument names the command, or is its number in decimal. -/
inductive Written (first : List Byte) (code : CommandType) : Prop
  | name (pair : Command × String) (registered : pair ∈ commandStringMap)
      (same : word pair.2 = first) (named : code = pair.1.code)
  | number (nonempty : first ≠ []) (digits : first.all isDigit = true)
      (same : ofDecimal first = code.toNat)

def Paired (options : List (List Byte)) : Prop := options.length % 2 = 0

/-- The keys of the options that form pairs. -/
def keys : List (List Byte) → List (List Byte)
  | key :: _ :: options => key :: keys options
  | _ => []

def Keyed (options : List (List Byte)) : Prop :=
  ∀ key ∈ keys options, dashes <+: key

/-- The last value given for a key. -/
def lastGiven (name : List Byte) : List (List Byte) → Option (List Byte)
  | key :: value :: options =>
      (lastGiven name options).or
        (if key = dashes ++ name then some value else none)
  | _ => none

/-- The payload is what the options say. -/
structure Conveys (options : List (List Byte)) (payload : Json) : Prop where
  isNull : options = [] → payload = Json.null
  isObject : options ≠ [] → payload.isObject = true
  members : ∀ name value, payload.find? name = some value ↔
    ∃ text, lastGiven (encodeString name) options =
        some (encodeString text) ∧
      value = Json.string text

/-- The outcomes that the arguments allow. -/
inductive Allowed (first : List Byte) (options : List (List Byte)) :
    Outcome → Prop
  | noCommand (unwritten : ∀ code, ¬ Written first code) :
      Allowed first options (.exit 2)
  | unpaired (odd : ¬ Paired options) : Allowed first options (.exit 3)
  | unkeyed (paired : Paired options) (bad : ¬ Keyed options) :
      Allowed first options (.exit 4)
  | sent (cmd : Cmd) (written : Written first cmd.cmd)
      (paired : Paired options) (keyed : Keyed options)
      (conveyed : Conveys options cmd.payload) :
      Allowed first options { sent := some cmd, ended := .ok 0 }

/-- Every key, and the last value given for it, is UTF-8. -/
def InUtf8 (options : List (List Byte)) : Prop :=
  ∀ name value, lastGiven name options = some value →
    (decodeString name).isSome ∧ (decodeString value).isSome

/-- The error of the response, if there is one, has a name. -/
def Shown (received : Option Response) : Prop :=
  ∀ response, received = some response → Utils.IsNamed response.error

/-- `main` gets as far as the connection. -/
structure Connects (first : List Byte) (options : List (List Byte)) : Prop
    where
  command : (stringToCommand first).isSome ∨ (strtol first).isSome
  paired : Paired options
  keyed : Keyed options

/-- When `main` does what the arguments allow. -/
structure Sound (first : List Byte) (options : List (List Byte))
    (received : Option Response) : Prop where
  /-- Without a name, a number in front is an `int`. -/
  inRange : stringToCommand first = none →
    ∀ value, strtol first = some value → IsInt value
  /-- A command that will be sent is a name or digits alone, ... -/
  written : Connects first options →
    (stringToCommand first).isSome ∨ first.all isDigit = true
  /-- ... its payload is text, ... -/
  inUtf8 : Connects first options → InUtf8 options
  /-- ... and the response to it can be shown. -/
  shown : Connects first options → Shown received

/-! ## The payload -/

theorem eq_dashes_append {key : List Byte} (dashed : dashes <+: key) :
    key = dashes ++ key.drop 2 := by
  rcases dashed with ⟨name, rfl⟩
  rfl

/-- The loop reads all pairs just when every key has its dashes. -/
theorem readPayload_cases (payload : Payload) (options : List (List Byte)) :
    (Keyed options ∧ ∃ result, readPayload payload options = .ok result) ∨
      (¬ Keyed options ∧ readPayload payload options = .error 4) := by
  fun_induction readPayload payload options with
  | case1 payload key value options dashed ih =>
      have keyed : Keyed (key :: value :: options) ↔ Keyed options := by
        simp [Keyed, keys, List.isPrefixOf_iff_prefix.mp dashed]
      rw [keyed]
      exact ih
  | case2 payload key value options bare =>
      right
      refine ⟨fun keyed => bare ?_, rfl⟩
      exact List.isPrefixOf_iff_prefix.mpr (keyed key List.mem_cons_self)
  | case3 options payload short =>
      left
      refine ⟨?_, payload, rfl⟩
      intro key member
      cases options with
      | nil => simp [keys] at member
      | cons key options =>
          cases options with
          | nil => simp [keys] at member
          | cons value options => exact absurd rfl (short key value options)

theorem lookup_readPayload {payload result : Payload}
    {options : List (List Byte)}
    (read : readPayload payload options = .ok result) (name : List Byte) :
    result.lookup name =
      (lastGiven name options).or (payload.lookup name) := by
  fun_induction readPayload payload options with
  | case1 payload key value options dashed ih =>
      have prefixed := eq_dashes_append (List.isPrefixOf_iff_prefix.mp dashed)
      rw [ih read, lastGiven, Option.or_assoc]
      congr 1
      by_cases same : name = key.drop 2
      · rw [same, AList.lookup_insert, ← prefixed, if_pos rfl]
        rfl
      · rw [AList.lookup_insert_ne same, if_neg, Option.none_or]
        intro here
        rw [prefixed] at here
        exact same (List.append_cancel_left here).symm
  | case2 payload key value options bare => simp at read
  | case3 options payload short =>
      rcases Except.ok.inj read with rfl
      cases options with
      | nil => rfl
      | cons key options =>
          cases options with
          | nil => rfl
          | cons value options => exact absurd rfl (short key value options)

theorem membersToJson_isObject {members : List (Sigma fun _ => List Byte)}
    (nonempty : members ≠ []) {payload : Json}
    (dumped : membersToJson members = some payload) :
    payload.isObject = true := by
  cases members with
  | nil => exact absurd rfl nonempty
  | cons member rest =>
      rcases Option.bind_eq_some_iff.mp dumped with ⟨key, -, dumped⟩
      rcases Option.bind_eq_some_iff.mp dumped with ⟨value, -, dumped⟩
      rcases Option.bind_eq_some_iff.mp dumped with ⟨older, -, last⟩
      rcases Option.some.inj last with rfl
      rfl

theorem encodeString_injective : Function.Injective encodeString := by
  intro left right same
  have decoded := congrArg decodeString same
  rw [decodeString_encodeString, decodeString_encodeString] at decoded
  exact Option.some.inj decoded

/-- A member is found under its key, with its text. -/
theorem find?_membersToJson {members : List (Sigma fun _ => List Byte)}
    {payload : Json} (dumped : membersToJson members = some payload)
    (name : String) (found : Json) :
    payload.find? name = some found ↔
      ∃ text, members.dlookup (encodeString name) =
          some (encodeString text) ∧
        found = Json.string text := by
  induction members generalizing payload with
  | nil =>
      rcases Option.some.inj dumped with rfl
      simp
  | cons member rest ih =>
      rcases member with ⟨keyBytes, valueBytes⟩
      rcases Option.bind_eq_some_iff.mp dumped with ⟨key, keyText, dumped⟩
      rcases Option.bind_eq_some_iff.mp dumped with ⟨value, text, dumped⟩
      rcases Option.bind_eq_some_iff.mp dumped with ⟨older, inner, last⟩
      rcases Option.some.inj last with rfl
      have keySame := encodeString_of_decodeString keyText
      have valueSame := encodeString_of_decodeString text
      subst keySame valueSame
      by_cases same : name = key
      · subst same
        simp only [find?_set_self, List.dlookup_cons_eq, Option.some.injEq]
        constructor
        · rintro rfl
          exact ⟨value, rfl, rfl⟩
        · rintro ⟨text, encoded, rfl⟩
          rw [encodeString_injective encoded]
      · have other : encodeString name ≠ encodeString key :=
          fun encoded => same (encodeString_injective encoded)
        rw [find?_set_of_ne same, List.dlookup_cons_ne _ _ other, ih inner]

theorem isSome_membersToJson
    (members : List (Sigma fun _ : List Byte => List Byte)) :
    (membersToJson members).isSome ↔
      ∀ member ∈ members,
        (decodeString member.1).isSome ∧ (decodeString member.2).isSome := by
  induction members with
  | nil => simp [membersToJson]
  | cons member rest ih =>
      rcases member with ⟨key, value⟩
      rw [List.forall_mem_cons, ← ih, membersToJson]
      cases decodeString key <;> cases decodeString value <;>
        cases membersToJson rest <;> simp

/-- Of the pairs, the last one for each key is in the message. -/
theorem isSome_payload_iff {options : List (List Byte)} {payload : Payload}
    (read : readPayload ∅ options = .ok payload) :
    (membersToJson payload.entries).isSome ↔ InUtf8 options := by
  have lookup := lookup_readPayload read
  simp only [AList.lookup_empty, Option.or_none] at lookup
  rw [isSome_membersToJson]
  constructor
  · intro texts name value given
    rw [← lookup] at given
    exact texts ⟨name, value⟩ (AList.mem_lookup_iff.mp given)
  · intro texts member inside
    apply texts
    rw [← lookup]
    exact AList.mem_lookup_iff.mpr inside

theorem lastGiven_nil_iff {options : List (List Byte)}
    (paired : Paired options) (keyed : Keyed options) :
    (∀ name, lastGiven name options = none) ↔ options = [] := by
  constructor
  · intro none
    cases options with
    | nil => rfl
    | cons key options =>
        cases options with
        | nil => simp [Paired] at paired
        | cons value options =>
            have dashed := eq_dashes_append (keyed key List.mem_cons_self)
            have given := none (key.drop 2)
            rw [lastGiven, ← dashed, if_pos rfl] at given
            simp at given
  · rintro rfl name
    rfl

/-- What is sent conveys the options. -/
theorem conveys_of_readPayload {options : List (List Byte)}
    {payload : Payload} {json : Json} (paired : Paired options)
    (keyed : Keyed options) (read : readPayload ∅ options = .ok payload)
    (dumped : membersToJson payload.entries = some json) :
    Conveys options json := by
  have lookup := lookup_readPayload read
  simp only [AList.lookup_empty, Option.or_none] at lookup
  have empty : payload.entries = [] ↔ options = [] := by
    rw [← lastGiven_nil_iff paired keyed]
    simp only [← lookup]
    constructor
    · intro none name
      rw [AList.lookup, none]
      rfl
    · intro none
      apply List.eq_nil_iff_forall_not_mem.mpr
      rintro ⟨name, value⟩ inside
      have given := AList.mem_lookup_iff.mpr inside
      rw [none name] at given
      simp at given
  exact {
    isNull := by
      intro none
      rw [empty.mpr none] at dumped
      exact (Option.some.inj dumped).symm
    isObject := fun some => membersToJson_isObject (mt empty.mp some) dumped
    members := by
      intro name value
      rw [find?_membersToJson dumped, ← lookup]
      rfl }

/-! ## The command -/

theorem written_of_stringToCommand {first : List Byte} {code : CommandType}
    (found : stringToCommand first = some code) : Written first code := by
  rcases Option.map_eq_some_iff.mp found with ⟨pair, registered, rfl⟩
  have same := List.find?_some registered
  exact .name pair (List.mem_of_find?_eq_some registered)
    (of_decide_eq_true same) rfl

/-- A number is a run of digits, as no name is. -/
theorem digits_of_written {first : List Byte} {code : CommandType}
    (unnamed : stringToCommand first = none) (written : Written first code) :
    first ≠ [] ∧ first.all isDigit = true ∧
      ofDecimal first = code.toNat := by
  cases written with
  | name pair registered same named =>
      have missing := Option.map_eq_none_iff.mp unnamed
      have absent := List.find?_eq_none.mp missing pair registered
      exact absurd (decide_eq_true same) absent
  | number nonempty digits same => exact ⟨nonempty, digits, same⟩

theorem digit_head {b : Byte} (digit : isDigit b = true) :
    isBlank b = false ∧ b ≠ byte '-' ∧ b ≠ byte '+' := by
  have all : ∀ n : Fin 256, isDigit (UInt8.ofNat n) = true →
      isBlank (UInt8.ofNat n) = false ∧ UInt8.ofNat n ≠ byte '-' ∧
        UInt8.ofNat n ≠ byte '+' := by
    decide +kernel
  have same : UInt8.ofNat b.toNat = b := UInt8.ofNat_toNat
  have unit := all ⟨b.toNat, b.toNat_lt⟩
  rw [same] at unit
  exact unit digit

theorem strtol_of_digits {first : List Byte} (nonempty : first ≠ [])
    (digits : first.all isDigit = true) :
    strtol first = some (ofDecimal first : Int) := by
  cases first with
  | nil => exact absurd rfl nonempty
  | cons b rest =>
      have all := List.all_eq_true.mp digits
      rcases digit_head (all b List.mem_cons_self) with
        ⟨blank, notMinus, notPlus⟩
      have whole : (b :: rest).takeWhile isDigit = b :: rest :=
        List.takeWhile_eq_self_iff.mpr all
      have stopped : (b :: rest).dropWhile isBlank = b :: rest := by
        simp [blank]
      rw [strtol, stopped]
      simp [notMinus, notPlus, leadingDigits, whole]

/-- In the range of `int` the number is sent as it is written. -/
theorem written_ofInt_iff {first : List Byte} {value : Int}
    (unnamed : stringToCommand first = none)
    (read : strtol first = some value) (small : IsInt value) :
    Written first (UInt32.ofInt value) ↔ first.all isDigit = true := by
  constructor
  · intro written
    exact (digits_of_written unnamed written).2.1
  · intro digits
    have nonempty : first ≠ [] := by
      rintro rfl
      simp [strtol] at read
    have same := strtol_of_digits nonempty digits
    rw [read] at same
    rcases Option.some.inj same with rfl
    refine .number nonempty digits ?_
    have bound := small.2
    have same : ((ofDecimal first : Int) % 2 ^ 32).toNat = ofDecimal first := by
      omega
    have small : ofDecimal first < UInt32.size := by
      rw [UInt32.size]
      omega
    rw [UInt32.ofInt, same, UInt32.toNat_ofNat_of_lt' small]

/-! ## The outcome -/

theorem not_allowed_of_error (first : List Byte)
    (options : List (List Byte)) {outcome : Outcome} {fault : Fault}
    (raised : outcome.ended = .error fault) :
    ¬ Allowed first options outcome := by
  intro allowed
  cases allowed <;> simp [Outcome.exit] at raised

theorem showResponse_cases (received : Option Response) :
    (Shown received ∧ showResponse received = .ok 0) ∨
      (¬ Shown received ∧
        showResponse received = .error (.raised .outOfRange)) := by
  cases received with
  | none => exact Or.inl ⟨by simp [Shown], rfl⟩
  | some response =>
      by_cases named : Utils.IsNamed response.error
      · left
        refine ⟨by simpa [Shown] using named, ?_⟩
        rw [showResponse, Utils.errorToString_of_named named]
        rfl
      · right
        refine ⟨by simpa [Shown] using named, ?_⟩
        rw [showResponse, Utils.errorToString_of_unnamed named]
        rfl

theorem sent_allowed_iff (first : List Byte) {options : List (List Byte)}
    (cmd : Cmd) (paired : Paired options) (keyed : Keyed options)
    (conveyed : Conveys options cmd.payload) :
    Allowed first options { sent := some cmd, ended := .ok 0 } ↔
      Written first cmd.cmd := by
  constructor
  · rintro ⟨⟩
    assumption
  · intro written
    exact .sent cmd written paired keyed conveyed

theorem send_allowed_iff {first : List Byte} {options : List (List Byte)}
    {payload : Payload} (command : CommandType)
    (received : Option Response) (paired : Paired options)
    (keyed : Keyed options) (read : readPayload ∅ options = .ok payload) :
    Allowed first options (send command payload received) ↔
      Written first command ∧ InUtf8 options ∧ Shown received := by
  rw [← isSome_payload_iff read, send]
  cases dumped : membersToJson payload.entries with
  | none =>
      have raised : ¬ Allowed first options (.raise .jsonTypeError) :=
        not_allowed_of_error first options rfl
      simp [raised]
  | some json =>
      have conveyed := conveys_of_readPayload paired keyed read dumped
      rcases showResponse_cases received with
        ⟨shown, ended⟩ | ⟨hidden, raised⟩
      · simp [ended, shown, sent_allowed_iff first
          { cmd := command, payload := json } paired keyed conveyed]
      · have uncaught : ¬ Allowed first options
            { sent := some { cmd := command, payload := json }
              ended := showResponse received } :=
          not_allowed_of_error first options raised
        simp [hidden, uncaught]

theorem mainWith_allowed_iff {first : List Byte} {command : CommandType}
    (options : List (List Byte)) (received : Option Response) :
    Allowed first options (mainWith command options received) ↔
      (Paired options → Keyed options →
        Written first command ∧ InUtf8 options ∧ Shown received) := by
  rw [mainWith]
  split
  · rename_i none
    subst none
    have paired : Paired [] := rfl
    have keyed : Keyed [] := by simp [Keyed, keys]
    rw [send_allowed_iff command received paired keyed rfl]
    exact ⟨fun meets _ _ => meets, fun meets => meets paired keyed⟩
  split
  · rename_i paired
    rcases readPayload_cases ∅ options with
      ⟨keyed, payload, read⟩ | ⟨unkeyed, read⟩
    · rw [read]
      simp only [send_allowed_iff command received paired keyed read]
      exact ⟨fun meets _ _ => meets, fun meets => meets paired keyed⟩
    · rw [read]
      exact iff_of_true (.unkeyed paired unkeyed)
        fun _ keyed => absurd keyed unkeyed
  · rename_i odd
    exact iff_of_true (.unpaired odd) fun paired => absurd paired odd

theorem mainWith_sound_iff {first : List Byte} {command : CommandType}
    (options : List (List Byte)) (received : Option Response)
    (read : (stringToCommand first).isSome ∨ (strtol first).isSome)
    (inRange : stringToCommand first = none →
      ∀ value, strtol first = some value → IsInt value)
    (written : Written first command ↔
      (stringToCommand first).isSome ∨ first.all isDigit = true) :
    Allowed first options (mainWith command options received) ↔
      Sound first options received := by
  rw [mainWith_allowed_iff, written]
  constructor
  · intro meets
    exact {
      inRange := inRange
      written := fun connects => (meets connects.paired connects.keyed).1
      inUtf8 := fun connects => (meets connects.paired connects.keyed).2.1
      shown := fun connects => (meets connects.paired connects.keyed).2.2 }
  · intro sound paired keyed
    have connects : Connects first options := ⟨read, paired, keyed⟩
    exact ⟨sound.written connects, sound.inUtf8 connects,
      sound.shown connects⟩

/--
The client does what its arguments allow, and ends by no exception, just when
these are sound.
-/
theorem main_allowed_iff {first : List Byte} (options : List (List Byte))
    (received : Option Response) (other : first ≠ word "--list-cmd") :
    Allowed first options (main (first :: options) received) ↔
      Sound first options received := by
  rw [main, if_neg other]
  cases named : stringToCommand first with
  | some command =>
      apply mainWith_sound_iff
      · simp [named]
      · simp [named]
      · simp [named, written_of_stringToCommand named]
  | none =>
      cases read : strtol first with
      | none =>
          simp only [stoi, read]
          refine iff_of_true (.noCommand ?_) ?_
          · intro code written
            rcases digits_of_written named written with
              ⟨nonempty, digits, -⟩
            have value := strtol_of_digits nonempty digits
            simp [read] at value
          · have absent : ¬ Connects first options := by
              intro connects
              have command := connects.command
              simp [named, read] at command
            exact {
              inRange := by simp [read]
              written := fun connects => absurd connects absent
              inUtf8 := fun connects => absurd connects absent
              shown := fun connects => absurd connects absent }
      | some value =>
          by_cases small : IsInt value
          · simp only [stoi, read, if_pos small]
            apply mainWith_sound_iff
            · simp [read]
            · simp [read, small]
            · simp [named, written_ofInt_iff named read small]
          · simp only [stoi, read, if_neg small]
            refine iff_of_false (not_allowed_of_error first options rfl) ?_
            exact fun sound => small (sound.inRange named value read)

theorem add_monitor_allowed :
    Allowed (word "MM_ADD_MONITOR") [word "--name", word "Foo"]
      (main [word "MM_ADD_MONITOR", word "--name", word "Foo"]
        (some Response.okResponse)) := by
  refine (main_allowed_iff _ _ (by decide)).mpr ?_
  have named : (stringToCommand (word "MM_ADD_MONITOR")).isSome := by
    decide +kernel
  exact {
    inRange := fun missing => absurd named (by simp [missing])
    written := fun _ => Or.inl named
    inUtf8 := by
      rintro - name value given
      simp only [lastGiven, Option.none_or, Option.ite_none_right_eq_some,
        Option.some.injEq] at given
      rcases given with ⟨key, rfl⟩
      have same : word "--name" = dashes ++ word "name" := by decide
      rw [same] at key
      rw [← List.append_cancel_left key]
      decide +kernel
    shown := by
      rintro - response received
      rcases Option.some.inj received with rfl
      decide }

/-- A number of 32 bits that no `int` holds ends the client. -/
theorem wide_number_raises :
    Written (word "2147483648") 2147483648 ∧
      ¬ Allowed (word "2147483648") []
        (main [word "2147483648"] none) := by
  have raised : (main [word "2147483648"] none).ended =
      .error (.raised .outOfRange) := by
    decide +kernel
  constructor
  · exact .number (by decide) (by decide) (by decide)
  · exact not_allowed_of_error _ _ raised

end KekMonitors.Cli
