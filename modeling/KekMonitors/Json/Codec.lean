import KekMonitors.Json.Value

/-!
# Writing and parsing JSON values

`dump` writes the compact form of RFC 8259.  `parse` accepts one value
followed by whitespace and the end of the input, where a NUL byte counts as
the end; `parsePrefix` leaves what follows the value unread.

The parser is structurally recursive on a fuel argument.  The length of the
input is always enough of it (`parse_dump`), and no amount of it lets a
proper prefix of a written object parse (`parse_prefix_object`).
-/

namespace KekMonitors.Json

/-- The bytes of a fixed word. -/
def word (s : String) : List Byte := s.toList.map byte

/-- The values written as a fixed word. -/
inductive FixedWord where
  | nullWord
  | trueWord
  | falseWord
  deriving DecidableEq, Repr

def FixedWord.text : FixedWord → List Byte
  | .nullWord => word "null"
  | .trueWord => word "true"
  | .falseWord => word "false"

def FixedWord.tree : FixedWord → Tree
  | .nullWord => .null
  | .trueWord => .bool true
  | .falseWord => .bool false

/-! ## Writing -/

mutual

def dump : Tree → List Byte
  | .null => FixedWord.text .nullWord
  | .bool true => FixedWord.text .trueWord
  | .bool false => FixedWord.text .falseWord
  | .integer value => renderInt value.val
  | .float value => value.token
  | .string value => quote value
  | .array [] => [byte '[', byte ']']
  | .array (item :: items) =>
      byte '[' :: (dump item ++ dumpItems items)
  | .object [] => [byte '{', byte '}']
  | .object ((key, value) :: members) =>
      byte '{' :: (quote key ++ byte ':' :: (dump value ++
        dumpMembers members))

/-- The items after the first, and the closing bracket. -/
def dumpItems : List Tree → List Byte
  | [] => [byte ']']
  | item :: items => byte ',' :: (dump item ++ dumpItems items)

/-- The members after the first, and the closing brace. -/
def dumpMembers : List (String × Tree) → List Byte
  | [] => [byte '}']
  | (key, value) :: members =>
      byte ',' :: (quote key ++ byte ':' :: (dump value ++
        dumpMembers members))

end

/-! ## Parsing -/

/-- The kinds of token a value may start with. -/
inductive Lead where
  | object
  | array
  | string
  | fixed (fixedWord : FixedWord)
  | number
  deriving DecidableEq, Repr

def lead (b : Byte) : Lead :=
  if b = byte '{' then .object
  else if b = byte '[' then .array
  else if b = byte '"' then .string
  else if b = byte 't' then .fixed .trueWord
  else if b = byte 'f' then .fixed .falseWord
  else if b = byte 'n' then .fixed .nullWord
  else .number

/-- The first byte that is not whitespace. -/
def nextByte (input : List Byte) : Option (Byte × List Byte) :=
  match skipSpace input with
  | [] => none
  | b :: rest => some (b, rest)

theorem scanNumberFrom_token {state : NumberState}
    {input token rest : List Byte}
    (scanned : scanNumberFrom state input = some (token, rest)) :
    scanNumberFrom state token = some (token, []) := by
  induction input generalizing state token with
  | nil =>
      simp only [scanNumberFrom] at scanned
      split at scanned
      · rename_i accepting
        rcases Prod.mk.inj (Option.some.inj scanned) with ⟨rfl, -⟩
        simp [scanNumberFrom, accepting]
      · simp at scanned
  | cons b input ih =>
      simp only [scanNumberFrom] at scanned
      cases step : state.next b with
      | none =>
          simp only [step] at scanned
          split at scanned
          · rename_i accepting
            rcases Prod.mk.inj (Option.some.inj scanned) with ⟨rfl, -⟩
            simp [scanNumberFrom, accepting]
          · simp at scanned
      | some next =>
          simp only [step, Option.map_eq_some_iff] at scanned
          rcases scanned with ⟨⟨inner, left⟩, innerScanned, same⟩
          rcases Prod.mk.inj same with ⟨rfl, rfl⟩
          simp [scanNumberFrom, step, ih innerScanned]

/-- Read a number; a literal that rounds to an infinite double is an error. -/
def readNumber (input : List Byte) : Option (Tree × List Byte) :=
  match scanned : scanNumber input with
  | none => none
  | some (token, rest) =>
      match integer : readInteger token with
      | some value => some (.integer value, rest)
      | none =>
          if finite : isFinite token = true then
            some (.float ⟨token, scanNumberFrom_token scanned,
              integer, finite⟩, rest)
          else none

mutual

def parseValue : Nat → List Byte → Option (Tree × List Byte)
  | 0, _ => none
  | fuel + 1, input => do
      let (b, rest) ← nextByte input
      match lead b with
      | .object => do
          let (first, inside) ← nextByte rest
          if first = byte '}' then some (.object [], inside)
          else
            let (members, rest) ← parseMembers fuel [] rest
            some (.object members, rest)
      | .array => do
          let (first, inside) ← nextByte rest
          if first = byte ']' then some (.array [], inside)
          else
            let (items, rest) ← parseItems fuel rest
            some (.array items, rest)
      | .string => do
          let (value, rest) ← scanString rest
          some (.string value, rest)
      | .fixed fixedWord => do
          let rest ← expect fixedWord.text (b :: rest)
          some (fixedWord.tree, rest)
      | .number => readNumber (b :: rest)

/-- The items of a nonempty array, up to its closing bracket. -/
def parseItems : Nat → List Byte → Option (List Tree × List Byte)
  | 0, _ => none
  | fuel + 1, input => do
      let (item, rest) ← parseValue fuel input
      let (b, rest) ← nextByte rest
      if b = byte ',' then
        let (items, rest) ← parseItems fuel rest
        some (item :: items, rest)
      else if b = byte ']' then some ([item], rest)
      else none

/--
The members of a nonempty object, up to its closing brace.  A repeated key
takes the later value.
-/
def parseMembers :
    Nat → List (String × Tree) → List Byte →
      Option (List (String × Tree) × List Byte)
  | 0, _, _ => none
  | fuel + 1, members, input => do
      let (open_, rest) ← nextByte input
      if open_ = byte '"' then
        let (key, rest) ← scanString rest
        let (colon, rest) ← nextByte rest
        if colon = byte ':' then
          let (value, rest) ← parseValue fuel rest
          let members := insertMember key value members
          let (b, rest) ← nextByte rest
          if b = byte ',' then parseMembers fuel members rest
          else if b = byte '}' then some (members, rest)
          else none
        else none
      else none

end

/-- Parse the value at the front of the input and leave the rest. -/
def parseTree (input : List Byte) : Option (Tree × List Byte) :=
  parseValue input.length input

/-- Whitespace up to the end of the input or a NUL byte. -/
def atEnd (input : List Byte) : Bool :=
  match skipSpace input with
  | [] => true
  | b :: _ => b == 0

/-! ## What the parser accepts is a value -/

mutual

theorem parseValue_canonical (fuel : Nat) {input rest : List Byte}
    {tree : Tree} (read : parseValue fuel input = some (tree, rest)) :
    tree.Canonical := by
  match fuel with
  | 0 => simp [parseValue] at read
  | fuel + 1 =>
      simp only [parseValue, Option.bind_eq_bind,
        Option.bind_eq_some_iff] at read
      rcases read with ⟨⟨b, after⟩, -, read⟩
      cases kind : lead b with
      | object =>
          simp only [kind, Option.bind_eq_some_iff] at read
          rcases read with ⟨⟨first, inside⟩, -, read⟩
          split at read
          · rcases Prod.mk.inj (Option.some.inj read) with ⟨rfl, -⟩
            exact ⟨List.Pairwise.nil, trivial⟩
          · rcases Option.bind_eq_some_iff.mp read with
              ⟨⟨members, left⟩, membersRead, same⟩
            rcases Prod.mk.inj (Option.some.inj same) with ⟨rfl, -⟩
            exact parseMembers_canonical fuel List.Pairwise.nil trivial
              membersRead
      | array =>
          simp only [kind, Option.bind_eq_some_iff] at read
          rcases read with ⟨⟨first, inside⟩, -, read⟩
          split at read
          · rcases Prod.mk.inj (Option.some.inj read) with ⟨rfl, -⟩
            exact trivial
          · rcases Option.bind_eq_some_iff.mp read with
              ⟨⟨items, left⟩, itemsRead, same⟩
            rcases Prod.mk.inj (Option.some.inj same) with ⟨rfl, -⟩
            exact parseItems_canonical fuel itemsRead
      | string =>
          simp only [kind, Option.bind_eq_some_iff] at read
          rcases read with ⟨_, _, same⟩
          rcases Prod.mk.inj (Option.some.inj same) with ⟨rfl, -⟩
          exact trivial
      | fixed fixedWord =>
          simp only [kind, Option.bind_eq_some_iff] at read
          rcases read with ⟨_, _, same⟩
          rcases Prod.mk.inj (Option.some.inj same) with ⟨rfl, -⟩
          cases fixedWord <;> exact trivial
      | number =>
          simp only [kind, readNumber] at read
          split at read
          · simp at read
          · split at read
            · rcases Prod.mk.inj (Option.some.inj read) with ⟨rfl, -⟩
              exact trivial
            · split at read
              · rcases Prod.mk.inj (Option.some.inj read) with ⟨rfl, -⟩
                exact trivial
              · simp at read

theorem parseItems_canonical (fuel : Nat) {input rest : List Byte}
    {items : List Tree} (read : parseItems fuel input = some (items, rest)) :
    CanonicalItems items := by
  match fuel with
  | 0 => simp [parseItems] at read
  | fuel + 1 =>
      simp only [parseItems, Option.bind_eq_bind,
        Option.bind_eq_some_iff] at read
      rcases read with ⟨⟨item, after⟩, itemRead, ⟨b, next⟩, -, read⟩
      have itemCanonical := parseValue_canonical fuel itemRead
      split at read
      · rcases Option.bind_eq_some_iff.mp read with
          ⟨⟨others, left⟩, othersRead, same⟩
        rcases Prod.mk.inj (Option.some.inj same) with ⟨rfl, -⟩
        exact ⟨itemCanonical, parseItems_canonical fuel othersRead⟩
      · split at read
        · rcases Prod.mk.inj (Option.some.inj read) with ⟨rfl, -⟩
          exact ⟨itemCanonical, trivial⟩
        · simp at read

theorem parseMembers_canonical (fuel : Nat) {input rest : List Byte}
    {before members : List (String × Tree)}
    (ordered : Ordered before) (canonical : CanonicalMembers before)
    (read : parseMembers fuel before input = some (members, rest)) :
    Ordered members ∧ CanonicalMembers members := by
  match fuel with
  | 0 => simp [parseMembers] at read
  | fuel + 1 =>
      simp only [parseMembers, Option.bind_eq_bind,
        Option.bind_eq_some_iff] at read
      rcases read with ⟨⟨opening, inside⟩, -, read⟩
      split at read
      · rcases Option.bind_eq_some_iff.mp read with ⟨⟨key, afterKey⟩, -, read⟩
        rcases Option.bind_eq_some_iff.mp read with
          ⟨⟨colon, afterColon⟩, -, read⟩
        split at read
        · rcases Option.bind_eq_some_iff.mp read with
            ⟨⟨value, afterValue⟩, valueRead, read⟩
          rcases Option.bind_eq_some_iff.mp read with ⟨⟨b, next⟩, -, read⟩
          have insertedOrdered := ordered.insertMember key value
          have insertedCanonical := CanonicalMembers.insertMember key
            (parseValue_canonical fuel valueRead) canonical
          split at read
          · exact parseMembers_canonical fuel insertedOrdered
              insertedCanonical read
          · split at read
            · rcases Prod.mk.inj (Option.some.inj read) with ⟨rfl, -⟩
              exact ⟨insertedOrdered, insertedCanonical⟩
            · simp at read
        · simp at read
      · simp at read

end

end KekMonitors.Json
