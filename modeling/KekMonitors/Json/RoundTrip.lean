import KekMonitors.Json.Codec

/-!
# The parser undoes the writer

A written value is read back in front of any continuation that no number can
run into, with fuel bounded by the length of the text.
-/

namespace KekMonitors.Json

/-! ## Fuel -/

mutual

/-- Fuel the parser needs for a written value. -/
def weight : Tree → Nat
  | .array items => 1 + weightItems items
  | .object members => 1 + weightMembers members
  | _ => 1

def weightItems : List Tree → Nat
  | [] => 0
  | item :: items => weight item + 1 + weightItems items

def weightMembers : List (String × Tree) → Nat
  | [] => 0
  | (_, value) :: members => weight value + 1 + weightMembers members

end

theorem weight_pos (tree : Tree) : 0 < weight tree := by
  cases tree <;> simp only [weight] <;> omega

/-! ## First bytes -/

theorem nextByte_cons {b : Byte} (notSpace : isSpace b = false)
    (rest : List Byte) : nextByte (b :: rest) = some (b, rest) := by
  simp [nextByte, skipSpace_of_head notSpace]

/-- What a number may start with starts no other token. -/
theorem number_lead {b : Byte} {state : NumberState}
    (starts : NumberState.start.next b = some state) :
    lead b = .number ∧ isSpace b = false ∧ b ≠ byte ']' := by
  have all : ∀ n : Fin 256,
      NumberState.start.next (UInt8.ofNat n) ≠ none →
        lead (UInt8.ofNat n) = .number ∧
          isSpace (UInt8.ofNat n) = false ∧
            UInt8.ofNat n ≠ byte ']' := by
    decide +kernel
  have value : UInt8.ofNat b.toNat = b := UInt8.ofNat_toNat
  have unit := all ⟨b.toNat, b.toNat_lt⟩
  rw [value] at unit
  exact unit (by simp [starts])

/-- A complete number token starts like a number. -/
theorem token_head {token : List Byte}
    (complete : scanNumber token = some (token, [])) :
    ∃ b rest, token = b :: rest ∧ lead b = .number ∧
      isSpace b = false ∧ b ≠ byte ']' := by
  cases token with
  | nil => simp [scanNumber_nil] at complete
  | cons b rest =>
      cases step : NumberState.start.next b with
      | none =>
          simp [scanNumber, scanNumberFrom, step,
            NumberState.accepting] at complete
      | some state => exact ⟨b, rest, rfl, number_lead step⟩

/-- A written value starts with a byte that is neither space nor `]`. -/
theorem dump_head (tree : Tree) :
    ∃ b rest, dump tree = b :: rest ∧
      isSpace b = false ∧ b ≠ byte ']' := by
  cases tree with
  | null => exact ⟨_, _, rfl, by decide, by decide⟩
  | bool value =>
      cases value <;> exact ⟨_, _, rfl, by decide, by decide⟩
  | integer value =>
      rcases token_head (scanNumber_renderInt value.val) with
        ⟨b, rest, shape, -, notSpace, notClosing⟩
      exact ⟨b, rest, shape, notSpace, notClosing⟩
  | float value =>
      rcases token_head value.complete with
        ⟨b, rest, shape, -, notSpace, notClosing⟩
      exact ⟨b, rest, shape, notSpace, notClosing⟩
  | string value => exact ⟨_, _, rfl, by decide, by decide⟩
  | array items =>
      cases items <;> exact ⟨_, _, rfl, by decide, by decide⟩
  | object members =>
      cases members <;> exact ⟨_, _, rfl, by decide, by decide⟩

/-- The bytes that end a value inside an array or an object. -/
theorem delimited_of_mem {b : Byte}
    (closing : b ∈ [byte ',', byte ']', byte '}', 0, byte ' '])
    (rest : List Byte) : Delimited (b :: rest) := by
  refine delimited_cons ?_ rest
  intro state
  simp only [List.mem_cons, List.not_mem_nil, or_false] at closing
  rcases closing with rfl | rfl | rfl | rfl | rfl <;>
    cases state <;> decide

theorem delimited_dumpItems (items : List Tree) (rest : List Byte) :
    Delimited (dumpItems items ++ rest) := by
  cases items <;> exact delimited_of_mem (by decide) _

theorem delimited_dumpMembers (members : List (String × Tree))
    (rest : List Byte) : Delimited (dumpMembers members ++ rest) := by
  cases members with
  | nil => exact delimited_of_mem (by decide) _
  | cons pair members => exact delimited_of_mem (by decide) _

/-! ## Numbers -/

theorem readNumber_integer {input token rest : List Byte} {value : Integer}
    (scanned : scanNumber input = some (token, rest))
    (integer : readInteger token = some value) :
    readNumber input = some (.integer value, rest) := by
  unfold readNumber
  split
  · rename_i missing
    simp [scanned] at missing
  · rename_i otherToken otherRest otherScanned
    rcases Prod.mk.inj (Option.some.inj (scanned.symm.trans otherScanned)) with
      ⟨rfl, rfl⟩
    split
    · rename_i other otherInteger
      rw [Option.some.inj (integer.symm.trans otherInteger)]
    · rename_i missing
      simp [integer] at missing

theorem readNumber_float {input rest : List Byte} (value : FloatLiteral)
    (scanned : scanNumber input = some (value.token, rest)) :
    readNumber input = some (.float value, rest) := by
  unfold readNumber
  split
  · rename_i missing
    simp [scanned] at missing
  · rename_i otherToken otherRest otherScanned
    rcases Prod.mk.inj (Option.some.inj (scanned.symm.trans otherScanned)) with
      ⟨rfl, rfl⟩
    split
    · rename_i other otherInteger
      simp [value.notInteger] at otherInteger
    · rw [dif_pos value.finite]

theorem readInteger_renderInt (value : Integer) :
    readInteger (renderInt value.val) = some value := by
  simp [readInteger, integerOfToken_renderInt]

/-- A number token in front of a delimiter is read as the number it denotes. -/
theorem parseValue_number {token rest : List Byte} {tree : Tree}
    (complete : scanNumber token = some (token, []))
    (read : readNumber (token ++ rest) = some (tree, rest))
    (fuel : Nat) :
    parseValue (fuel + 1) (token ++ rest) = some (tree, rest) := by
  rcases token_head complete with ⟨b, tail, shape, kind, notSpace, -⟩
  rw [shape] at read ⊢
  rw [List.cons_append] at read ⊢
  simp [parseValue, nextByte_cons notSpace, kind, read]

/-! ## Values -/

theorem parseValue_fixed (fixedWord : FixedWord) (fuel : Nat)
    (rest : List Byte) :
    parseValue (fuel + 1) (fixedWord.text ++ rest) =
      some (fixedWord.tree, rest) := by
  have starts : ∃ b tail, fixedWord.text = b :: tail ∧
      isSpace b = false ∧ lead b = .fixed fixedWord := by
    cases fixedWord <;> exact ⟨_, _, rfl, by decide, by decide⟩
  rcases starts with ⟨b, tail, shape, notSpace, kind⟩
  have read := expect_self fixedWord.text rest
  rw [shape, List.cons_append] at read ⊢
  simp [parseValue, nextByte_cons notSpace, kind, shape, read]

mutual

/-- Writing and parsing in front of a delimiter. -/
theorem parseValue_dump (tree : Tree) (fuel : Nat) (rest : List Byte)
    (canonical : tree.Canonical) (enough : weight tree ≤ fuel)
    (delimited : Delimited rest) :
    parseValue fuel (dump tree ++ rest) = some (tree, rest) := by
  match fuel with
  | 0 => exact absurd enough (by have := weight_pos tree; omega)
  | fuel + 1 =>
      match tree with
      | .null => exact parseValue_fixed .nullWord fuel rest
      | .bool true => exact parseValue_fixed .trueWord fuel rest
      | .bool false => exact parseValue_fixed .falseWord fuel rest
      | .integer value =>
          have complete := scanNumber_renderInt value.val
          have scanned : scanNumber (renderInt value.val ++ rest) =
              some (renderInt value.val, rest) :=
            scanNumberFrom_complete complete delimited
          exact parseValue_number complete
            (readNumber_integer scanned (readInteger_renderInt value)) fuel
      | .float value =>
          have scanned : scanNumber (value.token ++ rest) =
              some (value.token, rest) :=
            scanNumberFrom_complete value.complete delimited
          exact parseValue_number value.complete
            (readNumber_float value scanned) fuel
      | .string value =>
          have notSpace : isSpace (byte '"') = false := by decide
          have kind : lead (byte '"') = .string := by decide
          simp [dump, quote, parseValue, nextByte_cons notSpace, kind,
            scanString_quote]
      | .array [] =>
          have notSpace : isSpace (byte '[') = false := by decide
          have closingNotSpace : isSpace (byte ']') = false := by decide
          have kind : lead (byte '[') = .array := by decide
          simp [dump, parseValue, nextByte_cons notSpace,
            nextByte_cons closingNotSpace, kind]
      | .array (item :: items) =>
          have notSpace : isSpace (byte '[') = false := by decide
          have kind : lead (byte '[') = .array := by decide
          rcases dump_head item with ⟨b, tail, shape, bNotSpace, notClosing⟩
          have inner := parseItems_dump item items fuel rest canonical
            (by simp only [weight] at enough; omega)
          simp only [dump, List.cons_append, List.append_assoc, parseValue,
            nextByte_cons notSpace, Option.bind_eq_bind, Option.bind_some,
            kind, inner]
          simp [shape, nextByte_cons bNotSpace, notClosing]
      | .object [] =>
          have notSpace : isSpace (byte '{') = false := by decide
          have closingNotSpace : isSpace (byte '}') = false := by decide
          have kind : lead (byte '{') = .object := by decide
          simp [dump, parseValue, nextByte_cons notSpace,
            nextByte_cons closingNotSpace, kind]
      | .object ((key, value) :: members) =>
          have notSpace : isSpace (byte '{') = false := by decide
          have kind : lead (byte '{') = .object := by decide
          have quoteNotSpace : isSpace (byte '"') = false := by decide
          have quoteNotClosing : byte '"' ≠ byte '}' := by decide
          have inner := parseMembers_dump key value members fuel rest []
            canonical.1 canonical.2
            (by simp only [weight] at enough; omega)
          simp only [dump, List.cons_append, List.append_assoc, parseValue,
            nextByte_cons notSpace, Option.bind_eq_bind, Option.bind_some,
            kind, inner]
          simp [quote, nextByte_cons quoteNotSpace, quoteNotClosing]

/-- The items of a nonempty array. -/
theorem parseItems_dump (item : Tree) (items : List Tree) (fuel : Nat)
    (rest : List Byte) (canonical : CanonicalItems (item :: items))
    (enough : weightItems (item :: items) ≤ fuel) :
    parseItems fuel (dump item ++ (dumpItems items ++ rest)) =
      some (item :: items, rest) := by
  match fuel with
  | 0 => simp [weightItems] at enough
  | fuel + 1 =>
      simp only [weightItems] at enough
      have first := parseValue_dump item fuel (dumpItems items ++ rest)
        canonical.1 (by omega) (delimited_dumpItems items rest)
      match items with
      | [] =>
          have notSpace : isSpace (byte ']') = false := by decide
          have notComma : byte ']' ≠ byte ',' := by decide
          simp only [parseItems, first, Option.bind_eq_bind,
            Option.bind_some]
          simp [dumpItems, nextByte_cons notSpace, notComma]
      | other :: others =>
          have notSpace : isSpace (byte ',') = false := by decide
          have tail := parseItems_dump other others fuel rest canonical.2
            (by omega)
          rw [parseItems, first]
          simp only [Option.bind_eq_bind, Option.bind_some, dumpItems,
            List.cons_append, nextByte_cons notSpace, if_true,
            List.append_assoc, tail]

/-- The members of a nonempty object, after those already read. -/
theorem parseMembers_dump (key : String) (value : Tree)
    (members : List (String × Tree)) (fuel : Nat) (rest : List Byte)
    (before : List (String × Tree))
    (ordered : Ordered (before ++ (key, value) :: members))
    (canonical : CanonicalMembers ((key, value) :: members))
    (enough : weightMembers ((key, value) :: members) ≤ fuel) :
    parseMembers fuel before
        (quote key ++ byte ':' :: (dump value ++
          (dumpMembers members ++ rest))) =
      some (before ++ (key, value) :: members, rest) := by
  match fuel with
  | 0 => simp [weightMembers] at enough
  | fuel + 1 =>
      simp only [weightMembers] at enough
      have quoteNotSpace : isSpace (byte '"') = false := by decide
      have colonNotSpace : isSpace (byte ':') = false := by decide
      have first := parseValue_dump value fuel (dumpMembers members ++ rest)
        canonical.1 (by omega) (delimited_dumpMembers members rest)
      have above : ∀ pair ∈ before, pair.1 < key := by
        intro pair member
        exact (List.pairwise_append.mp ordered).2.2 pair member
          (key, value) List.mem_cons_self
      simp only [parseMembers, quote, List.cons_append, List.append_assoc,
        List.nil_append, nextByte_cons quoteNotSpace, scanString_quote,
        nextByte_cons colonNotSpace, first, insertMember_last above,
        Option.bind_eq_bind, Option.bind_some, if_true]
      match members with
      | [] =>
          have notSpace : isSpace (byte '}') = false := by decide
          have notComma : byte '}' ≠ byte ',' := by decide
          simp [dumpMembers, nextByte_cons notSpace, notComma]
      | (other, stored) :: others =>
          have commaNotSpace : isSpace (byte ',') = false := by decide
          have moved : before ++ (key, value) :: (other, stored) :: others =
              (before ++ [(key, value)]) ++ (other, stored) :: others := by
            simp
          have tail := parseMembers_dump other stored others fuel rest
            (before ++ [(key, value)]) (moved ▸ ordered) canonical.2
            (by omega)
          simp only [dumpMembers, List.cons_append,
            nextByte_cons commaNotSpace, Option.bind_some, if_true,
            List.append_assoc, tail]
          simp

end

/-! ## The length of the text is enough fuel -/

theorem length_quote_pos (s : String) : 0 < (quote s).length := by
  simp [quote]

mutual

theorem weight_le_length (tree : Tree) :
    weight tree ≤ (dump tree).length := by
  match tree with
  | .null => simp [weight, dump, FixedWord.text, word]
  | .bool true => simp [weight, dump, FixedWord.text, word]
  | .bool false => simp [weight, dump, FixedWord.text, word]
  | .integer value =>
      rcases dump_head (.integer value) with ⟨b, rest, shape, -⟩
      simp [weight, shape]
  | .float value =>
      rcases dump_head (.float value) with ⟨b, rest, shape, -⟩
      simp [weight, shape]
  | .string value => exact length_quote_pos value
  | .array [] => simp [weight, weightItems, dump]
  | .array (item :: items) =>
      have first := weight_le_length item
      have others := weightItems_le_length items
      simp only [weight, weightItems, dump, List.length_cons,
        List.length_append]
      omega
  | .object [] => simp [weight, weightMembers, dump]
  | .object ((key, value) :: members) =>
      have first := weight_le_length value
      have others := weightMembers_le_length members
      have keyLength := length_quote_pos key
      simp only [weight, weightMembers, dump, List.length_cons,
        List.length_append]
      omega

theorem weightItems_le_length (items : List Tree) :
    weightItems items + 1 ≤ (dumpItems items).length := by
  match items with
  | [] => simp [weightItems, dumpItems]
  | item :: items =>
      have first := weight_le_length item
      have others := weightItems_le_length items
      simp only [weightItems, dumpItems, List.length_cons,
        List.length_append]
      omega

theorem weightMembers_le_length (members : List (String × Tree)) :
    weightMembers members + 1 ≤ (dumpMembers members).length := by
  match members with
  | [] => simp [weightMembers, dumpMembers]
  | (key, value) :: members =>
      have first := weight_le_length value
      have others := weightMembers_le_length members
      have keyLength := length_quote_pos key
      simp only [weightMembers, dumpMembers, List.length_cons,
        List.length_append]
      omega

end

/-- A written value parses back, whatever delimiter follows it. -/
theorem parseTree_dump {tree : Tree} (canonical : tree.Canonical)
    {rest : List Byte} (delimited : Delimited rest) :
    parseTree (dump tree ++ rest) = some (tree, rest) := by
  refine parseValue_dump tree _ rest canonical ?_ delimited
  have enough := weight_le_length tree
  simp only [List.length_append]
  omega

end KekMonitors.Json
