import KekMonitors.Json.RoundTrip

/-!
# Truncated texts

What the parser accepted does not depend on the bytes after it, except that a
number may go on.  A written object therefore has no proper prefix that
parses: the prefix would have to be read as the whole object, with nothing
left over.
-/

namespace KekMonitors.Json

theorem nextByte_append {input rest : List Byte} {b : Byte}
    (read : nextByte input = some (b, rest)) (more : List Byte) :
    nextByte (input ++ more) = some (b, rest ++ more) := by
  unfold nextByte at read
  cases skipped : skipSpace input with
  | nil => simp [skipped] at read
  | cons head tail =>
      simp only [skipped, Option.some.injEq, Prod.mk.injEq] at read
      rcases read with ⟨rfl, rfl⟩
      simp [nextByte, skipSpace_append skipped]

def Tree.isNumber : Tree → Bool
  | .integer _ | .float _ => true
  | _ => false

theorem readNumber_isNumber {input rest : List Byte} {tree : Tree}
    (read : readNumber input = some (tree, rest)) :
    tree.isNumber = true := by
  unfold readNumber at read
  split at read
  · simp at read
  · split at read
    · rcases Prod.mk.inj (Option.some.inj read) with ⟨rfl, -⟩
      rfl
    · split at read
      · rcases Prod.mk.inj (Option.some.inj read) with ⟨rfl, -⟩
        rfl
      · simp at read

/-- A number in front of another byte is the same with more input. -/
theorem readNumber_append {input rest : List Byte} {b : Byte} {tree : Tree}
    (read : readNumber input = some (tree, b :: rest)) (more : List Byte) :
    readNumber (input ++ more) = some (tree, b :: (rest ++ more)) := by
  unfold readNumber at read
  split at read
  · simp at read
  · rename_i token left scanned
    split at read
    · rename_i value integer
      rcases Prod.mk.inj (Option.some.inj read) with ⟨rfl, rfl⟩
      exact readNumber_integer (scanNumberFrom_append scanned more) integer
    · split at read
      · rcases Prod.mk.inj (Option.some.inj read) with ⟨rfl, rfl⟩
        exact readNumber_float _ (scanNumberFrom_append scanned more)
      · simp at read

mutual

/-- More input and more fuel leave an accepted value as it is. -/
theorem parseValue_append (fuel : Nat) {larger : Nat}
    {input rest : List Byte} {tree : Tree}
    (read : parseValue fuel input = some (tree, rest))
    (enough : fuel ≤ larger)
    (closed : rest ≠ [] ∨ tree.isNumber = false) (more : List Byte) :
    parseValue larger (input ++ more) = some (tree, rest ++ more) := by
  match fuel, larger with
  | 0, _ => simp [parseValue] at read
  | fuel + 1, 0 => omega
  | fuel + 1, larger + 1 =>
      simp only [parseValue, Option.bind_eq_bind,
        Option.bind_eq_some_iff] at read
      rcases read with ⟨⟨b, after⟩, first, read⟩
      have firstMore := nextByte_append first more
      have enough : fuel ≤ larger := by omega
      cases kind : lead b with
      | object =>
          simp only [kind, Option.bind_eq_some_iff] at read
          rcases read with ⟨⟨second, inside⟩, secondRead, read⟩
          dsimp only at read
          have secondMore := nextByte_append secondRead more
          split at read
          · rename_i closing
            rcases Prod.mk.inj (Option.some.inj read) with ⟨rfl, rfl⟩
            simp [parseValue, firstMore, kind, secondMore, closing]
          · rename_i opened
            rcases Option.bind_eq_some_iff.mp read with
              ⟨⟨members, left⟩, membersRead, same⟩
            rcases Prod.mk.inj (Option.some.inj same) with ⟨rfl, rfl⟩
            have tail := parseMembers_append fuel membersRead enough more
            simp [parseValue, firstMore, kind, secondMore, opened, tail]
      | array =>
          simp only [kind, Option.bind_eq_some_iff] at read
          rcases read with ⟨⟨second, inside⟩, secondRead, read⟩
          dsimp only at read
          have secondMore := nextByte_append secondRead more
          split at read
          · rename_i closing
            rcases Prod.mk.inj (Option.some.inj read) with ⟨rfl, rfl⟩
            simp [parseValue, firstMore, kind, secondMore, closing]
          · rename_i opened
            rcases Option.bind_eq_some_iff.mp read with
              ⟨⟨items, left⟩, itemsRead, same⟩
            rcases Prod.mk.inj (Option.some.inj same) with ⟨rfl, rfl⟩
            have tail := parseItems_append fuel itemsRead enough more
            simp [parseValue, firstMore, kind, secondMore, opened, tail]
      | string =>
          simp only [kind, Option.bind_eq_some_iff] at read
          rcases read with ⟨⟨value, left⟩, valueRead, same⟩
          rcases Prod.mk.inj (Option.some.inj same) with ⟨rfl, rfl⟩
          simp [parseValue, firstMore, kind,
            scanString_append valueRead more]
      | fixed fixedWord =>
          simp only [kind, Option.bind_eq_some_iff] at read
          rcases read with ⟨left, wordRead, same⟩
          rcases Prod.mk.inj (Option.some.inj same) with ⟨rfl, rfl⟩
          have wordMore := expect_append wordRead more
          rw [List.cons_append] at wordMore
          simp [parseValue, firstMore, kind, wordMore]
      | number =>
          simp only [kind] at read
          have isNumber := readNumber_isNumber read
          rcases closed with goesOn | notNumber
          · cases rest with
            | nil => exact absurd rfl goesOn
            | cons next rest =>
                have numberMore := readNumber_append read more
                rw [List.cons_append] at numberMore
                simp [parseValue, firstMore, kind, numberMore]
          · simp [isNumber] at notNumber

theorem parseItems_append (fuel : Nat) {larger : Nat}
    {input rest : List Byte} {items : List Tree}
    (read : parseItems fuel input = some (items, rest))
    (enough : fuel ≤ larger) (more : List Byte) :
    parseItems larger (input ++ more) = some (items, rest ++ more) := by
  match fuel, larger with
  | 0, _ => simp [parseItems] at read
  | fuel + 1, 0 => omega
  | fuel + 1, larger + 1 =>
      simp only [parseItems, Option.bind_eq_bind,
        Option.bind_eq_some_iff] at read
      rcases read with ⟨⟨item, after⟩, itemRead, ⟨b, next⟩, byteRead, read⟩
      dsimp only at byteRead read
      have enough : fuel ≤ larger := by omega
      have goesOn : after ≠ [] := by
        rintro rfl
        simp [nextByte, skipSpace] at byteRead
      have itemMore :=
        parseValue_append fuel itemRead enough (Or.inl goesOn) more
      have byteMore := nextByte_append byteRead more
      split at read
      · rename_i comma
        rcases Option.bind_eq_some_iff.mp read with
          ⟨⟨others, left⟩, othersRead, same⟩
        rcases Prod.mk.inj (Option.some.inj same) with ⟨rfl, rfl⟩
        have tail := parseItems_append fuel othersRead enough more
        simp [parseItems, itemMore, byteMore, comma, tail]
      · rename_i notComma
        split at read
        · rename_i closing
          rcases Prod.mk.inj (Option.some.inj read) with ⟨rfl, rfl⟩
          simp only [parseItems, itemMore, byteMore, Option.bind_eq_bind,
            Option.bind_some]
          rw [if_neg notComma, if_pos closing]
        · simp at read

theorem parseMembers_append (fuel : Nat) {larger : Nat}
    {input rest : List Byte} {before members : List (String × Tree)}
    (read : parseMembers fuel before input = some (members, rest))
    (enough : fuel ≤ larger) (more : List Byte) :
    parseMembers larger before (input ++ more) =
      some (members, rest ++ more) := by
  match fuel, larger with
  | 0, _ => simp [parseMembers] at read
  | fuel + 1, 0 => omega
  | fuel + 1, larger + 1 =>
      simp only [parseMembers, Option.bind_eq_bind,
        Option.bind_eq_some_iff] at read
      rcases read with ⟨⟨opening, inside⟩, openingRead, read⟩
      dsimp only at read
      have enough : fuel ≤ larger := by omega
      split at read
      · rename_i isQuote
        rcases Option.bind_eq_some_iff.mp read with
          ⟨⟨key, afterKey⟩, keyRead, read⟩
        rcases Option.bind_eq_some_iff.mp read with
          ⟨⟨colon, afterColon⟩, colonRead, read⟩
        dsimp only at colonRead read
        split at read
        · rename_i isColon
          rcases Option.bind_eq_some_iff.mp read with
            ⟨⟨value, afterValue⟩, valueRead, read⟩
          rcases Option.bind_eq_some_iff.mp read with
            ⟨⟨b, next⟩, byteRead, read⟩
          dsimp only at byteRead read
          have goesOn : afterValue ≠ [] := by
            rintro rfl
            simp [nextByte, skipSpace] at byteRead
          have valueMore :=
            parseValue_append fuel valueRead enough (Or.inl goesOn) more
          simp only [parseMembers, nextByte_append openingRead more,
            isQuote, scanString_append keyRead more,
            nextByte_append colonRead more, isColon, valueMore,
            nextByte_append byteRead more, Option.bind_eq_bind,
            Option.bind_some, if_true]
          split at read
          · rename_i comma
            rw [if_pos comma]
            exact parseMembers_append fuel read enough more
          · rename_i notComma
            rw [if_neg notComma]
            split at read
            · rename_i closing
              rcases Prod.mk.inj (Option.some.inj read) with ⟨rfl, rfl⟩
              rw [if_pos closing]
            · simp at read
        · simp at read
      · simp at read

end

/-- What starts with a brace is read as an object. -/
theorem parseValue_brace {fuel : Nat} {input rest : List Byte} {tree : Tree}
    (read : parseValue fuel (byte '{' :: input) = some (tree, rest)) :
    tree.isNumber = false := by
  have notSpace : isSpace (byte '{') = false := by decide
  have kind : lead (byte '{') = .object := by decide
  match fuel with
  | 0 => simp [parseValue] at read
  | fuel + 1 =>
      simp only [parseValue, nextByte_cons notSpace, kind,
        Option.bind_eq_bind, Option.bind_some,
        Option.bind_eq_some_iff] at read
      rcases read with ⟨⟨second, inside⟩, -, read⟩
      split at read
      · rcases Prod.mk.inj (Option.some.inj read) with ⟨rfl, -⟩
        rfl
      · rcases Option.bind_eq_some_iff.mp read with ⟨_, _, same⟩
        rcases Prod.mk.inj (Option.some.inj same) with ⟨rfl, -⟩
        rfl

theorem dump_object_head (members : List (String × Tree)) :
    ∃ rest, dump (.object members) = byte '{' :: rest := by
  cases members with
  | nil => exact ⟨_, rfl⟩
  | cons pair members => exact ⟨_, rfl⟩

/-- No proper prefix of a written object is itself the text of a value. -/
theorem parseTree_prefix {members : List (String × Tree)}
    (canonical : (Tree.object members).Canonical)
    {front back : List Byte}
    (split : dump (.object members) = front ++ back) (cut : back ≠ []) :
    parseTree front = none := by
  cases read : parseTree front with
  | none => rfl
  | some result =>
      rcases result with ⟨tree, rest⟩
      cases front with
      | nil => simp [parseTree, parseValue] at read
      | cons b front =>
          rcases dump_object_head members with ⟨tail, shape⟩
          have brace : b = byte '{' := by
            rw [shape, List.cons_append] at split
            exact (List.cons.inj split).1.symm
          subst brace
          have shorter : (byte '{' :: front).length ≤
              (dump (.object members)).length := by
            simp [split]
          have whole := parseValue_append _ read shorter
            (Or.inr (parseValue_brace read)) back
          have written := parseTree_dump canonical delimited_nil
          rw [List.append_nil] at written
          rw [← split] at whole
          have same := Option.some.inj (whole.symm.trans written)
          have empty := (Prod.mk.inj same).2
          exact absurd (List.append_eq_nil_iff.mp empty).2 cut

end KekMonitors.Json

namespace KekMonitors.Json

/-! ## Texts of values -/

/-- The byte order mark that a text may start with. -/
def dropMark (input : List Byte) : List Byte :=
  match expect [0xef, 0xbb, 0xbf] input with
  | some rest => rest
  | none => input

theorem dropMark_brace (rest : List Byte) :
    dropMark (byte '{' :: rest) = byte '{' :: rest := by
  have different : byte '{' ≠ 0xef := by decide
  simp [dropMark, expect, different]

/-- The compact text of a value. -/
def toBytes (j : Json) : List Byte := dump j.tree

/-- The value at the front of a text, as a stream extracts it. -/
def parsePrefix (input : List Byte) : Option Json :=
  match read : parseTree (dropMark input) with
  | none => none
  | some (tree, _) => some ⟨tree, parseValue_canonical _ read⟩

/-- The value a whole text denotes. -/
def parse (input : List Byte) : Option Json :=
  match read : parseTree (dropMark input) with
  | none => none
  | some (tree, rest) =>
      if atEnd rest then some ⟨tree, parseValue_canonical _ read⟩
      else none

theorem parse_of_parseTree {input rest : List Byte} {j : Json}
    (read : parseTree (dropMark input) = some (j.tree, rest))
    (ended : atEnd rest = true) : parse input = some j := by
  unfold parse
  split
  · rename_i missing
    simp [read] at missing
  · rename_i tree left otherRead
    rcases Prod.mk.inj (Option.some.inj (read.symm.trans otherRead)) with
      ⟨rfl, rfl⟩
    simp [ended]

/-- The text of an object, padded with NUL bytes, denotes that object. -/
theorem parse_toBytes {j : Json} (object : j.isObject = true) (padding : Nat) :
    parse (j.toBytes ++ List.replicate padding 0) = some j := by
  rcases j with ⟨tree, canonical⟩
  cases tree with
  | object members =>
      rcases dump_object_head members with ⟨tail, shape⟩
      have delimited : Delimited (List.replicate padding 0) := by
        cases padding with
        | zero => exact delimited_nil
        | succ n => exact delimited_of_mem (by decide) _
      have ended : atEnd (List.replicate padding 0) = true := by
        cases padding with
        | zero => rfl
        | succ n =>
            have notSpace : isSpace 0 = false := by decide
            simp [atEnd, List.replicate_succ, skipSpace_of_head notSpace]
      refine parse_of_parseTree ?_ ended
      rw [toBytes, shape, List.cons_append, dropMark_brace,
        ← List.cons_append, ← shape]
      exact parseTree_dump canonical delimited
  | _ => simp [isObject] at object

/-- A truncated object does not parse. -/
theorem parse_prefix {j : Json} (object : j.isObject = true)
    {front back : List Byte} (split : j.toBytes = front ++ back)
    (cut : back ≠ []) : parse front = none := by
  rcases j with ⟨tree, canonical⟩
  cases tree with
  | object members =>
      have rejected := parseTree_prefix canonical split cut
      have unmarked : dropMark front = front := by
        cases front with
        | nil => rfl
        | cons b front =>
            rcases dump_object_head members with ⟨tail, shape⟩
            rw [toBytes, shape, List.cons_append] at split
            rw [← (List.cons.inj split).1, dropMark_brace]
      unfold parse
      split
      · rfl
      · rename_i tree rest read
        rw [unmarked, rejected] at read
        simp at read
  | _ => simp [isObject] at object

end KekMonitors.Json
