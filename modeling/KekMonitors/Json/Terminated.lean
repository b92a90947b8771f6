import KekMonitors.Json.Prefix

/-!
# Texts that a NUL byte ends

A reader pads what it has received with NUL bytes.  No token goes over such a
byte, so that what is accepted in front of the padding is accepted without it,
and a written object that was cut anywhere is rejected.
-/

namespace KekMonitors.Json

/-- What is left of a text that goes on with a NUL byte. -/
abbrev padded (front more : List Byte) : List Byte := front ++ 0 :: more

section Tokens

variable {front more rest : List Byte}

theorem skipSpace_terminated :
    skipSpace (padded front more) = padded (skipSpace front) more := by
  have notSpace : isSpace 0 = false := by decide
  induction front with
  | nil => exact skipSpace_of_head notSpace
  | cons b front ih =>
      by_cases space : isSpace b
      · simpa [padded, skipSpace, space] using ih
      · simp [padded, skipSpace, space]

/-- The next byte is in front of the NUL byte, or it is the NUL byte. -/
theorem nextByte_terminated {b : Byte}
    (read : nextByte (padded front more) = some (b, rest)) (other : b ≠ 0) :
    ∃ left, nextByte front = some (b, left) ∧ rest = padded left more := by
  rw [nextByte, skipSpace_terminated] at read
  rw [nextByte]
  cases skipped : skipSpace front with
  | nil =>
      rw [skipped] at read
      exact absurd (Prod.mk.inj (Option.some.inj read)).1.symm other
  | cons head tail =>
      rw [skipped] at read
      rcases Prod.mk.inj (Option.some.inj read) with ⟨rfl, rfl⟩
      exact ⟨tail, rfl, rfl⟩

theorem expect_terminated {text : List Byte} (printable : (0 : Byte) ∉ text)
    (read : expect text (padded front more) = some rest) :
    ∃ left, expect text front = some left ∧ rest = padded left more := by
  induction text generalizing front with
  | nil => exact ⟨front, rfl, (Option.some.inj read).symm⟩
  | cons wanted text ih =>
      simp only [List.mem_cons, not_or] at printable
      cases front with
      | nil => simp [padded, expect, printable.1] at read
      | cons b front =>
          simp only [padded, List.cons_append, expect] at read
          split at read
          · rename_i same
            rcases ih printable.2 read with ⟨left, found, shape⟩
            exact ⟨left, by simp [expect, same, found], shape⟩
          · simp at read

theorem NumberState.next_nul (state : NumberState) : state.next 0 = none := by
  cases state <;> decide

theorem scanNumberFrom_terminated {state : NumberState} {token : List Byte}
    (scanned : scanNumberFrom state (padded front more) =
      some (token, rest)) :
    ∃ left, scanNumberFrom state front = some (token, left) ∧
      rest = padded left more := by
  induction front generalizing state token with
  | nil =>
      simp only [padded, List.nil_append, scanNumberFrom,
        NumberState.next_nul] at scanned
      split at scanned
      · rename_i accepting
        rcases Prod.mk.inj (Option.some.inj scanned) with ⟨rfl, rfl⟩
        exact ⟨[], by simp [scanNumberFrom, accepting], rfl⟩
      · simp at scanned
  | cons b front ih =>
      simp only [padded, List.cons_append, scanNumberFrom] at scanned
      cases step : state.next b with
      | none =>
          simp only [step] at scanned
          split at scanned
          · rename_i accepting
            rcases Prod.mk.inj (Option.some.inj scanned) with ⟨rfl, rfl⟩
            exact ⟨b :: front, by simp [scanNumberFrom, step, accepting],
              rfl⟩
          · simp at scanned
      | some next =>
          simp only [step, Option.map_eq_some_iff] at scanned
          rcases scanned with ⟨⟨inner, after⟩, innerRead, same⟩
          rcases Prod.mk.inj same with ⟨rfl, rfl⟩
          rcases ih innerRead with ⟨left, found, shape⟩
          exact ⟨left, by simp [scanNumberFrom, step, found], shape⟩

theorem readNumber_terminated {tree : Tree}
    (read : readNumber (padded front more) = some (tree, rest)) :
    ∃ left, readNumber front = some (tree, left) ∧
      rest = padded left more := by
  unfold readNumber at read
  split at read
  · simp at read
  · rename_i token after scanned
    rcases scanNumberFrom_terminated scanned with ⟨left, found, rfl⟩
    split at read
    · rename_i value integer
      rcases Prod.mk.inj (Option.some.inj read) with ⟨rfl, rfl⟩
      exact ⟨left, readNumber_integer found integer, rfl⟩
    · split at read
      · rcases Prod.mk.inj (Option.some.inj read) with ⟨rfl, rfl⟩
        exact ⟨left, readNumber_float _ found, rfl⟩
      · simp at read

theorem StringState.next_nul (state : StringState) :
    state.next 0 = none := by
  cases state with
  | unicode high value missing =>
      have noDigit : hexValue 0 = none := by decide
      simp [StringState.next, noDigit]
  | lowEscape high =>
      have different : (0 : Byte) ≠ byte '\\' := by decide
      simp [StringState.next, different]
  | lowMark high =>
      have different : (0 : Byte) ≠ byte 'u' := by decide
      simp [StringState.next, different]
  | _ => decide

theorem scanStringFrom_terminated {state : StringState}
    {content : List Byte}
    (scanned : scanStringFrom state (padded front more) =
      some (content, rest)) :
    ∃ left, scanStringFrom state front = some (content, left) ∧
      rest = padded left more := by
  induction front generalizing state content with
  | nil =>
      have different : (0 : Byte) ≠ byte '"' := by decide
      simp [padded, scanStringFrom, StringState.next_nul, different]
        at scanned
  | cons b front ih =>
      simp only [padded, List.cons_append, scanStringFrom] at scanned
      split at scanned
      · rename_i closing
        rcases Prod.mk.inj (Option.some.inj scanned) with ⟨rfl, rfl⟩
        exact ⟨front, by simp [scanStringFrom, closing], rfl⟩
      · rename_i opened
        cases step : state.next b with
        | none => simp [step] at scanned
        | some transition =>
            rcases transition with ⟨output, next⟩
            simp only [step, Option.map_eq_some_iff] at scanned
            rcases scanned with ⟨⟨inner, after⟩, innerRead, same⟩
            rcases Prod.mk.inj same with ⟨rfl, rfl⟩
            rcases ih innerRead with ⟨left, found, shape⟩
            refine ⟨left, ?_, shape⟩
            rw [scanStringFrom, if_neg opened]
            simp [step, found]

theorem scanString_terminated {s : String}
    (read : scanString (padded front more) = some (s, rest)) :
    ∃ left, scanString front = some (s, left) ∧
      rest = padded left more := by
  unfold scanString at read
  split at read
  · simp at read
  · rename_i content after scanned
    rcases scanStringFrom_terminated scanned with ⟨left, found, rfl⟩
    rcases Option.map_eq_some_iff.mp read with ⟨decoded, isDecoded, same⟩
    rcases Prod.mk.inj same with ⟨rfl, rfl⟩
    exact ⟨left, by simp [scanString, found, isDecoded], rfl⟩

end Tokens

/-! ## Values -/

theorem FixedWord.text_printable (fixedWord : FixedWord) :
    (0 : Byte) ∉ fixedWord.text := by
  cases fixedWord <;> decide

/-- No value starts with a NUL byte. -/
theorem readNumber_nul (input : List Byte) :
    readNumber (0 :: input) = none := by
  have scanned : scanNumber (0 :: input) = none := by
    simp [scanNumber, scanNumberFrom, NumberState.next_nul,
      NumberState.accepting]
  unfold readNumber
  split
  · rfl
  · rename_i read
    rw [scanned] at read
    simp at read

theorem parseValue_head {fuel : Nat} {input after rest : List Byte}
    {tree : Tree} {b : Byte}
    (read : parseValue fuel input = some (tree, rest))
    (first : nextByte input = some (b, after)) : b ≠ 0 := by
  rintro rfl
  have kind : lead 0 = .number := by decide
  cases fuel with
  | zero => simp [parseValue] at read
  | succ fuel => simp [parseValue, first, kind, readNumber_nul] at read

theorem parseItems_head {fuel : Nat} {input after rest : List Byte}
    {items : List Tree} {b : Byte}
    (read : parseItems fuel input = some (items, rest))
    (first : nextByte input = some (b, after)) : b ≠ 0 := by
  cases fuel with
  | zero => simp [parseItems] at read
  | succ fuel =>
      simp only [parseItems, Option.bind_eq_bind,
        Option.bind_eq_some_iff] at read
      rcases read with ⟨⟨item, left⟩, itemRead, -⟩
      exact parseValue_head itemRead first

theorem parseMembers_head {fuel : Nat} {input after rest : List Byte}
    {before members : List (String × Tree)} {b : Byte}
    (read : parseMembers fuel before input = some (members, rest))
    (first : nextByte input = some (b, after)) : b ≠ 0 := by
  rintro rfl
  have different : (0 : Byte) ≠ byte '"' := by decide
  cases fuel with
  | zero => simp [parseMembers] at read
  | succ fuel => simp [parseMembers, first, different] at read

mutual

/-- A value in front of a NUL byte is read without the NUL byte. -/
theorem parseValue_terminated (fuel : Nat) {front more rest : List Byte}
    {tree : Tree}
    (read : parseValue fuel (padded front more) = some (tree, rest)) :
    ∃ left, parseValue fuel front = some (tree, left) ∧
      rest = padded left more := by
  match fuel with
  | 0 => simp [parseValue] at read
  | fuel + 1 =>
      have whole := read
      simp only [parseValue, Option.bind_eq_bind,
        Option.bind_eq_some_iff] at read
      rcases read with ⟨⟨b, after⟩, first, read⟩
      dsimp only at read
      rcases nextByte_terminated first (parseValue_head whole first) with
        ⟨tail, found, rfl⟩
      cases kind : lead b with
      | object =>
          simp only [kind, Option.bind_eq_some_iff] at read
          rcases read with ⟨⟨second, inside⟩, secondRead, read⟩
          dsimp only at secondRead read
          split at read
          · rename_i closing
            have other : second ≠ 0 := by
              rw [closing]
              decide
            rcases nextByte_terminated secondRead other with
              ⟨left, next, rfl⟩
            rcases Prod.mk.inj (Option.some.inj read) with ⟨rfl, rfl⟩
            exact ⟨left, by simp [parseValue, found, kind, next, closing],
              rfl⟩
          · rename_i opened
            rcases Option.bind_eq_some_iff.mp read with
              ⟨⟨members, afterMembers⟩, membersRead, same⟩
            rcases Prod.mk.inj (Option.some.inj same) with ⟨rfl, rfl⟩
            rcases nextByte_terminated secondRead
              (parseMembers_head membersRead secondRead) with
                ⟨_, next, -⟩
            rcases parseMembers_terminated fuel membersRead with
              ⟨left, inner, rfl⟩
            exact ⟨left,
              by simp [parseValue, found, kind, next, opened, inner], rfl⟩
      | array =>
          simp only [kind, Option.bind_eq_some_iff] at read
          rcases read with ⟨⟨second, inside⟩, secondRead, read⟩
          dsimp only at secondRead read
          split at read
          · rename_i closing
            have other : second ≠ 0 := by
              rw [closing]
              decide
            rcases nextByte_terminated secondRead other with
              ⟨left, next, rfl⟩
            rcases Prod.mk.inj (Option.some.inj read) with ⟨rfl, rfl⟩
            exact ⟨left, by simp [parseValue, found, kind, next, closing],
              rfl⟩
          · rename_i opened
            rcases Option.bind_eq_some_iff.mp read with
              ⟨⟨items, afterItems⟩, itemsRead, same⟩
            rcases Prod.mk.inj (Option.some.inj same) with ⟨rfl, rfl⟩
            rcases nextByte_terminated secondRead
              (parseItems_head itemsRead secondRead) with ⟨_, next, -⟩
            rcases parseItems_terminated fuel itemsRead with
              ⟨left, inner, rfl⟩
            exact ⟨left,
              by simp [parseValue, found, kind, next, opened, inner], rfl⟩
      | string =>
          simp only [kind, Option.bind_eq_some_iff] at read
          rcases read with ⟨⟨value, after⟩, valueRead, same⟩
          rcases Prod.mk.inj (Option.some.inj same) with ⟨rfl, rfl⟩
          rcases scanString_terminated valueRead with ⟨left, inner, rfl⟩
          exact ⟨left, by simp [parseValue, found, kind, inner], rfl⟩
      | fixed fixedWord =>
          simp only [kind, Option.bind_eq_some_iff] at read
          rcases read with ⟨after, wordRead, same⟩
          rcases Prod.mk.inj (Option.some.inj same) with ⟨rfl, rfl⟩
          change expect _ (padded (b :: tail) more) = _ at wordRead
          rcases expect_terminated fixedWord.text_printable wordRead with
            ⟨left, inner, rfl⟩
          exact ⟨left, by simp [parseValue, found, kind, inner], rfl⟩
      | number =>
          simp only [kind] at read
          change readNumber (padded (b :: tail) more) = _ at read
          rcases readNumber_terminated read with ⟨left, inner, rfl⟩
          exact ⟨left, by simp [parseValue, found, kind, inner], rfl⟩

theorem parseItems_terminated (fuel : Nat) {front more rest : List Byte}
    {items : List Tree}
    (read : parseItems fuel (padded front more) = some (items, rest)) :
    ∃ left, parseItems fuel front = some (items, left) ∧
      rest = padded left more := by
  match fuel with
  | 0 => simp [parseItems] at read
  | fuel + 1 =>
      simp only [parseItems, Option.bind_eq_bind,
        Option.bind_eq_some_iff] at read
      rcases read with ⟨⟨item, after⟩, itemRead, ⟨b, next⟩, byteRead, read⟩
      dsimp only at byteRead read
      rcases parseValue_terminated fuel itemRead with ⟨tail, inner, rfl⟩
      split at read
      · rename_i comma
        have other : b ≠ 0 := by
          rw [comma]
          decide
        rcases nextByte_terminated byteRead other with ⟨_, found, rfl⟩
        rcases Option.bind_eq_some_iff.mp read with
          ⟨⟨others, afterOthers⟩, othersRead, same⟩
        rcases Prod.mk.inj (Option.some.inj same) with ⟨rfl, rfl⟩
        rcases parseItems_terminated fuel othersRead with ⟨left, rest, rfl⟩
        exact ⟨left, by simp [parseItems, inner, found, comma, rest], rfl⟩
      · rename_i notComma
        split at read
        · rename_i closing
          have other : b ≠ 0 := by
            rw [closing]
            decide
          rcases nextByte_terminated byteRead other with ⟨left, found, rfl⟩
          rcases Prod.mk.inj (Option.some.inj read) with ⟨rfl, rfl⟩
          refine ⟨left, ?_, rfl⟩
          simp only [parseItems, inner, found, Option.bind_eq_bind,
            Option.bind_some]
          rw [if_neg notComma, if_pos closing]
        · simp at read

theorem parseMembers_terminated (fuel : Nat) {front more rest : List Byte}
    {before members : List (String × Tree)}
    (read : parseMembers fuel before (padded front more) =
      some (members, rest)) :
    ∃ left, parseMembers fuel before front = some (members, left) ∧
      rest = padded left more := by
  match fuel with
  | 0 => simp [parseMembers] at read
  | fuel + 1 =>
      simp only [parseMembers, Option.bind_eq_bind,
        Option.bind_eq_some_iff] at read
      rcases read with ⟨⟨opening, inside⟩, openingRead, read⟩
      dsimp only at read
      split at read
      · rename_i isQuote
        have other : opening ≠ 0 := by
          rw [isQuote]
          decide
        rcases nextByte_terminated openingRead other with ⟨_, opens, rfl⟩
        rcases Option.bind_eq_some_iff.mp read with
          ⟨⟨key, afterKey⟩, keyRead, read⟩
        dsimp only at keyRead read
        rcases scanString_terminated keyRead with ⟨_, key, rfl⟩
        rcases Option.bind_eq_some_iff.mp read with
          ⟨⟨colon, afterColon⟩, colonRead, read⟩
        dsimp only at colonRead read
        split at read
        · rename_i isColon
          have other : colon ≠ 0 := by
            rw [isColon]
            decide
          rcases nextByte_terminated colonRead other with ⟨_, splits, rfl⟩
          rcases Option.bind_eq_some_iff.mp read with
            ⟨⟨value, afterValue⟩, valueRead, read⟩
          dsimp only at valueRead read
          rcases parseValue_terminated fuel valueRead with
            ⟨_, inner, rfl⟩
          rcases Option.bind_eq_some_iff.mp read with
            ⟨⟨b, next⟩, byteRead, read⟩
          dsimp only at byteRead read
          simp only [parseMembers, opens, isQuote, key, splits, isColon,
            inner, Option.bind_eq_bind, Option.bind_some, if_true]
          split at read
          · rename_i comma
            have other : b ≠ 0 := by
              rw [comma]
              decide
            rcases nextByte_terminated byteRead other with ⟨_, found, rfl⟩
            simp only [found, Option.bind_some]
            rw [if_pos comma]
            exact parseMembers_terminated fuel read
          · rename_i notComma
            split at read
            · rename_i closing
              have other : b ≠ 0 := by
                rw [closing]
                decide
              rcases nextByte_terminated byteRead other with
                ⟨left, found, rfl⟩
              rcases Prod.mk.inj (Option.some.inj read) with ⟨rfl, rfl⟩
              refine ⟨left, ?_, rfl⟩
              simp only [found, Option.bind_some]
              rw [if_neg notComma, if_pos closing]
            · simp at read
        · simp at read
      · simp at read

end

/-- A cut object is rejected with any fuel. -/
theorem parseValue_cut {members : List (String × Tree)}
    (canonical : (Tree.object members).Canonical)
    {front back : List Byte}
    (split : dump (.object members) = front ++ back) (cut : back ≠ [])
    (fuel : Nat) : parseValue fuel front = none := by
  cases read : parseValue fuel front with
  | none => rfl
  | some result =>
      rcases result with ⟨tree, rest⟩
      cases front with
      | nil => cases fuel <;> simp [parseValue, nextByte, skipSpace] at read
      | cons b front =>
          rcases dump_object_head members with ⟨tail, shape⟩
          have brace : b = byte '{' := by
            rw [shape, List.cons_append] at split
            exact (List.cons.inj split).1.symm
          subst brace
          let larger := max fuel (dump (.object members)).length
          have short : fuel ≤ larger := le_max_left ..
          have long : (dump (.object members)).length ≤ larger :=
            le_max_right ..
          have whole := parseValue_append fuel read short
            (Or.inr (parseValue_brace read)) back
          have dumped := parseTree_dump canonical delimited_nil
          rw [List.append_nil] at dumped
          have written := parseValue_append _ dumped long (Or.inr rfl) []
          rw [List.append_nil, split, whole] at written
          have empty := (Prod.mk.inj (Option.some.inj written)).2
          exact absurd (List.append_eq_nil_iff.mp empty).2 cut

/-- A cut object is rejected, also when it is padded with NUL bytes. -/
theorem parse_cut {j : Json} (object : j.isObject = true)
    {front back : List Byte} (split : j.toBytes = front ++ back)
    (cut : back ≠ []) (padding : Nat) :
    parse (front ++ List.replicate padding 0) = none := by
  cases padding with
  | zero =>
      rw [List.replicate_zero, List.append_nil]
      exact parse_prefix object split cut
  | succ padding =>
      rcases j with ⟨tree, canonical⟩
      cases tree with
      | object members =>
          let text := padded front (List.replicate padding 0)
          have rejected : parseTree text = none := by
            cases read : parseTree text with
            | none => rfl
            | some result =>
                rcases parseValue_terminated _ read with ⟨left, inner, -⟩
                rw [parseValue_cut canonical split cut] at inner
                simp at inner
          have unmarked : dropMark text = text := by
            cases front with
            | nil => rfl
            | cons b front =>
                rcases dump_object_head members with ⟨tail, shape⟩
                rw [toBytes, shape, List.cons_append] at split
                rcases (List.cons.inj split).1
                exact dropMark_brace _
          rw [List.replicate_succ]
          change parse text = none
          unfold parse
          split
          · rfl
          · rename_i tree rest read
            rw [unmarked, rejected] at read
            simp at read
      | _ => simp [isObject] at object

end KekMonitors.Json
