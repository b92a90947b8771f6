import KekMonitors.Json.Prefix

/-!
# Numbers that overflow

A literal that rounds to an infinite double ends the parser with another
exception than a syntax error does.  Whichever comes first in the text decides.
The reader below goes on behind such a literal, so that the texts of the
grammar can be told from those that the parser accepts.
-/

namespace KekMonitors.Json

/-! ## Reading on behind an overflow -/

/-- A reading, and whether a number overflowed before it ended. -/
structure Skim (α : Type) where
  overflowed : Bool
  result : Option α

namespace Skim

variable {α β : Type}

instance : Monad Skim where
  pure a := ⟨false, some a⟩
  bind first later :=
    match first.result with
    | none => ⟨first.overflowed, none⟩
    | some a =>
        ⟨first.overflowed || (later a).overflowed, (later a).result⟩

/-- A part of the text that is no number. -/
def plain (read : Option α) : Skim α := ⟨false, read⟩

/-- What the parser gives, which stops at a number that overflows. -/
def accepted (skim : Skim α) : Option α :=
  if skim.overflowed then none else skim.result

@[simp]
theorem accepted_plain (read : Option α) : (plain read).accepted = read :=
  rfl

@[simp]
theorem accepted_bind (first : Skim α) (later : α → Skim β) :
    (first >>= later).accepted =
      first.accepted.bind fun a => (later a).accepted := by
  rcases first with ⟨overflowed, _ | a⟩ <;> cases overflowed <;> rfl

theorem result_bind {first : Skim α} {later : α → Skim β} {b : β} :
    (first >>= later).result = some b ↔
      ∃ a, first.result = some a ∧ (later a).result = some b := by
  rcases first with ⟨overflowed, _ | a⟩
  · simp [bind]
  · simp [bind]

theorem bind_congr_result {first : Skim α} {later other : α → Skim β}
    (same : ∀ a, first.result = some a → later a = other a) :
    first >>= later = first >>= other := by
  rcases first with ⟨overflowed, _ | a⟩
  · rfl
  · simp only [bind, same a rfl]

theorem bind_congr_at {first : Skim α} {later other : α → Skim β} {a : α}
    (found : first.result = some a) (same : later a = other a) :
    first >>= later = first >>= other := by
  apply bind_congr_result
  intro b foundToo
  rcases Option.some.inj (found.symm.trans foundToo) with rfl
  exact same

end Skim

def skimNumber (input : List Byte) : Skim (List Byte) :=
  match scanNumber input with
  | none => .plain none
  | some (token, rest) =>
      ⟨(readInteger token).isNone && !isFinite token, some rest⟩

mutual

def skimValue : Nat → List Byte → Skim (List Byte)
  | 0, _ => .plain none
  | fuel + 1, input => do
      let (b, rest) ← .plain (nextByte input)
      match lead b with
      | .object => do
          let (first, inside) ← .plain (nextByte rest)
          if first = byte '}' then pure inside
          else skimMembers fuel rest
      | .array => do
          let (first, inside) ← .plain (nextByte rest)
          if first = byte ']' then pure inside
          else skimItems fuel rest
      | .string => do
          let (_, rest) ← .plain (scanString rest)
          pure rest
      | .fixed fixedWord => .plain (expect fixedWord.text (b :: rest))
      | .number => skimNumber (b :: rest)

def skimItems : Nat → List Byte → Skim (List Byte)
  | 0, _ => .plain none
  | fuel + 1, input => do
      let rest ← skimValue fuel input
      let (b, rest) ← .plain (nextByte rest)
      if b = byte ',' then skimItems fuel rest
      else if b = byte ']' then pure rest
      else .plain none

def skimMembers : Nat → List Byte → Skim (List Byte)
  | 0, _ => .plain none
  | fuel + 1, input => do
      let (open_, rest) ← .plain (nextByte input)
      if open_ = byte '"' then
        let (_, rest) ← .plain (scanString rest)
        let (colon, rest) ← .plain (nextByte rest)
        if colon = byte ':' then
          let rest ← skimValue fuel rest
          let (b, rest) ← .plain (nextByte rest)
          if b = byte ',' then skimMembers fuel rest
          else if b = byte '}' then pure rest
          else .plain none
        else .plain none
      else .plain none

end

/-! ## The parser stops at an overflow -/

theorem skimNumber_accepted (input : List Byte) :
    (skimNumber input).accepted = (readNumber input).map Prod.snd := by
  unfold skimNumber readNumber
  split
  · rename_i unread
    split
    · rfl
    · rename_i token rest scanned
      simp [unread] at scanned
  · rename_i token rest scanned
    split
    · rename_i unread
      simp [scanned] at unread
    · rename_i other left same
      rcases Prod.mk.inj (Option.some.inj (scanned.symm.trans same)) with
        ⟨rfl, rfl⟩
      split
      · rename_i value integer
        simp [Skim.accepted, integer]
      · rename_i integer
        by_cases finite : isFinite token = true <;>
          simp [Skim.accepted, integer, finite]

/-- A reading that goes on from the rest does not need what was read. -/
theorem bind_rest {α β : Type} (read : Option (α × List Byte))
    (later : List Byte → Option β) :
    (read.map Prod.snd).bind later = read.bind fun found => later found.2 := by
  cases read <;> rfl

mutual

/-- What is read without an overflow is what the parser accepts. -/
theorem skimValue_accepted (fuel : Nat) (input : List Byte) :
    (skimValue fuel input).accepted =
      (parseValue fuel input).map Prod.snd := by
  match fuel with
  | 0 => rfl
  | fuel + 1 =>
      simp only [skimValue, parseValue, Skim.accepted_bind,
        Skim.accepted_plain, Option.bind_eq_bind, Option.map_bind]
      congr 1
      funext ⟨b, rest⟩
      dsimp only [Function.comp]
      cases lead b with
      | object =>
          simp only [Skim.accepted_bind, Skim.accepted_plain,
            Option.map_bind]
          congr 1
          funext ⟨first, inside⟩
          dsimp only [Function.comp]
          split
          · rfl
          · rw [skimMembers_accepted fuel [] rest, Option.map_bind]
            cases parseMembers fuel [] rest <;> rfl
      | array =>
          simp only [Skim.accepted_bind, Skim.accepted_plain,
            Option.map_bind]
          congr 1
          funext ⟨first, inside⟩
          dsimp only [Function.comp]
          split
          · rfl
          · rw [skimItems_accepted fuel rest, Option.map_bind]
            cases parseItems fuel rest <;> rfl
      | string =>
          simp only [Skim.accepted_bind, Skim.accepted_plain,
            Option.map_bind]
          rfl
      | fixed fixedWord =>
          simp only [Skim.accepted_plain, Option.map_bind]
          cases expect fixedWord.text (b :: rest) <;> rfl
      | number => exact skimNumber_accepted _

theorem skimItems_accepted (fuel : Nat) (input : List Byte) :
    (skimItems fuel input).accepted =
      (parseItems fuel input).map Prod.snd := by
  match fuel with
  | 0 => rfl
  | fuel + 1 =>
      simp only [skimItems, parseItems, Skim.accepted_bind,
        skimValue_accepted fuel input, bind_rest, Option.bind_eq_bind,
        Option.map_bind]
      congr 1
      funext ⟨item, rest⟩
      simp only [Skim.accepted_plain, Function.comp, Option.map_bind]
      congr 1
      funext ⟨b, rest⟩
      dsimp only [Function.comp]
      split
      · rw [skimItems_accepted fuel rest, Option.map_bind]
        cases parseItems fuel rest <;> rfl
      · split <;> rfl

theorem skimMembers_accepted (fuel : Nat) (before : List (String × Tree))
    (input : List Byte) :
    (skimMembers fuel input).accepted =
      (parseMembers fuel before input).map Prod.snd := by
  match fuel with
  | 0 => rfl
  | fuel + 1 =>
      simp only [skimMembers, parseMembers, Skim.accepted_bind,
        Skim.accepted_plain, Option.bind_eq_bind, Option.map_bind]
      congr 1
      funext ⟨opening, rest⟩
      dsimp only [Function.comp]
      split
      · simp only [Skim.accepted_bind, Skim.accepted_plain,
          Option.map_bind]
        congr 1
        funext ⟨key, rest⟩
        simp only [Function.comp, Option.map_bind]
        congr 1
        funext ⟨colon, rest⟩
        dsimp only [Function.comp]
        split
        · simp only [Skim.accepted_bind, Skim.accepted_plain,
            skimValue_accepted fuel rest, bind_rest, Option.map_bind]
          congr 1
          funext ⟨value, rest⟩
          simp only [Function.comp, Option.map_bind]
          congr 1
          funext ⟨b, rest⟩
          dsimp only [Function.comp]
          split
          · exact skimMembers_accepted fuel _ rest
          · split <;> rfl
        · rfl
      · rfl

end

/-! ## A reading takes bytes -/

theorem nextByte_shorter {input rest : List Byte} {b : Byte}
    (read : nextByte input = some (b, rest)) :
    rest.length < input.length := by
  induction input with
  | nil => simp [nextByte, skipSpace] at read
  | cons head tail ih =>
      unfold nextByte skipSpace at read
      by_cases space : isSpace head = true
      · rw [if_pos space] at read
        exact Nat.lt_succ_of_lt (ih read)
      · rw [if_neg space] at read
        rcases Prod.mk.inj (Option.some.inj read) with ⟨-, rfl⟩
        exact Nat.lt_succ_self _

theorem expect_length {word input rest : List Byte}
    (read : expect word input = some rest) :
    rest.length + word.length = input.length := by
  induction word generalizing input with
  | nil => rw [Option.some.inj read, List.length_nil, Nat.add_zero]
  | cons wanted word ih =>
      cases input with
      | nil => simp [expect] at read
      | cons b tail =>
          unfold expect at read
          split at read
          · have left := ih read
            simp only [List.length_cons]
            omega
          · simp at read

theorem scanStringFrom_shorter {state : StringState}
    {input content rest : List Byte}
    (read : scanStringFrom state input = some (content, rest)) :
    rest.length < input.length := by
  induction input generalizing state content with
  | nil => simp [scanStringFrom] at read
  | cons b input ih =>
      unfold scanStringFrom at read
      split at read
      · rcases Prod.mk.inj (Option.some.inj read) with ⟨-, rfl⟩
        exact Nat.lt_succ_self _
      · split at read
        · simp at read
        · rcases Option.map_eq_some_iff.mp read with
            ⟨⟨inner, left⟩, innerRead, same⟩
          rcases Prod.mk.inj same with ⟨-, rfl⟩
          exact Nat.lt_succ_of_lt (ih innerRead)

theorem scanString_shorter {input rest : List Byte} {s : String}
    (read : scanString input = some (s, rest)) :
    rest.length < input.length := by
  unfold scanString at read
  split at read
  · simp at read
  · rename_i content left scanned
    rcases Option.map_eq_some_iff.mp read with ⟨_, -, same⟩
    rcases Prod.mk.inj same with ⟨-, rfl⟩
    exact scanStringFrom_shorter scanned

theorem scanNumberFrom_length {state : NumberState}
    {input token rest : List Byte}
    (read : scanNumberFrom state input = some (token, rest)) :
    rest.length + token.length = input.length := by
  induction input generalizing state token with
  | nil =>
      unfold scanNumberFrom at read
      split at read
      · rcases Prod.mk.inj (Option.some.inj read) with ⟨rfl, rfl⟩
        rfl
      · simp at read
  | cons b input ih =>
      unfold scanNumberFrom at read
      split at read
      · rcases Option.map_eq_some_iff.mp read with
          ⟨⟨inner, left⟩, innerRead, same⟩
        rcases Prod.mk.inj same with ⟨rfl, rfl⟩
        have inside := ih innerRead
        dsimp only at inside ⊢
        simp only [List.length_cons]
        omega
      · split at read
        · rcases Prod.mk.inj (Option.some.inj read) with ⟨rfl, rfl⟩
          rfl
        · simp at read

theorem skimNumber_shorter {input rest : List Byte}
    (read : (skimNumber input).result = some rest) :
    rest.length < input.length := by
  unfold skimNumber at read
  split at read
  · simp [Skim.plain] at read
  · rename_i token left scanned
    rcases Option.some.inj read with rfl
    have split := scanNumberFrom_length scanned
    cases token with
    | nil =>
        have empty := scanNumberFrom_token scanned
        simp [scanNumberFrom, NumberState.accepting] at empty
    | cons b token =>
        rw [List.length_cons] at split
        omega

mutual

theorem skimValue_shorter (fuel : Nat) {input rest : List Byte}
    (read : (skimValue fuel input).result = some rest) :
    rest.length < input.length := by
  match fuel with
  | 0 => simp [skimValue, Skim.plain] at read
  | fuel + 1 =>
      rcases Skim.result_bind.mp read with ⟨⟨b, after⟩, first, read⟩
      have shorter := nextByte_shorter first
      dsimp only at read
      cases kind : lead b with
      | object =>
          rw [kind] at read
          rcases Skim.result_bind.mp read with
            ⟨⟨second, inside⟩, secondRead, read⟩
          have second := nextByte_shorter secondRead
          dsimp only at read
          split at read
          · rcases Option.some.inj read with rfl
            omega
          · have left := skimMembers_shorter fuel read
            omega
      | array =>
          rw [kind] at read
          rcases Skim.result_bind.mp read with
            ⟨⟨second, inside⟩, secondRead, read⟩
          have second := nextByte_shorter secondRead
          dsimp only at read
          split at read
          · rcases Option.some.inj read with rfl
            omega
          · have left := skimItems_shorter fuel read
            omega
      | string =>
          rw [kind] at read
          rcases Skim.result_bind.mp read with
            ⟨⟨value, left⟩, valueRead, same⟩
          rcases Option.some.inj same with rfl
          have left := scanString_shorter valueRead
          exact Nat.lt_trans left shorter
      | fixed fixedWord =>
          rw [kind] at read
          have left := expect_length read
          have word : 0 < fixedWord.text.length := by
            cases fixedWord <;> decide
          rw [List.length_cons] at left
          omega
      | number =>
          rw [kind] at read
          have left := skimNumber_shorter read
          rw [List.length_cons] at left
          omega

theorem skimItems_shorter (fuel : Nat) {input rest : List Byte}
    (read : (skimItems fuel input).result = some rest) :
    rest.length < input.length := by
  match fuel with
  | 0 => simp [skimItems, Skim.plain] at read
  | fuel + 1 =>
      rcases Skim.result_bind.mp read with ⟨after, valueRead, read⟩
      rcases Skim.result_bind.mp read with ⟨⟨b, next⟩, byteRead, read⟩
      have value := skimValue_shorter fuel valueRead
      have last := nextByte_shorter byteRead
      dsimp only at read
      split at read
      · have left := skimItems_shorter fuel read
        omega
      · split at read
        · rcases Option.some.inj read with rfl
          omega
        · simp [Skim.plain] at read

theorem skimMembers_shorter (fuel : Nat) {input rest : List Byte}
    (read : (skimMembers fuel input).result = some rest) :
    rest.length < input.length := by
  match fuel with
  | 0 => simp [skimMembers, Skim.plain] at read
  | fuel + 1 =>
      rcases Skim.result_bind.mp read with
        ⟨⟨opening, inside⟩, openingRead, read⟩
      have opened := nextByte_shorter openingRead
      dsimp only at read
      split at read
      · rcases Skim.result_bind.mp read with
          ⟨⟨key, afterKey⟩, keyRead, read⟩
        rcases Skim.result_bind.mp read with
          ⟨⟨colon, afterColon⟩, colonRead, read⟩
        have named := Nat.lt_trans (scanString_shorter keyRead) opened
        have parted := Nat.lt_trans (nextByte_shorter colonRead) named
        dsimp only at read
        split at read
        · rcases Skim.result_bind.mp read with ⟨after, valueRead, read⟩
          rcases Skim.result_bind.mp read with ⟨⟨b, next⟩, byteRead, read⟩
          have value :=
            Nat.lt_trans (skimValue_shorter fuel valueRead) parted
          have last := Nat.lt_trans (nextByte_shorter byteRead) value
          dsimp only at read
          split at read
          · exact Nat.lt_trans (skimMembers_shorter fuel read) last
          · split at read
            · rcases Option.some.inj read with rfl
              exact last
            · simp [Skim.plain] at read
        · simp [Skim.plain] at read
      · simp [Skim.plain] at read

end

/-! ## Enough fuel -/

mutual

/-- Two units for each byte are enough, wherever the reading ends. -/
theorem skimValue_fuel (fuel : Nat) {larger : Nat} {input : List Byte}
    (enough : 2 * input.length < fuel) (more : fuel ≤ larger) :
    skimValue larger input = skimValue fuel input := by
  match fuel, larger with
  | 0, _ => omega
  | fuel + 1, 0 => omega
  | fuel + 1, larger + 1 =>
      have more : fuel ≤ larger := by omega
      apply Skim.bind_congr_result
      rintro ⟨b, rest⟩ first
      have shorter : rest.length < input.length := nextByte_shorter first
      have enough : 2 * rest.length + 1 < fuel := by omega
      dsimp only
      cases lead b with
      | object =>
          apply Skim.bind_congr_result
          rintro ⟨second, inside⟩ -
          dsimp only
          rw [skimMembers_fuel fuel enough more]
      | array =>
          apply Skim.bind_congr_result
          rintro ⟨second, inside⟩ -
          dsimp only
          rw [skimItems_fuel fuel enough more]
      | string => rfl
      | fixed fixedWord => rfl
      | number => rfl

theorem skimItems_fuel (fuel : Nat) {larger : Nat} {input : List Byte}
    (enough : 2 * input.length + 1 < fuel) (more : fuel ≤ larger) :
    skimItems larger input = skimItems fuel input := by
  match fuel, larger with
  | 0, _ => omega
  | fuel + 1, 0 => omega
  | fuel + 1, larger + 1 =>
      have more : fuel ≤ larger := by omega
      have item : 2 * input.length < fuel := by omega
      rw [skimItems, skimItems, skimValue_fuel fuel item more]
      apply Skim.bind_congr_result
      intro after valueRead
      apply Skim.bind_congr_result
      rintro ⟨b, next⟩ byteRead
      have value := skimValue_shorter fuel valueRead
      have last : next.length < after.length := nextByte_shorter byteRead
      have enough : 2 * next.length + 1 < fuel := by omega
      dsimp only
      rw [skimItems_fuel fuel enough more]

theorem skimMembers_fuel (fuel : Nat) {larger : Nat} {input : List Byte}
    (enough : 2 * input.length + 1 < fuel) (more : fuel ≤ larger) :
    skimMembers larger input = skimMembers fuel input := by
  match fuel, larger with
  | 0, _ => omega
  | fuel + 1, 0 => omega
  | fuel + 1, larger + 1 =>
      have more : fuel ≤ larger := by omega
      apply Skim.bind_congr_result
      rintro ⟨opening, inside⟩ openingRead
      have opened : inside.length < input.length :=
        nextByte_shorter openingRead
      dsimp only
      split
      · apply Skim.bind_congr_result
        rintro ⟨key, afterKey⟩ keyRead
        apply Skim.bind_congr_result
        rintro ⟨colon, afterColon⟩ colonRead
        have named : afterKey.length < inside.length :=
          scanString_shorter keyRead
        have parted : afterColon.length < afterKey.length :=
          nextByte_shorter colonRead
        have value : 2 * afterColon.length < fuel := by omega
        dsimp only
        split
        · rw [skimValue_fuel fuel value more]
          apply Skim.bind_congr_result
          intro after valueRead
          apply Skim.bind_congr_result
          rintro ⟨b, next⟩ byteRead
          have shorter := skimValue_shorter fuel valueRead
          have last : next.length < after.length :=
            nextByte_shorter byteRead
          have enough : 2 * next.length + 1 < fuel := by omega
          dsimp only
          rw [skimMembers_fuel fuel enough more]
        · rfl
      · rfl

end

mutual

/-- Where a reading is complete, a unit for each byte it took is enough. -/
theorem skimValue_complete (fuel : Nat) {other : Nat}
    {input rest : List Byte}
    (read : (skimValue fuel input).result = some rest)
    (enough : input.length ≤ other + rest.length) :
    skimValue other input = skimValue fuel input := by
  have shorter := skimValue_shorter fuel read
  match fuel, other with
  | 0, _ => simp [skimValue, Skim.plain] at read
  | fuel + 1, 0 => omega
  | fuel + 1, other + 1 =>
      rcases Skim.result_bind.mp read with ⟨⟨b, after⟩, first, read⟩
      have opened : after.length < input.length := nextByte_shorter first
      have enough : after.length ≤ other + rest.length := by omega
      refine Skim.bind_congr_at first ?_
      dsimp only at read ⊢
      cases kind : lead b with
      | object =>
          rw [kind] at read
          rcases Skim.result_bind.mp read with
            ⟨⟨second, inside⟩, secondRead, read⟩
          refine Skim.bind_congr_at secondRead ?_
          dsimp only at read ⊢
          split at read
          · rename_i closing
            rw [if_pos closing, if_pos closing]
          · rw [skimMembers_complete fuel read enough]
      | array =>
          rw [kind] at read
          rcases Skim.result_bind.mp read with
            ⟨⟨second, inside⟩, secondRead, read⟩
          refine Skim.bind_congr_at secondRead ?_
          dsimp only at read ⊢
          split at read
          · rename_i closing
            rw [if_pos closing, if_pos closing]
          · rw [skimItems_complete fuel read enough]
      | string => rfl
      | fixed fixedWord => rfl
      | number => rfl

theorem skimItems_complete (fuel : Nat) {other : Nat}
    {input rest : List Byte}
    (read : (skimItems fuel input).result = some rest)
    (enough : input.length ≤ other + rest.length) :
    skimItems other input = skimItems fuel input := by
  have shorter := skimItems_shorter fuel read
  match fuel, other with
  | 0, _ => simp [skimItems, Skim.plain] at read
  | fuel + 1, 0 => omega
  | fuel + 1, other + 1 =>
      rcases Skim.result_bind.mp read with ⟨after, valueRead, read⟩
      rcases Skim.result_bind.mp read with ⟨⟨b, next⟩, byteRead, read⟩
      have value := skimValue_shorter fuel valueRead
      have last : next.length < after.length := nextByte_shorter byteRead
      have left : rest.length ≤ next.length := by
        dsimp only at read
        split at read
        · exact Nat.le_of_lt (skimItems_shorter fuel read)
        · split at read
          · rw [Option.some.inj read]
          · simp [Skim.plain] at read
      have item : input.length ≤ other + after.length := by omega
      have enough : next.length ≤ other + rest.length := by omega
      rw [skimItems, skimItems, skimValue_complete fuel valueRead item]
      refine Skim.bind_congr_at valueRead (Skim.bind_congr_at byteRead ?_)
      dsimp only at read ⊢
      split at read
      · rename_i comma
        rw [if_pos comma, if_pos comma, skimItems_complete fuel read enough]
      · rename_i notComma
        rw [if_neg notComma, if_neg notComma]

theorem skimMembers_complete (fuel : Nat) {other : Nat}
    {input rest : List Byte}
    (read : (skimMembers fuel input).result = some rest)
    (enough : input.length ≤ other + rest.length) :
    skimMembers other input = skimMembers fuel input := by
  have shorter := skimMembers_shorter fuel read
  match fuel, other with
  | 0, _ => simp [skimMembers, Skim.plain] at read
  | fuel + 1, 0 => omega
  | fuel + 1, other + 1 =>
      rcases Skim.result_bind.mp read with
        ⟨⟨opening, inside⟩, openingRead, read⟩
      have opened : inside.length < input.length :=
        nextByte_shorter openingRead
      refine Skim.bind_congr_at openingRead ?_
      dsimp only at read ⊢
      split at read
      · rename_i isQuote
        rw [if_pos isQuote, if_pos isQuote]
        rcases Skim.result_bind.mp read with
          ⟨⟨key, afterKey⟩, keyRead, read⟩
        rcases Skim.result_bind.mp read with
          ⟨⟨colon, afterColon⟩, colonRead, read⟩
        have named : afterKey.length < inside.length :=
          scanString_shorter keyRead
        have parted : afterColon.length < afterKey.length :=
          nextByte_shorter colonRead
        refine Skim.bind_congr_at keyRead
          (Skim.bind_congr_at colonRead ?_)
        dsimp only at read ⊢
        split at read
        · rename_i isColon
          rw [if_pos isColon, if_pos isColon]
          rcases Skim.result_bind.mp read with ⟨after, valueRead, read⟩
          rcases Skim.result_bind.mp read with ⟨⟨b, next⟩, byteRead, read⟩
          have value := skimValue_shorter fuel valueRead
          have last : next.length < after.length :=
            nextByte_shorter byteRead
          have left : rest.length ≤ next.length := by
            dsimp only at read
            split at read
            · exact Nat.le_of_lt (skimMembers_shorter fuel read)
            · split at read
              · rw [Option.some.inj read]
              · simp [Skim.plain] at read
          have member : afterColon.length ≤ other + after.length := by
            omega
          have enough : next.length ≤ other + rest.length := by omega
          rw [skimValue_complete fuel valueRead member]
          refine Skim.bind_congr_at valueRead
            (Skim.bind_congr_at byteRead ?_)
          dsimp only at read ⊢
          split at read
          · rename_i comma
            rw [if_pos comma, if_pos comma,
              skimMembers_complete fuel read enough]
          · rename_i notComma
            rw [if_neg notComma, if_neg notComma]
        · simp [Skim.plain] at read
      · simp [Skim.plain] at read

end

/-! ## Texts -/

/-- A text, read behind its overflows. -/
def skim (content : List Byte) : Skim (List Byte) :=
  skimValue (2 * (dropMark content).length + 1) (dropMark content)

/-- A number overflows before any syntax error. -/
def overflows (content : List Byte) : Bool := (skim content).overflowed

example : overflows (word "[[[[[[-1e999") = true := by decide +kernel

example : overflows (word "[[[[[[, 1e999") = false := by decide +kernel

/-- The grammar allows the text, and it is that of an object. -/
structure IsObjectText (content : List Byte) : Prop where
  opens : (nextByte (dropMark content)).map Prod.fst = some (byte '{')
  complete : (skim content).result.isSome = true

instance (content : List Byte) : Decidable (IsObjectText content) :=
  decidable_of_iff
    ((nextByte (dropMark content)).map Prod.fst = some (byte '{') ∧
      (skim content).result.isSome = true)
    ⟨fun text => ⟨text.1, text.2⟩, fun text => ⟨text.opens, text.complete⟩⟩

/-- The fuel of a text does not bound what is read of it. -/
theorem skim_fuel {content : List Byte} {larger : Nat}
    (more : 2 * (dropMark content).length < larger) :
    skimValue larger (dropMark content) = skim content :=
  skimValue_fuel _ (Nat.lt_succ_self _) more

/-- The parser has less fuel, but enough for what it accepts. -/
theorem skim_accepted (content : List Byte) :
    (skim content).accepted =
      (parseTree (dropMark content)).map Prod.snd := by
  rw [parseTree, ← skimValue_accepted]
  have unread : ∀ {fuel}, (skimValue fuel (dropMark content)).result = none →
      (skimValue fuel (dropMark content)).accepted = none := by
    intro fuel none
    simp [Skim.accepted, none]
  cases whole : (skim content).result with
  | some rest =>
      rw [skim, ← skimValue_complete _ whole (Nat.le_add_right ..)]
  | none =>
      cases parsed : (skimValue (dropMark content).length
          (dropMark content)).result with
      | none => rw [skim, unread whole, unread parsed]
      | some rest =>
          rw [skim, skimValue_complete _ parsed (by omega)]

theorem parsePrefix_eq_some_iff {content : List Byte} {j : Json} :
    parsePrefix content = some j ↔
      ∃ rest, parseTree (dropMark content) = some (j.tree, rest) := by
  unfold parsePrefix
  split
  · rename_i unread
    simp [unread]
  · rename_i tree rest read
    simp only [read, Option.some.injEq, Prod.mk.injEq, exists_eq_right',
      Json.ext_iff]

theorem lead_eq_object_iff {b : Byte} : lead b = .object ↔ b = byte '{' := by
  constructor
  · intro kind
    by_contra other
    unfold lead at kind
    rw [if_neg other] at kind
    split_ifs at kind
  · rintro rfl
    decide

/-- An object is what starts with a brace. -/
theorem parseValue_object_iff {fuel : Nat} {input rest : List Byte}
    {tree : Tree} (read : parseValue fuel input = some (tree, rest)) :
    (∃ members, tree = .object members) ↔
      (nextByte input).map Prod.fst = some (byte '{') := by
  cases fuel with
  | zero => simp [parseValue] at read
  | succ fuel =>
      simp only [parseValue, Option.bind_eq_bind,
        Option.bind_eq_some_iff] at read
      rcases read with ⟨⟨b, after⟩, first, read⟩
      have brace : (nextByte input).map Prod.fst = some (byte '{') ↔
          lead b = .object := by
        simp [first, lead_eq_object_iff]
      rw [brace]
      cases kind : lead b with
      | object =>
          simp only [kind, Option.bind_eq_some_iff] at read
          rcases read with ⟨⟨second, inside⟩, -, read⟩
          dsimp only at read
          split at read
          · rcases Prod.mk.inj (Option.some.inj read) with ⟨rfl, -⟩
            simp
          · rcases Option.bind_eq_some_iff.mp read with ⟨_, -, same⟩
            rcases Prod.mk.inj (Option.some.inj same) with ⟨rfl, -⟩
            simp
      | array =>
          simp only [kind, Option.bind_eq_some_iff] at read
          rcases read with ⟨⟨second, inside⟩, -, read⟩
          dsimp only at read
          split at read
          · rcases Prod.mk.inj (Option.some.inj read) with ⟨rfl, -⟩
            simp
          · rcases Option.bind_eq_some_iff.mp read with ⟨_, -, same⟩
            rcases Prod.mk.inj (Option.some.inj same) with ⟨rfl, -⟩
            simp
      | string =>
          simp only [kind, Option.bind_eq_some_iff] at read
          rcases read with ⟨_, -, same⟩
          rcases Prod.mk.inj (Option.some.inj same) with ⟨rfl, -⟩
          simp
      | fixed fixedWord =>
          simp only [kind, Option.bind_eq_some_iff] at read
          rcases read with ⟨_, -, same⟩
          rcases Prod.mk.inj (Option.some.inj same) with ⟨rfl, -⟩
          cases fixedWord <;> simp [FixedWord.tree]
      | number =>
          simp only [kind] at read
          have isNumber := readNumber_isNumber read
          cases tree <;> simp [Tree.isNumber] at isNumber ⊢

/-- The texts of objects that the parser accepts. -/
theorem parsePrefix_object_iff {content : List Byte} :
    (∃ j, parsePrefix content = some j ∧ j.isObject = true) ↔
      IsObjectText content ∧ overflows content = false := by
  have accepted := skim_accepted content
  unfold Skim.accepted at accepted
  constructor
  · rintro ⟨j, parsed, object⟩
    rcases parsePrefix_eq_some_iff.mp parsed with ⟨rest, read⟩
    have isObject : ∃ members, j.tree = .object members := by
      unfold Json.isObject at object
      split at object
      · exact ⟨_, ‹_›⟩
      · simp at object
    rw [read] at accepted
    split at accepted
    · simp at accepted
    · rename_i fits
      exact ⟨⟨(parseValue_object_iff read).mp isObject, by simp [accepted]⟩,
        Bool.eq_false_iff.mpr fits⟩
  · rintro ⟨text, fits⟩
    rcases Option.isSome_iff_exists.mp text.complete with ⟨rest, complete⟩
    rw [overflows] at fits
    rw [if_neg (by simp [fits]), complete] at accepted
    rcases Option.map_eq_some_iff.mp accepted.symm with
      ⟨⟨tree, left⟩, read, -⟩
    rcases (parseValue_object_iff read).mpr text.opens with ⟨members, rfl⟩
    exact ⟨⟨.object members, parseValue_canonical _ read⟩,
      parsePrefix_eq_some_iff.mpr ⟨left, read⟩, rfl⟩

/-! ## Reading from a stream -/

/-- How `operator>>` fails. -/
inductive ReadError where
  | parseError
  | outOfRange
  deriving DecidableEq, Repr

/-- `operator>>` throws at the first error that it meets. -/
def readFrom (content : List Byte) : Except ReadError Json :=
  match parsePrefix content with
  | some j => .ok j
  | none =>
      if overflows content then .error .outOfRange else .error .parseError

theorem readFrom_eq_ok {content : List Byte} {j : Json}
    (parsed : parsePrefix content = some j) : readFrom content = .ok j := by
  rw [readFrom, parsed]

/-- An overflow is not a syntax error. -/
theorem readFrom_overflow {content : List Byte}
    (overflow : overflows content = true) :
    readFrom content = .error .outOfRange := by
  have accepted := skim_accepted content
  rw [Skim.accepted, if_pos (show (skim content).overflowed from overflow)]
    at accepted
  have unread : parsePrefix content = none := by
    rw [Option.eq_none_iff_forall_ne_some]
    intro j parsed
    rcases parsePrefix_eq_some_iff.mp parsed with ⟨rest, read⟩
    simp [read] at accepted
  rw [readFrom, unread]
  exact if_pos overflow

end KekMonitors.Json
