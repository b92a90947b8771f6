import Mathlib.Data.Nat.Digits.Lemmas
import Mathlib.Data.List.Basic

/-!
# Lexical layer of a JSON codec over bytes

The scanners below read one token off the front of a byte list and return it
with the bytes that follow.  Numbers and strings are read by small transducers,
one transition per byte, so that both facts needed about a scanner (it reads
back what the writer produced, and what it accepted does not depend on what
follows the accepted bytes) are inductions over the input.

A string is the list of UTF-8 code units between its quotes; every other token
is ASCII.
-/

namespace KekMonitors.Json

/-- A code unit of the text. -/
abbrev Byte := UInt8

/-- The code unit of an ASCII character. -/
def byte (c : Char) : Byte := c.toUInt8

/-! ## Whitespace and fixed words -/

/-- The four whitespace bytes of RFC 8259. -/
def isSpace (b : Byte) : Bool :=
  b == byte ' ' || b == byte '\t' || b == byte '\n' || b == byte '\r'

def skipSpace : List Byte → List Byte
  | [] => []
  | b :: rest => if isSpace b then skipSpace rest else b :: rest

theorem skipSpace_of_head {b : Byte} {rest : List Byte}
    (notSpace : isSpace b = false) :
    skipSpace (b :: rest) = b :: rest := by
  simp [skipSpace, notSpace]

/-- Skipping stops at a byte that more input cannot move. -/
theorem skipSpace_append {input rest : List Byte} {b : Byte}
    (stopped : skipSpace input = b :: rest) (more : List Byte) :
    skipSpace (input ++ more) = b :: (rest ++ more) := by
  induction input with
  | nil => simp [skipSpace] at stopped
  | cons head tail ih =>
      by_cases space : isSpace head
      · simp only [skipSpace, space, if_true] at stopped
        simpa [skipSpace, space] using ih stopped
      · simp only [skipSpace, space] at stopped
        simp only [Bool.false_eq_true, if_false, List.cons.injEq] at stopped
        rcases stopped with ⟨rfl, rfl⟩
        simp [skipSpace, space]

/-- Read a fixed word. -/
def expect : List Byte → List Byte → Option (List Byte)
  | [], input => some input
  | _ :: _, [] => none
  | wanted :: word, b :: rest => if b = wanted then expect word rest else none

theorem expect_self (word rest : List Byte) :
    expect word (word ++ rest) = some rest := by
  induction word with
  | nil => rfl
  | cons wanted word ih => simp [expect, ih]

theorem expect_append {word input rest : List Byte}
    (read : expect word input = some rest) (more : List Byte) :
    expect word (input ++ more) = some (rest ++ more) := by
  induction word generalizing input with
  | nil =>
      simp only [expect, Option.some.injEq] at read
      simp [expect, read]
  | cons wanted word ih =>
      cases input with
      | nil => simp [expect] at read
      | cons b tail =>
          simp only [expect] at read
          split at read
          · rename_i same
            simpa [expect, same] using ih read
          · simp at read

/-! ## Numbers -/

/-- The states of the number scanner, named by what was read last. -/
inductive NumberState where
  | start
  | minus
  | zero
  | integer
  | point
  | fraction
  | exponentMark
  | exponentSign
  | exponent
  deriving DecidableEq, Repr

def isDigit (b : Byte) : Bool := byte '0' ≤ b && b ≤ byte '9'

def isExponentMark (b : Byte) : Bool := b == byte 'e' || b == byte 'E'

/-- One byte of a number, or `none` where the number cannot go on. -/
def NumberState.next : NumberState → Byte → Option NumberState
  | .start, b =>
      if b = byte '-' then some .minus
      else if b = byte '0' then some .zero
      else if isDigit b then some .integer
      else none
  | .minus, b =>
      if b = byte '0' then some .zero
      else if isDigit b then some .integer
      else none
  | .zero, b =>
      if b = byte '.' then some .point
      else if isExponentMark b then some .exponentMark
      else none
  | .integer, b =>
      if isDigit b then some .integer
      else if b = byte '.' then some .point
      else if isExponentMark b then some .exponentMark
      else none
  | .point, b => if isDigit b then some .fraction else none
  | .fraction, b =>
      if isDigit b then some .fraction
      else if isExponentMark b then some .exponentMark
      else none
  | .exponentMark, b =>
      if b = byte '+' || b = byte '-' then some .exponentSign
      else if isDigit b then some .exponent
      else none
  | .exponentSign, b => if isDigit b then some .exponent else none
  | .exponent, b => if isDigit b then some .exponent else none

/-- Where a number may end. -/
def NumberState.accepting : NumberState → Bool
  | .zero | .integer | .fraction | .exponent => true
  | _ => false

def scanNumberFrom :
    NumberState → List Byte → Option (List Byte × List Byte)
  | state, [] => if state.accepting then some ([], []) else none
  | state, b :: rest =>
      match state.next b with
      | some next =>
          (scanNumberFrom next rest).map fun found =>
            (b :: found.1, found.2)
      | none => if state.accepting then some ([], b :: rest) else none

/-- Read the longest number at the front of the input. -/
def scanNumber : List Byte → Option (List Byte × List Byte) :=
  scanNumberFrom .start

/-- No number continues with the first byte of `rest`. -/
def Delimited (rest : List Byte) : Prop :=
  ∀ b, rest.head? = some b → ∀ state : NumberState, state.next b = none

theorem delimited_nil : Delimited [] := by
  intro b head
  simp at head

theorem delimited_cons {b : Byte}
    (stops : ∀ state : NumberState, state.next b = none) (rest : List Byte) :
    Delimited (b :: rest) := by
  intro head same
  simp only [List.head?_cons, Option.some.injEq] at same
  exact same ▸ stops

/-- A complete number is read back from any delimited continuation. -/
theorem scanNumberFrom_complete {state : NumberState}
    {token found rest : List Byte}
    (alone : scanNumberFrom state token = some (found, []))
    (delimited : Delimited rest) :
    scanNumberFrom state (token ++ rest) = some (found, rest) := by
  induction token generalizing state found with
  | nil =>
      simp only [scanNumberFrom] at alone
      split at alone
      · rename_i accepting
        rcases Prod.mk.inj (Option.some.inj alone) with ⟨rfl, -⟩
        cases rest with
        | nil => simp [scanNumberFrom, accepting]
        | cons b rest =>
            have stops : state.next b = none := delimited b rfl state
            simp [scanNumberFrom, stops, accepting]
      · simp at alone
  | cons b token ih =>
      simp only [scanNumberFrom] at alone
      cases step : state.next b with
      | none =>
          simp only [step] at alone
          split at alone
          · simp at alone
          · simp at alone
      | some next =>
          simp only [step, Option.map_eq_some_iff] at alone
          rcases alone with ⟨⟨inner, left⟩, innerRead, same⟩
          rcases Prod.mk.inj same with ⟨rfl, rfl⟩
          simp [scanNumberFrom, step, ih innerRead]

/-- A number that ended before the input did ends there with any more input. -/
theorem scanNumberFrom_append {state : NumberState}
    {input found rest : List Byte} {b : Byte}
    (read : scanNumberFrom state input = some (found, b :: rest))
    (more : List Byte) :
    scanNumberFrom state (input ++ more) =
      some (found, b :: (rest ++ more)) := by
  induction input generalizing state found with
  | nil =>
      simp only [scanNumberFrom] at read
      split at read <;> simp at read
  | cons head input ih =>
      simp only [scanNumberFrom] at read
      cases step : state.next head with
      | none =>
          simp only [step] at read
          split at read
          · rename_i accepting
            simp only [Option.some.injEq, Prod.mk.injEq,
              List.cons.injEq] at read
            rcases read with ⟨rfl, rfl, rfl⟩
            simp [scanNumberFrom, step, accepting]
          · simp at read
      | some next =>
          simp only [step, Option.map_eq_some_iff] at read
          rcases read with ⟨⟨inner, left⟩, innerRead, same⟩
          rcases Prod.mk.inj same with ⟨rfl, rfl⟩
          simp [scanNumberFrom, step, ih innerRead]

/-- A number consumes at least one byte from the start state. -/
theorem scanNumber_nil : scanNumber [] = none := rfl

/-! ## Decimal integers -/

/-- Value of a run of digits, most significant first. -/
def ofDecimal (digits : List Byte) : Nat :=
  digits.foldl (fun value digit => 10 * value + (digit.toNat - 48)) 0

/-- The digits of a natural number, most significant first. -/
def decimal (n : Nat) : List Byte :=
  if n = 0 then [byte '0']
  else (Nat.digits 10 n).reverse.map fun digit => UInt8.ofNat (48 + digit)

private theorem digit_value {digit : Nat} (small : digit < 10) :
    (UInt8.ofNat (48 + digit)).toNat - 48 = digit := by
  rw [UInt8.toNat_ofNat']
  omega

private theorem foldr_digit_value (digits : List Nat)
    (small : ∀ digit ∈ digits, digit < 10) :
    digits.foldr
        (fun digit value =>
          10 * value + ((UInt8.ofNat (48 + digit)).toNat - 48)) 0 =
      Nat.ofDigits 10 digits := by
  induction digits with
  | nil => rfl
  | cons digit digits ih =>
      have headSmall : digit < 10 := small digit List.mem_cons_self
      have tailSmall : ∀ other ∈ digits, other < 10 :=
        fun other member => small other (List.mem_cons_of_mem _ member)
      rw [List.foldr_cons, ih tailSmall, digit_value headSmall,
        Nat.ofDigits_cons]
      omega

theorem ofDecimal_decimal (n : Nat) : ofDecimal (decimal n) = n := by
  unfold decimal ofDecimal
  split
  · rename_i zero
    subst zero
    rfl
  · rw [List.foldl_map, List.foldl_reverse]
    have value := foldr_digit_value (Nat.digits 10 n)
      fun digit member => Nat.digits_lt_base (by omega) member
    rw [value, Nat.ofDigits_digits]

private theorem isDigit_ofNat {digit : Nat} (small : digit < 10) :
    isDigit (UInt8.ofNat (48 + digit)) = true := by
  have all : ∀ digit : Fin 10, isDigit (UInt8.ofNat (48 + digit)) = true := by
    decide
  exact all ⟨digit, small⟩

theorem isDigit_of_mem_decimal {n : Nat} {b : Byte}
    (member : b ∈ decimal n) : isDigit b = true := by
  unfold decimal at member
  split at member
  · rw [List.mem_singleton] at member
    subst member
    decide
  · rcases List.mem_map.mp member with ⟨digit, digitMember, rfl⟩
    exact isDigit_ofNat
      (Nat.digits_lt_base (by omega) (List.mem_reverse.mp digitMember))

/-- Digits keep the scanner inside the integer part. -/
theorem scanNumberFrom_integer {digits : List Byte}
    (allDigits : ∀ b ∈ digits, isDigit b = true) :
    scanNumberFrom .integer digits = some (digits, []) := by
  induction digits with
  | nil => rfl
  | cons b digits ih =>
      have headDigit : isDigit b = true := allDigits b List.mem_cons_self
      have tail := ih fun other member =>
        allDigits other (List.mem_cons_of_mem _ member)
      simp [scanNumberFrom, NumberState.next, headDigit, tail]

private theorem nonzero_digit {digit : Nat}
    (small : digit < 10) (nonzero : digit ≠ 0) :
    UInt8.ofNat (48 + digit) ≠ byte '0' ∧
      UInt8.ofNat (48 + digit) ≠ byte '-' := by
  have all : ∀ digit : Fin 10, digit ≠ 0 →
      UInt8.ofNat (48 + digit) ≠ byte '0' ∧
        UInt8.ofNat (48 + digit) ≠ byte '-' := by
    decide
  exact all ⟨digit, small⟩ fun zero => nonzero (Fin.mk.inj zero)

/-- A positive decimal starts with a digit other than zero. -/
theorem decimal_pos {n : Nat} (positive : n ≠ 0) :
    ∃ first rest, decimal n = first :: rest ∧
      first ≠ byte '0' ∧ first ≠ byte '-' := by
  have nonempty : Nat.digits 10 n ≠ [] :=
    Nat.digits_ne_nil_iff_ne_zero.mpr positive
  have last := Nat.getLast_digit_ne_zero 10 positive
  have lastSmall : (Nat.digits 10 n).getLast nonempty < 10 :=
    Nat.digits_lt_base (by omega) (List.getLast_mem nonempty)
  rcases nonzero_digit lastSmall last with ⟨notZero, notMinus⟩
  refine ⟨UInt8.ofNat (48 + (Nat.digits 10 n).getLast nonempty),
    (Nat.digits 10 n).dropLast.reverse.map
      fun digit => UInt8.ofNat (48 + digit), ?_, notZero, notMinus⟩
  have split :=
    congrArg List.reverse (List.dropLast_append_getLast nonempty)
  rw [List.reverse_append, List.reverse_singleton,
    List.singleton_append] at split
  rw [decimal, if_neg positive, ← split, List.map_cons]

/-- A decimal is one integer token, from both states that allow one. -/
theorem scanNumberFrom_decimal {state : NumberState} (n : Nat)
    (allowed : state = .start ∨ state = .minus) :
    scanNumberFrom state (decimal n) = some (decimal n, []) := by
  by_cases zero : n = 0
  · subst zero
    rcases allowed with rfl | rfl <;> rfl
  · rcases decimal_pos zero with ⟨first, rest, shape, notZero, notMinus⟩
    have digits : ∀ b ∈ first :: rest, isDigit b = true :=
      fun b member => isDigit_of_mem_decimal (shape ▸ member)
    have firstDigit : isDigit first = true := digits first List.mem_cons_self
    have tail := scanNumberFrom_integer fun b member =>
      digits b (List.mem_cons_of_mem _ member)
    rw [shape]
    rcases allowed with rfl | rfl <;>
      simp [scanNumberFrom, NumberState.next, notZero, notMinus,
        firstDigit, tail]

/-- The token of an integer. -/
def renderInt : Int → List Byte
  | .ofNat n => decimal n
  | .negSucc n => byte '-' :: decimal (n + 1)

theorem scanNumber_renderInt (i : Int) :
    scanNumber (renderInt i) = some (renderInt i, []) := by
  cases i with
  | ofNat n => exact scanNumberFrom_decimal n (Or.inl rfl)
  | negSucc n =>
      have tail := scanNumberFrom_decimal (n + 1) (Or.inr rfl)
      simp [renderInt, scanNumber, scanNumberFrom, NumberState.next, tail]

/-- The value of a run of digits, if it is one. -/
def naturalOfToken (token : List Byte) : Option Nat :=
  if token.all isDigit then some (ofDecimal token) else none

/-- The value of a token without fraction and exponent. -/
def integerOfToken : List Byte → Option Int
  | [] => none
  | b :: rest =>
      if b = byte '-' then (naturalOfToken rest).map fun n => -(n : Int)
      else (naturalOfToken (b :: rest)).map fun n => (n : Int)

theorem naturalOfToken_decimal (n : Nat) :
    naturalOfToken (decimal n) = some n := by
  have allDigits : (decimal n).all isDigit = true :=
    List.all_eq_true.mpr fun _ member => isDigit_of_mem_decimal member
  rw [naturalOfToken, if_pos allDigits, ofDecimal_decimal]

theorem integerOfToken_renderInt (i : Int) :
    integerOfToken (renderInt i) = some i := by
  cases i with
  | ofNat n =>
      by_cases zero : n = 0
      · subst zero
        rfl
      · rcases decimal_pos zero with ⟨first, rest, shape, -, notMinus⟩
        have value := naturalOfToken_decimal n
        rw [shape] at value
        simp [renderInt, shape, integerOfToken, notMinus, value]
  | negSucc n =>
      simp [renderInt, integerOfToken, naturalOfToken_decimal,
        Int.negSucc_eq]

/-! ## Floating point literals -/

/-- Mantissa and decimal scale of a number token. -/
def scientific (token : List Byte) : Nat × Int :=
  let significand := token.takeWhile fun b => !isExponentMark b
  let exponentPart := (token.dropWhile fun b => !isExponentMark b).drop 1
  let exponentDigits := ofDecimal (exponentPart.filter isDigit)
  let exponent : Int :=
    if exponentPart.head? = some (byte '-') then -exponentDigits
    else exponentDigits
  let decimals := (significand.dropWhile fun b => b != byte '.').drop 1
  (ofDecimal (significand.filter isDigit), exponent - decimals.length)

/-- The token rounds to a finite double. -/
def isFinite (token : List Byte) : Bool :=
  let (mantissa, scale) := scientific token
  let bound := 2 ^ 1024 - 2 ^ 970
  if 0 ≤ scale then mantissa * 10 ^ scale.toNat < bound
  else mantissa < bound * 10 ^ (-scale).toNat

/-- The integer part of a number token, rounded towards zero. -/
def truncate (token : List Byte) : Int :=
  let (mantissa, scale) := scientific token
  let magnitude : Nat :=
    if 0 ≤ scale then mantissa * 10 ^ scale.toNat
    else mantissa / 10 ^ (-scale).toNat
  if token.head? = some (byte '-') then -magnitude else magnitude

end KekMonitors.Json
