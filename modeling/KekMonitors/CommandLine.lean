import Mathlib.Data.List.Basic

/-!
# Command lines

A command line is split into arguments at its blanks, except for those inside
double quotes.  Splitters differ in what they take for a quote, and in what
they make of a quoted argument; the structure below says what they agree on.
-/

namespace KekMonitors.CommandLine

/-- How a splitter treats double quotes. -/
structure Quoting where
  /-- A text that begins an argument ends inside quotes. -/
  inside : List Char → Bool
  /-- What is made of the text of an argument. -/
  argument : List Char → List Char
  inside_nil : inside [] = false
  inside_append : ∀ text more, '"' ∉ more →
    inside (text ++ more) = inside text
  argument_plain : ∀ text, '"' ∉ text → argument text = text
  argument_length : ∀ text, (argument text).length ≤ text.length

/-- A text is dropped when it is empty. -/
def given (text : List Char) : List (List Char) :=
  if text = [] then [] else [text]

theorem given_of_nonempty {text : List Char} (nonempty : text ≠ []) :
    given text = [text] :=
  if_neg nonempty

theorem length_of_mem_given {text word : List Char}
    (member : word ∈ given text) : word.length ≤ text.length := by
  unfold given at member
  split at member
  · simp at member
  · exact Nat.le_of_eq (congrArg List.length (List.mem_singleton.mp member))

theorem length_given_le_one (text : List Char) : (given text).length ≤ 1 := by
  unfold given
  split <;> simp

/-- A text without blanks and quotes. -/
structure IsPlain (text : List Char) : Prop where
  nonempty : text ≠ []
  noBlank : ' ' ∉ text
  noQuote : '"' ∉ text

instance (text : List Char) : Decidable (IsPlain text) :=
  decidable_of_iff (text ≠ [] ∧ ' ' ∉ text ∧ '"' ∉ text)
    ⟨fun ⟨nonempty, noBlank, noQuote⟩ => ⟨nonempty, noBlank, noQuote⟩,
      fun plain => ⟨plain.nonempty, plain.noBlank, plain.noQuote⟩⟩

/-- Further texts, each after a blank. -/
def blankBefore (words : List (List Char)) : List Char :=
  words.flatMap fun word => ' ' :: word

theorem blankBefore_cons (word : List Char) (words : List (List Char)) :
    blankBefore (word :: words) = ' ' :: (word ++ blankBefore words) :=
  rfl

theorem noQuote_blankBefore {words : List (List Char)}
    (plain : ∀ word ∈ words, IsPlain word) : '"' ∉ blankBefore words := by
  intro member
  rcases List.mem_flatMap.mp member with ⟨word, listed, inWord⟩
  rcases List.mem_cons.mp inWord with blank | quote
  · simp at blank
  · exact (plain word listed).noQuote quote

namespace Quoting

variable (q : Quoting)

/-- The texts of the arguments, of which the first has been read in part. -/
def texts : List Char → List Char → List (List Char)
  | text, [] => given text
  | text, c :: rest =>
      if c = ' ' ∧ q.inside text = false then given text ++ texts [] rest
      else texts (text ++ [c]) rest

/-- The arguments of a command line. -/
def split (line : String) : List String :=
  (q.texts [] line.toList).map fun text => String.ofList (q.argument text)

/-- No blank of the rest ends the argument that has been read in part. -/
def Whole (text rest : List Char) : Prop :=
  ∀ front back, rest = front ++ ' ' :: back →
    q.inside (text ++ front) = true

/-- A text that is passed as one argument, as it is. -/
structure OneArgument (text : List Char) : Prop where
  nonempty : text ≠ []
  blanks : q.Whole [] text
  closed : q.inside text = false
  kept : q.argument text = text

/-! ## Splitting -/

variable {q} {text rest : List Char}

theorem Whole.of_noBlank (noBlank : ' ' ∉ rest) : q.Whole text rest := by
  rintro front back rfl
  simp at noBlank

theorem Whole.of_append {front back : List Char}
    (whole : q.Whole text (front ++ back)) : q.Whole text front := by
  rintro before after rfl
  exact whole before (after ++ back) (by simp)

/-- Inside quotes, a rest that has no quotes does not leave them. -/
theorem Whole.of_inside (inside : q.inside text = true)
    (noQuote : '"' ∉ rest) : q.Whole text rest := by
  rintro front back rfl
  rw [q.inside_append text front fun member => noQuote (by simp [member])]
  exact inside

theorem Whole.append {more : List Char} (whole : q.Whole text rest)
    (inside : q.inside (text ++ rest) = true) (noQuote : '"' ∉ more) :
    q.Whole text (rest ++ more) := by
  intro front back split
  rcases List.append_eq_append_iff.mp split with
    ⟨between, rfl, later⟩ | ⟨between, rfl, later⟩
  · rw [← List.append_assoc]
    exact Whole.of_inside inside noQuote between back later
  · cases between with
    | nil =>
        rw [List.append_nil] at inside
        exact inside
    | cons c between =>
        rcases List.cons.inj later with ⟨rfl, -⟩
        exact whole front between rfl

theorem Whole.tail {c : Char} (whole : q.Whole text (c :: rest)) :
    q.Whole (text ++ [c]) rest := by
  rintro front back rfl
  rw [List.append_assoc]
  exact whole (c :: front) back rfl

/-- The first character does not end the argument. -/
theorem Whole.goesOn {c : Char} (whole : q.Whole text (c :: rest)) :
    ¬ (c = ' ' ∧ q.inside text = false) := by
  rintro ⟨rfl, outside⟩
  have inside := whole [] rest rfl
  rw [List.append_nil, outside] at inside
  simp at inside

/-- What a blank does not end goes on up to the next blank that does. -/
theorem texts_append_of_whole (whole : q.Whole text rest)
    (closed : q.inside (text ++ rest) = false) (more : List Char) :
    q.texts text (rest ++ ' ' :: more) =
      given (text ++ rest) ++ q.texts [] more := by
  induction rest generalizing text with
  | nil =>
      rw [List.append_nil] at closed ⊢
      rw [List.nil_append, texts, if_pos ⟨rfl, closed⟩]
  | cons c rest ih =>
      have step := ih whole.tail (by simpa using closed)
      rw [List.cons_append, texts, if_neg whole.goesOn, step]
      simp

theorem texts_of_whole (whole : q.Whole text rest) :
    q.texts text rest = given (text ++ rest) := by
  induction rest generalizing text with
  | nil => rw [texts, List.append_nil]
  | cons c rest ih =>
      rw [texts, if_neg whole.goesOn, ih whole.tail]
      simp

/-- No argument has more characters than the line. -/
theorem length_of_mem_texts {word : List Char}
    (member : word ∈ q.texts text rest) :
    word.length ≤ text.length + rest.length := by
  induction rest generalizing text with
  | nil => exact length_of_mem_given member
  | cons c rest ih =>
      rw [texts] at member
      rw [List.length_cons]
      split at member
      · rcases List.mem_append.mp member with first | later
        · have shorter := length_of_mem_given first
          omega
        · have shorter := ih later
          rw [List.length_nil] at shorter
          omega
      · have shorter := ih member
        rw [List.length_append, List.length_singleton] at shorter
        omega

/--
Either no blank of the rest ends an argument, or the last one that does splits
the arguments before it from those behind it.
-/
theorem whole_or_splits (q : Quoting) (text rest : List Char) :
    q.Whole text rest ∨
      ∃ front back, rest = front ++ ' ' :: back ∧ q.Whole [] back ∧
        ∀ more, q.texts text (front ++ ' ' :: more) =
          q.texts text front ++ q.texts [] more := by
  induction rest generalizing text with
  | nil => exact Or.inl (.of_noBlank (by simp))
  | cons c rest ih =>
      by_cases ends : c = ' ' ∧ q.inside text = false
      · right
        rcases ends with ⟨rfl, outside⟩
        have first : ∀ more, q.texts text (' ' :: more) =
            given text ++ q.texts [] more := by
          intro more
          rw [texts, if_pos ⟨rfl, outside⟩]
        rcases ih [] with whole | ⟨front, back, rfl, whole, splits⟩
        · exact ⟨[], rest, rfl, whole, first⟩
        · refine ⟨' ' :: front, back, rfl, whole, ?_⟩
          intro more
          rw [List.cons_append, first, first, splits, List.append_assoc]
      · rcases ih (text ++ [c]) with whole | ⟨front, back, rfl, whole, splits⟩
        · left
          intro front back split
          cases front with
          | nil =>
              rcases List.cons.inj split with ⟨rfl, rfl⟩
              rw [List.append_nil]
              simpa using ends
          | cons other front =>
              rcases List.cons.inj split with ⟨rfl, rfl⟩
              simpa using whole front back rfl
        · right
          refine ⟨c :: front, back, rfl, whole, ?_⟩
          intro more
          rw [List.cons_append, texts, if_neg ends, splits, texts,
            if_neg ends]

/-! ## Plain arguments -/

theorem closed_of_noQuote (noQuote : '"' ∉ text) :
    q.inside text = false := by
  have inside := q.inside_append [] text noQuote
  rw [List.nil_append, q.inside_nil] at inside
  exact inside

/-- A plain argument is split off in front. -/
theorem texts_append_of_plain (plain : IsPlain text) (more : List Char) :
    q.texts [] (text ++ ' ' :: more) = text :: q.texts [] more := by
  have closed : q.inside ([] ++ text) = false :=
    closed_of_noQuote plain.noQuote
  rw [texts_append_of_whole (.of_noBlank plain.noBlank) closed,
    List.nil_append, given_of_nonempty plain.nonempty, List.singleton_append]

/-- Plain arguments behind a text that is whole and closed. -/
theorem texts_blankBefore {words : List (List Char)}
    (plain : ∀ word ∈ words, IsPlain word) (whole : q.Whole [] text)
    (closed : q.inside text = false) :
    q.texts [] (text ++ blankBefore words) = given text ++ words := by
  induction words generalizing text with
  | nil =>
      have all := texts_of_whole whole
      simpa [blankBefore] using all
  | cons word words ih =>
      have first := plain word List.mem_cons_self
      rw [blankBefore_cons, texts_append_of_whole whole closed,
        ih (fun other member => plain other (List.mem_cons_of_mem _ member))
          (.of_noBlank first.noBlank) (closed_of_noQuote first.noQuote),
        List.nil_append, given_of_nonempty first.nonempty,
        List.singleton_append]

theorem map_argument_plain {words : List (List Char)}
    (plain : ∀ word ∈ words, IsPlain word) :
    words.map q.argument = words := by
  rw [List.map_congr_left fun word member =>
    q.argument_plain word (plain word member).noQuote]
  exact List.map_id' words

/-! ## One argument among plain ones -/

/-- An argument that is split off a part of a text is not the whole text. -/
theorem ne_argument_of_shorter {word : List Char}
    (shorter : word.length < text.length) : q.argument word ≠ text := by
  intro same
  have bounded := q.argument_length word
  rw [same] at bounded
  omega

/-- The texts in front of a blank give no argument that has the whole text. -/
theorem not_mem_arguments {line : List Char}
    (shorter : line.length < text.length) :
    text ∉ (q.texts [] line).map q.argument := by
  intro member
  rcases List.mem_map.mp member with ⟨word, listed, same⟩
  have bounded := length_of_mem_texts listed
  rw [List.length_nil] at bounded
  exact ne_argument_of_shorter (by omega) same

/-- Where plain arguments follow a whole text, they stay behind it. -/
theorem alone_of_whole {words : List (List Char)} {all : List Char}
    (plain : ∀ word ∈ words, IsPlain word) (more : words ≠ [])
    (whole : q.Whole [] text)
    (passed : (q.texts [] (text ++ blankBefore words)).map q.argument =
      all :: words) :
    q.inside text = false ∧ (given text).map q.argument = [all] := by
  cases closed : q.inside text with
  | true =>
      -- the quotes are not closed, so there is but one argument
      exfalso
      have several := List.length_pos_iff.mpr more
      have lengths := congrArg List.length passed
      rw [texts_of_whole (whole.append closed (noQuote_blankBefore plain)),
        List.length_map, List.length_cons] at lengths
      have single := length_given_le_one
        ([] ++ (text ++ blankBefore words))
      omega
  | false =>
      rw [texts_blankBefore plain whole closed, List.map_append,
        map_argument_plain plain] at passed
      exact ⟨rfl, List.append_cancel_right passed⟩

/-- In front of plain arguments, a text is passed as one argument or not. -/
theorem arguments_blankBefore_iff {words : List (List Char)}
    (plain : ∀ word ∈ words, IsPlain word) (more : words ≠ []) :
    (q.texts [] (text ++ blankBefore words)).map q.argument =
        text :: words ↔ q.OneArgument text := by
  constructor
  · intro passed
    rcases whole_or_splits q [] text with
      whole | ⟨front, back, rfl, whole, splits⟩
    · rcases alone_of_whole plain more whole passed with ⟨closed, alone⟩
      by_cases nonempty : text = []
      · simp [given, nonempty] at alone
      · rw [given_of_nonempty nonempty] at alone
        exact ⟨nonempty, whole, closed, List.singleton_inj.mp alone⟩
    · exfalso
      rw [List.append_assoc, List.cons_append, splits, List.map_append]
        at passed
      have inFront : front ++ ' ' :: back ∉
          (q.texts [] front).map q.argument :=
        not_mem_arguments (by simp)
      cases first : (q.texts [] front).map q.argument with
      | cons word others =>
          rw [first] at passed inFront
          have same := (List.cons.inj passed).1
          exact inFront (same ▸ List.mem_cons_self)
      | nil =>
          -- all arguments come from behind the blank
          rw [first, List.nil_append] at passed
          have alone := (alone_of_whole plain more whole passed).2
          have behind : front ++ ' ' :: back ∉
              (q.texts [] back).map q.argument :=
            not_mem_arguments (by
              rw [List.length_append, List.length_cons]
              omega)
          rw [texts_of_whole whole] at behind
          exact behind (alone ▸ List.mem_cons_self)
  · intro one
    rw [texts_blankBefore plain one.blanks one.closed,
      given_of_nonempty one.nonempty, List.map_append,
      map_argument_plain plain, List.map_singleton, one.kept,
      List.singleton_append]

/-- A text without quotes is one argument when it has no blank either. -/
theorem oneArgument_of_noQuote (noQuote : '"' ∉ text) :
    q.OneArgument text ↔ IsPlain text := by
  constructor
  · intro one
    refine ⟨one.nonempty, fun blank => ?_, noQuote⟩
    rcases List.append_of_mem blank with ⟨front, back, rfl⟩
    have inside := one.blanks front back rfl
    rw [List.nil_append,
      closed_of_noQuote fun member => noQuote (by simp [member])] at inside
    simp at inside
  · intro plain
    exact ⟨plain.nonempty, .of_noBlank plain.noBlank,
      closed_of_noQuote noQuote, q.argument_plain text noQuote⟩

/-! ## Quotes in pairs -/

/-- Take the backslash off every quote that has one. -/
def unescape : List Char → List Char
  | [] => []
  | [c] => [c]
  | c :: d :: rest =>
      if c = '\\' ∧ d = '"' then d :: unescape rest
      else c :: unescape (d :: rest)

/-- Take off the quotes around an argument. -/
def unquote (text : List Char) : List Char :=
  if text.head? = some '"' ∧ text.getLast? = some '"' then text.tail.dropLast
  else text

theorem unescape_length (text : List Char) :
    (unescape text).length ≤ text.length := by
  fun_induction unescape text with
  | case1 => exact Nat.le_refl _
  | case2 c => exact Nat.le_refl _
  | case3 c d rest escaped ih =>
      simp only [List.length_cons]
      omega
  | case4 c d rest other ih =>
      simp only [List.length_cons] at ih ⊢
      omega

theorem unescape_plain {text : List Char} (noQuote : '"' ∉ text) :
    unescape text = text := by
  fun_induction unescape text with
  | case1 => rfl
  | case2 c => rfl
  | case3 c d rest escaped ih => simp [escaped.2] at noQuote
  | case4 c d rest other ih =>
      rw [ih fun member => noQuote (List.mem_cons_of_mem _ member)]

theorem unquote_length (text : List Char) :
    (unquote text).length ≤ text.length := by
  unfold unquote
  split
  · rw [List.length_dropLast, List.length_tail]
    omega
  · exact Nat.le_refl _

theorem unquote_plain {text : List Char} (noQuote : '"' ∉ text) :
    unquote text = text := by
  apply if_neg
  rintro ⟨first, -⟩
  exact noQuote (List.mem_of_head? first)

/-- Quotes open and close in turn; those around an argument are taken off. -/
def paired : Quoting where
  inside text := text.count '"' % 2 == 1
  argument text := unescape (unquote text)
  inside_nil := rfl
  inside_append text more noQuote := by
    rw [List.count_append, List.count_eq_zero.mpr noQuote, Nat.add_zero]
  argument_plain text noQuote := by
    rw [unquote_plain noQuote, unescape_plain noQuote]
  argument_length text :=
    Nat.le_trans (unescape_length _) (unquote_length text)

end Quoting

end KekMonitors.CommandLine
