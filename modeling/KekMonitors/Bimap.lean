import Mathlib.Data.List.Nodup

/-!
# Two-way maps

Pairs of a left and a right key, in which neither key occurs twice.  A pair is
inserted only if both of its keys are new, so what has been inserted is never
replaced, and looking up one key is the inverse of looking up the other.
-/

namespace KekMonitors

structure Bimap (Left Right : Type*) where
  pairs : List (Left × Right)
  nodup_left : (pairs.map Prod.fst).Nodup
  nodup_right : (pairs.map Prod.snd).Nodup

namespace Bimap

variable {Left Right : Type*}

def empty : Bimap Left Right where
  pairs := []
  nodup_left := List.nodup_nil
  nodup_right := List.nodup_nil

/-- Neither key is in the map. -/
def Fresh (m : Bimap Left Right) (left : Left) (right : Right) : Prop :=
  left ∉ m.pairs.map Prod.fst ∧ right ∉ m.pairs.map Prod.snd

/-- Where no key occurs twice, it finds the pair that has it. -/
theorem find?_eq_some_iff_mem {Pair Key : Type*} [DecidableEq Key]
    (key : Pair → Key) {pairs : List Pair} (nodup : (pairs.map key).Nodup)
    {wanted : Key} {pair : Pair} :
    (pairs.find? fun other => key other = wanted) = some pair ↔
      pair ∈ pairs ∧ key pair = wanted := by
  constructor
  · intro found
    exact ⟨List.mem_of_find?_eq_some found,
      by simpa using List.find?_some found⟩
  · rintro ⟨member, rfl⟩
    cases found : pairs.find? fun other => key other = key pair with
    | none => simpa using List.find?_eq_none.mp found pair member
    | some other =>
        have same : key other = key pair := by
          simpa using List.find?_some found
        rw [List.inj_on_of_nodup_map nodup
          (List.mem_of_find?_eq_some found) member same]

/-- The right key of a left one. -/
def left [DecidableEq Left] (m : Bimap Left Right) (key : Left) :
    Option Right :=
  (m.pairs.find? fun pair => pair.1 = key).map Prod.snd

/-- The left key of a right one. -/
def right [DecidableEq Right] (m : Bimap Left Right) (key : Right) :
    Option Left :=
  (m.pairs.find? fun pair => pair.2 = key).map Prod.fst

theorem left_eq_some_iff [DecidableEq Left] {m : Bimap Left Right}
    {key : Left} {value : Right} :
    m.left key = some value ↔ (key, value) ∈ m.pairs := by
  rw [left, Option.map_eq_some_iff]
  simp only [find?_eq_some_iff_mem Prod.fst m.nodup_left]
  constructor
  · rintro ⟨pair, ⟨member, rfl⟩, rfl⟩
    exact member
  · intro member
    exact ⟨(key, value), ⟨member, rfl⟩, rfl⟩

theorem right_eq_some_iff [DecidableEq Right] {m : Bimap Left Right}
    {key : Right} {value : Left} :
    m.right key = some value ↔ (value, key) ∈ m.pairs := by
  rw [right, Option.map_eq_some_iff]
  simp only [find?_eq_some_iff_mem Prod.snd m.nodup_right]
  constructor
  · rintro ⟨pair, ⟨member, rfl⟩, rfl⟩
    exact member
  · intro member
    exact ⟨(value, key), ⟨member, rfl⟩, rfl⟩

/-- The two directions are inverse to each other. -/
theorem left_iff_right [DecidableEq Left] [DecidableEq Right]
    (m : Bimap Left Right) (key : Left) (value : Right) :
    m.left key = some value ↔ m.right value = some key :=
  left_eq_some_iff.trans right_eq_some_iff.symm

section Insert

variable [DecidableEq Left] [DecidableEq Right]

instance (m : Bimap Left Right) (left : Left) (right : Right) :
    Decidable (m.Fresh left right) :=
  inferInstanceAs (Decidable (_ ∧ _))

def insert (m : Bimap Left Right) (left : Left) (right : Right) :
    Bimap Left Right :=
  if fresh : m.Fresh left right then
    { pairs := m.pairs ++ [(left, right)]
      nodup_left := by
        rw [List.map_append, List.nodup_append']
        exact ⟨m.nodup_left, by simp, by simpa using fresh.1⟩
      nodup_right := by
        rw [List.map_append, List.nodup_append']
        exact ⟨m.nodup_right, by simp, by simpa using fresh.2⟩ }
  else m

theorem mem_insert {m : Bimap Left Right} {key : Left} {value : Right}
    {pair : Left × Right} :
    pair ∈ (m.insert key value).pairs ↔
      pair ∈ m.pairs ∨ m.Fresh key value ∧ pair = (key, value) := by
  unfold insert
  split
  · rename_i fresh
    simp [fresh]
  · rename_i taken
    simp [taken]

theorem insert_of_fresh {m : Bimap Left Right} {key : Left} {value : Right}
    (fresh : m.Fresh key value) :
    (m.insert key value).pairs = m.pairs ++ [(key, value)] := by
  rw [insert, dif_pos fresh]

/-- Insert some pairs, one after the other. -/
def insertAll (m : Bimap Left Right) (pairs : List (Left × Right)) :
    Bimap Left Right :=
  pairs.foldl (fun m pair => m.insert pair.1 pair.2) m

theorem insertAll_cons (m : Bimap Left Right) (pair : Left × Right)
    (pairs : List (Left × Right)) :
    m.insertAll (pair :: pairs) =
      (m.insert pair.1 pair.2).insertAll pairs := rfl

/-- What is in the map stays there. -/
theorem mem_insertAll {m : Bimap Left Right} {pairs : List (Left × Right)}
    {pair : Left × Right} (member : pair ∈ m.pairs) :
    pair ∈ (m.insertAll pairs).pairs := by
  induction pairs generalizing m with
  | nil => exact member
  | cons first pairs ih => exact ih (mem_insert.mpr (Or.inl member))

/-- What is in the map has been inserted. -/
theorem of_mem_insertAll {m : Bimap Left Right}
    {pairs : List (Left × Right)} {pair : Left × Right}
    (member : pair ∈ (m.insertAll pairs).pairs) :
    pair ∈ m.pairs ∨ pair ∈ pairs := by
  induction pairs generalizing m with
  | nil => exact Or.inl member
  | cons first pairs ih =>
      rcases ih member with before | later
      · rcases mem_insert.mp before with old | ⟨-, rfl⟩
        · exact Or.inl old
        · exact Or.inr List.mem_cons_self
      · exact Or.inr (List.mem_cons_of_mem _ later)

/-- Pairs without a common key are all inserted. -/
theorem insertAll_pairs {m : Bimap Left Right}
    {pairs : List (Left × Right)}
    (left : ((m.pairs ++ pairs).map Prod.fst).Nodup)
    (right : ((m.pairs ++ pairs).map Prod.snd).Nodup) :
    (m.insertAll pairs).pairs = m.pairs ++ pairs := by
  induction pairs generalizing m with
  | nil => exact (List.append_nil _).symm
  | cons first pairs ih =>
      have fresh : m.Fresh first.1 first.2 := by
        rw [List.map_append, List.map_cons, List.nodup_append'] at left right
        exact ⟨fun old => left.2.2 old List.mem_cons_self,
          fun old => right.2.2 old List.mem_cons_self⟩
      have appended : (m.insert first.1 first.2).pairs ++ pairs =
          m.pairs ++ first :: pairs := by
        rw [insert_of_fresh fresh]
        simp
      rw [insertAll_cons, ih (appended ▸ left) (appended ▸ right), appended]

end Insert

end Bimap

end KekMonitors
