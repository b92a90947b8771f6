import Mathlib.Data.List.Basic
import Mathlib.Data.Set.Insert
import Mathlib.Order.BooleanAlgebra.Set

/-!
# Sets known through a queue of changes

A set of keys changes, and each change is queued for an observer who keeps a
set of its own.  The observer is never wrong for good as long as the queued
changes, applied to its set, give the present one.  Keys have parents: an
observer that gives up a key no longer hears of the changes below it, so that
these must not matter any more.
-/

namespace KekMonitors.Transition

/-- A key appears or disappears. -/
structure Change (Key : Type*) where
  key : Key
  adds : Bool

variable {Key : Type*}

def Change.apply (change : Change Key) (keys : Set Key) : Set Key :=
  if change.adds then insert change.key keys else keys \ {change.key}

/-- The keys once all changes have been applied. -/
def settled (keys : Set Key) (changes : List (Change Key)) : Set Key :=
  changes.foldl (fun keys change => change.apply keys) keys

@[simp]
theorem settled_nil (keys : Set Key) : settled keys [] = keys := rfl

@[simp]
theorem settled_cons (keys : Set Key) (change : Change Key)
    (changes : List (Change Key)) :
    settled keys (change :: changes) =
      settled (change.apply keys) changes := rfl

theorem settled_append (keys : Set Key) (front back : List (Change Key)) :
    settled keys (front ++ back) = settled (settled keys front) back :=
  List.foldl_append

theorem Change.mem_apply {change : Change Key} {keys : Set Key} {key : Key} :
    key ∈ change.apply keys ↔
      key = change.key ∧ change.adds = true ∨
        key ≠ change.key ∧ key ∈ keys := by
  unfold apply
  cases change.adds with
  | true =>
      by_cases same : key = change.key
      · simp [same]
      · simp [same]
  | false => simp [and_comm]

/-- A change that finds what it makes has no effect. -/
theorem Change.apply_eq_self {change : Change Key} {keys : Set Key}
    (made : change.adds = true ↔ change.key ∈ keys) :
    change.apply keys = keys := by
  unfold apply
  cases adds : change.adds with
  | true => exact Set.insert_eq_of_mem (made.mp adds)
  | false =>
      apply Set.sdiff_singleton_eq_self
      intro member
      rw [made.mpr member] at adds
      simp at adds

/-- A change that is made twice is made once. -/
theorem Change.apply_apply (change : Change Key) (keys : Set Key) :
    change.apply (change.apply keys) = change.apply keys := by
  ext key
  rw [mem_apply, mem_apply]
  by_cases same : key = change.key
  · simp [same]
  · simp [same]

variable (parent : Key → Key)

/-- A removal leaves no key below it, and none below it is added later. -/
structure Change.Clears (change : Change Key) (keys : Set Key)
    (later : List (Change Key)) : Prop where
  now : ∀ key ∈ keys, parent key ≠ change.key
  later : ∀ other ∈ later, other.adds = true → parent other.key ≠ change.key

/-- Every removal clears what is below it. -/
def Orderly : Set Key → List (Change Key) → Prop
  | _, [] => True
  | keys, change :: changes =>
      (change.adds = false → change.Clears parent keys changes) ∧
        Orderly (change.apply keys) changes

/-- The observer's keys and the queued changes amount to the present keys. -/
structure Mirrors (observed : Set Key) (queued : List (Change Key))
    (present : Set Key) : Prop where
  settles : settled observed queued = present
  orderly : Orderly parent observed queued

/-- No removal of the key is queued. -/
def Unremoved (key : Key) (queued : List (Change Key)) : Prop :=
  ∀ change ∈ queued, change.adds = false → change.key ≠ key

instance [DecidableEq Key] (key : Key) (queued : List (Change Key)) :
    Decidable (Unremoved key queued) :=
  inferInstanceAs (Decidable (∀ _ ∈ _, _))

variable {parent}

theorem Mirrors.observed_eq {observed present : Set Key}
    (mirrors : Mirrors parent observed [] present) : observed = present :=
  mirrors.settles

/-- A change can be queued after changes that left room for it. -/
theorem Orderly.append {keys : Set Key} {changes : List (Change Key)}
    {change : Change Key} (orderly : Orderly parent keys changes)
    (allowed : change.adds = true → Unremoved (parent change.key) changes)
    (clears : change.adds = false →
      ∀ key ∈ settled keys changes, parent key ≠ change.key) :
    Orderly parent keys (changes ++ [change]) := by
  induction changes generalizing keys with
  | nil => exact ⟨fun removes => ⟨clears removes, by simp⟩, trivial⟩
  | cons first changes ih =>
      refine ⟨?_, ih orderly.2 ?_ clears⟩
      · intro removes
        have before := orderly.1 removes
        refine ⟨before.now, ?_⟩
        intro other member adds
        rcases List.mem_append.mp member with old | new
        · exact before.later other old adds
        · rcases List.mem_singleton.mp new with rfl
          exact (allowed adds first List.mem_cons_self removes).symm
      · intro adds other member
        exact allowed adds other (List.mem_cons_of_mem _ member)

/-- The keys change, and the observer is told. -/
theorem Mirrors.queue {observed present : Set Key}
    {queued : List (Change Key)} {change : Change Key}
    (mirrors : Mirrors parent observed queued present)
    (allowed : change.adds = true → Unremoved (parent change.key) queued)
    (clears : change.adds = false →
      ∀ key ∈ present, parent key ≠ change.key) :
    Mirrors parent observed (queued ++ [change]) (change.apply present) := by
  constructor
  · rw [settled_append, mirrors.settles]
    rfl
  · apply mirrors.orderly.append allowed
    rw [mirrors.settles]
    exact clears

/-- The keys do not change with a change that was queued last. -/
theorem Mirrors.repeated {observed present : Set Key}
    {queued : List (Change Key)} {change : Change Key}
    (mirrors : Mirrors parent observed (queued ++ [change]) present) :
    change.apply present = present := by
  have settles := mirrors.settles
  rw [settled_append] at settles
  rw [← settles]
  exact change.apply_apply _

section Forgetting

variable [DecidableEq Key]

/-- The changes that are not below a key. -/
def notBelow (parent : Key → Key) (key : Key)
    (changes : List (Change Key)) : List (Change Key) :=
  changes.filter fun change => parent change.key ≠ key

/-- Below a key that has been cleared, the changes change nothing. -/
theorem Orderly.notBelow {keys : Set Key} {changes : List (Change Key)}
    {key : Key} (orderly : Orderly parent keys changes)
    (now : ∀ other ∈ keys, parent other ≠ key)
    (later : ∀ change ∈ changes, change.adds = true →
      parent change.key ≠ key) :
    settled keys (notBelow parent key changes) = settled keys changes ∧
      Orderly parent keys (Transition.notBelow parent key changes) := by
  induction changes generalizing keys with
  | nil => exact ⟨rfl, trivial⟩
  | cons first changes ih =>
      have room : ∀ other ∈ first.apply keys, parent other ≠ key := by
        intro other member
        rcases Change.mem_apply.mp member with ⟨rfl, adds⟩ | ⟨-, old⟩
        · exact later first List.mem_cons_self adds
        · exact now other old
      have rest := ih orderly.2 room fun change member =>
        later change (List.mem_cons_of_mem _ member)
      by_cases below : parent first.key = key
      · have dropped : Transition.notBelow parent key (first :: changes) =
            Transition.notBelow parent key changes := by
          simp [Transition.notBelow, below]
        have same : first.apply keys = keys := by
          ext other
          rw [Change.mem_apply]
          constructor
          · rintro (⟨rfl, adds⟩ | ⟨-, old⟩)
            · exact absurd below (later first List.mem_cons_self adds)
            · exact old
          · intro old
            refine Or.inr ⟨?_, old⟩
            rintro rfl
            exact now _ old below
        rw [same] at rest
        rw [dropped, settled_cons, same]
        exact rest
      · have kept : Transition.notBelow parent key (first :: changes) =
            first :: Transition.notBelow parent key changes := by
          simp [Transition.notBelow, below]
        rw [kept]
        refine ⟨rest.1, ?_, rest.2⟩
        intro removes
        have clears := orderly.1 removes
        exact ⟨clears.now, fun other member =>
          clears.later other (List.mem_of_mem_filter member)⟩

/-- The observer takes the first change, and forgets what is below it. -/
theorem Mirrors.take {observed present : Set Key} {change : Change Key}
    {queued : List (Change Key)}
    (mirrors : Mirrors parent observed (change :: queued) present) :
    Mirrors parent (change.apply observed)
      (if change.adds then queued else notBelow parent change.key queued)
      present := by
  have settles : settled (change.apply observed) queued = present :=
    mirrors.settles
  cases adds : change.adds with
  | true => exact ⟨settles, mirrors.orderly.2⟩
  | false =>
      have clears := mirrors.orderly.1 adds
      have now : ∀ other ∈ change.apply observed,
          parent other ≠ change.key := by
        intro other member
        rcases Change.mem_apply.mp member with ⟨-, added⟩ | ⟨-, old⟩
        · simp [adds] at added
        · exact clears.now other old
      have forgotten := mirrors.orderly.2.notBelow now clears.later
      exact ⟨forgotten.1.trans settles, forgotten.2⟩

end Forgetting

end KekMonitors.Transition
