import Mathlib.Data.Set.Insert
import Mathlib.Logic.Function.Basic

/-!
# Supervision

A supervisor holds at most one resource under each key.  Resources are started
for a key and stay live until they are released by it or die on their own.  As
long as every live resource is held by the key it was started for, a key has
no second live resource.
-/

namespace KekMonitors

structure Supervision (Key Resource : Type*) where
  holder : Key → Option Resource
  /-- The key a resource was started for, if it has been started. -/
  owner : Resource → Option Key
  live : Set Resource

namespace Supervision

variable {Key Resource : Type*}

@[ext]
theorem ext {left right : Supervision Key Resource}
    (holder : left.holder = right.holder) (owner : left.owner = right.owner)
    (live : left.live = right.live) : left = right := by
  cases left
  cases right
  cases holder
  cases owner
  cases live
  rfl

/-- The live resource that a key is holding. -/
def held (s : Supervision Key Resource) (key : Key) : Set Resource :=
  {resource | s.holder key = some resource}

section Step

variable [DecidableEq Key] [DecidableEq Resource]

/-- Start a resource; what the key held before is destroyed. -/
def start (s : Supervision Key Resource) (key : Key) (resource : Resource) :
    Supervision Key Resource where
  holder := Function.update s.holder key (some resource)
  owner := Function.update s.owner resource (some key)
  live := insert resource (s.live \ s.held key)

/-- Let go of what a key holds, which destroys it. -/
def release (s : Supervision Key Resource) (key : Key) :
    Supervision Key Resource where
  holder := Function.update s.holder key none
  owner := s.owner
  live := s.live \ s.held key

def die (s : Supervision Key Resource) (resource : Resource) :
    Supervision Key Resource :=
  { s with live := s.live \ {resource} }

/-- What a supervisor may do.  A resource is started once. -/
inductive Step (s : Supervision Key Resource) :
    Supervision Key Resource → Prop where
  | start (key : Key) (resource : Resource)
      (fresh : s.owner resource = none) : Step s (s.start key resource)
  | release (key : Key) : Step s (s.release key)
  | die (resource : Resource) : Step s (s.die resource)

end Step

/-- Every live resource is held by the key it was started for. -/
def Held (s : Supervision Key Resource) : Prop :=
  ∀ resource ∈ s.live,
    ∃ key, s.owner resource = some key ∧ s.holder key = some resource

/-- A key holds only what was started for it. -/
def Placed (s : Supervision Key Resource) : Prop :=
  ∀ key resource, s.holder key = some resource → s.owner resource = some key

/-- No key has two live resources. -/
def Exclusive (s : Supervision Key Resource) : Prop :=
  ∀ key, ∀ first ∈ s.live, ∀ second ∈ s.live,
    s.owner first = some key → s.owner second = some key → first = second

theorem Held.exclusive {s : Supervision Key Resource} (held : s.Held) :
    s.Exclusive := by
  intro key first firstLive second secondLive firstOwner secondOwner
  rcases held first firstLive with ⟨firstKey, owner, firstHeld⟩
  rcases held second secondLive with ⟨secondKey, other, secondHeld⟩
  have firstSame : firstKey = key :=
    Option.some.inj (owner.symm.trans firstOwner)
  have secondSame : secondKey = key :=
    Option.some.inj (other.symm.trans secondOwner)
  rw [firstSame] at firstHeld
  rw [secondSame] at secondHeld
  exact Option.some.inj (firstHeld.symm.trans secondHeld)

/-- A resource that stays live after a release is held by another key. -/
private theorem Held.elsewhere {s : Supervision Key Resource}
    (held : s.Held) {key : Key} {resource : Resource}
    (kept : resource ∈ s.live \ s.held key) :
    ∃ other, other ≠ key ∧ s.owner resource = some other ∧
      s.holder other = some resource := by
  rcases held resource kept.1 with ⟨other, owner, holder⟩
  refine ⟨other, ?_, owner, holder⟩
  intro same
  subst same
  exact kept.2 holder

variable [DecidableEq Key] [DecidableEq Resource]

/-- Every step of a supervisor keeps its live resources held. -/
theorem Held.step {s next : Supervision Key Resource} (held : s.Held)
    (taken : s.Step next) : next.Held := by
  cases taken with
  | start key resource fresh =>
      intro other live
      rcases live with rfl | kept
      · exact ⟨key, Function.update_self .., Function.update_self ..⟩
      · rcases held.elsewhere kept with ⟨home, different, owner, holder⟩
        have old : other ≠ resource := by
          intro same
          rw [same, fresh] at owner
          simp at owner
        refine ⟨home, ?_, ?_⟩
        · exact (Function.update_of_ne old ..).trans owner
        · exact (Function.update_of_ne different ..).trans holder
  | release key =>
      intro other kept
      rcases held.elsewhere kept with ⟨home, different, owner, holder⟩
      exact ⟨home, owner, (Function.update_of_ne different ..).trans holder⟩
  | die resource =>
      intro other kept
      exact held other kept.1

theorem Placed.step {s next : Supervision Key Resource} (placed : s.Placed)
    (taken : s.Step next) : next.Placed := by
  cases taken with
  | start key resource fresh =>
      intro other held holder
      simp only [start, Function.update_apply] at holder ⊢
      split at holder
      · rename_i same
        rcases Option.some.inj holder with rfl
        rw [if_pos rfl, same]
      · have owner := placed other held holder
        have old : held ≠ resource := by
          rintro rfl
          rw [fresh] at owner
          simp at owner
        rw [if_neg old]
        exact owner
  | release key =>
      intro other held holder
      simp only [release, Function.update_apply] at holder
      split at holder
      · simp at holder
      · exact placed other held holder
  | die resource => exact placed

end Supervision

end KekMonitors
