import KekMonitors.Transition.Run
import Mathlib.Algebra.BigOperators.Group.List.Basic
import Mathlib.Algebra.Ring.Nat

/-!
# Balances of runs

A state is worth something, an attempt brings something in and spends
something.  When steps can only lose, a run is worth no more than what it had
and what came in.
-/

namespace KekMonitors.Transition

variable {State Action Failure : Type*}

/-- What the attempts of a run amount to. -/
def total (amount : State → Action → Nat)
    (attempts : List (State × Action)) : Nat :=
  (attempts.map fun attempt => amount attempt.1 attempt.2).sum

@[simp]
theorem total_nil (amount : State → Action → Nat) : total amount [] = 0 :=
  rfl

@[simp]
theorem total_append (amount : State → Action → Nat)
    (front back : List (State × Action)) :
    total amount (front ++ back) = total amount front + total amount back := by
  simp [total]

@[simp]
theorem total_singleton (amount : State → Action → Nat) (state : State)
    (action : Action) :
    total amount [(state, action)] = amount state action := by
  simp [total]

variable {step : StepFunction State Action Failure} {start : State}
  {attempts : List (State × Action)} {final : State}

namespace Run

/-- Nothing comes out of nowhere. -/
theorem balance_le (worth : State → Nat)
    (income spent : State → Action → Nat)
    (keeps : ∀ {state action next}, Reachable step start state →
      step state action = some (.ok next) →
        worth next + spent state action ≤ worth state + income state action)
    (run : Run step start attempts (.ok final)) :
    worth final + total spent attempts ≤
      worth start + total income attempts := by
  generalize finished : Except.ok final = outcome at run
  induction run generalizing final with
  | start =>
      rcases Except.ok.inj finished with rfl
      simp
  | @next attempts state action outcome earlier taken ih =>
      subst finished
      have before := ih rfl
      have last := keeps ⟨attempts, earlier⟩ taken
      simp only [total_append, total_singleton]
      omega

end Run

end KekMonitors.Transition
