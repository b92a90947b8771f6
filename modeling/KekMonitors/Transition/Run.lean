import Mathlib.Data.List.Basic
import Mathlib.Logic.Relation

/-!
# Runs of a partial step function

A step function gives no outcome for an action that is not enabled, and
otherwise the next state or a failure that ends the run.  A run records its
attempts, each a state with the action taken there, so that a property of a
whole run is a property of its attempts and of its outcome.
-/

namespace KekMonitors.Transition

variable {State Action Failure : Type*}

abbrev StepFunction (State Action Failure : Type*) :=
  State → Action → Option (Except Failure State)

/-- The attempts and the outcome of a finite run from a start state. -/
inductive Run (step : StepFunction State Action Failure) (start : State) :
    List (State × Action) → Except Failure State → Prop where
  | start : Run step start [] (.ok start)
  | next {attempts : List (State × Action)} {state : State}
      {action : Action} {outcome : Except Failure State}
      (earlier : Run step start attempts (.ok state))
      (taken : step state action = some outcome) :
      Run step start (attempts ++ [(state, action)]) outcome

/-- A state that some run reaches. -/
def Reachable (step : StepFunction State Action Failure)
    (start state : State) : Prop :=
  ∃ attempts, Run step start attempts (.ok state)

/-- The states of a run: where it attempted a step, and where it ended. -/
def Visits (attempts : List (State × Action))
    (outcome : Except Failure State) (state : State) : Prop :=
  (∃ action, (state, action) ∈ attempts) ∨ outcome = .ok state

/-- Every attempt of the run meets a condition on the state and the action. -/
def Meets (condition : State → Action → Prop)
    (attempts : List (State × Action)) : Prop :=
  ∀ attempt ∈ attempts, condition attempt.1 attempt.2

instance (condition : State → Action → Prop)
    [∀ state action, Decidable (condition state action)]
    (attempts : List (State × Action)) : Decidable (Meets condition attempts) :=
  inferInstanceAs (Decidable (∀ _ ∈ _, _))

variable {step : StepFunction State Action Failure} {start : State}
  {attempts : List (State × Action)} {outcome : Except Failure State}

theorem Meets.of_append {condition : State → Action → Prop}
    {more : List (State × Action)}
    (meets : Meets condition (attempts ++ more)) :
    Meets condition attempts :=
  fun attempt member => meets attempt (List.mem_append_left _ member)

theorem Meets.last {condition : State → Action → Prop}
    {attempt : State × Action}
    (meets : Meets condition (attempts ++ [attempt])) :
    condition attempt.1 attempt.2 :=
  meets attempt (List.mem_append_right _ List.mem_cons_self)

theorem Reachable.refl : Reachable step start start := ⟨[], .start⟩

theorem Reachable.advance {state next : State} {action : Action}
    (reachable : Reachable step start state)
    (taken : step state action = some (.ok next)) :
    Reachable step start next := by
  rcases reachable with ⟨attempts, run⟩
  exact ⟨attempts ++ [(state, action)], run.next taken⟩

/-- Take some actions, one after the other, as long as none of them fails. -/
def execute (step : StepFunction State Action Failure) (start : State) :
    List Action → Option State
  | [] => some start
  | action :: actions =>
      match step start action with
      | some (.ok next) => execute step next actions
      | _ => none

/-- One action that is executed is a step. -/
theorem taken_of_execute {action : Action} {next : State}
    (executed : execute step start [action] = some next) :
    step start action = some (.ok next) := by
  rw [execute] at executed
  split at executed
  · rename_i reached taken
    rcases Option.some.inj executed with rfl
    exact taken
  · simp at executed

/-- The attempts made on the way. -/
def attemptsOf (step : StepFunction State Action Failure) (start : State) :
    List Action → List (State × Action)
  | [] => []
  | action :: actions =>
      (start, action) ::
        match step start action with
        | some (.ok next) => attemptsOf step next actions
        | _ => []

theorem execute_append (front back : List Action) :
    execute step start (front ++ back) =
      (execute step start front).bind fun middle =>
        execute step middle back := by
  induction front generalizing start with
  | nil => rfl
  | cons action front ih =>
      rw [List.cons_append, execute, execute]
      split
      · exact ih
      · rfl

theorem mem_attemptsOf {actions : List Action} {attempt : State × Action}
    (member : attempt ∈ attemptsOf step start actions) :
    attempt.2 ∈ actions := by
  induction actions generalizing start with
  | nil => simp [attemptsOf] at member
  | cons action actions ih =>
      rw [attemptsOf] at member
      rcases List.mem_cons.mp member with rfl | later
      · exact List.mem_cons_self
      · split at later
        · exact List.mem_cons_of_mem _ (ih later)
        · simp at later

/-- Executed actions are all attempted. -/
theorem map_attemptsOf {actions : List Action} {final : State}
    (executed : execute step start actions = some final) :
    (attemptsOf step start actions).map Prod.snd = actions := by
  induction actions generalizing start with
  | nil => rfl
  | cons action actions ih =>
      rw [execute] at executed
      rw [attemptsOf, List.map_cons]
      split at executed
      · exact congrArg _ (ih executed)
      · simp at executed

theorem attemptsOf_append {front back : List Action} {middle : State}
    (executed : execute step start front = some middle) :
    attemptsOf step start (front ++ back) =
      attemptsOf step start front ++ attemptsOf step middle back := by
  induction front generalizing start with
  | nil =>
      rcases Option.some.inj executed with rfl
      rfl
  | cons action front ih =>
      rw [execute] at executed
      rw [List.cons_append, attemptsOf, attemptsOf, List.cons_append]
      split at executed
      · exact congrArg _ (ih executed)
      · simp at executed

namespace Run

/-- A run can be extended at its front. -/
theorem cons {next : State} {action : Action}
    (taken : step start action = some (.ok next))
    (run : Run step next attempts outcome) :
    Run step start ((start, action) :: attempts) outcome := by
  induction run with
  | start => exact Run.next .start taken
  | next _ last ih => exact ih.next last

/-- Executed actions are a run. -/
theorem of_execute {actions : List Action} {final : State}
    (executed : execute step start actions = some final) :
    Run step start (attemptsOf step start actions) (.ok final) := by
  induction actions generalizing start with
  | nil =>
      rcases Option.some.inj executed with rfl
      exact .start
  | cons action actions ih =>
      rw [execute] at executed
      rw [attemptsOf]
      split at executed
      · rename_i next taken
        exact (ih executed).cons taken
      · simp at executed

/-- What remains of a run after one of its attempts. -/
theorem after_attempt {front back : List (State × Action)} {state : State}
    {action : Action}
    (run : Run step start (front ++ (state, action) :: back) outcome) :
    Run step start front (.ok state) ∧
      ∃ result, step state action = some result ∧
        match result with
        | .ok following => Run step following back outcome
        | .error failure => back = [] ∧ outcome = .error failure := by
  generalize whole : front ++ (state, action) :: back = attempts at run
  induction run generalizing back with
  | start => simp at whole
  | @next attempts last lastAction outcome earlier taken ih =>
      rcases List.eq_nil_or_concat back with rfl | ⟨back, final, rfl⟩
      · rcases List.append_inj' whole rfl with ⟨rfl, same⟩
        rcases Prod.mk.inj (List.singleton_inj.mp same) with ⟨rfl, rfl⟩
        refine ⟨earlier, outcome, taken, ?_⟩
        cases outcome with
        | ok following => exact .start
        | error failure => exact ⟨rfl, rfl⟩
      · have split : (front ++ (state, action) :: back) ++ [final] =
            attempts ++ [(last, lastAction)] := by simpa using whole
        rcases List.append_inj' split rfl with ⟨same, final⟩
        rcases List.singleton_inj.mp final with rfl
        rcases ih same with ⟨before, result, first, rest⟩
        refine ⟨before, result, first, ?_⟩
        cases result with
        | ok following =>
            rw [List.concat_eq_append]
            exact rest.next taken
        | error failure => cases rest.2

/--
The induction of a run whose attempts meet a condition, for a property of the
attempts so far and the state they led to.
-/
theorem history_of_meets (condition : State → Action → Prop)
    (Invariant : List (State × Action) → State → Prop)
    (initial : Invariant [] start)
    (preserved : ∀ {attempts state action next}, Invariant attempts state →
      condition state action → step state action = some (.ok next) →
        Invariant (attempts ++ [(state, action)]) next)
    (run : Run step start attempts outcome)
    (meets : Meets condition attempts) {final : State}
    (finished : outcome = .ok final) : Invariant attempts final := by
  induction run generalizing final with
  | start =>
      rcases Except.ok.inj finished with rfl
      exact initial
  | next earlier taken ih =>
      subst finished
      exact preserved (ih meets.of_append rfl) meets.last taken

/-- The same for a property of the state alone. -/
theorem invariant_of_meets (condition : State → Action → Prop)
    (Invariant : State → Prop)
    (initial : Invariant start)
    (preserved : ∀ {state action next}, Invariant state →
      condition state action → step state action = some (.ok next) →
        Invariant next)
    (run : Run step start attempts outcome)
    (meets : Meets condition attempts) {final : State}
    (finished : outcome = .ok final) : Invariant final :=
  run.history_of_meets condition (fun _ => Invariant) initial
    (fun holds met taken => preserved holds met taken) meets finished

/-- An invariant of all steps. -/
theorem invariant (Invariant : State → Prop)
    (initial : Invariant start)
    (preserved : ∀ {state action next}, Invariant state →
      step state action = some (.ok next) → Invariant next)
    {final : State} (run : Run step start attempts (.ok final)) :
    Invariant final :=
  run.invariant_of_meets (fun _ _ => True) Invariant initial
    (fun holds _ taken => preserved holds taken)
    (fun _ _ => trivial) rfl

/-- Every attempt was made in a state that a prefix of the run reached. -/
theorem attempt_reached (run : Run step start attempts outcome)
    {state : State} {action : Action}
    (attempt : (state, action) ∈ attempts) :
    ∃ earlier later, attempts = earlier ++ (state, action) :: later ∧
      Run step start earlier (.ok state) := by
  induction run with
  | start => simp at attempt
  | @next attempts last lastAction outcome earlier taken ih =>
      rcases List.mem_append.mp attempt with old | new
      · rcases ih old with ⟨front, back, split, reached⟩
        exact ⟨front, back ++ [(last, lastAction)], by simp [split], reached⟩
      · rcases Prod.mk.inj (List.mem_singleton.mp new) with ⟨rfl, rfl⟩
        exact ⟨attempts, [], rfl, earlier⟩

/-- Every attempt has an outcome. -/
theorem attempt_taken (run : Run step start attempts outcome)
    {state : State} {action : Action}
    (attempt : (state, action) ∈ attempts) :
    ∃ result, step state action = some result := by
  induction run with
  | start => simp at attempt
  | next earlier taken ih =>
      rcases List.mem_append.mp attempt with old | new
      · exact ih old
      · rcases Prod.mk.inj (List.mem_singleton.mp new) with ⟨rfl, rfl⟩
        exact ⟨_, taken⟩

/-- A run fails as one of its attempts does. -/
theorem outcome_eq_error_iff (run : Run step start attempts outcome)
    {failure : Failure} :
    outcome = .error failure ↔
      ∃ attempt ∈ attempts,
        step attempt.1 attempt.2 = some (.error failure) := by
  constructor
  · rintro rfl
    generalize ended : Except.error failure = outcome at run
    cases run with
    | start => simp at ended
    | next earlier taken =>
        exact ⟨_, List.mem_append_right _ List.mem_cons_self, ended ▸ taken⟩
  · rintro ⟨⟨state, action⟩, member, failed⟩
    rcases List.append_of_mem member with ⟨front, back, rfl⟩
    rcases run.after_attempt with ⟨-, result, taken, rest⟩
    rcases Option.some.inj (failed.symm.trans taken) with rfl
    exact rest.2

/-- The state after a successful attempt is visited, too. -/
theorem visits_next (run : Run step start attempts outcome)
    {state next : State} {action : Action}
    (attempt : (state, action) ∈ attempts)
    (taken : step state action = some (.ok next)) :
    Visits attempts outcome next := by
  induction run with
  | start => simp at attempt
  | @next attempts last lastAction outcome earlier lastTaken ih =>
      rcases List.mem_append.mp attempt with old | new
      · rcases ih old with ⟨following, member⟩ | ended
        · exact Or.inl ⟨following, List.mem_append_left _ member⟩
        · rcases Except.ok.inj ended with rfl
          exact Or.inl ⟨lastAction, by simp⟩
      · rcases Prod.mk.inj (List.mem_singleton.mp new) with ⟨rfl, rfl⟩
        exact Or.inr (Option.some.inj (lastTaken.symm.trans taken))

/-- In a run that reaches a state, every attempt has succeeded. -/
theorem attempt_succeeds {final : State}
    (run : Run step start attempts (.ok final)) {state : State}
    {action : Action} (attempt : (state, action) ∈ attempts) :
    ∃ next, step state action = some (.ok next) := by
  rcases run.attempt_taken attempt with ⟨result, taken⟩
  cases result with
  | ok next => exact ⟨next, taken⟩
  | error failure =>
      have failed := run.outcome_eq_error_iff.mpr ⟨_, attempt, taken⟩
      cases failed

/-- Every visited state is reached by a prefix of the run. -/
theorem visited_reached (run : Run step start attempts outcome)
    {state : State} (visited : Visits attempts outcome state) :
    ∃ earlier later, attempts = earlier ++ later ∧
      Run step start earlier (.ok state) := by
  rcases visited with ⟨action, attempt⟩ | ended
  · rcases run.attempt_reached attempt with ⟨front, back, split, reached⟩
    exact ⟨front, _, split, reached⟩
  · exact ⟨attempts, [], by simp, ended ▸ run⟩

end Run

/-- Runs can be put one after the other. -/
theorem Reachable.continue {middle final : State}
    (first : Reachable step start middle)
    (second : Reachable step middle final) : Reachable step start final := by
  rcases second with ⟨attempts, run⟩
  exact run.invariant (Reachable step start) first
    fun reachable taken => reachable.advance taken

/-! ## Abstraction -/

/--
From a start state, a step function refines a relation on abstract states when
each step from a reachable state is a chain of abstract steps.
-/
def Refines (step : StepFunction State Action Failure) (start : State)
    {Abstract : Type*} (abstraction : State → Abstract)
    (relation : Abstract → Abstract → Prop) : Prop :=
  ∀ {state action next}, Reachable step start state →
    step state action = some (.ok next) →
      Relation.ReflTransGen relation (abstraction state) (abstraction next)

/-- An invariant of the abstract steps holds along every run. -/
theorem Refines.invariant {Abstract : Type*}
    {abstraction : State → Abstract}
    {relation : Abstract → Abstract → Prop}
    (refines : Refines step start abstraction relation)
    (Invariant : Abstract → Prop)
    (initial : Invariant (abstraction start))
    (preserved : ∀ {before after}, Invariant before →
      relation before after → Invariant after)
    {state : State} (reachable : Reachable step start state) :
    Invariant (abstraction state) := by
  rcases reachable with ⟨attempts, run⟩
  have both := run.invariant
    (fun s => Reachable step start s ∧ Invariant (abstraction s))
    ⟨Reachable.refl, initial⟩ ?_
  · exact both.2
  · intro state action next holds taken
    have along : ∀ {after}, Relation.ReflTransGen relation
        (abstraction state) after → Invariant after := by
      intro after chain
      induction chain with
      | refl => exact holds.2
      | tail _ last ih => exact preserved ih last
    exact ⟨holds.1.advance taken, along (refines holds.1 taken)⟩

/--
A run whose steps are, seen from outside, steps of another function is a run of
that function.
-/
theorem Run.project {Outer OuterAction : Type*}
    {outerStep : StepFunction Outer OuterAction Failure}
    (image : State → Outer) (shown : State → Action → OuterAction)
    (run : Run step start attempts outcome)
    (simulates : ∀ {state action result}, (state, action) ∈ attempts →
      step state action = some result →
        outerStep (image state) (shown state action) =
          some (result.map image)) :
    Run outerStep (image start)
      (attempts.map fun attempt => (image attempt.1, shown attempt.1 attempt.2))
      (outcome.map image) := by
  induction run with
  | start => exact .start
  | @next attempts state action outcome earlier taken ih =>
      have before := ih fun member =>
        simulates (List.mem_append_left _ member)
      have last := simulates
        (List.mem_append_right _ List.mem_cons_self) taken
      rw [List.map_append]
      exact before.next last

end KekMonitors.Transition
