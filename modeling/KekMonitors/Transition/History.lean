import KekMonitors.Transition.Run

/-!
# What a history tells

A view of the state is told by the history when every step changes it by the
events that can be observed of the step.  Then the view of the state that a run
ends in is what the events of the whole run make of the first one.
-/

namespace KekMonitors.Transition

variable {State Action Failure View Event : Type*}

/-- The view after some events. -/
def replay (after : View → Event → View) (view : View)
    (events : List Event) : View :=
  events.foldl after view

@[simp]
theorem replay_nil (after : View → Event → View) (view : View) :
    replay after view [] = view := rfl

theorem replay_cons (after : View → Event → View) (view : View)
    (event : Event) (events : List Event) :
    replay after view (event :: events) =
      replay after (after view event) events := rfl

theorem replay_append (after : View → Event → View) (view : View)
    (front back : List Event) :
    replay after view (front ++ back) =
      replay after (replay after view front) back :=
  List.foldl_append

/-- Every step from a reachable state changes the view by its events. -/
def Tells (step : StepFunction State Action Failure) (start : State)
    (view : State → View) (after : View → Event → View)
    (events : State × Action → List Event) : Prop :=
  ∀ {state action next}, Reachable step start state →
    step state action = some (.ok next) →
      view next = replay after (view state) (events (state, action))

/-- The events of a run tell the view of the state it ends in. -/
theorem Tells.run {step : StepFunction State Action Failure} {start : State}
    {view : State → View} {after : View → Event → View}
    {events : State × Action → List Event}
    (tells : Tells step start view after events)
    {attempts : List (State × Action)} {final : State}
    (run : Run step start attempts (.ok final)) :
    view final = replay after (view start) (attempts.flatMap events) := by
  generalize ended : (Except.ok final : Except Failure State) = outcome at run
  induction run generalizing final with
  | start =>
      rcases Except.ok.inj ended with rfl
      rfl
  | @next attempts state action outcome earlier taken ih =>
      rcases ended with rfl
      rw [List.flatMap_append, List.flatMap_singleton, replay_append,
        ← ih rfl]
      exact tells ⟨attempts, earlier⟩ taken

end KekMonitors.Transition
