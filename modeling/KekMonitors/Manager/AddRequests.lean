import KekMonitors.Manager.Progress

/-!
# Answering add requests

Who answers an add request that launched a process.  Its wait handler looks
the class up again when it runs, and a cancelled wait that finds an entry is
taken for the end of the manager, although the entry may be one that a later
request has launched in the meantime.
-/

namespace KekMonitors.Manager

open Objects
open Timer
open Transition

/-! ## Wait handlers -/

/-- The wait handler that is queued for a timer, with what it does. -/
def waitHandler (timer : Nat) (s : State) :
    Option (AddRequest × Except Fault (Objects × Option Response)) :=
  match s.objects.addWaits.lookup timer with
  | none => none
  | some wait =>
      if wait.status = .waiting then none
      else
        some (wait.request, onAddTimer wait.request wait.status
          (s.objects.takeWait timer))

/-- The step runs the handler and calls back with its response. -/
theorem runAddWait_eq (timer : Nat) (s : State) :
    runAddWait timer s =
      (waitHandler timer s).map fun handler =>
        handler.2 >>= fun outcome =>
          reply handler.1.callback outcome s := by
  unfold runAddWait waitHandler
  cases s.objects.addWaits.lookup timer with
  | none => rfl
  | some wait =>
      dsimp only
      split <;> rfl

/-- The request whose callback an attempt invokes from its wait handler. -/
def invocation (timer : Nat) (attempt : State × Action) :
    Option AddRequest :=
  match attempt.2 with
  | .runAddWait other =>
      if other = timer then
        match waitHandler timer attempt.1 with
        | some (request, .ok (_, some _)) => some request
        | _ => none
      else none
  | _ => none

def invocations (timer : Nat) (attempts : List (State × Action)) :
    List AddRequest :=
  attempts.filterMap (invocation timer)

def HandlerRan (attempts : List (State × Action)) (timer : Nat) : Prop :=
  ∃ s, (s, .runAddWait timer) ∈ attempts

/-- The action handles an add request that launches, under this timer. -/
def Launches (s : State) (action : Action) (timer : Nat)
    (request : AddRequest) : Prop :=
  ∃ call className started, addCall s action = some call ∧
    call.Starts s.objects className started ∧
      timer = s.objects.children.length ∧ request = call.request className

def Launched (attempts : List (State × Action)) (timer : Nat)
    (request : AddRequest) : Prop :=
  ∃ attempt ∈ attempts, Launches attempt.1 attempt.2 timer request

/-- A wait handler leaves the entries of later requests as they are. -/
def KeepsLater (s : State) (action : Action) : Prop :=
  ∀ timer request objects response, action = .runAddWait timer →
    waitHandler timer s = some (request, .ok (objects, response)) →
      ∀ m className stored later,
        s.objects.find? m className = some stored →
        stored.onAddTimer = some later → timer < later →
          objects.find? m className = some stored

/--
A launched request is answered by its handler, once, or its handler is still
to come.
-/
structure Answered (attempts : List (State × Action))
    (outcome : Except Fault State) (timer : Nat) (request : AddRequest) :
    Prop where
  ran : HandlerRan attempts timer →
    invocations timer attempts = [request]
  queued : ¬ HandlerRan attempts timer →
    ∀ final, outcome = .ok final →
      final.objects.awaited timer = some request

/-- What a run does for the add requests that launched a process. -/
structure AnswersAdds (attempts : List (State × Action))
    (outcome : Except Fault State) : Prop where
  answered : ∀ timer request, Launched attempts timer request →
    Answered attempts outcome timer request
  keepsLater : Meets KeepsLater attempts

/--
What a wait handler finds under its class: nothing when its timer was
cancelled.  When the timer expired, an entry has a process, and is that of its
own request if that process is running and the entry is still being added.
-/
def FindsOwn (s : State) (action : Action) : Prop :=
  ∀ timer wait, action = .runAddWait timer →
    s.objects.addWaits.lookup timer = some wait →
      (wait.status = .cancelled →
        s.objects.find? wait.request.kind wait.request.className = none) ∧
      (wait.status = .expired → ∀ stored,
        s.objects.find? wait.request.kind wait.request.className =
            some stored →
          ∃ process, stored.process = some process ∧
            (s.objects.running process = true →
              stored.isBeingAdded = true → ∀ other,
                stored.onAddTimer = some other → other = timer))

/-! ## One handler -/

theorem Launches.unique {s : State} {action : Action} {timer other : Nat}
    {request another : AddRequest}
    (first : Launches s action timer request)
    (second : Launches s action other another) :
    timer = other ∧ request = another := by
  rcases first with ⟨call, className, started, handles, starts, rfl, rfl⟩
  rcases second with ⟨call', name, started', handles', starts', rfl, rfl⟩
  rcases Option.some.inj (handles.symm.trans handles') with rfl
  have same := starts.named.symm.trans starts'.named
  have sameName : className = name := by simpa using same
  exact ⟨rfl, by rw [sameName]⟩

theorem Launches.timer_eq {s : State} {action : Action} {timer : Nat}
    {request : AddRequest} (launches : Launches s action timer request) :
    timer = s.objects.children.length := by
  rcases launches with ⟨-, -, -, -, -, same, -⟩
  exact same

theorem Launches.not_run {s : State} {action : Action} {timer other : Nat}
    {request : AddRequest} (launches : Launches s action timer request) :
    action ≠ .runAddWait other := by
  rcases launches with ⟨call, className, started, handles, -⟩
  rintro rfl
  simp [addCall] at handles

section OneHandler

variable {s : State} {timer : Nat} {wait : Wait AddRequest}

theorem waitHandler_of_settled
    (found : s.objects.addWaits.lookup timer = some wait)
    (settled : wait.status ≠ .waiting) :
    waitHandler timer s =
      some (wait.request, onAddTimer wait.request wait.status
        (s.objects.takeWait timer)) := by
  simp [waitHandler, found, settled]

theorem invocation_of_ok {request : AddRequest}
    {outcome : Objects × Option Response}
    (handler : waitHandler timer s = some (request, .ok outcome)) :
    invocation timer (s, .runAddWait timer) =
      outcome.2.map fun _ => request := by
  rcases outcome with ⟨objects, response⟩
  cases response <;> simp [invocation, handler]

theorem keepsLater_of_ok {request : AddRequest}
    {outcome : Objects × Option Response}
    (handler : waitHandler timer s = some (request, .ok outcome)) :
    KeepsLater s (.runAddWait timer) ↔
      ∀ m className stored later,
        s.objects.find? m className = some stored →
        stored.onAddTimer = some later → timer < later →
          outcome.1.find? m className = some stored := by
  constructor
  · intro keeps m className stored later
    exact keeps timer request outcome.1 outcome.2 rfl handler m className
      stored later
  · intro keeps other another objects response same queued
    obtain rfl : timer = other := by simpa using same
    rw [handler] at queued
    rcases Prod.mk.inj (Option.some.inj queued) with ⟨-, result⟩
    rcases Except.ok.inj result with rfl
    exact keeps

/-- A handler that leaves the entries alone keeps the later ones. -/
theorem keepsLater_of_same {request : AddRequest}
    {response : Option Response}
    (handler : waitHandler timer s =
      some (request, .ok (s.objects.takeWait timer, response))) :
    KeepsLater s (.runAddWait timer) := by
  apply (keepsLater_of_ok handler).mpr
  intro m className stored later found _ _
  rw [find?_takeWait]
  exact found

theorem findsOwn_iff_of_lookup
    (found : s.objects.addWaits.lookup timer = some wait) :
    FindsOwn s (.runAddWait timer) ↔
      (wait.status = .cancelled →
        s.objects.find? wait.request.kind wait.request.className = none) ∧
      (wait.status = .expired → ∀ stored,
        s.objects.find? wait.request.kind wait.request.className =
            some stored →
          ∃ process, stored.process = some process ∧
            (s.objects.running process = true →
              stored.isBeingAdded = true → ∀ other,
                stored.onAddTimer = some other → other = timer)) := by
  constructor
  · intro finds
    exact finds timer wait rfl found
  · intro facts other another same present
    obtain rfl : timer = other := by simpa using same
    rcases Option.some.inj (found.symm.trans present) with rfl
    exact facts

/-- A cancelled handler answers just when there is no entry. -/
theorem findsOwn_of_cancelled (sound : s.objects.Sound)
    (found : s.objects.addWaits.lookup timer = some wait)
    (status : wait.status = .cancelled) :
    FindsOwn s (.runAddWait timer) ↔
      invocation timer (s, .runAddWait timer) = some wait.request ∧
        KeepsLater s (.runAddWait timer) := by
  have handler := waitHandler_of_settled found (by simp [status])
  rw [findsOwn_iff_of_lookup found]
  simp only [status, true_imp_iff, reduceCtorEq, false_imp_iff, and_true]
  cases present : s.objects.find? wait.request.kind
      wait.request.className with
  | none =>
      simp only [onAddTimer, status, find?_takeWait, present] at handler
      exact ⟨fun _ => ⟨invocation_of_ok handler, keepsLater_of_same handler⟩,
        fun _ => rfl⟩
  | some stored =>
      -- no verification ever confirms an add, so nothing is answered
      have unconfirmed := (sound.wellKept present).unconfirmed
      simp only [onAddTimer, status, find?_takeWait, present, unconfirmed,
        Bool.false_eq_true, if_false] at handler
      constructor
      · intro absent
        simp at absent
      · rintro ⟨invoked, -⟩
        rw [invocation_of_ok handler] at invoked
        simp at invoked

/-- Clearing the flag of an entry spares the later ones if it is its own. -/
theorem keepsLater_clear_iff (sound : s.objects.Sound)
    (found : s.objects.addWaits.lookup timer = some wait)
    {stored : StoredObject}
    (present : s.objects.find? wait.request.kind wait.request.className =
      some stored)
    {response : Option Response}
    (handler : waitHandler timer s = some (wait.request,
      .ok ((s.objects.takeWait timer).put wait.request.kind
        wait.request.className { stored with isBeingAdded := false },
          response))) :
    KeepsLater s (.runAddWait timer) ↔
      (stored.isBeingAdded = true → ∀ other,
        stored.onAddTimer = some other → other = timer) := by
  rw [keepsLater_of_ok handler]
  constructor
  · intro keeps adding other timed
    have slot : s.objects.timerSlots (home wait.request) = some other := by
      rw [timerSlots, present]
      exact timed
    rcases Nat.eq_or_lt_of_le (sound.timersOwned.latest found slot) with
      same | later
    · exact same.symm
    · have kept := keeps _ _ stored other present timed later
      rw [find?_put, if_pos rfl] at kept
      have cleared := congrArg StoredObject.isBeingAdded
        (Option.some.inj kept)
      rw [adding] at cleared
      simp at cleared
  · intro own m className entry later here timed after
    rw [find?_put]
    split
    · rename_i same
      rcases Prod.mk.inj same with ⟨rfl, rfl⟩
      rcases Option.some.inj (present.symm.trans here) with rfl
      cases adding : stored.isBeingAdded with
      | false => rw [← adding]
      | true =>
          exact absurd (own adding later timed) (Nat.ne_of_gt after)
    · rw [find?_takeWait]
      exact here

/-- An expired handler needs the process of the entry that it finds. -/
theorem findsOwn_of_expired (sound : s.objects.Sound)
    (found : s.objects.addWaits.lookup timer = some wait)
    (status : wait.status = .expired) :
    FindsOwn s (.runAddWait timer) ↔
      invocation timer (s, .runAddWait timer) = some wait.request ∧
        KeepsLater s (.runAddWait timer) := by
  have handler := waitHandler_of_settled found (by simp [status])
  rw [findsOwn_iff_of_lookup found]
  simp only [status, true_imp_iff, reduceCtorEq, false_imp_iff, true_and]
  cases present : s.objects.find? wait.request.kind
      wait.request.className with
  | none =>
      simp only [onAddTimer, status, find?_takeWait, present] at handler
      constructor
      · intro _
        exact ⟨invocation_of_ok handler, keepsLater_of_same handler⟩
      · intro _ stored absent
        simp at absent
  | some stored =>
      cases held : stored.process with
      | none =>
          simp only [onAddTimer, status, find?_takeWait, present, held]
            at handler
          constructor
          · intro finds
            rcases finds stored rfl with ⟨process, running, -⟩
            rw [held] at running
            simp at running
          · rintro ⟨invoked, -⟩
            simp [invocation, handler] at invoked
      | some process =>
          cases running : s.objects.running process with
          | false =>
              simp only [onAddTimer, status, find?_takeWait, present, held,
                running_takeWait, running, Bool.false_eq_true, if_false]
                at handler
              constructor
              · intro _
                exact ⟨invocation_of_ok handler,
                  keepsLater_of_same handler⟩
              · rintro - stored' same
                rcases Option.some.inj same with rfl
                exact ⟨process, held, by simp [running]⟩
          | true =>
              simp only [onAddTimer, status, find?_takeWait, present, held,
                running_takeWait, running, if_true] at handler
              rw [← held] at handler
              rw [keepsLater_clear_iff sound found present handler,
                invocation_of_ok handler]
              constructor
              · intro finds
                rcases finds stored rfl with ⟨other, same, own⟩
                rcases Option.some.inj (held.symm.trans same) with rfl
                exact ⟨rfl, own running⟩
              · rintro ⟨-, own⟩ stored' same
                rcases Option.some.inj same with rfl
                exact ⟨process, held, fun _ => own⟩

/-- A handler answers and spares later entries just when it finds its own. -/
theorem findsOwn_iff (sound : s.objects.Sound)
    {result : Except Fault State}
    (taken : runAddWait timer s = some result) :
    ∃ request, s.objects.awaited timer = some request ∧
      (FindsOwn s (.runAddWait timer) ↔
        invocation timer (s, .runAddWait timer) = some request ∧
          KeepsLater s (.runAddWait timer)) := by
  rw [runAddWait_eq] at taken
  rcases Option.map_eq_some_iff.mp taken with ⟨handler, queued, -⟩
  unfold waitHandler at queued
  cases found : s.objects.addWaits.lookup timer with
  | none => simp [found] at queued
  | some wait =>
      refine ⟨wait.request, by simp [awaited, found], ?_⟩
      cases status : wait.status with
      | waiting => simp [found, status] at queued
      | expired => exact findsOwn_of_expired sound found status
      | cancelled => exact findsOwn_of_cancelled sound found status

end OneHandler

/-! ## Steps and runs -/

theorem leaveQueue_awaited {s : State} {action : Action} {timer : Nat}
    {request : AddRequest} :
    (leaveQueue s action).objects.awaited timer = some request ↔
      s.objects.awaited timer = some request ∧
        action ≠ .runAddWait timer := by
  cases action with
  | runAddWait other =>
      rw [leaveQueue, awaited_takeWait]
      by_cases same : timer = other
      · simp [same]
      · simp [same, Ne.symm same]
  | _ => simp [leaveQueue]

section OneStep

variable {config : Config} {s next : State} {action : Action}

/-- A step launches requests, answers some, and keeps all others waiting. -/
theorem step_awaited (aborted : Aborted s) (sound : s.objects.Sound)
    (taken : step config s action = some (.ok next)) (timer : Nat)
    (request : AddRequest) :
    next.objects.awaited timer = some request ↔
      Launches s action timer request ∨
        s.objects.awaited timer = some request ∧
          action ≠ .runAddWait timer := by
  rcases (step_effect aborted taken).objects with
    ⟨changes, rejected⟩ | ⟨call, className, started, handles, starts, after⟩
  · have none : ¬ Launches s action timer request := by
      rintro ⟨call, className, started, handles, starts, -⟩
      have rejects := rejected call handles className started
      rw [leaveQueue_of_addCall handles] at rejects
      exact rejects starts
    rw [awaited_changes changes, leaveQueue_awaited]
    simp [none]
  · rw [leaveQueue_of_addCall handles] at starts after
    have absent := sound.wellKept.absent starts.admits
    have launches : Launches s action s.objects.children.length
        (call.request className) :=
      ⟨call, className, started, handles, starts, rfl, rfl⟩
    rw [after, AddCall.launch, awaited_launch absent]
    split
    · rename_i same
      subst same
      constructor
      · intro new
        rcases Option.some.inj new with rfl
        exact Or.inl launches
      · rintro (new | ⟨old, -⟩)
        · rw [(launches.unique new).2]
        · exact absurd (sound.timersOwned.awaited_lt old) (lt_irrefl _)
    · rename_i different
      constructor
      · intro old
        exact Or.inr ⟨old, launches.not_run⟩
      · rintro (new | ⟨old, -⟩)
        · exact absurd (new.unique launches).1 different
        · exact old

theorem step_children (aborted : Aborted s)
    (taken : step config s action = some (.ok next)) :
    s.objects.children.length ≤ next.objects.children.length ∧
      ∀ timer request, Launches s action timer request →
        timer < next.objects.children.length := by
  rcases (step_effect aborted taken).objects with
    ⟨changes, rejected⟩ | ⟨call, className, started, handles, starts, after⟩
  · have same := changes.children_length
    rw [leaveQueue_children] at same
    refine ⟨same.ge, ?_⟩
    rintro timer request ⟨call, className, started, handles, starts, -⟩
    have rejects := rejected call handles className started
    rw [leaveQueue_of_addCall handles] at rejects
    exact absurd starts rejects
  · rw [leaveQueue_of_addCall handles] at after
    have more : next.objects.children.length =
        s.objects.children.length + 1 := by
      rw [after]
      simp [AddCall.launch, launch]
    refine ⟨by omega, ?_⟩
    intro timer request launches
    have same := launches.timer_eq
    omega

end OneStep

theorem handlerRan_append {attempts : List (State × Action)} {s : State}
    {action : Action} {timer : Nat} :
    HandlerRan (attempts ++ [(s, action)]) timer ↔
      HandlerRan attempts timer ∨ action = .runAddWait timer := by
  simp only [HandlerRan, List.mem_append, List.mem_singleton, exists_or,
    Prod.mk.injEq]
  constructor
  · rintro (earlier | ⟨state, -, same⟩)
    · exact Or.inl earlier
    · exact Or.inr same.symm
  · rintro (earlier | same)
    · exact Or.inl earlier
    · exact Or.inr ⟨s, rfl, same.symm⟩

theorem launched_append {attempts : List (State × Action)} {s : State}
    {action : Action} {timer : Nat} {request : AddRequest} :
    Launched (attempts ++ [(s, action)]) timer request ↔
      Launched attempts timer request ∨
        Launches s action timer request := by
  simp [Launched, or_and_right, exists_or]

/-- How the outstanding requests of a state arise from the run to it. -/
structure Tracks (attempts : List (State × Action)) (s : State) : Prop where
  awaited : ∀ timer request, s.objects.awaited timer = some request ↔
    Launched attempts timer request ∧ ¬ HandlerRan attempts timer
  launched_lt : ∀ timer request, Launched attempts timer request →
    timer < s.objects.children.length
  ran_launched : ∀ timer, HandlerRan attempts timer →
    ∃ request, Launched attempts timer request

section Runs

variable {config : Config} {startUp : StartUp} {start : State}
  {attempts : List (State × Action)} {outcome : Except Fault State}

/-- A handler that runs was awaited. -/
theorem awaited_of_runs {s : State} {timer : Nat}
    {result : Except Fault State}
    (taken : step config s (.runAddWait timer) = some result) :
    ∃ request, s.objects.awaited timer = some request := by
  change runAddWait timer s = some result at taken
  unfold runAddWait at taken
  cases found : s.objects.addWaits.lookup timer with
  | none => simp [found] at taken
  | some wait => exact ⟨wait.request, by simp [awaited, found]⟩

theorem tracks_step {s next : State} {action : Action}
    (aborted : Aborted s) (sound : s.objects.Sound)
    (tracks : Tracks attempts s)
    (taken : step config s action = some (.ok next)) :
    Tracks (attempts ++ [(s, action)]) next := by
  have grows := step_children aborted taken
  constructor
  · intro timer request
    rw [step_awaited aborted sound taken, tracks.awaited, launched_append,
      handlerRan_append]
    constructor
    · rintro (new | ⟨⟨old, waiting⟩, other⟩)
      · refine ⟨Or.inr new, ?_⟩
        rintro (ran | same)
        · rcases tracks.ran_launched timer ran with ⟨earlier, launched⟩
          have lower := tracks.launched_lt timer earlier launched
          exact absurd lower (new.timer_eq ▸ lt_irrefl _)
        · exact new.not_run same
      · exact ⟨Or.inl old, fun ran => ran.elim waiting other⟩
    · rintro ⟨old | new, waiting⟩
      · exact Or.inr ⟨⟨old, fun ran => waiting (Or.inl ran)⟩,
          fun same => waiting (Or.inr same)⟩
      · exact Or.inl new
  · intro timer request launched
    rcases launched_append.mp launched with old | new
    · exact lt_of_lt_of_le (tracks.launched_lt timer request old) grows.1
    · exact grows.2 timer request new
  · intro timer ran
    rcases handlerRan_append.mp ran with earlier | rfl
    · rcases tracks.ran_launched timer earlier with ⟨request, launched⟩
      exact ⟨request, launched_append.mpr (Or.inl launched)⟩
    · rcases awaited_of_runs taken with ⟨request, awaited⟩
      exact ⟨request, launched_append.mpr
        (Or.inl ((tracks.awaited timer request).mp awaited).1)⟩

/-- Along a run, a request waits from its launch until its handler runs. -/
theorem run_tracks (built : construct config startUp = .ok start)
    (run : Run (step config) start attempts outcome) {s : State}
    (finished : outcome = .ok s) : Tracks attempts s := by
  induction run generalizing s with
  | start =>
      rcases Except.ok.inj finished with rfl
      have none : ∀ timer, start.objects.awaited timer = none := by
        intro timer
        rw [awaited_changes (construct_effect built).1]
        rfl
      constructor
      · intro timer request
        simp [none, Launched]
      · intro timer request launched
        simp [Launched] at launched
      · intro timer ran
        simp [HandlerRan] at ran
  | next earlier taken ih =>
      subst finished
      have reached : Reached config _ := ⟨startUp, start, built, _, earlier⟩
      exact tracks_step reached.aborted reached.sound (ih rfl) taken

theorem tracks_before (built : construct config startUp = .ok start)
    (run : Run (step config) start attempts outcome)
    {front back : List (State × Action)} {s : State} {action : Action}
    (split : attempts = front ++ (s, action) :: back) :
    Tracks front s ∧ Reached config s ∧
      ∃ result, step config s action = some result := by
  subst split
  rcases run.after_attempt with ⟨earlier, result, taken, -⟩
  exact ⟨run_tracks built earlier rfl,
    ⟨startUp, start, built, _, earlier⟩, result, taken⟩

theorem HandlerRan.mono {more : List (State × Action)} {timer : Nat}
    (ran : HandlerRan attempts timer) (sub : attempts ⊆ more) :
    HandlerRan more timer :=
  ran.imp fun _ member => sub member

theorem Launched.mono {more : List (State × Action)} {timer : Nat}
    {request : AddRequest} (launched : Launched attempts timer request)
    (sub : attempts ⊆ more) : Launched more timer request :=
  launched.imp fun _ both => ⟨sub both.1, both.2⟩

/-- A number is given to one request only. -/
theorem launched_unique (built : construct config startUp = .ok start)
    (run : Run (step config) start attempts outcome) {timer : Nat}
    {request other : AddRequest}
    (first : Launched attempts timer request)
    (second : Launched attempts timer other) : request = other := by
  rcases first with ⟨⟨s, action⟩, member, launches⟩
  rcases second with ⟨⟨t, another⟩, elsewhere, launches'⟩
  rcases List.append_of_mem member with ⟨front, back, split⟩
  rw [split] at elsewhere
  rcases List.mem_append.mp elsewhere with before | rest
  · have tracks := (tracks_before built run split).1
    have lower := tracks.launched_lt timer other ⟨_, before, launches'⟩
    exact absurd lower (launches.timer_eq ▸ lt_irrefl _)
  · rcases List.mem_cons.mp rest with same | after
    · rcases Prod.mk.inj same with ⟨rfl, rfl⟩
      exact (launches.unique launches').2
    · rcases List.append_of_mem after with ⟨between, rear, rfl⟩
      have later : attempts =
          (front ++ (s, action) :: between) ++ (t, another) :: rear := by
        rw [split]
        simp
      have tracks := (tracks_before built run later).1
      have lower := tracks.launched_lt timer request
        ⟨_, List.mem_append_right _ List.mem_cons_self, launches⟩
      exact absurd lower (launches'.timer_eq ▸ lt_irrefl _)

/-! ## Invocations -/

theorem invocations_of_not_ran {timer : Nat}
    (waiting : ¬ HandlerRan attempts timer) :
    invocations timer attempts = [] := by
  apply List.filterMap_eq_nil_iff.mpr
  rintro ⟨s, action⟩ member
  unfold invocation
  split
  · rename_i other same
    dsimp only at same
    rw [if_neg]
    rintro rfl
    exact waiting ⟨s, same ▸ member⟩
  · rfl

/-- The handler of a timer runs once, so its invocations are those of one. -/
theorem invocations_of_ran (built : construct config startUp = .ok start)
    (run : Run (step config) start attempts outcome)
    {front back : List (State × Action)} {s : State} {timer : Nat}
    (split : attempts = front ++ (s, .runAddWait timer) :: back) :
    invocations timer attempts =
      (invocation timer (s, .runAddWait timer)).toList := by
  have notBefore : ∀ {earlier later state},
      attempts = earlier ++ (state, .runAddWait timer) :: later →
        ¬ HandlerRan earlier timer := by
    intro earlier later state split ran
    rcases tracks_before built run split with ⟨tracks, -, result, taken⟩
    rcases awaited_of_runs taken with ⟨request, awaited⟩
    exact ((tracks.awaited timer request).mp awaited).2 ran
  have notAfter : ¬ HandlerRan back timer := by
    rintro ⟨t, member⟩
    rcases List.append_of_mem member with ⟨between, rear, rfl⟩
    have later : attempts =
        (front ++ (s, .runAddWait timer) :: between) ++
          (t, .runAddWait timer) :: rear := by
      rw [split]
      simp
    exact notBefore later
      ⟨s, List.mem_append_right _ List.mem_cons_self⟩
  have before := invocations_of_not_ran (notBefore split)
  have after := invocations_of_not_ran notAfter
  rw [invocations] at before after ⊢
  rw [split, List.filterMap_append, List.filterMap_cons, before, after]
  cases invocation timer (s, .runAddWait timer) <;> rfl

/--
In every run, each add request that launched a process is answered once by its
handler, which spares the entries of later requests, precisely when every
handler finds what is its own.
-/
theorem adds_answered_iff (built : construct config startUp = .ok start)
    (run : Run (step config) start attempts outcome) :
    AnswersAdds attempts outcome ↔ Meets FindsOwn attempts := by
  constructor
  · rintro contract ⟨s, action⟩ member timer wait same found
    dsimp only at same found
    subst same
    rcases List.append_of_mem member with ⟨front, back, split⟩
    rcases tracks_before built run split with
      ⟨tracks, reached, result, taken⟩
    rcases findsOwn_iff reached.sound taken with ⟨request, awaited, iff⟩
    have launched : Launched attempts timer request := by
      apply ((tracks.awaited timer request).mp awaited).1.mono
      rw [split]
      exact List.subset_append_left _ _
    -- the handler ran here alone, so the one invocation is its own
    have once := (contract.answered timer request launched).ran ⟨s, member⟩
    rw [invocations_of_ran built run split] at once
    have invoked : invocation timer (s, .runAddWait timer) = some request :=
      Option.toList_eq_singleton_iff.mp once
    exact iff.mpr ⟨invoked, contract.keepsLater _ member⟩ timer wait rfl
      found
  · intro finds
    constructor
    · intro timer request launched
      constructor
      · rintro ⟨s, member⟩
        rcases List.append_of_mem member with ⟨front, back, split⟩
        rcases tracks_before built run split with
          ⟨tracks, reached, result, taken⟩
        rcases findsOwn_iff reached.sound taken with ⟨own, awaited, iff⟩
        have ownLaunched : Launched attempts timer own := by
          apply ((tracks.awaited timer own).mp awaited).1.mono
          rw [split]
          exact List.subset_append_left _ _
        rw [invocations_of_ran built run split, (iff.mp (finds _ member)).1,
          launched_unique built run launched ownLaunched]
        rfl
      · rintro waiting final rfl
        exact ((run_tracks built run rfl).awaited timer request).mpr
          ⟨launched, waiting⟩
    · rintro ⟨s, action⟩ member timer request objects response same
      dsimp only at same
      subst same
      rcases List.append_of_mem member with ⟨front, back, split⟩
      rcases tracks_before built run split with ⟨-, reached, result, taken⟩
      rcases findsOwn_iff reached.sound taken with ⟨own, awaited, iff⟩
      exact (iff.mp (finds _ member)).2 timer request objects response rfl

end Runs

/-! ## A class that is added twice -/

namespace Installation

def addShoes : List Action := request (about .mmAddMonitor "Shoes") environment

/-- A monitor is added and outlives its add timer. -/
def addedShoes : List Action := addShoes ++ [.timerExpires 0, .runAddWait 0]

/-- A monitor is added, exits, and is added again before its handler runs. -/
def readdedShoes : List Action :=
  addShoes ++ [.childExits 0, .runOnExit 0 none] ++ addShoes

end Installation

open Installation

/-- A handler that finds nothing, or finds its own entry in order. -/
def findsOwnBy (s : State) : Action → Bool
  | .runAddWait timer =>
      (s.objects.addWaits.lookup timer).all fun wait =>
        (s.objects.find? wait.request.kind wait.request.className).all
          fun stored => wait.status ≠ .cancelled ∧
            stored.process.isSome ∧ stored.onAddTimer = some timer
  | _ => true

theorem findsOwn_of {s : State} {action : Action}
    (checked : findsOwnBy s action = true) : FindsOwn s action := by
  rintro timer wait rfl found
  have entry : ∀ stored,
      s.objects.find? wait.request.kind wait.request.className =
          some stored →
        wait.status ≠ .cancelled ∧ stored.process.isSome ∧
          stored.onAddTimer = some timer := by
    intro stored present
    rw [findsOwnBy, found, Option.all_some, present, Option.all_some]
      at checked
    exact of_decide_eq_true checked
  constructor
  · intro cancelled
    cases present : s.objects.find? wait.request.kind
        wait.request.className with
    | none => rfl
    | some stored => exact absurd cancelled (entry stored present).1
  · intro _ stored present
    rcases entry stored present with ⟨-, held, own⟩
    rcases Option.isSome_iff_exists.mp held with ⟨process, held⟩
    refine ⟨process, held, ?_⟩
    intro _ _ other timed
    exact Option.some.inj (timed.symm.trans own)

/-- A monitor that outlives its add timer is answered. -/
theorem adds_answered_expired :
    ∃ final, execute (step config) start addedShoes = some final ∧
      AnswersAdds (attemptsOf (step config) start addedShoes)
        (.ok final) := by
  have checked : (execute (step config) start addedShoes).isSome ∧
      ((attemptsOf (step config) start addedShoes).all fun attempt =>
        findsOwnBy attempt.1 attempt.2) = true := by
    decide +kernel
  rcases Option.isSome_iff_exists.mp checked.1 with ⟨final, executed⟩
  refine ⟨final, executed,
    (adds_answered_iff start_built (.of_execute executed)).mpr ?_⟩
  intro attempt member
  exact findsOwn_of (List.all_eq_true.mp checked.2 attempt member)

/--
The first add of a class is cancelled by the exit of its process, and its
handler finds the entry of the second add: the client is never answered.
-/
theorem readd_unanswered :
    ∃ attempts final, Run (step config) start attempts (.ok final) ∧
      ¬ AnswersAdds attempts (.ok final) := by
  have setting : (execute (step config) start readdedShoes).any (fun s =>
      (s.objects.awaited 0).isSome ∧
        invocation 0 (s, .runAddWait 0) = none ∧
        ((step config s (.runAddWait 0)).any fun result =>
          result.toOption.isSome)) = true := by
    decide +kernel
  rcases (Option.any_eq_true _ _).mp setting with ⟨s, executed, facts⟩
  rcases of_decide_eq_true facts with ⟨awaited, silent, taken⟩
  rcases Option.isSome_iff_exists.mp awaited with ⟨request, awaited⟩
  rcases (Option.any_eq_true _ _).mp taken with ⟨result, taken, succeeds⟩
  cases result with
  | error fault => simp [Except.toOption] at succeeds
  | ok final =>
      have before := Run.of_execute executed
      have run := before.next taken
      refine ⟨_, final, run, ?_⟩
      intro contract
      have earlier := ((run_tracks start_built before rfl).awaited 0
        request).mp awaited
      have once := (contract.answered 0 request
          (earlier.1.mono (List.subset_append_left _ _))).ran
        ⟨s, List.mem_append_right _ List.mem_cons_self⟩
      rw [invocations_of_ran start_built run rfl, silent] at once
      simp at once

end KekMonitors.Manager
