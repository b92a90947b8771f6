import KekMonitors.Manager.Discovery

/-!
# The closures of the verifications

A closure that is passed as `on_success` holds an iterator or a path, and
would run after any number of other handlers.  It runs where the reply to a
PING is read; what it must find there is stated here, and that no run gets
there, since each verification waits for nothing but its aborted timer.
-/

namespace KekMonitors.Manager

open Connection
open Transition

/-- The handler reads a reply without an error, and runs the closure. -/
def Invokes (v : Verification) : Prop :=
  v.stage = .reading ∧ ∃ resp,
    asyncReadResponse v.peer.reply = some (none, resp) ∧ resp.error = 0

/-! ## What a closure must find -/

def eventsOf : Action → List KernelEvent
  | .inotifyRead events => events
  | _ => []

/-- The events on socket files of one path, in the order they are read. -/
def socketEvents (config : Config) (path : String)
    (attempts : List (State × Action)) : List KernelEvent :=
  (attempts.flatMap fun attempt => eventsOf attempt.2).filter fun event =>
    config.socketPath ++ "/" ++ event.name = path ∧
      event.mask ∈ [inCreate, inDelete]

/-- The deletion of the socket has been handled, and no creation since. -/
def SocketGone (config : Config) (path : String)
    (attempts : List (State × Action)) : Prop :=
  ∃ event, (socketEvents config path attempts).getLast? = some event ∧
    event.mask = inDelete

/-- What the closure of a verification is to find when it runs. -/
structure ActsRight (config : Config) (earlier : List (State × Action))
    (s : State) (v : Verification) : Prop where
  /-- The entry it has an iterator to is stored, with the timer it had. -/
  confirms : ∀ timer, v.onSuccess = .confirmAdded timer →
    ∃ stored, s.objects.find? v.kind v.className = some stored ∧
      timer.isSome ∧ stored.onAddTimer = timer
  /-- The socket it stores has not been deleted. -/
  stores : v.onSuccess = .storeSocket →
    ¬ SocketGone config v.socketFullPath earlier

/-- The handlers of the verifications of a run. -/
structure ClosuresSafe (config : Config)
    (attempts : List (State × Action)) : Prop where
  /-- A closure acts on what it was made for. -/
  acts : ∀ earlier s index later v,
    attempts = earlier ++ (s, .runVerification index) :: later →
      s.verifications[index]? = some v → Invokes v →
        ActsRight config earlier s v
  /-- A handler runs no closure, and only ends its verification. -/
  ends : ∀ s index, (s, .runVerification index) ∈ attempts →
    ∃ v, s.verifications[index]? = some v ∧ ¬ Invokes v ∧
      step config s (.runVerification index) =
        some (.ok
          { s with verifications := s.verifications.eraseIdx index })

/-! ## Every run -/

theorem not_invokes_of_aborted {s : State} (aborted : Aborted s)
    {v : Verification} (queued : v ∈ s.verifications) : ¬ Invokes v := by
  rintro ⟨reading, -⟩
  rcases aborted v queued with ⟨errc, stage⟩
  rw [stage] at reading
  simp at reading

/-- Whatever runs in between, no closure acts on what is gone. -/
theorem closures_safe {config : Config} {startUp : StartUp} {start : State}
    (built : construct config startUp = .ok start)
    {attempts : List (State × Action)} {outcome : Except Fault State}
    (run : Run (step config) start attempts outcome) :
    ClosuresSafe config attempts := by
  have aborted {s : State} {action : Action}
      (attempt : (s, action) ∈ attempts) : Aborted s := by
    rcases run.attempt_reached attempt with ⟨earlier, later, -, reached⟩
    exact aborted_of_reachable (construct_effect built).2 ⟨_, reached⟩
  constructor
  · rintro earlier s index later v rfl queued invokes
    have here : (s, Action.runVerification index) ∈
        earlier ++ (s, .runVerification index) :: later :=
      List.mem_append_right _ List.mem_cons_self
    exact absurd invokes
      (not_invokes_of_aborted (aborted here) (List.mem_of_getElem? queued))
  · intro s index attempt
    rcases run.attempt_taken attempt with ⟨result, taken⟩
    rcases Option.bind_eq_some_iff.mp taken with ⟨v, queued, -⟩
    have member := List.mem_of_getElem? queued
    refine ⟨v, queued, not_invokes_of_aborted (aborted attempt) member, ?_⟩
    rcases aborted attempt v member with ⟨errc, stage⟩
    simp [step, runVerification, queued, verificationHandler, stage, bind,
      Except.bind]

namespace Installation

/-- A monitor is added, and the verification of its socket ends. -/
def shoesVerified : List Action :=
  request (about .mmAddMonitor "Shoes") ++
    [socketCreated, .runVerification 0]

end Installation

open Installation in
theorem closures_safe_shoes :
    (execute (step config) start shoesVerified).isSome ∧
      ClosuresSafe config (attemptsOf (step config) start shoesVerified) := by
  have executed : (execute (step config) start shoesVerified).isSome := by
    decide +kernel
  rcases Option.isSome_iff_exists.mp executed with ⟨s, final⟩
  exact ⟨executed, closures_safe start_built (.of_execute final)⟩

end KekMonitors.Manager
