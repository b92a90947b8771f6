import KekMonitors.Core
import KekMonitors.Transition.Run
import Mathlib.Data.List.Perm.Basic

/-!
# The accept loop

`UnixServer` keeps one asynchronous accept outstanding and starts the next one
from the handler of the last.  The state below holds what the acceptor and the
event loop know: the accepts the kernel still has, the completions whose
handlers are queued, and the accepted connections whose command is being read.
-/

namespace KekMonitors.UnixServer

open Transition

structure ServerState where
  isOpen : Bool
  /-- Connections handed to an accept that has not completed. -/
  pending : List Nat
  /-- Completed accepts whose handler is queued. -/
  completed : List (Option ErrorCode × Nat)
  /-- Connections with an outstanding `asyncReadCmd`. -/
  reading : List Nat
  nextConnection : Nat
  deriving DecidableEq, Repr

/-- A constructed server, before `startAccepting`. -/
def ServerState.bound : ServerState where
  isOpen := true
  pending := []
  completed := []
  reading := []
  nextConnection := 0

/-- An accept on a closed acceptor completes with an error at once. -/
def startAccepting (s : ServerState) : ServerState :=
  let connection := s.nextConnection
  if s.isOpen then
    { s with
      pending := s.pending ++ [connection]
      nextConnection := connection + 1 }
  else
    { s with
      completed := s.completed ++ [(some .badDescriptor, connection)]
      nextConnection := connection + 1 }

def onConnect (err : Option ErrorCode) (connection : Nat)
    (s : ServerState) : ServerState :=
  match err with
  | none =>
      startAccepting { s with reading := s.reading ++ [connection] }
  | some err =>
      -- the error is logged here, and nothing else is done
      if err ≠ .operationAborted && s.isOpen then s
      else if s.isOpen then startAccepting s
      else s

/-- Closing the acceptor aborts its outstanding accepts. -/
def shutdown (s : ServerState) : ServerState :=
  { s with
    isOpen := false
    pending := []
    completed := s.completed ++
      s.pending.map fun connection => (some .operationAborted, connection) }

/-- What can happen to the server. -/
inductive ServerAction where
  | acceptCompletes (index : Nat) (err : Option ErrorCode)
  | runOnConnect (index : Nat)
  | commandRead (index : Nat)
  | shutdown
  deriving DecidableEq, Repr

/-- The kernel completes an outstanding accept. -/
def acceptCompletes (index : Nat) (err : Option ErrorCode)
    (s : ServerState) : Option ServerState :=
  (s.pending[index]?).map fun connection =>
    { s with
      pending := s.pending.eraseIdx index
      completed := s.completed ++ [(err, connection)] }

/-- The event loop runs a queued accept handler. -/
def runOnConnect (index : Nat) (s : ServerState) : Option ServerState :=
  (s.completed[index]?).map fun completion =>
    onConnect completion.1 completion.2
      { s with completed := s.completed.eraseIdx index }

/-- The command of an accepted connection has been read. -/
def commandRead (index : Nat) (s : ServerState) :
    Option (Nat × ServerState) :=
  (s.reading[index]?).map fun connection =>
    (connection, { s with reading := s.reading.eraseIdx index })

def serverStep : StepFunction ServerState ServerAction Fault
  | s, .acceptCompletes index err => (acceptCompletes index err s).map .ok
  | s, .runOnConnect index => (runOnConnect index s).map .ok
  | s, .commandRead index =>
      (commandRead index s).map fun read => .ok read.2
  | s, .shutdown => some (.ok (shutdown s))

/-! ## Exactly one accept -/

/-- Accepts that are outstanding or whose handler is still to run. -/
def ServerState.armed (s : ServerState) : Nat :=
  s.pending.length + s.completed.length

/-- While the acceptor is open, it is accepting exactly once. -/
def Listening (s : ServerState) : Prop :=
  s.isOpen = true → s.armed = 1

/--
The handler about to run gets an error other than `operation_aborted` while
the acceptor is open.
-/
def DropsAccept (s : ServerState) (action : ServerAction) : Prop :=
  ∃ index err connection, action = .runOnConnect index ∧
    s.completed[index]? = some (some err, connection) ∧
    err ≠ .operationAborted ∧ s.isOpen = true

theorem startAccepting_isOpen (s : ServerState) :
    (startAccepting s).isOpen = s.isOpen := by
  unfold startAccepting
  dsimp only
  split <;> rfl

theorem startAccepting_armed (s : ServerState) :
    (startAccepting s).armed = s.armed + 1 := by
  unfold startAccepting ServerState.armed
  dsimp only
  split <;> simp <;> omega

theorem startAccepting_listening {s : ServerState}
    (idle : s.isOpen = true → s.armed = 0) :
    Listening (startAccepting s) := by
  intro isOpen
  rw [startAccepting_isOpen] at isOpen
  rw [startAccepting_armed, idle isOpen]

theorem bound_listening : Listening (startAccepting .bound) :=
  startAccepting_listening fun _ => rfl

/-- Taking a queued handler leaves nothing armed. -/
theorem dequeued_armed {s : ServerState} {index : Nat}
    {completion : Option ErrorCode × Nat}
    (listening : Listening s)
    (queued : s.completed[index]? = some completion)
    (isOpen : s.isOpen = true) :
    ({ s with completed := s.completed.eraseIdx index } :
      ServerState).armed = 0 := by
  have one := listening isOpen
  rcases List.getElem?_eq_some_iff.mp queued with ⟨inside, -⟩
  have shorter := List.length_eraseIdx_of_lt inside
  unfold ServerState.armed at one ⊢
  dsimp only
  omega

theorem onConnect_success_listening {s : ServerState} {connection : Nat}
    (idle : s.isOpen = true → s.armed = 0) :
    Listening (onConnect none connection s) :=
  startAccepting_listening idle

/-- A handler keeps the server listening unless it drops the accept. -/
theorem runOnConnect_listening {s next : ServerState} {index : Nat}
    (listening : Listening s)
    (kept : ¬ DropsAccept s (.runOnConnect index))
    (ran : runOnConnect index s = some next) : Listening next := by
  rcases Option.map_eq_some_iff.mp ran with ⟨⟨err, connection⟩, queued, rfl⟩
  have idle := fun isOpen => dequeued_armed listening queued isOpen
  cases err with
  | none => exact onConnect_success_listening idle
  | some err =>
      by_cases isOpen : s.isOpen
      · have aborted : err = .operationAborted := by
          by_contra other
          exact kept ⟨index, err, connection, rfl, queued, other, isOpen⟩
        subst aborted
        have rearmed : onConnect (some .operationAborted) connection
            { s with completed := s.completed.eraseIdx index } =
              startAccepting
                { s with completed := s.completed.eraseIdx index } := by
          simp [onConnect, isOpen]
        rw [rearmed]
        exact startAccepting_listening idle
      · intro opened
        simp [onConnect, isOpen] at opened

/-- A dropped accept leaves the acceptor open with nothing armed. -/
theorem runOnConnect_drops {s : ServerState} {index : Nat}
    (listening : Listening s)
    (drops : DropsAccept s (.runOnConnect index)) :
    ∃ next, runOnConnect index s = some next ∧ ¬ Listening next := by
  rcases drops with ⟨_, err, connection, same, queued, other, isOpen⟩
  rcases ServerAction.runOnConnect.inj same with rfl
  refine ⟨_, Option.map_eq_some_iff.mpr ⟨_, queued, rfl⟩, ?_⟩
  intro stillListening
  have logged : onConnect (some err) connection
      { s with completed := s.completed.eraseIdx index } =
        { s with completed := s.completed.eraseIdx index } := by
    simp [onConnect, other, isOpen]
  rw [logged] at stillListening
  have none := dequeued_armed listening queued isOpen
  rw [stillListening isOpen] at none
  simp at none

/-- Every step that drops no accept keeps the server listening. -/
theorem serverStep_listening {s next : ServerState} {action : ServerAction}
    (listening : Listening s) (kept : ¬ DropsAccept s action)
    (taken : serverStep s action = some (.ok next)) : Listening next := by
  cases action with
  | acceptCompletes index err =>
      rcases Option.map_eq_some_iff.mp taken with ⟨after, completed, same⟩
      rcases Except.ok.inj same with rfl
      rcases Option.map_eq_some_iff.mp completed with ⟨connection, queued, rfl⟩
      rcases List.getElem?_eq_some_iff.mp queued with ⟨inside, -⟩
      intro isOpen
      have one := listening isOpen
      have shorter := List.length_eraseIdx_of_lt inside
      simp only [ServerState.armed, List.length_append, shorter,
        List.length_singleton] at one ⊢
      omega
  | runOnConnect index =>
      rcases Option.map_eq_some_iff.mp taken with ⟨after, ran, same⟩
      rcases Except.ok.inj same with rfl
      exact runOnConnect_listening listening kept ran
  | commandRead index =>
      rcases Option.map_eq_some_iff.mp taken with
        ⟨⟨connection, after⟩, read, same⟩
      rcases Except.ok.inj same with rfl
      rcases Option.map_eq_some_iff.mp read with ⟨_, _, same⟩
      rcases Prod.mk.inj same with ⟨-, rfl⟩
      exact listening
  | shutdown =>
      rcases Except.ok.inj (Option.some.inj taken) with rfl
      intro isOpen
      simp [shutdown] at isOpen

/--
A run keeps exactly one accept outstanding in all its states precisely when
none of its handlers gets an error other than `operation_aborted` on the open
acceptor.
-/
theorem listening_iff {attempts : List (ServerState × ServerAction)}
    {outcome : Except Fault ServerState}
    (run : Run serverStep (startAccepting .bound) attempts outcome) :
    (∀ s, Visits attempts outcome s → Listening s) ↔
      Meets (fun s action => ¬ DropsAccept s action) attempts := by
  constructor
  · intro always attempt member drops
    rcases attempt with ⟨s, action⟩
    rcases id drops with ⟨index, -, -, rfl, -⟩
    have listening := always s (Or.inl ⟨_, member⟩)
    rcases runOnConnect_drops listening drops with ⟨next, ran, deaf⟩
    have taken : serverStep s (.runOnConnect index) = some (.ok next) := by
      simp [serverStep, ran]
    exact deaf (always next (run.visits_next member taken))
  · intro meets s visited
    rcases run.visited_reached visited with ⟨earlier, later, split, reached⟩
    exact reached.invariant_of_meets _ Listening bound_listening
      (fun listening kept taken => serverStep_listening listening kept taken)
      (split ▸ meets).of_append rfl

/-- A server whose first accept has been completed by the kernel. -/
private def firstCompleted (err : Option ErrorCode) : ServerState :=
  { startAccepting .bound with pending := [], completed := [(err, 0)] }

private theorem run_first_accept (err : Option ErrorCode) :
    Run serverStep (startAccepting .bound)
      [(startAccepting .bound, .acceptCompletes 0 err),
        (firstCompleted err, .runOnConnect 0)]
      (.ok (onConnect err 0
        { firstCompleted err with completed := [] })) :=
  (Run.start.next rfl).next rfl

/-- Once one client has connected, the next accept is outstanding. -/
theorem listening_one_client :
    Listening (onConnect none 0
      { firstCompleted none with completed := [] }) := by
  refine (listening_iff (run_first_accept none)).mpr ?_ _ (Or.inr rfl)
  intro attempt member
  simp only [List.mem_cons, List.not_mem_nil, or_false] at member
  rintro ⟨index, err, connection, same, queued, -⟩
  rcases member with rfl | rfl
  · simp at same
  · rcases ServerAction.runOnConnect.inj same with rfl
    simp [firstCompleted] at queued

/--
A failed accept (`EMFILE`) is logged and not replaced: the acceptor is open
and nothing is armed.
-/
theorem emfile_stops_accepting :
    ∃ s, Reachable serverStep (startAccepting .bound) s ∧
      ¬ Listening s := by
  refine ⟨_, ⟨_, run_first_accept
    (some (.other 24 "Too many open files"))⟩, ?_⟩
  intro listening
  have one := listening rfl
  simp [ServerState.armed, onConnect, firstCompleted, startAccepting,
    ServerState.bound] at one

/-! ## Each connection once -/

/-- The accepts and reads that a connection is waiting for. -/
def ServerState.held (s : ServerState) (connection : Nat) : Nat :=
  s.pending.count connection +
    (s.completed.map Prod.snd).count connection +
      s.reading.count connection

/-- A connection that is still to be made counts for one. -/
def ServerState.stake (s : ServerState) (connection : Nat) : Nat :=
  s.held connection + if connection < s.nextConnection then 0 else 1

theorem count_eraseIdx {α β : Type} [DecidableEq β] (f : α → β)
    {items : List α} {index : Nat} {item : α}
    (found : items[index]? = some item) (value : β) :
    ((items.eraseIdx index).map f).count value +
        (if f item = value then 1 else 0) =
      (items.map f).count value := by
  rcases List.getElem?_eq_some_iff.mp found with ⟨inside, rfl⟩
  have perm := (List.getElem_cons_eraseIdx_perm inside).map f
  rw [← perm.count_eq value, List.map_cons, List.count_cons]
  simp only [beq_iff_eq]

theorem startAccepting_stake (s : ServerState) (connection : Nat) :
    (startAccepting s).stake connection ≤ s.stake connection := by
  unfold startAccepting ServerState.stake ServerState.held
  dsimp only
  split
  · simp only [List.count_append, List.count_singleton, beq_iff_eq]
    split <;> split <;> split <;> omega
  · simp only [List.map_append, List.map_cons, List.map_nil,
      List.count_append, List.count_singleton, beq_iff_eq]
    split <;> split <;> split <;> omega

theorem acceptCompletes_stake {s next : ServerState} {index : Nat}
    {err : Option ErrorCode}
    (completed : acceptCompletes index err s = some next)
    (connection : Nat) : next.stake connection = s.stake connection := by
  rcases Option.map_eq_some_iff.mp completed with ⟨accepted, found, rfl⟩
  have count := count_eraseIdx id found connection
  simp only [List.map_id, id] at count
  simp only [ServerState.stake, ServerState.held, List.map_append,
    List.map_cons, List.map_nil, List.count_append, List.count_singleton,
    beq_iff_eq]
  omega

theorem runOnConnect_stake {s next : ServerState} {index : Nat}
    (ran : runOnConnect index s = some next) (connection : Nat) :
    next.stake connection ≤ s.stake connection := by
  rcases Option.map_eq_some_iff.mp ran with ⟨⟨err, accepted⟩, found, rfl⟩
  have count := count_eraseIdx Prod.snd found connection
  dsimp only at count
  have erased : ({ s with completed := s.completed.eraseIdx index } :
      ServerState).stake connection ≤ s.stake connection := by
    simp only [ServerState.stake, ServerState.held]
    omega
  cases err with
  | none =>
      refine Nat.le_trans (startAccepting_stake _ connection) ?_
      simp only [ServerState.stake, ServerState.held, List.count_append,
        List.count_singleton, beq_iff_eq]
      omega
  | some err =>
      simp only [onConnect]
      split
      · exact erased
      · split
        · exact Nat.le_trans (startAccepting_stake _ connection) erased
        · exact erased

/-- Reading a command uses up the connection. -/
theorem commandRead_stake {s next : ServerState} {index client : Nat}
    (read : commandRead index s = some (client, next)) (connection : Nat) :
    next.stake connection + (if client = connection then 1 else 0) =
      s.stake connection := by
  rcases Option.map_eq_some_iff.mp read with ⟨accepted, found, same⟩
  rcases Prod.mk.inj same with ⟨rfl, rfl⟩
  have count := count_eraseIdx id found connection
  simp only [List.map_id, id] at count
  simp only [ServerState.stake, ServerState.held]
  omega

theorem shutdown_stake (s : ServerState) (connection : Nat) :
    (shutdown s).stake connection = s.stake connection := by
  have aborted : (s.pending.map fun connection =>
      ((some .operationAborted, connection) :
        Option ErrorCode × Nat)).map Prod.snd = s.pending := by
    rw [List.map_map]
    exact List.map_id' _
  have held : (shutdown s).held connection = s.held connection := by
    simp only [ServerState.held, shutdown, List.map_append,
      List.count_append, aborted, List.count_nil]
    omega
  rw [ServerState.stake, held]
  rfl

end KekMonitors.UnixServer
