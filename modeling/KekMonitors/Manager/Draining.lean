import KekMonitors.Manager.OwnExits
import KekMonitors.Manager.Watching
import KekMonitors.Transition.Balance
import Mathlib.Algebra.Order.BigOperators.Group.List
import Mathlib.Data.Finset.Card

/-!
# Handlers run dry

A handler may queue other handlers: an accepted connection starts the next
accept, a posted half starts a process or a STOP exchange, a failed connect
starts a verification.  Each is priced by the handlers that it leads to, so
that running one makes the rest cheaper.  No chain of handlers goes on without
something that comes from outside, and when none can run, all that is left
waits for the outside.
-/

namespace KekMonitors

/-- An item that is taken out of a list no longer weighs anything. -/
theorem sum_map_eraseIdx {α : Type*} (weight : α → Nat) {items : List α}
    {index : Nat} {item : α} (found : items[index]? = some item) :
    ((items.eraseIdx index).map weight).sum + weight item =
      (items.map weight).sum := by
  rcases List.getElem?_eq_some_iff.mp found with ⟨inside, rfl⟩
  have perm := (List.getElem_cons_eraseIdx_perm inside).map weight
  rw [← perm.sum_eq, List.map_cons, List.sum_cons, Nat.add_comm]

namespace UnixServer

/-! ## The server -/

/-- An open acceptor is started again, a closed one fails at once. -/
def price (isOpen : Bool) (completion : Option ErrorCode × Nat) : Nat :=
  if isOpen then 3 else if completion.1.isSome then 1 else 2

def ServerState.work (s : ServerState) : Nat :=
  2 * s.pending.length + (s.completed.map (price s.isOpen)).sum

theorem startAccepting_work (s : ServerState) :
    (startAccepting s).work = s.work + if s.isOpen then 2 else 1 := by
  unfold startAccepting ServerState.work
  dsimp only
  split
  · simp
    omega
  · rename_i closed
    simp [price, closed]
    omega

theorem acceptCompletes_work {s next : ServerState} {index : Nat}
    {err : Option ErrorCode}
    (completed : acceptCompletes index err s = some next) :
    next.work ≤ s.work + 1 := by
  rcases Option.map_eq_some_iff.mp completed with ⟨accepted, found, rfl⟩
  rcases List.getElem?_eq_some_iff.mp found with ⟨inside, -⟩
  have taken := List.length_eraseIdx_of_lt inside
  simp only [ServerState.work, taken, List.map_append, List.map_cons,
    List.map_nil, List.sum_append, List.sum_singleton, price]
  split
  · omega
  · split <;> omega

theorem runOnConnect_work {s next : ServerState} {index : Nat}
    (ran : runOnConnect index s = some next) : next.work + 1 ≤ s.work := by
  rcases Option.map_eq_some_iff.mp ran with ⟨⟨err, accepted⟩, found, rfl⟩
  have taken := sum_map_eraseIdx (price s.isOpen) found
  cases err with
  | none =>
      rw [onConnect, startAccepting_work]
      simp only [ServerState.work]
      cases isOpen : s.isOpen <;> simp [isOpen, price] at taken ⊢ <;> omega
  | some err =>
      simp only [onConnect]
      split
      · simp only [ServerState.work]
        cases isOpen : s.isOpen <;>
          simp [isOpen, price] at taken ⊢ <;> omega
      · split
        · rename_i opened
          rw [startAccepting_work]
          simp only [ServerState.work]
          simp [opened, price] at taken ⊢
          omega
        · rename_i closed
          simp only [ServerState.work]
          simp [closed, price] at taken ⊢
          omega

theorem shutdown_work (s : ServerState) : (shutdown s).work ≤ s.work := by
  have cheaper : ∀ completed : List (Option ErrorCode × Nat),
      (completed.map (price false)).sum ≤
        (completed.map (price s.isOpen)).sum := by
    intro completed
    apply List.sum_le_sum
    rintro ⟨err, connection⟩ -
    cases s.isOpen <;> cases err <;> simp [price]
  have aborted : ∀ pending : List Nat,
      ((pending.map fun connection =>
        ((some .operationAborted, connection) :
          Option ErrorCode × Nat)).map (price false)).sum =
        pending.length := by
    intro pending
    simp [price, Function.comp_def]
  have before := cheaper s.completed
  simp only [ServerState.work, shutdown, List.map_append, List.sum_append,
    aborted, List.length_nil]
  omega

end UnixServer

namespace Objects

open Manager

/-! ## The stored objects -/

/-- The add timers whose handlers have not run. -/
def waits (o : Objects) : Finset Nat :=
  (Finset.range o.children.length).filter fun timer =>
    (o.awaited timer).isSome

/-- The children whose exit handlers have not run. -/
def exits (o : Objects) : Finset Nat :=
  (Finset.range o.children.length).filter fun child =>
    (o.children[child]?).any Child.exitPending

def work (o : Objects) : Nat :=
  o.waits.card + o.exits.card

theorem mem_exits {o : Objects} {child : Nat} :
    child ∈ o.exits ↔ ∃ key, o.ExitPending key child := by
  rw [exits, Finset.mem_filter, Finset.mem_range, Option.any_eq_true]
  constructor
  · rintro ⟨-, c, found, waits⟩
    exact ⟨_, c, found, rfl, waits⟩
  · rintro ⟨key, c, found, -, waits⟩
    rcases List.getElem?_eq_some_iff.mp found with ⟨inside, -⟩
    exact ⟨inside, c, found, waits⟩

/-- Changes queue no handler. -/
theorem work_changes {o next : Objects} (changes : Changes o next) :
    next.work ≤ o.work := by
  have waits : next.waits = o.waits := by
    simp only [Objects.waits, changes.children_length,
      awaited_changes changes]
  have exits : next.exits ⊆ o.exits := by
    intro child member
    rcases mem_exits.mp member with ⟨key, pending⟩
    exact mem_exits.mpr ⟨key, changes.exitPending pending⟩
  have fewer := Finset.card_le_card exits
  rw [work, work, waits]
  omega

/-- One more index may belong to a set of indices. -/
theorem card_filter_range_succ_le {p q : Nat → Prop} [DecidablePred p]
    [DecidablePred q] {length : Nat}
    (old : ∀ index < length, q index → p index) :
    ((Finset.range (length + 1)).filter q).card ≤
      ((Finset.range length).filter p).card + 1 := by
  have grown : (Finset.range (length + 1)).filter q ⊆
      insert length ((Finset.range length).filter p) := by
    intro index member
    rcases Finset.mem_filter.mp member with ⟨inside, holds⟩
    rcases Nat.lt_succ_iff_lt_or_eq.mp (Finset.mem_range.mp inside) with
      before | newest
    · exact Finset.mem_insert_of_mem (Finset.mem_filter.mpr
        ⟨Finset.mem_range.mpr before, old index before holds⟩)
    · exact newest ▸ Finset.mem_insert_self ..
  exact (Finset.card_le_card grown).trans (Finset.card_insert_le _ _)

/-- A launch is followed by the handlers of its timer and of its exit. -/
theorem work_launch {o : Objects} {request : AddRequest}
    (absent : o.find? request.kind request.className = none)
    (commandLine : String) (pid creation : Json.Integer) :
    (o.launch request commandLine pid creation).work ≤ o.work + 2 := by
  have free : (o.find? request.kind request.className).bind
      StoredObject.process = none := by
    rw [absent, Option.bind_none]
  have children := children_launch free commandLine pid creation
  have length : (o.launch request commandLine pid creation).children.length =
      o.children.length + 1 := by
    simp [children]
  have waits : (o.launch request commandLine pid creation).waits.card ≤
      o.waits.card + 1 := by
    rw [Objects.waits, length]
    refine card_filter_range_succ_le fun timer inside => ?_
    rw [awaited_launch absent, if_neg inside.ne]
    exact id
  have exits : (o.launch request commandLine pid creation).exits.card ≤
      o.exits.card + 1 := by
    rw [Objects.exits, length]
    refine card_filter_range_succ_le fun child inside => ?_
    rw [children, List.getElem?_append_left inside]
    exact id
  rw [work, work]
  omega

theorem work_takeWait {o : Objects} (owned : o.TimersOwned) {timer : Nat}
    {wait : Timer.Wait AddRequest}
    (found : o.addWaits.lookup timer = some wait) :
    (o.takeWait timer).work + 1 ≤ o.work := by
  have awaits : o.awaited timer = some wait.request := by
    simp [awaited, found]
  have member : timer ∈ o.waits := by
    simp [waits, awaits, owned.awaited_lt awaits]
  have others : (o.takeWait timer).waits ⊆ o.waits.erase timer := by
    intro other waiting
    rcases Finset.mem_filter.mp waiting with ⟨inside, waiting⟩
    rw [awaited_takeWait] at waiting
    split at waiting
    · simp at waiting
    · rename_i different
      exact Finset.mem_erase.mpr
        ⟨different, Finset.mem_filter.mpr ⟨inside, waiting⟩⟩
  have fewer := Finset.card_le_card others
  have taken := Finset.card_erase_add_one member
  have exits : (o.takeWait timer).exits = o.exits := rfl
  rw [work, work, exits]
  omega

theorem work_deliverExit {o : Objects} {child : Nat} {c : Child}
    (found : o.children[child]? = some c) (waits : c.exitPending = true) :
    (o.deliverExit child).work + 1 ≤ o.work := by
  have member : child ∈ o.exits :=
    mem_exits.mpr ⟨_, c, found, rfl, waits⟩
  have others : (o.deliverExit child).exits ⊆ o.exits.erase child := by
    intro other left
    rcases mem_exits.mp left with ⟨key, pending⟩
    rcases exitPending_deliverExit pending with ⟨different, before⟩
    exact Finset.mem_erase.mpr ⟨different, mem_exits.mpr ⟨key, before⟩⟩
  have fewer := Finset.card_le_card others
  have taken := Finset.card_erase_add_one member
  have same : (o.deliverExit child).waits = o.waits := by
    have changes : Changes o (o.deliverExit child) :=
      .single (.deliverExit child trivial)
    simp only [Objects.waits, changes.children_length,
      awaited_changes changes]
  rw [work, work, same]
  omega

end Objects

namespace Manager

open Connection
open Objects
open Transition

/-! ## The manager -/

/-- A STOP that is being written has its reply still to be read. -/
def StopExchange.work (exchange : StopExchange) : Nat :=
  match exchange.stage with
  | .writing => 2
  | .reading => 1

/-- A posted half may start a process or a STOP exchange. -/
def State.work (s : State) : Nat :=
  s.server.work + 3 * s.posted.length + s.objects.work +
    s.verifications.length + (s.stops.map StopExchange.work).sum

/-- The handlers that others have queued. -/
def IsQueued : Action → Bool
  | .runOnConnect _ => true
  | .runPosted _ => true
  | .runAddWait _ => true
  | .runOnExit _ _ => true
  | .runVerification _ => true
  | .runStop _ => true
  | _ => false

def handlersRun (_ : State) (action : Action) : Nat :=
  if IsQueued action then 1 else 0

/-- The handlers that may follow from what happens outside. -/
def broughtIn (_ : State) : Action → Nat
  | .acceptCompletes _ _ => 1
  | .commandRead _ _ _ => 6
  | .inotifyRead events => events.length
  | _ => 0

section Handlers

variable {m : MonitorOrScraper} {cmd : Cmd} {env : Environment}
  {callback : Callback} {s : State} {handled : Handled}

theorem handledAdd_work (kept : s.objects.WellKept)
    (ran : handledAdd m cmd env callback s = .ok handled) :
    handled.state.work ≤ s.work + 2 := by
  rcases bind_eq_ok.mp ran with ⟨outcome, added, same⟩
  rcases Except.ok.inj same with rfl
  let call : AddCall :=
    { kind := m, cmd := cmd, env := env, callback := callback }
  have launches : (∃ response, outcome = (s.objects, some response) ∧
        ∀ className started, ¬ call.Starts s.objects className started) ∨
      ∃ className started, call.Starts s.objects className started ∧
        outcome = (call.launch className started s.objects, none) :=
    onAdd_cases added
  rcases launches with
    ⟨response, rfl, -⟩ | ⟨className, started, starts, rfl⟩
  · exact Nat.le_add_right ..
  · have absent := kept.absent starts.admits
    have launched : (call.launch className started s.objects).work ≤
        s.objects.work + 2 := work_launch absent ..
    simp only [State.work]
    omega

theorem handledStop_work
    (ran : handledStop m cmd env callback s = .ok handled) :
    handled.state.work ≤ s.work + 2 := by
  rcases bind_eq_ok.mp ran with ⟨⟨objects, outcome⟩, stopped, same⟩
  have kept : objects.work ≤ s.objects.work :=
    work_changes (onStop_changes stopped)
  cases outcome with
  | error response =>
      rcases Except.ok.inj same with rfl
      simp only [State.work]
      omega
  | ok exchange =>
      rcases Except.ok.inj same with rfl
      have priced : exchange.work ≤ 2 := by
        unfold StopExchange.work
        split <;> omega
      simp only [State.work, List.map_append, List.map_cons, List.map_nil,
        List.sum_append, List.sum_singleton]
      omega

theorem handledHalf_work {half : PostedHalf} (kept : s.objects.WellKept)
    (ran : handledHalf half env s = .ok handled) :
    handled.state.work ≤ s.work + 2 := by
  unfold handledHalf at ran
  split at ran
  · rcases Except.ok.inj ran with rfl
    exact Nat.le_add_right ..
  · dsimp only at ran
    split at ran
    · exact handledAdd_work kept ran
    · rcases Except.ok.inj ran with rfl
      exact Nat.le_add_right ..
    · exact handledStop_work ran

theorem handledCommand_work {err : Option ErrorCode} {connection : Nat}
    (kept : s.objects.WellKept)
    (ran : handledCommand err cmd env connection s = .ok handled) :
    handled.state.work ≤ s.work + 6 := by
  unfold handledCommand at ran
  split at ran
  · rcases Except.ok.inj ran with rfl
    exact Nat.le_add_right ..
  · split at ran
    · rcases Except.ok.inj ran with rfl
      exact Nat.le_add_right ..
    · rename_i handler found
      cases handledMap_cases found with
      | ping =>
          rcases Except.ok.inj ran with rfl
          exact Nat.le_add_right ..
      | shutdown =>
          rcases Except.ok.inj ran with rfl
          have changes : Changes s.objects
              ((s.objects.terminateProcesses .monitor).terminateProcesses
                .scraper) :=
            (terminateProcesses_changes _ _).trans
              (terminateProcesses_changes _ _)
          have objects := work_changes changes
          have server := UnixServer.shutdown_work s.server
          simp only [State.work, handledShutdown]
          omega
      | add m => exact (handledAdd_work kept ran).trans (by omega)
      | stop m => exact (handledStop_work ran).trans (by omega)
      | status m =>
          rcases Except.ok.inj ran with rfl
          exact Nat.le_add_right ..
      | combined momanCb =>
          rcases Except.ok.inj ran with rfl
          simp only [State.work, createCompletion, List.length_append,
            List.length_cons, List.length_nil]
          omega

end Handlers

/-! ## Verifications -/

section Files

variable {config : Config} {s next : State}

theorem verifySocketIsCommunicating_verifications (m : MonitorOrScraper)
    (socketFullPath className : String) (onSuccess : OnSuccess)
    (peer : Peer) (s : State) :
    (verifySocketIsCommunicating m socketFullPath className onSuccess peer
      s).verifications.length ≤ s.verifications.length + 1 := by
  unfold verifySocketIsCommunicating
  split
  · exact Nat.le_add_right ..
  · simp

theorem checkSocketAndUpdateList_verifications
    (socketFullPath socketName : String) (mask : UInt32) (peer : Peer)
    (s : State) :
    (checkSocketAndUpdateList socketFullPath socketName mask peer
      s).verifications.length ≤ s.verifications.length + 1 := by
  rw [checkSocketAndUpdateList_eq]
  cases socketClass socketFullPath socketName with
  | none => exact Nat.le_add_right ..
  | some key =>
      rw [Option.elim_some]
      unfold updateList
      split
      · split
        · dsimp only
          split
          · exact verifySocketIsCommunicating_verifications ..
          · exact Nat.le_add_right ..
        · exact verifySocketIsCommunicating_verifications ..
      · split
        · exact Nat.le_add_right ..
        · exact Nat.le_add_right ..

/-- Events of config files change the watches and send commands alone. -/
theorem onConfigEvent_state {fullEventPath : String} {event : InotifyEvent}
    (ran : onConfigEvent fullEventPath event s = .ok next) :
    ∃ fileWatcher sent,
      next = { s with fileWatcher := fileWatcher, sent := sent } := by
  have same : ∃ fileWatcher sent,
      s = { s with fileWatcher := fileWatcher, sent := sent } :=
    ⟨s.fileWatcher, s.sent, rfl⟩
  have watching : ∀ {path mask kernel} {s next : State},
      addWatch path mask kernel s = .ok next →
        ∃ fileWatcher, next = { s with fileWatcher := fileWatcher } := by
    intro path mask kernel s next ran
    rcases bind_eq_ok.mp ran with ⟨fileWatcher, -, same⟩
    exact ⟨fileWatcher, (Except.ok.inj same).symm⟩
  have reloading : ∀ {path name content} {s next : State},
      reload path name content s = .ok next →
        ∃ sent, next = { s with sent := sent } := by
    intro path name content s next ran
    rcases bind_eq_ok.mp ran with ⟨sends, -, same⟩
    exact ⟨_, (Except.ok.inj same).symm⟩
  unfold onConfigEvent at ran
  dsimp only at ran
  split at ran
  · split at ran
    · split at ran
      · rcases watching ran with ⟨fileWatcher, rfl⟩
        exact ⟨fileWatcher, s.sent, rfl⟩
      · exact Except.ok.inj ran ▸ same
    · split at ran
      · split at ran
        · rcases reloading ran with ⟨sent, rfl⟩
          exact ⟨s.fileWatcher, sent, rfl⟩
        · rcases bind_eq_ok.mp ran with ⟨middle, added, reloaded⟩
          rcases watching added with ⟨fileWatcher, rfl⟩
          rcases reloading reloaded with ⟨sent, rfl⟩
          exact ⟨fileWatcher, sent, rfl⟩
      · exact Except.ok.inj ran ▸ same
  · split at ran
    · rcases reloading ran with ⟨sent, rfl⟩
      exact ⟨s.fileWatcher, sent, rfl⟩
    · split at ran
      · split at ran
        · split at ran
          · exact Except.ok.inj ran ▸ same
          · rcases bind_eq_ok.mp ran with ⟨fileWatcher, -, removed⟩
            exact ⟨fileWatcher, s.sent, (Except.ok.inj removed).symm⟩
        · exact Except.ok.inj ran ▸ same
      · exact Except.ok.inj ran ▸ same

theorem onInotifyEvents_verifications {events : List InotifyEvent}
    (ran : onInotifyEvents config s events = .ok next) :
    next.verifications.length ≤ s.verifications.length + events.length := by
  induction events generalizing s with
  | nil =>
      rcases Except.ok.inj ran with rfl
      exact Nat.le_add_right ..
  | cons event events ih =>
      rcases bind_eq_ok.mp ran with ⟨middle, handled, rest⟩
      have first : middle.verifications.length ≤
          s.verifications.length + 1 := by
        unfold onInotifyEvent at handled
        split at handled
        · simp at handled
        · dsimp only at handled
          split at handled
          · split at handled
            · rw [← Except.ok.inj handled]
              exact checkSocketAndUpdateList_verifications ..
            · rw [← Except.ok.inj handled]
              exact Nat.le_add_right ..
          · rcases onConfigEvent_state handled with ⟨fileWatcher, sent, rfl⟩
            exact Nat.le_add_right ..
      have later := ih rest
      rw [List.length_cons]
      omega

end Files

/-- Disabling a watch leaves the queued events. -/
theorem disable_events {watch : InotifyWatch} {watcher next : FileWatcher}
    (disabled : watcher.disable watch = .ok next) :
    next.inotify.events = watcher.inotify.events := by
  unfold FileWatcher.disable at disabled
  split at disabled
  · simp at disabled
  · rw [← Except.ok.inj disabled]

theorem queueEvent_length {event : KernelEvent} {watcher next : FileWatcher}
    (queued : watcher.queueEvent event = .ok next) :
    next.inotify.events.length ≤ watcher.inotify.events.length + 1 := by
  unfold FileWatcher.queueEvent at queued
  split at queued
  · rw [← Except.ok.inj queued]
    exact Nat.le_add_right ..
  · split at queued
    · simp at queued
    · dsimp only at queued
      split at queued
      · rcases bind_eq_ok.mp queued with ⟨middle, disabled, appended⟩
        rw [← Except.ok.inj appended]
        simp [disable_events disabled]
      · rw [← Except.ok.inj queued]
        simp

theorem queueEvents_length {events : List KernelEvent}
    {watcher next : FileWatcher}
    (queued : watcher.queueEvents events = .ok next) :
    next.inotify.events.length ≤
      watcher.inotify.events.length + events.length := by
  induction events generalizing watcher with
  | nil =>
      rcases Except.ok.inj queued with rfl
      exact Nat.le_add_right ..
  | cons event events ih =>
      rcases bind_eq_ok.mp queued with ⟨middle, first, rest⟩
      have one := queueEvent_length first
      have later := ih rest
      rw [List.length_cons]
      omega

/-! ## One step -/

section OneStep

variable {config : Config} {s next : State} {action : Action}

/-- Answering costs nothing. -/
theorem work_of_same (same : SameButAnswers s next) :
    next.work = s.work := by
  simp only [State.work, same.server, same.posted, same.objects,
    same.verifications, same.stops]

theorem runAddWait_work {timer : Nat} (owned : s.objects.TimersOwned)
    (taken : step config s (.runAddWait timer) = some (.ok next)) :
    next.work + 1 ≤ s.work := by
  rcases runAddWait_takes taken with ⟨wait, outcome, found, -, ran, replied⟩
  have took := work_takeWait owned found
  have answered := work_changes (onAddTimer_changes ran)
  have same : next.work = ({ s with objects := outcome.1 } : State).work := by
    unfold reply at replied
    dsimp only at replied
    split at replied
    · rw [← Except.ok.inj replied]
    · exact work_of_same (invoke_same replied)
  rw [same]
  simp only [State.work]
  omega

theorem runOnExit_work {child : Nat} {ec : Option ErrorCode}
    (taken : step config s (.runOnExit child ec) = some (.ok next)) :
    next.work + 1 ≤ s.work := by
  rcases runOnExit_takes taken with ⟨c, found, waits, -, rfl⟩
  have delivered := work_deliverExit found waits
  have exited : (onProcessExit ec c.kind c.className
      (s.objects.deliverExit child)).work ≤
        (s.objects.deliverExit child).work :=
    work_changes (onProcessExit_changes ..)
  simp only [State.work]
  omega

theorem runVerification_work {index : Nat} (aborted : Aborted s)
    (taken : step config s (.runVerification index) = some (.ok next)) :
    next.work + 1 ≤ s.work := by
  have same := runVerification_takes aborted taken
  rcases Option.bind_eq_some_iff.mp taken with ⟨v, found, -⟩
  rcases List.getElem?_eq_some_iff.mp found with ⟨inside, -⟩
  have fewer := List.length_eraseIdx_add_one inside
  rw [same]
  simp only [State.work]
  omega

/-- The handler of a written STOP leaves that of its reply. -/
theorem stopHandler_work {exchange : StopExchange}
    {outcome : Except Response StopExchange}
    (ended : stopHandler exchange = some outcome) :
    (outcome.toOption.toList.map StopExchange.work).sum + 1 ≤
      exchange.work := by
  unfold stopHandler at ended
  split at ended
  · rename_i writing
    have priced : exchange.work = 2 := by
      simp [StopExchange.work, writing]
    split at ended
    · rcases Option.some.inj ended with rfl
      simp [Except.toOption, StopExchange.work, writing]
    · rcases Option.some.inj ended with rfl
      simp [Except.toOption, priced]
  · rename_i reading
    rcases Option.map_eq_some_iff.mp ended with ⟨read, -, rfl⟩
    simp [Except.toOption, StopExchange.work, reading]

theorem runStop_work {index : Nat}
    (taken : step config s (.runStop index) = some (.ok next)) :
    next.work + 1 ≤ s.work := by
  rcases step_handled taken with ⟨handled, ran, finished⟩
  rw [work_of_same (Handled.finish_same finished)]
  rcases handledExchange_state ran with ⟨objects, stops, same⟩
  rcases runStop_takes ran with
    ⟨exchange, outcome, queued, ended, stopped, left⟩
  have weight := sum_map_eraseIdx StopExchange.work queued
  have changed : (stopObjects exchange s.objects).work ≤ s.objects.work :=
    work_changes (stopObjects_changes ..)
  have cheaper := stopHandler_work ended
  rw [same] at stopped left ⊢
  simp only at stopped left
  subst stopped left
  simp only [State.work, List.map_append, List.sum_append]
  omega

theorem runPosted_work {env : Environment} (kept : s.objects.WellKept)
    (taken : step config s (.runPosted env) = some (.ok next)) :
    next.work + 1 ≤ s.work := by
  rcases step_handled taken with ⟨handled, ran, finished⟩
  rw [work_of_same (Handled.finish_same finished)]
  simp only [handle] at ran
  split at ran
  · simp at ran
  · rename_i half posted queued
    have worked := handledHalf_work (by exact kept) (Option.some.inj ran)
    simp only [State.work, queued, List.length_cons] at worked ⊢
    omega

theorem commandRead_work {index : Nat} {events : List StreamEvent}
    {env : Environment} (kept : s.objects.WellKept)
    (taken : step config s (.commandRead index events env) =
      some (.ok next)) : next.work ≤ s.work + 6 := by
  rcases step_handled taken with ⟨handled, ran, finished⟩
  rw [work_of_same (Handled.finish_same finished)]
  rcases Option.bind_eq_some_iff.mp ran with
    ⟨⟨connection, server⟩, accepted, ran⟩
  rcases Option.bind_eq_some_iff.mp ran with ⟨⟨err, cmd⟩, -, ran⟩
  have worked := handledCommand_work (by exact kept) (Option.some.inj ran)
  have same : server.work = s.server.work := by
    rcases Option.map_eq_some_iff.mp accepted with ⟨client, -, read⟩
    rcases Prod.mk.inj read with ⟨-, rfl⟩
    rfl
  simp only [State.work, same] at worked ⊢
  omega

theorem inotifyRead_work {events : List KernelEvent} (watched : Watched s)
    (taken : step config s (.inotifyRead events) = some (.ok next)) :
    next.work ≤ s.work + events.length := by
  rcases inotifyRead_takes taken with ⟨fileWatcher, queued, updated⟩
  have quiet := onInotifyUpdate_quiet updated
  have objects : next.objects.work ≤ s.objects.work :=
    work_changes (quiet.objects.mono fun _ _ => trivial)
  have length := queueEvents_length queued
  rw [watched.drained, List.length_nil, Nat.zero_add] at length
  unfold onInotifyUpdate at updated
  have verified := onInotifyEvents_verifications updated
  simp only [State.work, quiet.server, quiet.posted, quiet.stops]
  simp only at verified
  omega

/-- Every step keeps to its price. -/
theorem step_work (reached : Reached config s)
    (taken : step config s action = some (.ok next)) :
    next.work + handlersRun s action ≤ s.work + broughtIn s action := by
  have kept := reached.sound.wellKept
  cases action with
  | acceptCompletes index err =>
      rcases acceptCompletes_takes taken with ⟨server, completed, rfl⟩
      have worked := UnixServer.acceptCompletes_work completed
      simp only [State.work, handlersRun, IsQueued, broughtIn]
      simp only [Bool.false_eq_true, if_false]
      omega
  | runOnConnect index =>
      rcases runOnConnect_takes taken with ⟨server, ran, rfl⟩
      have worked := UnixServer.runOnConnect_work ran
      simp only [State.work, handlersRun, IsQueued, broughtIn, if_true]
      omega
  | commandRead index events env => exact commandRead_work kept taken
  | runPosted env => exact runPosted_work kept taken
  | timerExpires timer =>
      rcases timerExpires_takes taken with ⟨wait, -, -, rfl⟩
      have changed : (s.objects.expireTimer timer).work ≤ s.objects.work :=
        work_changes (.single (.expireTimer timer))
      simp only [State.work, handlersRun, IsQueued, broughtIn]
      simp only [Bool.false_eq_true, if_false]
      omega
  | runAddWait timer => exact runAddWait_work reached.sound.timersOwned taken
  | childExits child =>
      rcases childExits_takes taken with ⟨c, -, -, rfl⟩
      have changed : (s.objects.kill child).work ≤ s.objects.work :=
        work_changes (.single (.kill child))
      simp only [State.work, handlersRun, IsQueued, broughtIn]
      simp only [Bool.false_eq_true, if_false]
      omega
  | runOnExit child ec => exact runOnExit_work taken
  | inotifyRead events => exact inotifyRead_work reached.watched taken
  | runVerification index => exact runVerification_work reached.aborted taken
  | runStop index => exact runStop_work taken

end OneStep

/-! ## Runs -/

/-- No queued handler can run. -/
def RunDry (config : Config) (s : State) : Prop :=
  ∀ action, IsQueued action = true → step config s action = none

/-- Whatever is left in a state waits for something outside. -/
structure WaitsOutside (s : State) : Prop where
  accepts : s.server.completed = []
  posted : s.posted = []
  verifications : s.verifications = []
  timers : ∀ timer wait, s.objects.addWaits.lookup timer = some wait →
    wait.status = .waiting
  children : ∀ (child : Nat) (c : Child),
    s.objects.children[child]? = some c → c.exitPending = true →
      c.alive = true
  stops : ∀ exchange ∈ s.stops, exchange.stage = .reading ∧
    asyncReadResponse exchange.peer.reply = none

theorem RunDry.waitsOutside {config : Config} {s : State}
    (dry : RunDry config s) (aborted : Aborted s) : WaitsOutside s where
  accepts := by
    cases completed : s.server.completed with
    | nil => rfl
    | cons completion completed' =>
        have silent := dry (.runOnConnect 0) rfl
        simp [step, UnixServer.runOnConnect, completed] at silent
  posted := by
    cases posted : s.posted with
    | nil => rfl
    | cons half posted' =>
        have silent := dry (.runPosted {}) rfl
        simp [step, runPosted, posted] at silent
  verifications := by
    cases verifications : s.verifications with
    | nil => rfl
    | cons v verifications' =>
        have silent := dry (.runVerification 0) rfl
        rcases aborted v (by simp [verifications]) with ⟨errc, stage⟩
        simp [step, runVerification, verifications, verificationHandler,
          stage] at silent
  timers timer wait found := by
    have silent := dry (.runAddWait timer) rfl
    simpa [step, runAddWait, found] using silent
  children child c found waits := by
    have silent := dry (.runOnExit child none) rfl
    simpa [step, runOnExit, found, waits] using silent
  stops exchange member := by
    rcases List.getElem?_of_mem member with ⟨index, queued⟩
    have silent := dry (.runStop index) rfl
    have unhandled : stopHandler exchange = none := by
      cases handled : stopHandler exchange with
      | none => rfl
      | some outcome =>
          cases outcome <;>
            simp [step, runStop, queued, handled] at silent
    unfold stopHandler at unhandled
    split at unhandled
    · split at unhandled <;> simp at unhandled
    · rename_i reading
      exact ⟨reading, Option.map_eq_none_iff.mp unhandled⟩

/-! ## The start -/

theorem scanFiles_verifications (config : Config) (files : List FoundFile)
    (s : State) :
    (files.foldl (scanFile config) s).verifications.length ≤
      s.verifications.length + files.countP FoundFile.isSocket := by
  induction files generalizing s with
  | nil => exact Nat.le_add_right ..
  | cons file files ih =>
      have first : (scanFile config s file).verifications.length ≤
          s.verifications.length + if file.isSocket then 1 else 0 := by
        unfold scanFile
        split
        · rename_i found
          rw [if_pos found.1]
          exact checkSocketAndUpdateList_verifications ..
        · exact Nat.le_add_right ..
      have later := ih (scanFile config s file)
      rw [List.foldl_cons, List.countP_cons]
      omega

theorem addWatches_verifications {startUp : StartUp}
    {watches : List (String × UInt32)} {s next : State}
    (added : addWatches startUp s watches = .ok next) :
    next.verifications = s.verifications := by
  induction watches generalizing s with
  | nil => rw [← Except.ok.inj added]
  | cons watch watches ih =>
      rcases watch with ⟨path, mask⟩
      rcases bind_eq_ok.mp added with ⟨middle, first, rest⟩
      rcases bind_eq_ok.mp first with ⟨fileWatcher, -, same⟩
      rw [ih rest, ← Except.ok.inj same]

/-- One accept is outstanding, and every socket may be verified. -/
theorem construct_work {config : Config} {startUp : StartUp}
    {start : State} (built : construct config startUp = .ok start) :
    start.work ≤ 2 + startUp.files.countP FoundFile.isSocket := by
  have objects : start.objects.work ≤ 0 :=
    work_changes (construct_effect built).1
  rcases bind_eq_ok.mp built with ⟨watching, added, same⟩
  rcases Except.ok.inj same with rfl
  have quiet := (scanFiles_quiet config startUp.files {}).trans
    (addWatches_quiet added)
  have scanned := scanFiles_verifications config startUp.files {}
  rw [← addWatches_verifications added] at scanned
  have server : (UnixServer.startAccepting watching.server).work = 2 := by
    rw [quiet.server]
    rfl
  simp only [State.work, server, quiet.posted, quiet.stops,
    List.length_nil, List.map_nil, List.sum_nil] at objects scanned ⊢
  omega

/--
In every run the handlers that were queued by others are bounded by what came
from outside: two for the first accept, one for each socket found at the start,
one for each completed accept, six for each command and one for each file
event.  When no handler can run, whatever is left waits for the outside.
-/
theorem handlers_run_dry {config : Config} {startUp : StartUp}
    {start s : State} (built : construct config startUp = .ok start)
    {attempts : List (State × Action)}
    (run : Run (step config) start attempts (.ok s)) :
    total handlersRun attempts + s.work ≤
        2 + startUp.files.countP FoundFile.isSocket +
          total broughtIn attempts ∧
      (RunDry config s → WaitsOutside s) := by
  have reached : ∀ {s}, Reachable (step config) start s → Reached config s :=
    fun reachable => ⟨startUp, start, built, reachable⟩
  have balance := run.balance_le State.work broughtIn handlersRun
    fun reachable taken => step_work (reached reachable) taken
  have started := construct_work built
  refine ⟨by omega, fun dry => dry.waitsOutside ?_⟩
  exact (reached ⟨attempts, run⟩).aborted

open Installation

/-- A monitor is added, is found running, and dies: three handlers run. -/
theorem handlers_of_add :
    ∃ s, execute (step config) start
        (request (about .mmAddMonitor "Shoes") ++
          [.timerExpires 0, .runAddWait 0, .childExits 0,
            .runOnExit 0 none]) = some s ∧
      3 + s.work ≤ 2 + 0 + 7 := by
  have setting : (execute (step config) start
      (request (about .mmAddMonitor "Shoes") ++
        [.timerExpires 0, .runAddWait 0, .childExits 0,
          .runOnExit 0 none])).isSome = true := by
    decide +kernel
  rcases Option.isSome_iff_exists.mp setting with ⟨s, executed⟩
  have run := Run.of_execute executed
  have counts : total handlersRun (attemptsOf (step config) start
        (request (about .mmAddMonitor "Shoes") ++
          [.timerExpires 0, .runAddWait 0, .childExits 0,
            .runOnExit 0 none])) = 3 ∧
      total broughtIn (attemptsOf (step config) start
        (request (about .mmAddMonitor "Shoes") ++
          [.timerExpires 0, .runAddWait 0, .childExits 0,
            .runOnExit 0 none])) = 7 := by
    decide +kernel
  have bounded := (handlers_run_dry start_built run).1
  rw [counts.1, counts.2] at bounded
  exact ⟨s, executed, bounded⟩

end Manager

end KekMonitors
