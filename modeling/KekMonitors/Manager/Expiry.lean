import KekMonitors.Manager.AddRequests
import KekMonitors.Manager.Handling
import KekMonitors.Manager.Shutdown

/-!
# Expired add timers

What an expired wait handler finds under its class.  The handler asks whether
the process of the entry is running and takes for granted that there is one,
but an entry with a socket outlives its process, and only the destruction of
the entry cancels its timer.
-/

namespace KekMonitors.Objects

open Timer

/-- The entries that stay have the processes that they had. -/
def KeepsProcesses (o next : Objects) : Prop :=
  ∀ ⦃m className entry⦄, next.find? m className = some entry →
    ∃ stored, o.find? m className = some stored ∧
      entry.process = stored.process

theorem KeepsProcesses.of_find? {o next : Objects}
    (same : ∀ m className, next.find? m className = o.find? m className) :
    KeepsProcesses o next := by
  intro m className entry found
  exact ⟨entry, same m className ▸ found, rfl⟩

theorem KeepsProcesses.trans {o middle next : Objects}
    (first : KeepsProcesses o middle) (second : KeepsProcesses middle next) :
    KeepsProcesses o next := by
  intro m className entry found
  rcases second found with ⟨between, present, same⟩
  rcases first present with ⟨stored, before, kept⟩
  exact ⟨stored, before, same.trans kept⟩

theorem keepsProcesses_put {o : Objects} {m : MonitorOrScraper}
    {className : String} {old stored : StoredObject}
    (found : o.find? m className = some old)
    (same : stored.process = old.process) :
    KeepsProcesses o (o.put m className stored) := by
  intro other name entry present
  rw [find?_put] at present
  split at present
  · rename_i here
    rcases Prod.mk.inj here with ⟨rfl, rfl⟩
    rcases Option.some.inj present with rfl
    exact ⟨old, found, same⟩
  · exact ⟨entry, present, rfl⟩

theorem keepsProcesses_removeStoredSocket (o : Objects)
    (m : MonitorOrScraper) (className : String) :
    KeepsProcesses o (o.removeStoredSocket m className) := by
  intro other name entry present
  rcases found_removeStoredSocket present with
    ⟨stored, found, ⟨-, rfl, -⟩ | ⟨-, rfl⟩⟩
  · exact ⟨stored, found, rfl⟩
  · exact ⟨entry, found, rfl⟩

/-! ## Waits that may still expire -/

/-- A wait of the class has not been cancelled. -/
def Pending (o : Objects) (key : Key) : Prop :=
  ∃ timer wait, o.addWaits.lookup timer = some wait ∧
    wait.status ≠ .cancelled ∧ home wait.request = key

/-- No wait comes back to life. -/
def KeepsWaits (o next : Objects) : Prop :=
  ∀ ⦃timer wait⦄, next.addWaits.lookup timer = some wait →
    ∃ old, o.addWaits.lookup timer = some old ∧
      wait.request = old.request ∧
        (wait.status ≠ .cancelled → old.status ≠ .cancelled)

theorem KeepsWaits.of_same {o next : Objects}
    (same : next.addWaits = o.addWaits) : KeepsWaits o next := by
  intro timer wait found
  exact ⟨wait, same ▸ found, rfl, id⟩

theorem KeepsWaits.trans {o middle next : Objects}
    (first : KeepsWaits o middle) (second : KeepsWaits middle next) :
    KeepsWaits o next := by
  intro timer wait found
  rcases second found with ⟨between, present, request, live⟩
  rcases first present with ⟨old, before, earlier, alive⟩
  exact ⟨old, before, request.trans earlier, alive ∘ live⟩

theorem keepsWaits_settle {o next : Objects} {status : WaitStatus}
    {timer : Nat}
    (settled : next.addWaits = Waits.settle status timer o.addWaits) :
    KeepsWaits o next := by
  intro other wait found
  rw [settled] at found
  rcases Waits.of_lookup_settle found with ⟨old, present, request, cases⟩
  refine ⟨old, present, request, ?_⟩
  rcases cases with ⟨kept, -⟩ | ⟨-, -, waiting⟩
  · exact fun live => kept ▸ live
  · simp [waiting]

theorem keepsWaits_erase (o : Objects) (m : MonitorOrScraper)
    (className : String) : KeepsWaits o (o.erase m className) := by
  have erased := addWaits_erase o m className
  cases held : (o.find? m className).bind StoredObject.onAddTimer with
  | none =>
      rw [held] at erased
      exact .of_same erased
  | some timer =>
      rw [held] at erased
      exact keepsWaits_settle erased

theorem ChangeBy.keepsWaits {may : Deed → Prop} {o next : Objects}
    (change : ChangeBy may o next) :
    KeepsWaits o next := by
  cases change with
  | setEndpoint found path => exact .of_same (addWaits_put ..)
  | setFlags => exact .of_same (addWaits_put ..)
  | removeStoredSocket m className =>
      rw [Objects.removeStoredSocket]
      split
      · exact .of_same rfl
      · dsimp only
        split
        · exact (KeepsWaits.of_same (addWaits_put ..)).trans
            (keepsWaits_erase ..)
        · exact .of_same (addWaits_put ..)
  | removeStoredProcess m className =>
      rw [Objects.removeStoredProcess]
      split
      · exact .of_same rfl
      · rename_i stored found
        have cleared : KeepsWaits o ((o.put m className
            { stored with process := none }).destroyProcess
              stored.process) :=
          .of_same ((addWaits_destroyProcess ..).trans (addWaits_put ..))
        dsimp only
        split
        · exact cleared.trans (keepsWaits_erase ..)
        · exact cleared
  | kill child => exact .of_same rfl
  | deliverExit child => exact .of_same rfl
  | expireTimer timer => exact keepsWaits_settle rfl

theorem ChangesBy.keepsWaits {may : Deed → Prop} {o next : Objects}
    (changes : ChangesBy may o next) :
    KeepsWaits o next := by
  induction changes with
  | refl => exact .of_same rfl
  | tail _ last ih => exact ih.trans last.keepsWaits

theorem keepsWaits_takeWait (o : Objects) (timer : Nat) :
    KeepsWaits o (o.takeWait timer) := by
  intro other wait found
  rw [takeWait, Waits.lookup_erase_eq] at found
  split at found
  · simp at found
  · exact ⟨wait, found, rfl, id⟩

/-- An entry whose timer may still expire has a process. -/
def Attended (o : Objects) : Prop :=
  ∀ ⦃m className stored⦄, o.find? m className = some stored →
    o.Pending (m, className) → stored.process.isSome

theorem Pending.of_keepsWaits {o next : Objects} {key : Key}
    (keeps : KeepsWaits o next) (pending : next.Pending key) :
    o.Pending key := by
  rcases pending with ⟨timer, wait, found, live, here⟩
  rcases keeps found with ⟨old, present, request, alive⟩
  exact ⟨timer, old, present, alive live, request ▸ here⟩

theorem Attended.keep {o next : Objects} (attended : o.Attended)
    (processes : KeepsProcesses o next) (waits : KeepsWaits o next) :
    next.Attended := by
  intro m className entry found pending
  rcases processes found with ⟨stored, present, same⟩
  rw [same]
  exact attended present (pending.of_keepsWaits waits)

theorem Attended.launch {o : Objects} (attended : o.Attended)
    {request : AddRequest}
    (absent : o.find? request.kind request.className = none)
    (commandLine : String) (pid creation : Json.Integer) :
    (o.launch request commandLine pid creation).Attended := by
  intro m className entry found pending
  rw [find?_launch] at found
  split at found
  · rcases Option.some.inj found with rfl
    rfl
  · rename_i elsewhere
    apply attended found
    rcases pending with ⟨timer, wait, present, live, here⟩
    rw [addWaits_launch absent, Waits.lookup_start] at present
    split at present
    · rcases Option.some.inj present with rfl
      exact absurd here.symm elsewhere
    · exact ⟨timer, wait, present, live, here⟩

/-! ## Entries that outlive their processes -/

/-- No entry gets a socket. -/
def KeepsEndpoints (o next : Objects) : Prop :=
  ∀ ⦃m className entry⦄, next.find? m className = some entry →
    ∃ stored, o.find? m className = some stored ∧
      entry.endpoint = stored.endpoint

theorem keepsEndpoints_removeStoredProcess (o : Objects)
    (m : MonitorOrScraper) (className : String) :
    KeepsEndpoints o (o.removeStoredProcess m className) := by
  intro other name entry present
  rcases found_removeStoredProcess present with
    ⟨stored, found, ⟨-, rfl, -⟩ | ⟨-, rfl⟩⟩
  · exact ⟨stored, found, rfl⟩
  · exact ⟨entry, found, rfl⟩

/-- An entry with a socket, and a wait of its class that may still expire. -/
structure Lingers (o : Objects) (key : Key) (timer : Nat) : Prop where
  owned : o.TimersOwned
  reachable : ∃ stored, o.find? key.1 key.2 = some stored ∧
    stored.endpoint.isSome
  waits : ∃ wait, o.addWaits.lookup timer = some wait ∧
    wait.status ≠ .cancelled ∧ home wait.request = key

theorem Lingers.kill {o : Objects} {key : Key} {timer : Nat}
    (lingers : o.Lingers key timer) (child : Nat) :
    (o.kill child).Lingers key timer :=
  ⟨timersOwned_kill lingers.owned child, by
    simpa using lingers.reachable, lingers.waits⟩

/-- A timer that waits for a class with a socket is not destroyed. -/
theorem Lingers.removeStoredProcess {o : Objects} {key : Key} {timer : Nat}
    (lingers : o.Lingers key timer) (m : MonitorOrScraper)
    (className : String) :
    (o.removeStoredProcess m className).Lingers key timer := by
  rcases lingers.reachable with ⟨stored, found, endpoint⟩
  rcases lingers.waits with ⟨wait, waits, live, here⟩
  refine ⟨timersOwned_change lingers.owned (.removeStoredProcess m className),
    ?_, ?_⟩
  · rw [find?_removeStoredProcess]
    split
    · rename_i same
      rcases Prod.mk.inj same with ⟨rfl, rfl⟩
      exact ⟨{ stored with process := none },
        by simp [found, endpoint, Option.filter], endpoint⟩
    · exact ⟨stored, found, endpoint⟩
  · rw [Objects.removeStoredProcess]
    cases other : o.find? m className with
    | none => exact ⟨wait, waits, live, here⟩
    | some gone =>
        have kept : ((o.put m className { gone with process := none
            }).destroyProcess gone.process).addWaits = o.addWaits :=
          (addWaits_destroyProcess ..).trans (addWaits_put ..)
        dsimp only
        split
        · rename_i unreachable
          rw [addWaits_erase, kept]
          simp only [find?_destroyProcess, find?_put, if_true,
            Option.bind_some]
          cases slot : gone.onAddTimer with
          | none => exact ⟨wait, waits, live, here⟩
          | some destroyed =>
              refine ⟨wait, ?_, live, here⟩
              rw [Waits.destroy, Waits.cancel, Waits.lookup_settle]
              split
              · rename_i same
                rw [waits, Option.map_some, Wait.settle]
                split
                · rename_i waiting
                  -- a waiting timer sits in the slot of its own class
                  have own := lingers.owned.waiting waits waiting
                  have others : o.timerSlots (m, className) =
                      some timer := by
                    simp [timerSlots, other, slot, same]
                  have equal := lingers.owned.slot_unique own others
                  rw [here] at equal
                  rcases equal with rfl
                  rcases Option.some.inj (found.symm.trans other) with rfl
                  rw [Option.isNone_iff_eq_none.mp unreachable] at endpoint
                  simp at endpoint
                · rfl
              · exact waits
        · rw [kept]
          exact ⟨wait, waits, live, here⟩

theorem terminateProcess_lingers {o : Objects} {key : Key} {timer : Nat}
    (lingers : o.Lingers key timer) (m : MonitorOrScraper)
    (className : String) (process : Process) :
    (o.terminateProcess m className process).Lingers key timer := by
  rw [terminateProcess]
  split
  · exact (lingers.kill _).removeStoredProcess m className
  · exact lingers.removeStoredProcess m className

theorem terminateFrom_lingers {o : Objects} {key : Key} {timer : Nat}
    (lingers : o.Lingers key timer) (m : MonitorOrScraper)
    (names : List String) :
    (o.terminateFrom m names).Lingers key timer := by
  fun_induction terminateFrom m o names with
  | case1 => exact lingers
  | case2 o className later absent ih => exact ih lingers
  | case3 o className later process found o' kept ih =>
      exact ih (terminateProcess_lingers lingers m className process)
  | case4 o className later process found o' erased ih =>
      exact ih (terminateProcess_lingers lingers m className process)

theorem KeepsEndpoints.trans {o middle next : Objects}
    (first : KeepsEndpoints o middle)
    (second : KeepsEndpoints middle next) : KeepsEndpoints o next := by
  intro m className entry found
  rcases second found with ⟨between, present, same⟩
  rcases first present with ⟨stored, before, kept⟩
  exact ⟨stored, before, same.trans kept⟩

theorem terminateProcess_keepsEndpoints (m : MonitorOrScraper)
    (className : String) (process : Process) (o : Objects) :
    KeepsEndpoints o (o.terminateProcess m className process) := by
  rw [terminateProcess]
  split
  · have killed : KeepsEndpoints o (o.kill process.child) := by
      intro m className entry found
      exact ⟨entry, find?_kill .. ▸ found, rfl⟩
    exact killed.trans (keepsEndpoints_removeStoredProcess ..)
  · exact keepsEndpoints_removeStoredProcess ..

theorem terminateFrom_keepsEndpoints (m : MonitorOrScraper) (o : Objects)
    (names : List String) : KeepsEndpoints o (o.terminateFrom m names) := by
  fun_induction terminateFrom m o names with
  | case1 => exact fun _ _ entry found => ⟨entry, found, rfl⟩
  | case2 o className later absent =>
      rename_i ih
      exact ih
  | case3 o className later process found next kept =>
      rename_i ih
      exact (terminateProcess_keepsEndpoints ..).trans ih
  | case4 o className later process found next erased =>
      rename_i ih
      exact (terminateProcess_keepsEndpoints ..).trans ih

end KekMonitors.Objects

namespace KekMonitors.Manager

open Connection
open Objects
open Timer
open Transition

/-! ## What takes the process of an entry -/

/-- What a step does to the processes of the entries. -/
inductive ProcessEffect (s : State) (action : Action) (next : Objects) :
    Prop where
  | keeps (kept : KeepsProcesses s.objects next)
  | launches (call : AddCall) (className : String) (started : Started)
      (handles : addCall s action = some call)
      (starts : call.Starts s.objects className started)
      (launched : next = call.launch className started s.objects)
  | exits (child : Nat) (c : Child) (isExit : action = .runOnExit child none)
      (found : s.objects.children[child]? = some c)
      (removed : next = (s.objects.deliverExit child).removeStoredProcess
        c.kind c.className)
  | shutsDown (reads : ReadsShutdown action)
      (terminated : next =
        (s.objects.terminateProcesses .monitor).terminateProcesses .scraper)

theorem onStop_keepsProcesses {m : MonitorOrScraper} {cmd : Cmd}
    {env : Environment} {callback : Callback} {o : Objects}
    {outcome : Objects × Except Response StopExchange}
    (ran : onStop m cmd env callback o = .ok outcome) :
    KeepsProcesses o outcome.1 := by
  rcases onStop_cases ran with
    ⟨response, rfl⟩ | ⟨exchange, stored, -, found, rfl⟩
  · exact .of_find? fun _ _ => rfl
  · exact keepsProcesses_put found rfl

theorem onAddTimer_keepsProcesses {request : AddRequest}
    {status : WaitStatus} {o : Objects} {outcome : Objects × Option Response}
    (ran : onAddTimer request status o = .ok outcome) :
    KeepsProcesses o outcome.1 := by
  rcases onAddTimer_cases ran with
    same | ⟨stored, confirmAdded, found, confirmed, cleared⟩
  · exact .of_find? fun _ _ => by rw [same]
  · rw [cleared]
    exact keepsProcesses_put found rfl

theorem stopObjects_keepsProcesses (exchange : StopExchange) (o : Objects) :
    KeepsProcesses o (stopObjects exchange o) := by
  unfold stopObjects
  split
  · exact keepsProcesses_removeStoredSocket ..
  · exact .of_find? fun _ _ => rfl

theorem verifySocketIsCommunicating_objects (m : MonitorOrScraper)
    (socketFullPath className : String) (onSuccess : OnSuccess)
    (peer : Peer) (s : State) :
    (verifySocketIsCommunicating m socketFullPath className onSuccess peer
      s).objects = s.objects := by
  unfold verifySocketIsCommunicating
  split <;> rfl

theorem updateList_keepsProcesses (m : MonitorOrScraper)
    (socketFullPath className : String) (mask : UInt32) (peer : Peer)
    (s : State) :
    KeepsProcesses s.objects
      (updateList m socketFullPath className mask peer s).objects := by
  unfold updateList
  split
  · split
    · rename_i stored found
      dsimp only
      split
      · rw [verifySocketIsCommunicating_objects]
        exact keepsProcesses_put found rfl
      · exact keepsProcesses_put found rfl
    · rw [verifySocketIsCommunicating_objects]
      exact .of_find? fun _ _ => rfl
  · split
    · exact keepsProcesses_removeStoredSocket ..
    · exact .of_find? fun _ _ => rfl

theorem checkSocketAndUpdateList_keepsProcesses
    (socketFullPath socketName : String) (mask : UInt32) (peer : Peer)
    (s : State) :
    KeepsProcesses s.objects
      (checkSocketAndUpdateList socketFullPath socketName mask peer
        s).objects := by
  have same : KeepsProcesses s.objects s.objects := .of_find? fun _ _ => rfl
  unfold checkSocketAndUpdateList
  dsimp only
  split
  · exact same
  · split
    · exact same
    · exact updateList_keepsProcesses ..

/-- Events of config files leave the stored objects alone. -/
theorem onConfigEvent_objects {fullEventPath : String}
    {event : InotifyEvent} {s next : State}
    (ran : onConfigEvent fullEventPath event s = .ok next) :
    next.objects = s.objects := by
  have watching : ∀ {path mask kernel} {s next : State},
      addWatch path mask kernel s = .ok next → next.objects = s.objects := by
    intro path mask kernel s next ran
    rcases bind_eq_ok.mp ran with ⟨fileWatcher, -, same⟩
    rcases Except.ok.inj same with rfl
    rfl
  have reloading : ∀ {path name content} {s next : State},
      reload path name content s = .ok next → next.objects = s.objects := by
    intro path name content s next ran
    rcases bind_eq_ok.mp ran with ⟨sends, -, same⟩
    rcases Except.ok.inj same with rfl
    rfl
  unfold onConfigEvent at ran
  dsimp only at ran
  split at ran
  · split at ran
    · split at ran
      · exact watching ran
      · exact Except.ok.inj ran ▸ rfl
    · split at ran
      · split at ran
        · exact reloading ran
        · rcases bind_eq_ok.mp ran with ⟨middle, added, reloaded⟩
          exact (reloading reloaded).trans (watching added)
      · exact Except.ok.inj ran ▸ rfl
  · split at ran
    · exact reloading ran
    · split at ran
      · split at ran
        · split at ran
          · exact Except.ok.inj ran ▸ rfl
          · rcases bind_eq_ok.mp ran with ⟨fileWatcher, -, same⟩
            rcases Except.ok.inj same with rfl
            rfl
        · exact Except.ok.inj ran ▸ rfl
      · exact Except.ok.inj ran ▸ rfl

theorem onInotifyEvents_keepsProcesses {config : Config}
    {events : List InotifyEvent} {s next : State}
    (ran : onInotifyEvents config s events = .ok next) :
    KeepsProcesses s.objects next.objects := by
  induction events generalizing s with
  | nil => exact Except.ok.inj ran ▸ .of_find? fun _ _ => rfl
  | cons event events ih =>
      rcases bind_eq_ok.mp ran with ⟨middle, handled, rest⟩
      refine KeepsProcesses.trans ?_ (ih rest)
      unfold onInotifyEvent at handled
      split at handled
      · simp at handled
      · dsimp only at handled
        split at handled
        · split at handled
          · exact Except.ok.inj handled ▸
              checkSocketAndUpdateList_keepsProcesses ..
          · exact Except.ok.inj handled ▸ .of_find? fun _ _ => rfl
        · rw [onConfigEvent_objects handled]
          exact .of_find? fun _ _ => rfl

theorem handleStop_keepsProcesses {m : MonitorOrScraper} {cmd : Cmd}
    {env : Environment} {callback : Callback} {s next : State}
    (handled : handleStop m cmd env callback s = .ok next) :
    KeepsProcesses s.objects next.objects := by
  rcases bind_eq_ok.mp handled with ⟨⟨objects, outcome⟩, ran, replied⟩
  have stopped := onStop_keepsProcesses ran
  cases outcome with
  | error response =>
      rw [(invoke_same replied).objects]
      exact stopped
  | ok exchange =>
      rcases Except.ok.inj replied with rfl
      exact stopped

/-- A refused add keeps the entries; any other launches. -/
theorem handleAdd_cases (call : AddCall) {s next : State}
    (handled : handleAdd call.kind call.cmd call.env call.callback s =
      .ok next) :
    next.objects = s.objects ∨
      ∃ className started, call.Starts s.objects className started ∧
        next.objects = call.launch className started s.objects := by
  rcases bind_eq_ok.mp handled with ⟨outcome, ran, replied⟩
  rcases onAdd_cases ran with
    ⟨response, rfl, -⟩ | ⟨className, started, starts, rfl⟩
  · exact Or.inl (invoke_same replied).objects
  · rcases Except.ok.inj replied with rfl
    exact Or.inr ⟨className, started, starts, rfl⟩

theorem commandRead_processes {config : Config} {index : Nat}
    {events : List StreamEvent} {env : Environment} {s next : State}
    (taken : step config s (.commandRead index events env) =
      some (.ok next)) :
    ProcessEffect s (.commandRead index events env) next.objects := by
  rcases Option.bind_eq_some_iff.mp taken with
    ⟨⟨connection, server⟩, accepted, taken⟩
  rcases Option.bind_eq_some_iff.mp taken with ⟨⟨err, cmd⟩, read, taken⟩
  have handled := Option.some.inj taken
  have unchanged : next.objects = s.objects →
      ProcessEffect s (.commandRead index events env) next.objects :=
    fun same => .keeps (same ▸ .of_find? fun _ _ => rfl)
  cases err with
  | some err => exact unchanged (Except.ok.inj handled ▸ rfl)
  | none =>
      have call : addCall s (.commandRead index events env) =
          commandCall none cmd env connection := by
        simp [addCall, accepted, read]
      cases found : callbackMap.lookup cmd.cmd with
      | none =>
          rw [handleCallback_of_missing found] at handled
          exact unchanged (Except.ok.inj handled ▸ rfl)
      | some callback =>
          rw [handleCallback_of_lookup found] at handled
          rcases catchOutOfRange_eq_ok handled with ran | ⟨-, same⟩
          · rcases callbackMap_cases found with
              ⟨m, isAdd, rfl⟩ | ⟨m, isStop, rfl⟩ | ⟨isShutdown, rfl⟩ |
                ⟨answers, -⟩
            · have handles := call.trans (commandCall_add isAdd ..)
              rcases handleAdd_cases
                { kind := m
                  cmd := cmd
                  env := env
                  callback := .client connection } ran with
                  same | ⟨className, started, starts, launched⟩
              · exact unchanged same
              · exact .launches _ className started handles starts launched
            · have kept := handleStop_keepsProcesses ran
              exact .keeps kept
            · rcases Except.ok.inj ran with rfl
              exact .shutsDown ⟨index, events, env, cmd, rfl, read, isShutdown⟩
                rfl
            · rcases answers cmd env connection { s with server := server }
                with ⟨answered, ran', objects, -⟩
              rcases Except.ok.inj (ran'.symm.trans ran) with rfl
              exact unchanged objects
          · exact unchanged (same ▸ rfl)

theorem runPosted_processes {config : Config} {env : Environment}
    {s next : State}
    (taken : step config s (.runPosted env) = some (.ok next)) :
    ProcessEffect s (.runPosted env) next.objects := by
  change runPosted env s = _ at taken
  unfold runPosted at taken
  split at taken
  · simp at taken
  · rename_i half posted queued
    have ran := Option.some.inj taken
    have same : KeepsProcesses s.objects s.objects :=
      .of_find? fun _ _ => rfl
    unfold runHalf at ran
    split at ran
    · rcases Except.ok.inj ran with rfl
      exact .keeps same
    · rename_i c found
      cases handler : c.momanCb with
      | onAdd =>
          rw [handler] at ran
          rcases handleAdd_cases
            { kind := half.kind
              cmd := c.cmd
              env := env
              callback := .half half.completion } ran with
              kept | ⟨className, started, starts, launched⟩
          · exact .keeps (kept ▸ same)
          · refine .launches _ className started ?_ starts launched
            have present : s.completions[half.completion]? = some c := found
            simp [addCall, queued, halfCall, present, handler]
      | onGetStatus =>
          rw [handler] at ran
          exact .keeps ((invoke_same ran).objects ▸ same)
      | onStop =>
          rw [handler] at ran
          have kept := handleStop_keepsProcesses ran
          exact .keeps kept

/-- Only a launch, an exit and the shutdown touch the processes. -/
theorem step_processes {config : Config} {s next : State} {action : Action}
    (aborted : Aborted s)
    (taken : step config s action = some (.ok next)) :
    ProcessEffect s action next.objects := by
  have same : KeepsProcesses s.objects s.objects := .of_find? fun _ _ => rfl
  cases action with
  | acceptCompletes index err =>
      rcases acceptCompletes_takes taken with ⟨server, -, rfl⟩
      exact .keeps same
  | runOnConnect index =>
      rcases runOnConnect_takes taken with ⟨server, -, rfl⟩
      exact .keeps same
  | commandRead index events env => exact commandRead_processes taken
  | runPosted env => exact runPosted_processes taken
  | timerExpires timer =>
      rcases timerExpires_takes taken with ⟨wait, -, -, rfl⟩
      exact .keeps (.of_find? fun _ _ => find?_expireTimer ..)
  | runAddWait timer =>
      rcases runAddWait_takes taken with
        ⟨wait, outcome, -, -, handled, replied⟩
      have took : KeepsProcesses s.objects (s.objects.takeWait timer) :=
        .of_find? fun _ _ => find?_takeWait ..
      rw [(reply_same replied).1]
      exact .keeps (took.trans (onAddTimer_keepsProcesses handled))
  | childExits child =>
      rcases childExits_takes taken with ⟨c, -, -, rfl⟩
      exact .keeps (.of_find? fun _ _ => find?_kill ..)
  | runOnExit child ec =>
      rcases runOnExit_takes taken with ⟨c, found, -, -, rfl⟩
      cases ec with
      | some err =>
          exact .keeps (.of_find? fun _ _ => find?_deliverExit ..)
      | none => exact .exits child c rfl found rfl
  | inotifyRead events =>
      rcases inotifyRead_takes taken with ⟨fileWatcher, -, updated⟩
      have kept := onInotifyEvents_keepsProcesses updated
      exact .keeps kept
  | runVerification index =>
      rcases runVerification_takes aborted taken with rfl
      exact .keeps same
  | runStop index =>
      rcases Option.bind_eq_some_iff.mp taken with ⟨exchange, found, taken⟩
      rcases Option.bind_eq_some_iff.mp taken with ⟨outcome, handled, taken⟩
      have stopped := stopObjects_keepsProcesses exchange s.objects
      cases outcome with
      | ok waiting =>
          rcases Except.ok.inj (Option.some.inj taken) with rfl
          exact .keeps stopped
      | error response =>
          rw [(invoke_same (Option.some.inj taken)).objects]
          exact .keeps stopped

/-! ## Runs -/

/-- An expired wait handler that finds an entry finds a process in it. -/
def FindsProcess (s : State) (action : Action) : Prop :=
  ∀ timer wait stored, action = .runAddWait timer →
    s.objects.addWaits.lookup timer = some wait →
      wait.status = .expired →
        s.objects.find? wait.request.kind wait.request.className =
            some stored →
          stored.process.isSome

/-- A class with a process and a socket, whose add timer may still expire. -/
def Exposed (o : Objects) (key : Key) : Prop :=
  (∃ stored, o.find? key.1 key.2 = some stored ∧ stored.process.isSome ∧
      stored.endpoint.isSome) ∧
    o.Pending key

/--
The step takes the process from such a class: it handles an exit that was
reported without an error, or the command to stop the manager.
-/
inductive Orphans (s : State) : Action → Prop where
  | exit {child : Nat} {c : Child}
      (found : s.objects.children[child]? = some c)
      (exposed : Exposed s.objects (c.kind, c.className)) :
      Orphans s (.runOnExit child none)
  | shutdown {action : Action} {key : Key} (reads : ReadsShutdown action)
      (exposed : Exposed s.objects key) : Orphans s action

section Runs

variable {config : Config} {s next : State} {action : Action}

/-- Waits that may still expire were so before, unless they are launched. -/
theorem leaveQueue_keepsWaits (s : State) (action : Action) :
    KeepsWaits s.objects (leaveQueue s action).objects := by
  cases action with
  | runAddWait timer => exact keepsWaits_takeWait ..
  | _ => exact .of_same rfl

theorem step_attended (reached : Reached config s)
    (attended : s.objects.Attended) (spared : ¬ Orphans s action)
    (taken : step config s action = some (.ok next)) :
    next.objects.Attended := by
  have aborted := reached.aborted
  rcases (step_effect aborted taken).objects with
    ⟨changes, rejected⟩ | ⟨call, className, started, handles, starts, launched⟩
  · have waits := (leaveQueue_keepsWaits s action).trans changes.keepsWaits
    cases step_processes aborted taken with
    | keeps kept => exact attended.keep kept waits
    | launches call className started handles starts launched =>
        have rejects := rejected call handles className started
        rw [leaveQueue_of_addCall handles] at rejects
        exact absurd starts rejects
    | exits child c isExit found removed =>
        subst isExit
        intro m className entry present pending
        have before := pending.of_keepsWaits waits
        rw [removed] at present
        rcases found_removeStoredProcess present with ⟨stored, old, kept⟩
        rw [find?_deliverExit] at old
        rcases kept with ⟨here, rfl, reachable⟩ | ⟨-, rfl⟩
        · rcases Prod.mk.inj here with ⟨rfl, rfl⟩
          exact absurd (.exit found
            ⟨⟨stored, old, attended old before, reachable⟩, before⟩) spared
        · exact attended old before
    | shutsDown reads terminated =>
        intro m className entry present pending
        have before := pending.of_keepsWaits waits
        have none : entry.process = none := by
          have idle := terminated_noProcess s.objects m className
          rw [← terminated, processAt, present] at idle
          exact idle
        have reachable : entry.endpoint.isSome := by
          have kept := (reached.advance taken).sound.wellKept present
          rcases kept.occupied with running | socket
          · simp [none] at running
          · exact socket
        have origin : KeepsEndpoints s.objects next.objects := by
          rw [terminated]
          exact (terminateFrom_keepsEndpoints ..).trans
            (terminateFrom_keepsEndpoints ..)
        rcases origin present with ⟨stored, old, same⟩
        exact absurd (.shutdown reads
          ⟨⟨stored, old, attended old before, same ▸ reachable⟩, before⟩)
            spared
  · rw [leaveQueue_of_addCall handles] at starts launched
    rw [launched]
    exact attended.launch (reached.sound.wellKept.absent starts.admits) ..

/-- Attended entries are what the handlers need. -/
theorem Attended.findsProcess (attended : s.objects.Attended)
    (action : Action) : FindsProcess s action := by
  intro timer wait stored isWait waits expired found
  refine attended found ⟨timer, wait, waits, ?_, rfl⟩
  simp [expired]

/-- An orphaned entry lingers. -/
theorem orphans_lingers (sound : s.objects.Sound) (orphans : Orphans s action)
    (taken : step config s action = some (.ok next)) :
    ∃ key timer, next.objects.Lingers key timer ∧
      next.objects.processAt key.1 key.2 = none := by
  have lingers : ∀ {key}, Exposed s.objects key →
      ∃ timer, s.objects.Lingers key timer := by
    rintro key ⟨⟨stored, found, -, reachable⟩, timer, wait, waits, live,
      here⟩
    exact ⟨timer, sound.timersOwned, ⟨stored, found, reachable⟩,
      wait, waits, live, here⟩
  cases orphans with
  | @exit child c found exposed =>
      rcases lingers exposed with ⟨timer, before⟩
      rcases runOnExit_takes taken with ⟨other, same, -, -, rfl⟩
      rcases Option.some.inj (found.symm.trans same) with rfl
      have delivered : (s.objects.deliverExit child).Lingers
          (c.kind, c.className) timer :=
        ⟨timersOwned_change before.owned (.deliverExit child trivial),
          by simpa using before.reachable, before.waits⟩
      exact ⟨_, timer, delivered.removeStoredProcess ..,
        processAt_removeStoredProcess ..⟩
  | @shutdown _ key reads exposed =>
      rcases lingers exposed with ⟨timer, before⟩
      rcases step_shutdown reads taken with ⟨down, same, terminated⟩
      rcases Except.ok.inj same with rfl
      rw [terminated]
      exact ⟨key, timer,
        terminateFrom_lingers (terminateFrom_lingers before ..) ..,
        terminated_noProcess s.objects key.1 key.2⟩

/-- A lingering entry without a process is found by an expired handler. -/
theorem Lingers.found (config : Config) {key : Key} {timer : Nat}
    (lingers : s.objects.Lingers key timer)
    (orphaned : s.objects.processAt key.1 key.2 = none) :
    ∃ later, Reachable (step config) s later ∧
      ¬ FindsProcess later (.runAddWait timer) := by
  rcases lingers.waits with ⟨⟨request, status⟩, waits, live, rfl⟩
  rcases lingers.reachable with ⟨stored, found, -⟩
  have without : ¬ stored.process.isSome := by
    rw [processAt, found] at orphaned
    simpa using orphaned
  cases status with
  | waiting =>
      have taken : step config s (.timerExpires timer) =
          some (.ok { s with objects := s.objects.expireTimer timer }) := by
        change timerExpires timer s = _
        simp [timerExpires, waits, expireTimer]
      refine ⟨_, Reachable.refl.advance taken, ?_⟩
      intro finds
      refine without (finds timer
        { request := request, status := .expired } stored rfl ?_ rfl ?_)
      · change (s.objects.addWaits.expire timer).lookup timer = _
        rw [Waits.expire, Waits.lookup_settle, if_pos rfl, waits]
        rfl
      · rw [find?_expireTimer]
        exact found
  | expired =>
      refine ⟨s, Reachable.refl, ?_⟩
      intro finds
      exact without (finds timer _ stored rfl waits rfl found)
  | cancelled => simp at live

end Runs

theorem construct_attended {config : Config} {startUp : StartUp}
    {start : State} (built : construct config startUp = .ok start) :
    start.objects.Attended := by
  intro m className stored found
  rw [construct_absent built] at found
  simp at found

/--
As long as no step takes the process from a class that has a socket and whose
add timer may still expire, every expired handler that finds an entry finds a
process in it.  After any step that does so, a handler may find none.
-/
theorem add_waits_find_processes {config : Config} {startUp : StartUp}
    {start : State} (built : construct config startUp = .ok start) :
    (∀ attempts outcome, Run (step config) start attempts outcome →
        Meets (fun s action => ¬ Orphans s action) attempts →
          Meets FindsProcess attempts) ∧
      ∀ s action next, Reachable (step config) start s →
        Orphans s action → step config s action = some (.ok next) →
          ∃ later timer, Reachable (step config) next later ∧
            ¬ FindsProcess later (.runAddWait timer) := by
  constructor
  · rintro attempts outcome run spared ⟨s, action⟩ member
    rcases run.attempt_reached member with ⟨front, back, rfl, reached⟩
    have both := reached.invariant_of_meets
      (fun s action => ¬ Orphans s action)
      (fun s => Reachable (step config) start s ∧ s.objects.Attended)
      ⟨.refl, construct_attended built⟩ ?_ spared.of_append rfl
    · exact Attended.findsProcess both.2 action
    · intro s action next holds free taken
      have here : Reached config s := ⟨startUp, start, built, holds.1⟩
      exact ⟨holds.1.advance taken, step_attended here holds.2 free taken⟩
  · intro s action next reachable orphans taken
    have here : Reached config s := ⟨startUp, start, built, reachable⟩
    rcases orphans_lingers here.sound orphans taken with
      ⟨key, timer, lingers, orphaned⟩
    rcases Lingers.found config lingers orphaned with
      ⟨later, continues, finds⟩
    exact ⟨later, timer, continues, finds⟩

namespace Installation

/-- The timer of an added monitor expires, and its handler runs. -/
def addExpires : List Action :=
  request (about .mmAddMonitor "Shoes") environment ++
    [.timerExpires 0, .runAddWait 0]

/-- The monitor has made its socket and dies before the timer expires. -/
def diesEarly : List Action :=
  request (about .mmAddMonitor "Shoes") environment ++
    [socketCreated, .childExits 0, .runOnExit 0 none, .timerExpires 0]

end Installation

open Installation

/-- A monitor that stays alive is found with its process. -/
theorem add_waits_find_running :
    Meets FindsProcess (attemptsOf (step config) start addExpires) := by
  have succeeds : (execute (step config) start addExpires).isSome = true := by
    decide +kernel
  rcases Option.isSome_iff_exists.mp succeeds with ⟨final, executed⟩
  refine (add_waits_find_processes start_built).1 _ _ (.of_execute executed)
    ?_
  intro attempt member orphans
  have action := mem_attemptsOf member
  have read : asyncReadCmd
      (transmit [(about .mmAddMonitor "Shoes").toString]) =
        some (none, about .mmAddMonitor "Shoes") :=
    read_command (by decide +kernel)
  generalize attempt.2 = taken at action orphans
  simp only [addExpires, request, List.cons_append, List.nil_append,
    List.mem_cons, List.not_mem_nil, or_false] at action
  cases orphans with
  | exit found exposed => simp at action
  | shutdown reads exposed =>
      rcases reads with ⟨index, events, env, cmd, rfl, received, isShutdown⟩
      simp only [reduceCtorEq, Action.commandRead.injEq, false_or, or_false]
        at action
      rcases action with ⟨-, rfl, -⟩
      rw [read] at received
      rcases Prod.mk.inj (Option.some.inj received) with ⟨-, rfl⟩
      exact absurd isShutdown (by decide)

/--
A monitor that has made its socket exits within the two seconds of its add:
its timer is not cancelled, and the handler finds the entry without a process.
-/
theorem exited_monitor_dereferenced :
    ∃ s, Reached config s ∧ ¬ FindsProcess s (.runAddWait 0) ∧
      step config s (.runAddWait 0) = some (.error .undefinedBehaviour) := by
  have setting : (execute (step config) start diesEarly).any (fun s =>
      (s.objects.addWaits.lookup 0).any fun wait =>
        wait.status = .expired ∧
          (s.objects.find? wait.request.kind wait.request.className).any
            fun stored => stored.process.isNone) = true := by
    decide +kernel
  rcases (Option.any_eq_true _ _).mp setting with ⟨s, executed, facts⟩
  rcases (Option.any_eq_true _ _).mp facts with ⟨wait, waits, facts⟩
  rcases of_decide_eq_true facts with ⟨expired, facts⟩
  rcases (Option.any_eq_true _ _).mp facts with ⟨stored, found, gone⟩
  have none := Option.isNone_iff_eq_none.mp gone
  refine ⟨s, reached executed, ?_, ?_⟩
  · intro finds
    have running := finds 0 wait stored rfl waits expired found
    rw [none] at running
    simp at running
  · change runAddWait 0 s = _
    have there : ({ s.objects with
        addWaits := s.objects.addWaits.erase 0 } : Objects).find?
          wait.request.kind wait.request.className = some stored := by
      rw [find?_mk]
      exact found
    simp [runAddWait, waits, expired, onAddTimer, there, none, bind,
      Except.bind]

end KekMonitors.Manager
