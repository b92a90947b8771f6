import KekMonitors.AddTimers
import KekMonitors.Manager.Step

/-!
# What a step does to the stored objects

Every handler changes the stored objects by a sequence of changes, except for
`onAdd`, which may launch a process.  No verification gets past its aborted
retry timer, so its closures never run.
-/

namespace KekMonitors.Manager

open Connection
open Objects
open Timer
open Transition

/-! ## Failing computations -/

theorem bind_eq_ok {α β : Type} {x : Except Fault α}
    {f : α → Except Fault β} {b : β} :
    (x >>= f) = .ok b ↔ ∃ a, x = .ok a ∧ f a = .ok b := by
  cases x with
  | error fault => simp [bind, Except.bind]
  | ok a => simp [bind, Except.bind]

theorem toOption_eq_some {α : Type} {x : Except Fault α} {a : α} :
    x.toOption = some a ↔ x = .ok a := by
  cases x with
  | error fault => simp [Except.toOption]
  | ok b => simp [Except.toOption]

/-! ## Adding -/

/-- An add request as its handler gets it. -/
structure AddCall where
  kind : MonitorOrScraper
  cmd : Cmd
  env : Environment
  callback : Callback

/--
The add passes every check and starts a process for a class: its payload names
the class, the stored objects admit it, and the interpreter, the registry and
the start of the process all succeed.
-/
structure AddCall.Starts (call : AddCall) (o : Objects)
    (className : String) (started : Started) : Prop where
  named : nameArgument call.cmd = .ok (.ok className)
  admitted : (o.find? call.kind className).bind (refuse call.kind) = none
  starts : startProcess call.kind call.env = .ok (.ok started)

def AddCall.request (call : AddCall) (className : String) : AddRequest :=
  { kind := call.kind
    className := className
    callback := call.callback }

/-- The launch that a successful add ends with. -/
def AddCall.launch (call : AddCall) (className : String)
    (started : Started) (o : Objects) : Objects :=
  o.launch (call.request className) started.commandLine started.pid
    started.creation

theorem refuse_eq_none {m : MonitorOrScraper} {stored : StoredObject}
    (passed : refuse m stored = none) :
    stored.isBeingAdded = false ∧ ¬ stored.Occupied := by
  unfold refuse at passed
  split at passed
  · simp at passed
  · rename_i idle
    split at passed
    · simp at passed
    · rename_i noProcess
      split at passed
      · simp at passed
      · rename_i noEndpoint
        refine ⟨by simpa using idle, ?_⟩
        rintro (running | reachable)
        · exact noProcess running
        · exact noEndpoint reachable

/-- The checks of `onAdd` are those that admit a class. -/
theorem AddCall.Starts.admits {call : AddCall} {o : Objects}
    {className : String} {started : Started}
    (starts : call.Starts o className started) :
    o.Admits call.kind className := by
  intro stored found
  have passed := starts.admitted
  rw [found, Option.bind_some] at passed
  exact refuse_eq_none passed

/-- `onAdd` answers at once and changes nothing, or it launches. -/
theorem onAdd_cases {call : AddCall} {o : Objects}
    {outcome : Objects × Option Response}
    (ran : onAdd call.kind call.cmd call.env call.callback o =
      .ok outcome) :
    (∃ response, outcome = (o, some response) ∧
        ∀ className started, ¬ call.Starts o className started) ∨
      ∃ className started, call.Starts o className started ∧
        outcome = (call.launch className started o, none) := by
  rcases bind_eq_ok.mp ran with ⟨argument, named, ran⟩
  cases argument with
  | error response =>
      left
      refine ⟨response, (Except.ok.inj ran).symm, ?_⟩
      intro className started starts
      exact absurd (named.symm.trans starts.named) (by simp)
  | ok className =>
      have onlyName : ∀ other started, call.Starts o other started →
          other = className := by
        intro other started starts
        have same := named.symm.trans starts.named
        simpa using same.symm
      dsimp only at ran
      cases admitted : (o.find? call.kind className).bind
          (refuse call.kind) with
      | some response =>
          rw [admitted] at ran
          left
          refine ⟨response, (Except.ok.inj ran).symm, ?_⟩
          intro other started starts
          rcases onlyName other started starts with rfl
          exact absurd (admitted.symm.trans starts.admitted) (by simp)
      | none =>
          rw [admitted] at ran
          rcases bind_eq_ok.mp ran with ⟨result, starts, ran⟩
          cases result with
          | error response =>
              left
              refine ⟨response, (Except.ok.inj ran).symm, ?_⟩
              intro other started otherStarts
              exact absurd (starts.symm.trans otherStarts.starts) (by simp)
          | ok started =>
              right
              exact ⟨className, started, ⟨named, admitted, starts⟩,
                (Except.ok.inj ran).symm⟩

/-- An add that passes every check launches. -/
theorem onAdd_of_starts {call : AddCall} {o : Objects}
    {className : String} {started : Started}
    (starts : call.Starts o className started) :
    onAdd call.kind call.cmd call.env call.callback o =
      .ok (call.launch className started o, none) := by
  simp only [onAdd, starts.named, starts.admitted, starts.starts, bind,
    Except.bind]
  rfl

/--
The wait handler leaves the entries as they are, or it takes the mark off the
entry it finds.
-/
theorem onAddTimer_cases {request : AddRequest} {status : WaitStatus}
    {o : Objects} {outcome : Objects × Option Response}
    (ran : onAddTimer request status o = .ok outcome) :
    outcome.1 = o ∨
      ∃ stored confirmAdded,
        o.find? request.kind request.className = some stored ∧
          (confirmAdded = true → stored.confirmAdded = true) ∧
            outcome.1 = o.put request.kind request.className
              { stored with
                isBeingAdded := false
                confirmAdded := confirmAdded } := by
  unfold onAddTimer at ran
  cases status with
  | waiting => exact Or.inl (congrArg Prod.fst (Except.ok.inj ran)).symm
  | cancelled =>
      dsimp only at ran
      split at ran
      · exact Or.inl (congrArg Prod.fst (Except.ok.inj ran)).symm
      · rename_i stored found
        split at ran
        · exact Or.inr ⟨stored, false, found, by simp,
            (congrArg Prod.fst (Except.ok.inj ran)).symm⟩
        · exact Or.inr ⟨stored, stored.confirmAdded, found, id,
            (congrArg Prod.fst (Except.ok.inj ran)).symm⟩
  | expired =>
      dsimp only at ran
      split at ran
      · exact Or.inl (congrArg Prod.fst (Except.ok.inj ran)).symm
      · rename_i stored found
        split at ran
        · simp at ran
        · split at ran
          · exact Or.inr ⟨stored, stored.confirmAdded, found, id,
              (congrArg Prod.fst (Except.ok.inj ran)).symm⟩
          · exact Or.inl (congrArg Prod.fst (Except.ok.inj ran)).symm

theorem onAddTimer_changes {may : Deed → Prop} {request : AddRequest}
    {status : WaitStatus} {o : Objects} {outcome : Objects × Option Response}
    (ran : onAddTimer request status o = .ok outcome) :
    ChangesBy may o outcome.1 := by
  rcases onAddTimer_cases ran with
    same | ⟨stored, confirmAdded, found, confirmed, cleared⟩
  · exact same ▸ .refl
  · rw [cleared]
    exact .single (.setFlags found false stored.isBeingStopped
      confirmAdded confirmed (by simp) Or.inl)

/-! ## Stopping -/

/-- `onStop` answers at once and changes nothing, or it marks the entry. -/
theorem onStop_cases {m : MonitorOrScraper} {cmd : Cmd} {env : Environment}
    {callback : Callback} {o : Objects}
    {outcome : Objects × Except Response StopExchange}
    (ran : onStop m cmd env callback o = .ok outcome) :
    (∃ response, outcome = (o, .error response)) ∨
      ∃ exchange stored,
        exchange.callback = callback ∧
          o.find? exchange.kind exchange.className = some stored ∧
            outcome =
              (o.put exchange.kind exchange.className
                { stored with isBeingStopped := true }, .ok exchange) := by
  rcases bind_eq_ok.mp ran with ⟨argument, -, ran⟩
  cases argument with
  | error response => exact Or.inl ⟨response, (Except.ok.inj ran).symm⟩
  | ok className =>
      dsimp only at ran
      split at ran
      · exact Or.inl ⟨_, (Except.ok.inj ran).symm⟩
      · rename_i stored found
        split at ran
        · exact Or.inl ⟨_, (Except.ok.inj ran).symm⟩
        · split at ran
          · exact Or.inl ⟨_, (Except.ok.inj ran).symm⟩
          · split at ran
            · simp at ran
            · exact Or.inr
                ⟨{ kind := m
                   className := className
                   callback := callback
                   peer := env.peer }, stored, rfl, found,
                  (Except.ok.inj ran).symm⟩

/-- The mark of a stop is the deed `marksStop`. -/
theorem put_marked_changes {may : Deed → Prop} {o : Objects}
    {m : MonitorOrScraper} {className : String} {stored : StoredObject}
    (found : o.find? m className = some stored)
    (allowed : may .marksStop) :
    ChangesBy may o
      (o.put m className { stored with isBeingStopped := true }) :=
  .single (.setFlags found stored.isBeingAdded true stored.confirmAdded id id
    fun _ => Or.inr allowed)

theorem onStop_changes {m : MonitorOrScraper} {cmd : Cmd}
    {env : Environment} {callback : Callback} {o : Objects}
    {outcome : Objects × Except Response StopExchange}
    (ran : onStop m cmd env callback o = .ok outcome) :
    Changes o outcome.1 := by
  rcases onStop_cases ran with
    ⟨response, rfl⟩ | ⟨exchange, stored, -, found, rfl⟩
  · exact .refl
  · exact put_marked_changes found trivial

theorem stopObjects_changes {may : Deed → Prop} (exchange : StopExchange)
    (o : Objects) :
    ChangesBy may o (stopObjects exchange o) := by
  unfold stopObjects
  split
  · exact .single (.removeStoredSocket _ _)
  · exact .refl

/-! ## Processes and sockets -/

theorem onProcessExit_changes {may : Deed → Prop} (ec : Option ErrorCode)
    (m : MonitorOrScraper) (className : String) (o : Objects) :
    ChangesBy may o (onProcessExit ec m className o) := by
  unfold onProcessExit
  split
  · exact .refl
  · exact .single (.removeStoredProcess m className)

/-- Every verification is waiting for the handler of its aborted timer. -/
def Aborted (s : State) : Prop :=
  ∀ v ∈ s.verifications, ∃ errc, v.stage = .retry (some errc)

/-- What a handler of file events leaves as it is. -/
structure Quiet (s next : State) : Prop where
  objects : ChangesBy (· = .storesSocket) s.objects next.objects
  aborted : Aborted s → Aborted next
  server : next.server = s.server
  posted : next.posted = s.posted
  completions : next.completions = s.completions
  stops : next.stops = s.stops
  written : next.written = s.written
  sent : s.sent <+: next.sent

theorem Quiet.refl (s : State) : Quiet s s :=
  ⟨.refl, id, rfl, rfl, rfl, rfl, rfl, List.prefix_rfl⟩

theorem Quiet.trans {s middle next : State} (first : Quiet s middle)
    (second : Quiet middle next) : Quiet s next where
  objects := first.objects.trans second.objects
  aborted := second.aborted ∘ first.aborted
  server := second.server.trans first.server
  posted := second.posted.trans first.posted
  completions := second.completions.trans first.completions
  stops := second.stops.trans first.stops
  written := second.written.trans first.written
  sent := first.sent.trans second.sent

theorem verifySocketIsCommunicating_quiet (m : MonitorOrScraper)
    (socketFullPath className : String) (onSuccess : OnSuccess)
    (peer : Peer) (s : State) :
    Quiet s (verifySocketIsCommunicating m socketFullPath className
      onSuccess peer s) := by
  unfold verifySocketIsCommunicating
  split
  · exact .refl s
  · refine ⟨.refl, ?_, rfl, rfl, rfl, rfl, rfl, List.prefix_rfl⟩
    intro aborted v member
    rcases List.mem_append.mp member with old | new
    · exact aborted v old
    · rw [List.mem_singleton.mp new]
      exact ⟨_, rfl⟩

theorem updateList_quiet (m : MonitorOrScraper)
    (socketFullPath className : String) (mask : UInt32) (peer : Peer)
    (s : State) :
    Quiet s (updateList m socketFullPath className mask peer s) := by
  unfold updateList
  split
  · split
    · rename_i stored found
      have updated : Quiet s
          { s with
            objects := s.objects.put m className
              { stored with endpoint := some socketFullPath } } :=
        ⟨.single (.setEndpoint found socketFullPath rfl), id, rfl, rfl, rfl,
          rfl, rfl, List.prefix_rfl⟩
      dsimp only
      split
      · exact updated.trans (verifySocketIsCommunicating_quiet ..)
      · exact updated
    · exact verifySocketIsCommunicating_quiet ..
  · split
    · exact ⟨.single (.removeStoredSocket m className), id, rfl, rfl, rfl,
        rfl, rfl, List.prefix_rfl⟩
    · exact .refl s

theorem checkSocketAndUpdateList_quiet (socketFullPath socketName : String)
    (mask : UInt32) (peer : Peer) (s : State) :
    Quiet s
      (checkSocketAndUpdateList socketFullPath socketName mask peer s) := by
  unfold checkSocketAndUpdateList
  dsimp only
  split
  · exact .refl s
  · split
    · exact .refl s
    · exact updateList_quiet ..

/-! ## File events -/

theorem addWatch_quiet {path : String} {mask : UInt32}
    {kernel : Option Nat} {s next : State}
    (ran : addWatch path mask kernel s = .ok next) : Quiet s next := by
  rcases bind_eq_ok.mp ran with ⟨fileWatcher, -, same⟩
  exact Except.ok.inj same ▸
    ⟨.refl, id, rfl, rfl, rfl, rfl, rfl, List.prefix_rfl⟩

theorem reload_quiet {fullPath filename : String}
    {content : List Json.Byte} {s next : State}
    (ran : reload fullPath filename content s = .ok next) :
    Quiet s next := by
  rcases bind_eq_ok.mp ran with ⟨sends, -, same⟩
  exact Except.ok.inj same ▸
    ⟨.refl, id, rfl, rfl, rfl, rfl, rfl, List.prefix_append ..⟩

theorem onConfigEvent_quiet {fullEventPath : String}
    {event : InotifyEvent} {s next : State}
    (ran : onConfigEvent fullEventPath event s = .ok next) :
    Quiet s next := by
  unfold onConfigEvent at ran
  dsimp only at ran
  split at ran
  · split at ran
    · split at ran
      · exact addWatch_quiet ran
      · exact Except.ok.inj ran ▸ .refl s
    · split at ran
      · split at ran
        · exact reload_quiet ran
        · rcases bind_eq_ok.mp ran with ⟨middle, added, reloaded⟩
          exact (addWatch_quiet added).trans (reload_quiet reloaded)
      · exact Except.ok.inj ran ▸ .refl s
  · split at ran
    · exact reload_quiet ran
    · split at ran
      · split at ran
        · split at ran
          · exact Except.ok.inj ran ▸ .refl s
          · rcases bind_eq_ok.mp ran with ⟨fileWatcher, -, same⟩
            exact Except.ok.inj same ▸
              ⟨.refl, id, rfl, rfl, rfl, rfl, rfl, List.prefix_rfl⟩
        · exact Except.ok.inj ran ▸ .refl s
      · exact Except.ok.inj ran ▸ .refl s

theorem onInotifyEvent_quiet {config : Config} {event : InotifyEvent}
    {s next : State}
    (ran : onInotifyEvent config event s = .ok next) : Quiet s next := by
  unfold onInotifyEvent at ran
  split at ran
  · simp at ran
  · dsimp only at ran
    split at ran
    · split at ran
      · exact Except.ok.inj ran ▸ checkSocketAndUpdateList_quiet ..
      · exact Except.ok.inj ran ▸ .refl s
    · exact onConfigEvent_quiet ran

theorem onInotifyEvents_quiet {config : Config}
    {events : List InotifyEvent} {s next : State}
    (ran : onInotifyEvents config s events = .ok next) : Quiet s next := by
  induction events generalizing s with
  | nil => exact Except.ok.inj ran ▸ .refl s
  | cons event events ih =>
      rcases bind_eq_ok.mp ran with ⟨middle, handled, rest⟩
      exact (onInotifyEvent_quiet handled).trans (ih rest)

theorem onInotifyUpdate_quiet {config : Config} {s next : State}
    (ran : onInotifyUpdate config s = .ok next) : Quiet s next := by
  have drained : Quiet s
      { s with
        fileWatcher :=
          { s.fileWatcher with
            inotify := { s.fileWatcher.inotify with events := [] } } } :=
    ⟨.refl, id, rfl, rfl, rfl, rfl, rfl, List.prefix_rfl⟩
  exact drained.trans (onInotifyEvents_quiet ran)

/-! ## Dispatch -/

def addCommand : MonitorOrScraper → Command
  | .monitor => .mmAddMonitor
  | .scraper => .mmAddScraper

def stopCommand : MonitorOrScraper → Command
  | .monitor => .mmStopMonitor
  | .scraper => .mmStopScraper

/-- The callbacks that neither fail nor touch the stored objects. -/
def Answers (callback : UserCmdCallback) : Prop :=
  ∀ cmd env connection s, ∃ next,
    callback cmd env connection s = .ok next ∧
      next.objects = s.objects ∧ next.verifications = s.verifications

/-- The four kinds of callbacks that a command can reach. -/
theorem callbackMap_cases {code : CommandType}
    {callback : UserCmdCallback}
    (found : callbackMap.lookup code = some callback) :
    (∃ m, code = (addCommand m).code ∧
        callback = fun cmd env connection s =>
          handleAdd m cmd env (.client connection) s) ∨
      (∃ m, code = (stopCommand m).code ∧
        callback = fun cmd env connection s =>
          handleStop m cmd env (.client connection) s) ∨
      (code = Command.mmStopMonitorManager.code ∧
        callback = fun _ _ connection s => shutdown connection s) ∨
      (Answers callback ∧ (∀ m, code ≠ (addCommand m).code) ∧
        (∀ m, code ≠ (stopCommand m).code) ∧
          code ≠ Command.mmStopMonitorManager.code) := by
  rcases List.lookup_eq_some_iff.mp found with ⟨front, back, split, -⟩
  have member : (code, callback) ∈ callbackMap := by
    rw [split]
    simp
  have apart : ∀ command ∈ [Command.ping, .mmAddMonitorScraper,
      .mmGetMonitorStatus, .mmGetScraperStatus, .mmGetMonitorScraperStatus,
      .mmStopMonitorScraper],
      (∀ m, command.code ≠ (addCommand m).code) ∧
        (∀ m, command.code ≠ (stopCommand m).code) ∧
          command.code ≠ Command.mmStopMonitorManager.code := by
    intro command member
    simp only [List.mem_cons, List.not_mem_nil, or_false] at member
    rcases member with rfl | rfl | rfl | rfl | rfl | rfl <;>
      exact ⟨by rintro (_ | _) <;> decide, by rintro (_ | _) <;> decide,
        by decide⟩
  simp only [callbackMap, List.mem_cons, List.not_mem_nil, or_false,
    Prod.mk.injEq] at member
  rcases member with ⟨rfl, rfl⟩ | ⟨rfl, rfl⟩ | ⟨rfl, rfl⟩ | ⟨rfl, rfl⟩ |
    ⟨rfl, rfl⟩ | ⟨rfl, rfl⟩ | ⟨rfl, rfl⟩ | ⟨rfl, rfl⟩ | ⟨rfl, rfl⟩ |
    ⟨rfl, rfl⟩ | ⟨rfl, rfl⟩
  · refine Or.inr (Or.inr (Or.inr ⟨?_, apart .ping (by simp)⟩))
    exact fun _ _ _ s => ⟨_, rfl, rfl, rfl⟩
  · exact Or.inr (Or.inr (Or.inl ⟨rfl, rfl⟩))
  · exact Or.inl ⟨.monitor, rfl, rfl⟩
  · exact Or.inl ⟨.scraper, rfl, rfl⟩
  · refine Or.inr (Or.inr (Or.inr
      ⟨?_, apart .mmAddMonitorScraper (by simp)⟩))
    exact fun _ _ _ s => ⟨_, rfl, rfl, rfl⟩
  · refine Or.inr (Or.inr (Or.inr
      ⟨?_, apart .mmGetMonitorStatus (by simp)⟩))
    exact fun _ _ _ s => ⟨_, rfl, rfl, rfl⟩
  · refine Or.inr (Or.inr (Or.inr
      ⟨?_, apart .mmGetScraperStatus (by simp)⟩))
    exact fun _ _ _ s => ⟨_, rfl, rfl, rfl⟩
  · refine Or.inr (Or.inr (Or.inr
      ⟨?_, apart .mmGetMonitorScraperStatus (by simp)⟩))
    exact fun _ _ _ s => ⟨_, rfl, rfl, rfl⟩
  · exact Or.inr (Or.inl ⟨.monitor, rfl, rfl⟩)
  · exact Or.inr (Or.inl ⟨.scraper, rfl, rfl⟩)
  · refine Or.inr (Or.inr (Or.inr
      ⟨?_, apart .mmStopMonitorScraper (by simp)⟩))
    exact fun _ _ _ s => ⟨_, rfl, rfl, rfl⟩

/-! ## Handlers -/

/--
What a handler does, given the add request it handles, if any: it launches
exactly when that request starts a process, and changes the objects otherwise.
-/
structure Effect (call : Option AddCall) (s next : State) : Prop where
  aborted : Aborted s → Aborted next
  objects :
    (Changes s.objects next.objects ∧
        ∀ c, call = some c →
          ∀ className started, ¬ c.Starts s.objects className started) ∨
      ∃ c className started, call = some c ∧
        c.Starts s.objects className started ∧
          next.objects = c.launch className started s.objects

theorem Effect.of_changes {s next : State}
    (aborted : Aborted s → Aborted next)
    (changes : Changes s.objects next.objects) : Effect none s next :=
  ⟨aborted, Or.inl ⟨changes, fun _ same => by simp at same⟩⟩

/-- A handler that leaves objects and verifications alone has no effect. -/
theorem Effect.of_same {s next : State}
    (objects : next.objects = s.objects)
    (verifications : next.verifications = s.verifications) :
    Effect none s next := by
  apply Effect.of_changes
  · intro aborted
    rw [Aborted, verifications]
    exact aborted
  · rw [objects]

/-- Calling back keeps the entries that are passed with the response. -/
theorem reply_same {callback : Callback} {s next : State}
    {outcome : Objects × Option Response}
    (replied : reply callback outcome s = .ok next) :
    next.objects = outcome.1 ∧ next.verifications = s.verifications := by
  unfold reply at replied
  dsimp only at replied
  split at replied
  · rcases Except.ok.inj replied with rfl
    exact ⟨rfl, rfl⟩
  · have same := invoke_same replied
    exact ⟨same.objects, same.verifications⟩

/-- Calling back does not add to an effect. -/
theorem Effect.invoke {call : Option AddCall} {s middle next : State}
    {callback : Callback} {response : Response}
    (effect : Effect call s middle)
    (called : invoke callback response middle = .ok next) :
    Effect call s next := by
  have same := invoke_same called
  constructor
  · intro aborted
    rw [Aborted, same.verifications]
    exact effect.aborted aborted
  · rw [same.objects]
    exact effect.objects

theorem handleAdd_effect {call : AddCall} {s next : State}
    (handled : handleAdd call.kind call.cmd call.env call.callback s =
      .ok next) : Effect (some call) s next := by
  rcases bind_eq_ok.mp handled with ⟨outcome, ran, replied⟩
  rcases onAdd_cases ran with
    ⟨response, rfl, rejected⟩ | ⟨className, started, starts, rfl⟩
  · have unchanged : Effect (some call) s s := by
      refine ⟨id, Or.inl ⟨.refl, ?_⟩⟩
      intro c same
      rcases Option.some.inj same with rfl
      exact rejected
    exact unchanged.invoke replied
  · rcases Except.ok.inj replied with rfl
    exact ⟨id, Or.inr ⟨call, className, started, rfl, starts, rfl⟩⟩

theorem handleStop_effect {m : MonitorOrScraper} {cmd : Cmd}
    {env : Environment} {callback : Callback} {s next : State}
    (handled : handleStop m cmd env callback s = .ok next) :
    Effect none s next := by
  rcases bind_eq_ok.mp handled with ⟨⟨objects, outcome⟩, ran, replied⟩
  have stopped : Effect none s { s with objects := objects } :=
    Effect.of_changes id (onStop_changes ran)
  cases outcome with
  | error response => exact stopped.invoke replied
  | ok exchange =>
      rcases Except.ok.inj replied with rfl
      exact ⟨stopped.aborted, stopped.objects⟩

theorem shutdown_effect {connection : Nat} {s next : State}
    (handled : shutdown connection s = .ok next) : Effect none s next := by
  rcases Except.ok.inj handled with rfl
  exact Effect.of_changes id
    ((terminateProcesses_changes .monitor s.objects).trans
      (terminateProcesses_changes .scraper _))

/-- The add request in a command that was read. -/
def commandCall (err : Option ErrorCode) (cmd : Cmd) (env : Environment)
    (connection : Nat) : Option AddCall :=
  if err.isSome then none
  else if cmd.cmd = (addCommand .monitor).code then
    some
      { kind := .monitor
        cmd := cmd
        env := env
        callback := .client connection }
  else if cmd.cmd = (addCommand .scraper).code then
    some
      { kind := .scraper
        cmd := cmd
        env := env
        callback := .client connection }
  else none

theorem commandCall_add {cmd : Cmd} {m : MonitorOrScraper}
    (isAdd : cmd.cmd = (addCommand m).code) (env : Environment)
    (connection : Nat) :
    commandCall none cmd env connection =
      some
        { kind := m
          cmd := cmd
          env := env
          callback := .client connection } := by
  have different : (addCommand .scraper).code ≠
      (addCommand .monitor).code := by decide
  cases m <;> simp [commandCall, isAdd, different]

theorem commandCall_other {cmd : Cmd}
    (other : ∀ m, cmd.cmd ≠ (addCommand m).code) (err : Option ErrorCode)
    (env : Environment) (connection : Nat) :
    commandCall err cmd env connection = none := by
  simp [commandCall, other]

theorem stopCommand_not_add {code : CommandType} {m : MonitorOrScraper}
    (isStop : code = (stopCommand m).code) (other : MonitorOrScraper) :
    code ≠ (addCommand other).code := by
  rw [isStop]
  cases m <;> cases other <;> decide

theorem commandCall_eq_some {err : Option ErrorCode} {cmd : Cmd}
    {env : Environment} {connection : Nat} {call : AddCall}
    (isCall : commandCall err cmd env connection = some call) :
    err = none ∧ cmd.cmd = (addCommand call.kind).code ∧
      call.cmd = cmd ∧ call.env = env ∧
        call.callback = .client connection := by
  unfold commandCall at isCall
  split at isCall
  · simp at isCall
  · rename_i read
    refine ⟨by simpa using read, ?_⟩
    split at isCall
    · rename_i isAdd
      rcases Option.some.inj isCall with rfl
      exact ⟨isAdd, rfl, rfl, rfl⟩
    · split at isCall
      · rename_i isAdd
        rcases Option.some.inj isCall with rfl
        exact ⟨isAdd, rfl, rfl, rfl⟩
      · simp at isCall

theorem lookup_addCommand {cmd : Cmd} {m : MonitorOrScraper}
    (isAdd : cmd.cmd = (addCommand m).code) :
    callbackMap.lookup cmd.cmd =
      some fun cmd env connection s =>
        handleAdd m cmd env (.client connection) s := by
  rw [isAdd]
  cases m <;> rfl

/-- A dispatched command has the effect of the handler it reaches. -/
theorem handleCallback_effect {err : Option ErrorCode} {cmd : Cmd}
    {env : Environment} {connection : Nat} {s next : State}
    (handled : handleCallback err cmd env connection s = .ok next) :
    Effect (commandCall err cmd env connection) s next := by
  cases err with
  | some err =>
      rcases Except.ok.inj handled with rfl
      exact Effect.of_same rfl rfl
  | none =>
      cases found : callbackMap.lookup cmd.cmd with
      | none =>
          have other : ∀ m, cmd.cmd ≠ (addCommand m).code := by
            intro m same
            rw [same] at found
            cases m <;> simp [callbackMap, addCommand] at found
          rw [handleCallback_of_missing found] at handled
          rw [commandCall_other other]
          rcases Except.ok.inj handled with rfl
          exact Effect.of_same rfl rfl
      | some callback =>
          rw [handleCallback_of_lookup found] at handled
          rcases callbackMap_cases found with
            ⟨m, isAdd, rfl⟩ | ⟨m, isStop, rfl⟩ | ⟨isShutdown, rfl⟩ |
              ⟨answers, notAdd, -⟩
          · rw [commandCall_add isAdd]
            rcases catchOutOfRange_eq_ok handled with
              succeeded | ⟨failed, rfl⟩
            · exact handleAdd_effect succeeded
            · refine ⟨id, Or.inl ⟨.refl, ?_⟩⟩
              intro call same className started starts
              rcases Option.some.inj same with rfl
              have launched := onAdd_of_starts starts
              simp [handleAdd, launched, bind, Except.bind, reply] at failed
          · rw [commandCall_other (stopCommand_not_add isStop)]
            rcases catchOutOfRange_eq_ok handled with
              succeeded | ⟨-, rfl⟩
            · exact handleStop_effect succeeded
            · exact Effect.of_same rfl rfl
          · have notAdd : ∀ m, cmd.cmd ≠ (addCommand m).code := by
              rw [isShutdown]
              rintro (_ | _) <;> decide
            rw [commandCall_other notAdd]
            rcases catchOutOfRange_eq_ok handled with
              succeeded | ⟨-, rfl⟩
            · exact shutdown_effect succeeded
            · exact Effect.of_same rfl rfl
          · rw [commandCall_other notAdd]
            rcases answers cmd env connection s with
              ⟨answered, ran, objects, verifications⟩
            rw [ran] at handled
            rcases Except.ok.inj handled with rfl
            exact Effect.of_same objects verifications

/-! ## Steps -/

/-- The add request in a posted half. -/
def halfCall (half : PostedHalf) (env : Environment) (s : State) :
    Option AddCall := do
  let c ← s.completions[half.completion]?
  if c.momanCb = .onAdd then
    some
      { kind := half.kind
        cmd := c.cmd
        env := env
        callback := .half half.completion }
  else none

/-- The add request that a step handles, if it handles one. -/
def addCall (s : State) : Action → Option AddCall
  | .commandRead index events env => do
      let (connection, _) ← UnixServer.commandRead index s.server
      let (err, cmd) ← asyncReadCmd events
      commandCall err cmd env connection
  | .runPosted env => do
      let half ← s.posted.head?
      halfCall half env s
  | _ => none

/-- The state once the wait whose handler runs has left its queue. -/
def leaveQueue (s : State) : Action → State
  | .runAddWait timer => { s with objects := s.objects.takeWait timer }
  | _ => s

theorem leaveQueue_find? (s : State) (action : Action)
    (m : MonitorOrScraper) (className : String) :
    (leaveQueue s action).objects.find? m className =
      s.objects.find? m className := by
  cases action with
  | runAddWait timer => exact find?_takeWait timer s.objects m className
  | _ => rfl

theorem leaveQueue_children (s : State) (action : Action) :
    (leaveQueue s action).objects.children = s.objects.children := by
  cases action <;> rfl

/-- A step that handles an add request runs no wait handler. -/
theorem leaveQueue_of_addCall {s : State} {action : Action} {call : AddCall}
    (handles : addCall s action = some call) :
    leaveQueue s action = s := by
  cases action with
  | runAddWait timer => simp [addCall] at handles
  | _ => rfl

theorem runHalf_effect {half : PostedHalf} {env : Environment}
    {s next : State} (ran : runHalf half env s = .ok next) :
    Effect (halfCall half env s) s next := by
  unfold runHalf at ran
  unfold halfCall
  cases found : s.completions[half.completion]? with
  | none =>
      rw [found] at ran
      rcases Except.ok.inj ran with rfl
      exact Effect.of_same rfl rfl
  | some c =>
      rw [found] at ran
      dsimp only [Option.bind_eq_bind, Option.bind_some] at ran ⊢
      cases handler : c.momanCb with
      | onAdd =>
          rw [handler] at ran
          exact handleAdd_effect ran
      | onGetStatus =>
          rw [handler] at ran
          exact (Effect.of_same rfl rfl).invoke ran
      | onStop =>
          rw [handler] at ran
          exact handleStop_effect ran

/-! ## What a taken step has done -/

section Taken

variable {config : Config} {s next : State}

theorem acceptCompletes_takes {index : Nat} {err : Option ErrorCode}
    (taken : step config s (.acceptCompletes index err) =
      some (.ok next)) :
    ∃ server, UnixServer.acceptCompletes index err s.server = some server ∧
      next = { s with server := server } := by
  rcases Option.map_eq_some_iff.mp taken with ⟨server, completed, same⟩
  exact ⟨server, completed, (Except.ok.inj same).symm⟩

theorem runOnConnect_takes {index : Nat}
    (taken : step config s (.runOnConnect index) = some (.ok next)) :
    ∃ server, UnixServer.runOnConnect index s.server = some server ∧
      next = { s with server := server } := by
  rcases Option.map_eq_some_iff.mp taken with ⟨server, ran, same⟩
  exact ⟨server, ran, (Except.ok.inj same).symm⟩

theorem timerExpires_takes {timer : Nat}
    (taken : step config s (.timerExpires timer) = some (.ok next)) :
    ∃ wait, s.objects.addWaits.lookup timer = some wait ∧
      wait.status = .waiting ∧
        next = { s with objects := s.objects.expireTimer timer } := by
  simp only [step, timerExpires] at taken
  split at taken
  · simp at taken
  · rename_i wait found
    split at taken
    · rename_i waits
      exact ⟨wait, found, waits,
        (Except.ok.inj (Option.some.inj taken)).symm⟩
    · simp at taken

/-- A wait handler takes its wait out and passes on what it answers. -/
theorem runAddWait_takes {timer : Nat}
    (taken : step config s (.runAddWait timer) = some (.ok next)) :
    ∃ wait outcome, s.objects.addWaits.lookup timer = some wait ∧
      wait.status ≠ .waiting ∧
        onAddTimer wait.request wait.status (s.objects.takeWait timer) =
          .ok outcome ∧
          reply wait.request.callback outcome s = .ok next := by
  simp only [step, runAddWait] at taken
  split at taken
  · simp at taken
  · rename_i wait waits
    split at taken
    · simp at taken
    · rename_i settled
      rcases bind_eq_ok.mp (Option.some.inj taken) with
        ⟨outcome, handled, replied⟩
      exact ⟨wait, outcome, waits, settled, handled, replied⟩

theorem childExits_takes {child : Nat}
    (taken : step config s (.childExits child) = some (.ok next)) :
    ∃ c, s.objects.children[child]? = some c ∧ c.alive = true ∧
      next = { s with objects := s.objects.kill child } := by
  simp only [step, childExits] at taken
  split at taken
  · simp at taken
  · rename_i c found
    split at taken
    · rename_i alive
      exact ⟨c, found, alive,
        (Except.ok.inj (Option.some.inj taken)).symm⟩
    · simp at taken

/-- An exit handler takes its child out, and what it removes with it. -/
theorem runOnExit_takes {child : Nat} {ec : Option ErrorCode}
    (taken : step config s (.runOnExit child ec) = some (.ok next)) :
    ∃ c, s.objects.children[child]? = some c ∧ c.exitPending = true ∧
      c.alive = false ∧
        next =
          { s with
            objects := onProcessExit ec c.kind c.className
              (s.objects.deliverExit child) } := by
  simp only [step, runOnExit] at taken
  split at taken
  · simp at taken
  · rename_i c found
    split at taken
    · rename_i pending
      exact ⟨c, found, pending.1, by simpa using pending.2,
        (Except.ok.inj (Option.some.inj taken)).symm⟩
    · simp at taken

theorem inotifyRead_takes {events : List KernelEvent}
    (taken : step config s (.inotifyRead events) = some (.ok next)) :
    ∃ fileWatcher, s.fileWatcher.queueEvents events = .ok fileWatcher ∧
      onInotifyUpdate config { s with fileWatcher := fileWatcher } =
        .ok next := by
  simp only [step, readInotify] at taken
  split at taken
  · exact bind_eq_ok.mp (Option.some.inj taken)
  · simp at taken

theorem runVerification_state {index : Nat}
    (taken : step config s (.runVerification index) = some (.ok next)) :
    ∃ objects verifications,
      next = { s with objects := objects, verifications := verifications } := by
  rcases Option.bind_eq_some_iff.mp taken with ⟨v, -, taken⟩
  rcases Option.bind_eq_some_iff.mp taken with ⟨outcome, -, taken⟩
  rcases bind_eq_ok.mp (Option.some.inj taken) with
    ⟨⟨objects, waiting⟩, -, same⟩
  exact ⟨objects, _, (Except.ok.inj same).symm⟩

/-- An aborted verification ends with its next handler. -/
theorem runVerification_takes {index : Nat} (aborted : Aborted s)
    (taken : step config s (.runVerification index) = some (.ok next)) :
    next =
      { s with verifications := s.verifications.eraseIdx index } := by
  rcases Option.bind_eq_some_iff.mp taken with ⟨v, found, taken⟩
  rcases Option.bind_eq_some_iff.mp taken with ⟨outcome, handled, taken⟩
  rcases aborted v (List.mem_of_getElem? found) with ⟨errc, stage⟩
  have ended : outcome = .ok (s.objects, none) := by
    simp only [verificationHandler, stage, Option.some.injEq] at handled
    exact handled.symm
  rw [ended] at taken
  rw [← Except.ok.inj (Option.some.inj taken)]
  simp

theorem runAddWait_effect {timer : Nat}
    (taken : step config s (.runAddWait timer) = some (.ok next)) :
    Effect none (leaveQueue s (.runAddWait timer)) next := by
  rcases runAddWait_takes taken with ⟨wait, outcome, -, -, handled, replied⟩
  have same := reply_same replied
  have answered : Effect none (leaveQueue s (.runAddWait timer))
      { s with objects := outcome.1 } :=
    Effect.of_changes id (onAddTimer_changes handled)
  constructor
  · intro aborted
    rw [Aborted, same.2]
    exact aborted
  · rw [same.1]
    exact answered.objects

theorem runOnExit_effect {child : Nat} {ec : Option ErrorCode}
    (taken : step config s (.runOnExit child ec) = some (.ok next)) :
    Effect none s next := by
  rcases runOnExit_takes taken with ⟨c, -, -, -, rfl⟩
  have delivered : Changes s.objects (s.objects.deliverExit child) :=
    .single (.deliverExit child trivial)
  exact Effect.of_changes id
    (delivered.trans (onProcessExit_changes ec _ _ _))

theorem readInotify_effect {events : List KernelEvent}
    (taken : step config s (.inotifyRead events) = some (.ok next)) :
    Effect none s next := by
  rcases inotifyRead_takes taken with ⟨fileWatcher, -, updated⟩
  have quiet := onInotifyUpdate_quiet updated
  exact Effect.of_changes quiet.aborted
    (quiet.objects.mono fun _ _ => trivial)

theorem runVerification_effect {index : Nat} (aborted : Aborted s)
    (taken : step config s (.runVerification index) = some (.ok next)) :
    Effect none s next := by
  rcases runVerification_takes aborted taken with rfl
  apply Effect.of_changes
  · intro _ other member
    exact aborted other (List.mem_of_mem_eraseIdx member)
  · exact .refl

end Taken

theorem runStop_effect {index : Nat} {s next : State}
    (ran : runStop index s = some (.ok next)) : Effect none s next := by
  rcases Option.bind_eq_some_iff.mp ran with ⟨exchange, found, ran⟩
  rcases Option.bind_eq_some_iff.mp ran with ⟨outcome, handled, ran⟩
  have stopped : Effect none s
      { s with
        objects := stopObjects exchange s.objects
        stops := s.stops.eraseIdx index } :=
    Effect.of_changes id (stopObjects_changes exchange s.objects)
  cases outcome with
  | ok waiting =>
      rcases Except.ok.inj (Option.some.inj ran) with rfl
      exact ⟨stopped.aborted, stopped.objects⟩
  | error response => exact stopped.invoke (Option.some.inj ran)

/-- What any step does: it handles at most one add request. -/
theorem step_effect {config : Config} {s next : State} {action : Action}
    (aborted : Aborted s)
    (taken : step config s action = some (.ok next)) :
    Effect (addCall s action) (leaveQueue s action) next := by
  cases action with
  | acceptCompletes index err =>
      rcases acceptCompletes_takes taken with ⟨server, -, rfl⟩
      exact Effect.of_same rfl rfl
  | runOnConnect index =>
      rcases runOnConnect_takes taken with ⟨server, -, rfl⟩
      exact Effect.of_same rfl rfl
  | commandRead index events env =>
      rcases Option.bind_eq_some_iff.mp taken with
        ⟨⟨connection, server⟩, accepted, taken⟩
      rcases Option.bind_eq_some_iff.mp taken with
        ⟨⟨err, cmd⟩, read, taken⟩
      have effect := handleCallback_effect (Option.some.inj taken)
      have call : addCall s (.commandRead index events env) =
          commandCall err cmd env connection := by
        simp [addCall, accepted, read]
      rw [call]
      exact ⟨effect.aborted, effect.objects⟩
  | runPosted env =>
      change runPosted env s = _ at taken
      unfold runPosted at taken
      split at taken
      · simp at taken
      · rename_i half posted queued
        have effect := runHalf_effect (Option.some.inj taken)
        have call : addCall s (.runPosted env) = halfCall half env s := by
          simp [addCall, queued]
        rw [call]
        exact ⟨effect.aborted, effect.objects⟩
  | timerExpires timer =>
      rcases timerExpires_takes taken with ⟨wait, -, -, rfl⟩
      exact Effect.of_changes id (.single (.expireTimer timer))
  | runAddWait timer => exact runAddWait_effect taken
  | childExits child =>
      rcases childExits_takes taken with ⟨c, -, -, rfl⟩
      exact Effect.of_changes id (.single (.kill child))
  | runOnExit child ec => exact runOnExit_effect taken
  | inotifyRead events => exact readInotify_effect taken
  | runVerification index => exact runVerification_effect aborted taken
  | runStop index => exact runStop_effect taken

/-- The step of an add that starts a process succeeds and launches it. -/
theorem step_of_starts {config : Config} {s : State} {action : Action}
    {call : AddCall} {className : String} {started : Started}
    (handles : addCall s action = some call)
    (starts : call.Starts s.objects className started) :
    ∃ next, step config s action = some (.ok next) ∧
      next.objects = call.launch className started s.objects := by
  have launched : ∀ other : State, other.objects = s.objects →
      handleAdd call.kind call.cmd call.env call.callback other =
        .ok { other with
          objects := call.launch className started s.objects } := by
    intro other same
    have ran := onAdd_of_starts starts
    rw [← same] at ran ⊢
    rw [handleAdd, ran]
    rfl
  cases action with
  | commandRead index events env =>
      rcases Option.bind_eq_some_iff.mp handles with
        ⟨⟨connection, server⟩, accepted, handles⟩
      rcases Option.bind_eq_some_iff.mp handles with
        ⟨⟨err, cmd⟩, read, handles⟩
      rcases commandCall_eq_some handles with
        ⟨rfl, isAdd, rfl, rfl, callback⟩
      have ran := launched { s with server := server } rfl
      rw [callback] at ran
      have dispatched := handleCallback_of_lookup (lookup_addCommand isAdd)
        call.env connection { s with server := server }
      rw [ran] at dispatched
      refine ⟨{ s with
        server := server
        objects := call.launch className started s.objects }, ?_, rfl⟩
      change readCommand index events call.env s = _
      rw [readCommand_of_read accepted read, dispatched]
      rfl
  | runPosted env =>
      rcases Option.bind_eq_some_iff.mp handles with ⟨half, first, handles⟩
      rcases Option.bind_eq_some_iff.mp handles with ⟨c, found, handles⟩
      split at handles
      · rename_i isAdd
        rcases Option.some.inj handles with rfl
        rcases List.head?_eq_some_iff.mp first with ⟨posted, queued⟩
        have ran := launched { s with posted := posted } rfl
        refine ⟨{ s with
          posted := posted
          objects := AddCall.launch
            { kind := half.kind
              cmd := c.cmd
              env := env
              callback := .half half.completion }
            className started s.objects }, ?_, rfl⟩
        change runPosted env s = _
        rw [runPosted, queued]
        simp only [runHalf, found, isAdd]
        rw [ran]
      · simp at handles
  | _ => simp [addCall] at handles

theorem leaveQueue_progress (s : State) (action : Action) :
    Relation.ReflTransGen Progress s.objects
      (leaveQueue s action).objects := by
  cases action with
  | runAddWait timer => exact .single (.takeWait timer)
  | _ => exact .refl

theorem step_progress {config : Config} {s next : State} {action : Action}
    (aborted : Aborted s)
    (taken : step config s action = some (.ok next)) :
    Relation.ReflTransGen Progress s.objects next.objects := by
  apply (leaveQueue_progress s action).trans
  rcases (step_effect aborted taken).objects with
    ⟨changes, -⟩ | ⟨c, className, started, -, starts, launched⟩
  · exact changes.progress
  · rw [launched]
    exact .single (.launch _ _ _ _ starts.admits)

theorem step_aborted {config : Config} {s next : State} {action : Action}
    (aborted : Aborted s)
    (taken : step config s action = some (.ok next)) : Aborted next := by
  apply (step_effect aborted taken).aborted
  cases action <;> exact aborted

/-! ## Runs -/

theorem scanFile_quiet (config : Config) (s : State) (file : FoundFile) :
    Quiet s (scanFile config s file) := by
  unfold scanFile
  split
  · exact checkSocketAndUpdateList_quiet ..
  · exact .refl s

theorem scanFiles_quiet (config : Config) (files : List FoundFile)
    (s : State) : Quiet s (files.foldl (scanFile config) s) := by
  induction files generalizing s with
  | nil => exact .refl s
  | cons file files ih => exact (scanFile_quiet config s file).trans (ih _)

theorem addWatches_quiet {startUp : StartUp}
    {watches : List (String × UInt32)} {s next : State}
    (ran : addWatches startUp s watches = .ok next) : Quiet s next := by
  induction watches generalizing s with
  | nil => exact Except.ok.inj ran ▸ .refl s
  | cons watch watches ih =>
      rcases bind_eq_ok.mp ran with ⟨middle, added, rest⟩
      exact (addWatch_quiet added).trans (ih rest)

/-- The constructor starts verifications and leaves the maps empty. -/
theorem construct_effect {config : Config} {startUp : StartUp}
    {start : State} (built : construct config startUp = .ok start) :
    Changes {} start.objects ∧ Aborted start := by
  rcases bind_eq_ok.mp built with ⟨watching, added, same⟩
  rcases Except.ok.inj same with rfl
  have quiet := (scanFiles_quiet config startUp.files {}).trans
    (addWatches_quiet added)
  refine ⟨quiet.objects.mono fun _ _ => trivial, quiet.aborted ?_⟩
  intro v member
  simp at member

/-- The constructed manager has no entries. -/
theorem construct_absent {config : Config} {startUp : StartUp}
    {start : State} (built : construct config startUp = .ok start)
    (m : MonitorOrScraper) (className : String) :
    start.objects.find? m className = none :=
  (construct_effect built).1.absent (find?_empty m className)

/-- The states that the manager reaches from any start-up. -/
def Reached (config : Config) (s : State) : Prop :=
  ∃ startUp start, construct config startUp = .ok start ∧
    Reachable (step config) start s

section Runs

variable {config : Config} {startUp : StartUp} {start : State}

theorem aborted_of_reachable (initial : Aborted start) {s : State}
    (reachable : Reachable (step config) start s) : Aborted s := by
  rcases reachable with ⟨attempts, run⟩
  exact run.invariant Aborted initial
    fun aborted taken => step_aborted aborted taken

/-- The manager refines the stored objects and their changes. -/
theorem step_refines (initial : Aborted start) :
    Refines (step config) start State.objects Progress :=
  fun reachable taken =>
    step_progress (aborted_of_reachable initial reachable) taken

theorem Reached.advance {s next : State} {action : Action}
    (reached : Reached config s)
    (taken : step config s action = some (.ok next)) :
    Reached config next := by
  rcases reached with ⟨startUp, start, built, reachable⟩
  exact ⟨startUp, start, built, reachable.advance taken⟩

/-- The invariants hold in every reached state. -/
theorem Reached.sound {s : State} (reached : Reached config s) :
    s.objects.Sound := by
  rcases reached with ⟨startUp, start, built, reachable⟩
  have initial := construct_effect built
  have refines : Refines (step config) start State.objects Progress :=
    step_refines initial.2
  exact refines.invariant Objects.Sound
    (sound_empty.changes initial.1) (fun sound => sound.progress)
    reachable

theorem Reached.placed {s : State} (reached : Reached config s) :
    s.objects.supervision.Placed := by
  rcases reached with ⟨startUp, start, built, reachable⟩
  have initial := construct_effect built
  have refines : Refines (step config) start State.objects Progress :=
    step_refines initial.2
  have placed : ∀ {o : Objects}, Changes {} o → o.supervision.Placed := by
    intro o changes
    induction changes with
    | refl => exact placed_empty
    | tail _ change ih => exact placed_change ih change
  exact (refines.invariant (fun o => o.Sound ∧ o.supervision.Placed)
    ⟨sound_empty.changes initial.1, placed initial.1⟩
    (fun holds progress =>
      ⟨holds.1.progress progress, placed_progress holds.1 holds.2 progress⟩)
    reachable).2

theorem Reached.aborted {s : State} (reached : Reached config s) :
    Aborted s := by
  rcases reached with ⟨startUp, start, built, reachable⟩
  exact aborted_of_reachable (construct_effect built).2 reachable

end Runs

/-- What the small installation can do is reached. -/
theorem Installation.reached {actions : List Action} {s : State}
    (executed : execute (step config) start actions = some s) :
    Reached config s :=
  ⟨startUp, start, start_built, _, .of_execute executed⟩

theorem Installation.start_reached : Reached config start :=
  ⟨startUp, start, start_built, .refl⟩

end KekMonitors.Manager
