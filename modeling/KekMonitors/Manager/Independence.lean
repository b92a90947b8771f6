import KekMonitors.Locality
import KekMonitors.Manager.Handling

/-!
# Independent handlers

A handler that belongs to a class reads and writes what belongs to that class
and nothing else, apart from the number of the next child.  So two handlers of
different classes can run in either order, with the same responses and the
same stores.
-/

namespace KekMonitors.Manager

open Connection
open Objects
open Timer
open Transition

/-- The steps that belong to one class. -/
inductive ClassStep where
  | add (m : MonitorOrScraper) (cmd : Cmd) (env : Environment)
      (callback : Callback)
  | addTimer (timer : Nat)
  | processExit (child : Nat) (ec : Option ErrorCode)
  | socket (socketFullPath socketName : String) (mask : UInt32) (peer : Peer)
  | stop (m : MonitorOrScraper) (cmd : Cmd) (env : Environment)
      (callback : Callback)
  | stopWritten (exchange : StopExchange)

/-- The class that a command is about, if it names one. -/
def commandKey (m : MonitorOrScraper) (cmd : Cmd) : Option Key :=
  match nameArgument cmd with
  | .ok (.ok className) => some (m, className)
  | _ => none

/-- The class whose socket has this name. -/
def socketKey (socketFullPath socketName : String) : Option Key :=
  let socketName :=
    if socketName.isEmpty then baseName socketFullPath else socketName
  (splitSocketName socketName).bind fun (socketPrefix, className) =>
    (socketKind socketPrefix).map fun m => (m, className)

namespace ClassStep

def key (o : Objects) : ClassStep → Option Key
  | .add m cmd _ _ => commandKey m cmd
  | .addTimer timer => (o.awaited timer).map home
  | .processExit child _ => o.supervision.owner child
  | .socket socketFullPath socketName _ _ =>
      socketKey socketFullPath socketName
  | .stop m cmd _ _ => commandKey m cmd
  | .stopWritten exchange => some (exchange.kind, exchange.className)

/--
What the handler of a step does to the stored objects, and its response.  A
step is not enabled when its handler is not queued.
-/
def run (o : Objects) :
    ClassStep → Option (Except Fault (Objects × Option Response))
  | .add m cmd env callback => some (onAdd m cmd env callback o)
  | .addTimer timer => (waitHandler timer { objects := o }).map Prod.snd
  | .processExit child ec =>
      (o.children[child]?).bind fun c =>
        if c.exitPending ∧ ¬ c.alive then
          some (.ok (onProcessExit ec c.kind c.className
            (o.deliverExit child), none))
        else none
  | .socket socketFullPath socketName mask peer =>
      some (.ok ((checkSocketAndUpdateList socketFullPath socketName mask
        peer { objects := o }).objects, none))
  | .stop m cmd env callback =>
      some ((onStop m cmd env callback o).map fun outcome =>
        (outcome.1,
          match outcome.2 with
          | .error response => some response
          | .ok _ => none))
  | .stopWritten exchange =>
      if exchange.stage = .writing then
        (stopHandler exchange).map fun outcome =>
          .ok (stopObjects exchange o,
            match outcome with
            | .error response => some response
            | .ok _ => none)
      else none

end ClassStep

/-- The actions of the event loop that run these steps. -/
inductive Performs (config : Config) (s : State) :
    Action → ClassStep → Prop where
  | add (m : MonitorOrScraper) {index connection : Nat}
      {events : List StreamEvent} {env : Environment}
      {server : UnixServer.ServerState} {cmd : Cmd}
      (reading : UnixServer.commandRead index s.server =
        some (connection, server))
      (read : asyncReadCmd events = some (none, cmd))
      (code : cmd.cmd = (addCommand m).code) :
      Performs config s (.commandRead index events env)
        (.add m cmd env (.client connection))
  | stop (m : MonitorOrScraper) {index connection : Nat}
      {events : List StreamEvent} {env : Environment}
      {server : UnixServer.ServerState} {cmd : Cmd}
      (reading : UnixServer.commandRead index s.server =
        some (connection, server))
      (read : asyncReadCmd events = some (none, cmd))
      (code : cmd.cmd = (stopCommand m).code) :
      Performs config s (.commandRead index events env)
        (.stop m cmd env (.client connection))
  | addHalf {half : PostedHalf} {posted : List PostedHalf}
      {env : Environment} {completion : MonitorScraperCompletion}
      (queued : s.posted = half :: posted)
      (found : s.completions[half.completion]? = some completion)
      (adds : completion.momanCb = .onAdd) :
      Performs config s (.runPosted env)
        (.add half.kind completion.cmd env (.half half.completion))
  | stopHalf {half : PostedHalf} {posted : List PostedHalf}
      {env : Environment} {completion : MonitorScraperCompletion}
      (queued : s.posted = half :: posted)
      (found : s.completions[half.completion]? = some completion)
      (stops : completion.momanCb = .onStop) :
      Performs config s (.runPosted env)
        (.stop half.kind completion.cmd env (.half half.completion))
  | addTimer (timer : Nat) :
      Performs config s (.runAddWait timer) (.addTimer timer)
  | processExit (child : Nat) (ec : Option ErrorCode) :
      Performs config s (.runOnExit child ec) (.processExit child ec)
  | socket {events : List KernelEvent} {fileWatcher : FileWatcher}
      {event : InotifyEvent} {watch : InotifyWatch}
      (isOpen : s.fileWatcher.inotify.isOpen = true)
      (reads : s.fileWatcher.queueEvents events = .ok fileWatcher)
      (queued : fileWatcher.inotify.events = [event])
      (found : fileWatcher.findWatch event.watch = some watch)
      (directory : watch.path = config.socketPath)
      (sockets : event.mask &&& inCreate ≠ 0 ∧ event.surroundings.isSocket ∨
        event.mask &&& inDelete ≠ 0) :
      Performs config s (.inotifyRead events)
        (.socket (watch.path ++ "/" ++ event.name) event.name event.mask
          event.surroundings.peer)
  | stopWritten {index : Nat} {exchange : StopExchange}
      (found : s.stops[index]? = some exchange)
      (writing : exchange.stage = .writing) :
      Performs config s (.runStop index) (.stopWritten exchange)

/-! ## What a handler does for its class -/

/--
A handler that begins on some occasion and updates its class.  States that
agree about the class get the same update and the same response.
-/
structure Local (key : Key) (o next : Objects) (response : Option Response)
    (ran : Objects → Option (Except Fault (Objects × Option Response)))
    (occasion : Occasion) (update : Update) : Prop where
  of : occasion.Of key o
  allowed : update.Allowed key (occasion.begin o)
  next : next = update.apply key (occasion.begin o)
  alike : ∀ other, AgreeAt key o other →
    ran other = some (.ok (update.apply key (occasion.begin other), response))

section Handlers

variable {m : MonitorOrScraper} {cmd : Cmd} {env : Environment}
  {callback : Callback} {o next : Objects} {className : String}

theorem onAdd_update {response : Option Response} (kept : o.WellKept)
    (named : nameArgument cmd = .ok (.ok className))
    (ran : onAdd m cmd env callback o = .ok (next, response)) :
    ∃ update : Update, update.Allowed (m, className) o ∧
      next = update.apply (m, className) o ∧
      ∀ other : Objects, other.find? m className = o.find? m className →
        onAdd m cmd env callback other =
          .ok (update.apply (m, className) other, response) := by
  simp only [onAdd, named, bind, Except.bind] at ran ⊢
  cases refused : (o.find? m className).bind (refuse m) with
  | some answer =>
      simp only [refused] at ran
      rcases Prod.mk.inj (Except.ok.inj ran) with ⟨rfl, rfl⟩
      refine ⟨.keep, trivial, rfl, fun other same => ?_⟩
      simp only [same, refused]
      rfl
  | none =>
      simp only [refused] at ran
      cases starts : startProcess m env with
      | error fault => simp [starts] at ran
      | ok result =>
          cases result with
          | error answer =>
              simp only [starts] at ran
              rcases Prod.mk.inj (Except.ok.inj ran) with ⟨rfl, rfl⟩
              refine ⟨.keep, trivial, rfl, fun other same => ?_⟩
              simp only [same, refused]
              rfl
          | ok started =>
              simp only [starts] at ran
              rcases Prod.mk.inj (Except.ok.inj ran) with ⟨rfl, rfl⟩
              refine ⟨.launch callback started.commandLine started.pid
                started.creation, ?_, rfl, fun other same => ?_⟩
              · apply kept.absent
                intro stored found
                rw [found, Option.bind_some] at refused
                exact refuse_eq_none refused
              · simp only [same, refused]
                rfl

theorem onStop_update
    {outcome : Except Response StopExchange}
    (named : nameArgument cmd = .ok (.ok className))
    (ran : onStop m cmd env callback o = .ok (next, outcome)) :
    ∃ update : Update, update.Allowed (m, className) o ∧
      next = update.apply (m, className) o ∧
      ∀ other : Objects, other.find? m className = o.find? m className →
        onStop m cmd env callback other =
          .ok (update.apply (m, className) other, outcome) := by
  simp only [onStop, named, bind, Except.bind] at ran ⊢
  cases found : o.find? m className with
  | none =>
      simp only [found] at ran
      rcases Prod.mk.inj (Except.ok.inj ran) with ⟨rfl, rfl⟩
      refine ⟨.keep, trivial, rfl, fun other same => ?_⟩
      simp only [same]
      rfl
  | some stored =>
      simp only [found] at ran
      split at ran
      · rename_i unreachable
        rcases Prod.mk.inj (Except.ok.inj ran) with ⟨rfl, rfl⟩
        refine ⟨.keep, trivial, rfl, fun other same => ?_⟩
        simp only [same, unreachable, if_true]
        rfl
      · rename_i reachable
        split at ran
        · rename_i stopped
          rcases Prod.mk.inj (Except.ok.inj ran) with ⟨rfl, rfl⟩
          refine ⟨.keep, trivial, rfl, fun other same => ?_⟩
          simp only [same, reachable, stopped, if_true]
          rfl
        · rename_i running
          split at ran
          · simp at ran
          · rename_i connects
            rcases Prod.mk.inj (Except.ok.inj ran) with ⟨rfl, rfl⟩
            refine ⟨.put { stored with isBeingStopped := true }, trivial, rfl,
              fun other same => ?_⟩
            simp only [same, reachable, running, connects]
            rfl

theorem onAddTimer_update {request : AddRequest} {status : WaitStatus}
    {response : Option Response}
    (ran : onAddTimer request status o = .ok (next, response)) :
    ∃ update : Update, update.Allowed (home request) o ∧
      next = update.apply (home request) o ∧
      ∀ other : Objects,
        other.find? request.kind request.className =
            o.find? request.kind request.className →
          (∀ stored process,
            o.find? request.kind request.className = some stored →
              stored.process = some process →
                other.running process = o.running process) →
            onAddTimer request status other =
              .ok (update.apply (home request) other, response) := by
  unfold onAddTimer at ran ⊢
  cases status with
  | waiting =>
      rcases Prod.mk.inj (Except.ok.inj ran) with ⟨rfl, rfl⟩
      exact ⟨.keep, trivial, rfl, fun _ _ _ => rfl⟩
  | cancelled =>
      cases found : o.find? request.kind request.className with
      | none =>
          simp only [found] at ran
          rcases Prod.mk.inj (Except.ok.inj ran) with ⟨rfl, rfl⟩
          refine ⟨.keep, trivial, rfl, fun other same _ => ?_⟩
          simp only [same]
          rfl
      | some stored =>
          simp only [found] at ran
          split at ran
          · rename_i confirmed
            rcases Prod.mk.inj (Except.ok.inj ran) with ⟨rfl, rfl⟩
            refine ⟨.put _, trivial, rfl, fun other same _ => ?_⟩
            simp only [same, confirmed, if_true]
            rfl
          · rename_i unconfirmed
            rcases Prod.mk.inj (Except.ok.inj ran) with ⟨rfl, rfl⟩
            refine ⟨.put _, trivial, rfl, fun other same _ => ?_⟩
            simp only [same, unconfirmed]
            rfl
  | expired =>
      cases found : o.find? request.kind request.className with
      | none =>
          simp only [found] at ran
          rcases Prod.mk.inj (Except.ok.inj ran) with ⟨rfl, rfl⟩
          refine ⟨.keep, trivial, rfl, fun other same _ => ?_⟩
          simp only [same]
          rfl
      | some stored =>
          simp only [found] at ran
          cases held : stored.process with
          | none => simp [held] at ran
          | some process =>
              simp only [held] at ran
              split at ran
              · rename_i runs
                rcases Prod.mk.inj (Except.ok.inj ran) with ⟨rfl, rfl⟩
                refine ⟨.put _, trivial, rfl, fun other same alike => ?_⟩
                simp only [same, held, alike stored process rfl held, runs,
                  if_true]
                rfl
              · rename_i dead
                rcases Prod.mk.inj (Except.ok.inj ran) with ⟨rfl, rfl⟩
                refine ⟨.keep, trivial, rfl, fun other same alike => ?_⟩
                simp only [same, held, alike stored process rfl held, dead]
                rfl

theorem verify_objects (socketFullPath : String) (onSuccess : OnSuccess)
    (peer : Peer) (s : State) :
    (verifySocketIsCommunicating m socketFullPath className onSuccess peer
      s).objects = s.objects := by
  unfold verifySocketIsCommunicating
  split <;> rfl

theorem updateList_update (m : MonitorOrScraper)
    (socketFullPath className : String) (mask : UInt32) (peer : Peer)
    (o : Objects) :
    ∃ update : Update, update.Allowed (m, className) o ∧
      ∀ s : State, s.objects.find? m className = o.find? m className →
        (updateList m socketFullPath className mask peer s).objects =
          update.apply (m, className) s.objects := by
  unfold updateList
  by_cases creates : mask = inCreate
  · cases found : o.find? m className with
    | none =>
        refine ⟨.keep, trivial, fun s same => ?_⟩
        simp only [creates, same, if_true]
        exact verify_objects ..
    | some stored =>
        refine ⟨.put { stored with endpoint := some socketFullPath },
          trivial, fun s same => ?_⟩
        simp only [creates, same, if_true]
        split
        · exact verify_objects ..
        · rfl
  · by_cases deletes : mask = inDelete
    · refine ⟨.removeStoredSocket, trivial, fun s same => ?_⟩
      rw [if_neg creates, if_pos deletes]
      rfl
    · refine ⟨.keep, trivial, fun s same => ?_⟩
      rw [if_neg creates, if_neg deletes]
      rfl

/-- A socket event updates the class that its name tells. -/
theorem checkSocket_of_key {socketFullPath socketName : String} {key : Key}
    (keyed : socketKey socketFullPath socketName = some key)
    (mask : UInt32) (peer : Peer) (s : State) :
    checkSocketAndUpdateList socketFullPath socketName mask peer s =
      updateList key.1 socketFullPath key.2 mask peer s := by
  rcases Option.bind_eq_some_iff.mp keyed with
    ⟨⟨socketPrefix, className⟩, split, keyed⟩
  rcases Option.map_eq_some_iff.mp keyed with ⟨m, kind, rfl⟩
  simp only [checkSocketAndUpdateList, split, kind]

theorem onProcessExit_update (ec : Option ErrorCode)
    (m : MonitorOrScraper) (className : String) :
    ∃ update : Update, (∀ o, update.Allowed (m, className) o) ∧
      ∀ o : Objects, onProcessExit ec m className o =
        update.apply (m, className) o := by
  unfold onProcessExit
  split
  · exact ⟨.keep, fun _ => trivial, fun _ => rfl⟩
  · exact ⟨.removeStoredProcess, fun _ => trivial, fun _ => rfl⟩

end Handlers

theorem commandKey_eq_some {m : MonitorOrScraper} {cmd : Cmd} {key : Key}
    (keyed : commandKey m cmd = some key) :
    ∃ className, nameArgument cmd = .ok (.ok className) ∧
      key = (m, className) := by
  unfold commandKey at keyed
  split at keyed
  · rename_i className named
    exact ⟨className, named, (Option.some.inj keyed).symm⟩
  · simp at keyed

namespace ClassStep

variable {step : ClassStep} {key : Key} {o next : Objects}
  {response : Option Response}

/-- Every step is a handler that updates its class. -/
theorem run_local (kept : o.WellKept) (placed : o.supervision.Placed)
    (keyed : step.key o = some key)
    (ran : step.run o = some (.ok (next, response))) :
    ∃ occasion update,
      Local key o next response (fun o => step.run o) occasion update := by
  cases step with
  | add m cmd env callback =>
      rcases commandKey_eq_some keyed with ⟨className, named, rfl⟩
      rcases onAdd_update kept named (Option.some.inj ran) with
        ⟨update, allowed, next, alike⟩
      refine ⟨.request, update, trivial, allowed, next, ?_⟩
      intro other agree
      exact congrArg some (alike other agree.entry)
  | addTimer timer =>
      rcases Option.map_eq_some_iff.mp keyed with ⟨request, awaits, rfl⟩
      rcases Option.map_eq_some_iff.mp awaits with ⟨wait, found, rfl⟩
      simp only [run, waitHandler, found] at ran
      split at ran
      · simp at ran
      · rename_i settled
        rcases onAddTimer_update (Option.some.inj ran) with
          ⟨update, allowed, next, alike⟩
        refine ⟨.wait timer, update, ?_, allowed, next, ?_⟩
        · intro other present
          rcases Option.some.inj (found.symm.trans present) with rfl
          rfl
        · intro other agree
          have present := (agree.wait rfl).mpr found
          simp only [run, waitHandler, present, settled, if_false,
            Option.map_some]
          apply congrArg some
          have after := agree.takeWait timer
          apply alike (other.takeWait timer) after.entry
          intro stored process there held
          exact after.running (placed_takeWait placed timer) there held
  | processExit child ec =>
      rcases Option.map_eq_some_iff.mp keyed with ⟨c, found, rfl⟩
      simp only [run, found, Option.bind_some] at ran
      split at ran
      · rename_i exits
        rcases Prod.mk.inj (Except.ok.inj (Option.some.inj ran)) with
          ⟨rfl, rfl⟩
        rcases onProcessExit_update ec c.kind c.className with
          ⟨update, allowed, same⟩
        refine ⟨.exit child, update, ?_, allowed _, same _, ?_⟩
        · intro other present
          rcases Option.some.inj (found.symm.trans present) with rfl
          rfl
        · intro other agree
          have present := (agree.child rfl).mpr found
          simp only [run, present, Option.bind_some, exits, same]
          rfl
      · simp at ran
  | socket socketFullPath socketName mask peer =>
      simp only [run] at ran
      rcases Prod.mk.inj (Except.ok.inj (Option.some.inj ran)) with
        ⟨rfl, rfl⟩
      rcases updateList_update key.1 socketFullPath key.2 mask peer o with
        ⟨update, allowed, same⟩
      refine ⟨.request, update, trivial, allowed, ?_, ?_⟩
      · rw [checkSocket_of_key keyed]
        exact same { objects := o } rfl
      · intro other agree
        simp only [run]
        rw [checkSocket_of_key keyed, same { objects := other } agree.entry]
        rfl
  | stop m cmd env callback =>
      rcases commandKey_eq_some keyed with ⟨className, named, rfl⟩
      simp only [run] at ran
      cases stops : onStop m cmd env callback o with
      | error fault => simp [stops, Except.map] at ran
      | ok outcome =>
          rcases outcome with ⟨after, outcome⟩
          rw [stops] at ran
          rcases Prod.mk.inj (Except.ok.inj (Option.some.inj ran)) with
            ⟨rfl, rfl⟩
          rcases onStop_update named stops with
            ⟨update, allowed, next, alike⟩
          refine ⟨.request, update, trivial, allowed, next, ?_⟩
          intro other agree
          simp only [run, alike other agree.entry]
          rfl
  | stopWritten exchange =>
      rcases Option.some.inj keyed with rfl
      simp only [run] at ran
      split at ran
      · rename_i writing
        rcases Option.map_eq_some_iff.mp ran with ⟨outcome, handles, same⟩
        rcases Prod.mk.inj (Except.ok.inj same) with ⟨rfl, rfl⟩
        refine ⟨.request, .removeStoredSocket, trivial, trivial, ?_, ?_⟩
        · simp only [stopObjects, writing]
          rfl
        · intro other agree
          simp only [run, writing, handles, if_true, Option.map_some,
            stopObjects]
          rfl
      · simp at ran

theorem key_of_agree {other : Objects} (step : ClassStep)
    (agree : AgreeAt key o other) (keyed : step.key o = some key) :
    step.key other = some key := by
  cases step with
  | addTimer timer =>
      rcases Option.map_eq_some_iff.mp keyed with ⟨request, awaits, here⟩
      rcases Option.map_eq_some_iff.mp awaits with ⟨wait, found, rfl⟩
      simp only [ClassStep.key, awaited, (agree.wait here).mpr found]
      exact congrArg some here
  | processExit child ec =>
      rcases Option.map_eq_some_iff.mp keyed with ⟨c, found, here⟩
      simp only [ClassStep.key, supervision, (agree.child here).mpr found]
      exact congrArg some here
  | _ => exact keyed

/-- Every handler makes progress with the stored objects. -/
theorem run_progress (ran : step.run o = some (.ok (next, response))) :
    Relation.ReflTransGen Progress o next := by
  cases step with
  | add m cmd env callback =>
      let call : AddCall :=
        { kind := m
          cmd := cmd
          env := env
          callback := callback }
      have added : onAdd call.kind call.cmd call.env call.callback o =
          .ok (next, response) := Option.some.inj ran
      rcases onAdd_cases added with
        ⟨answer, same, -⟩ | ⟨className, started, starts, same⟩
      · rcases Prod.mk.inj same with ⟨rfl, -⟩
        exact .refl
      · rcases Prod.mk.inj same with ⟨rfl, -⟩
        exact .single (.launch _ _ _ _ starts.admits)
  | addTimer timer =>
      simp only [run, waitHandler] at ran
      split at ran
      · simp at ran
      · split at ran
        · simp at ran
        · exact .head (.takeWait timer)
            (onAddTimer_changes (Option.some.inj ran)).progress
  | processExit child ec =>
      rcases Option.bind_eq_some_iff.mp ran with ⟨c, found, ran⟩
      split at ran
      · rcases Prod.mk.inj (Except.ok.inj (Option.some.inj ran)) with
          ⟨rfl, -⟩
        exact .head (.change (.deliverExit child trivial))
          (onProcessExit_changes ec c.kind c.className _).progress
      · simp at ran
  | socket socketFullPath socketName mask peer =>
      rcases Prod.mk.inj (Except.ok.inj (Option.some.inj ran)) with
        ⟨rfl, -⟩
      have quiet := checkSocketAndUpdateList_quiet socketFullPath socketName
        mask peer { objects := o }
      exact (quiet.objects.mono fun _ _ => trivial).progress
  | stop m cmd env callback =>
      simp only [run] at ran
      cases stops : onStop m cmd env callback o with
      | error fault => simp [stops, Except.map] at ran
      | ok outcome =>
          rw [stops] at ran
          rcases Prod.mk.inj (Except.ok.inj (Option.some.inj ran)) with
            ⟨rfl, -⟩
          exact (onStop_changes stops).progress
  | stopWritten exchange =>
      simp only [run] at ran
      split at ran
      · rcases Option.map_eq_some_iff.mp ran with ⟨outcome, -, same⟩
        rcases Prod.mk.inj (Except.ok.inj same) with ⟨rfl, -⟩
        exact (stopObjects_changes exchange o).progress
      · simp at ran

/-- What holds of the stored objects before a step holds after it. -/
theorem run_keeps (sound : o.Sound) (placed : o.supervision.Placed)
    (ran : step.run o = some (.ok (next, response))) :
    next.Sound ∧ next.supervision.Placed := by
  have progress := run_progress ran
  clear ran
  induction progress with
  | refl => exact ⟨sound, placed⟩
  | tail _ last ih =>
      exact ⟨ih.1.progress last, placed_progress ih.1 ih.2 last⟩

end ClassStep

theorem checkSocket_objects (socketFullPath socketName : String)
    (mask : UInt32) (peer : Peer) (s : State) :
    (checkSocketAndUpdateList socketFullPath socketName mask peer
        s).objects =
      (checkSocketAndUpdateList socketFullPath socketName mask peer
        { objects := s.objects }).objects := by
  cases keyed : socketKey socketFullPath socketName with
  | some key =>
      rcases updateList_update key.1 socketFullPath key.2 mask peer
        s.objects with ⟨update, -, same⟩
      rw [checkSocket_of_key keyed, checkSocket_of_key keyed, same s rfl,
        same { objects := s.objects } rfl]
  | none =>
      have ignored : ∀ s : State, checkSocketAndUpdateList socketFullPath
          socketName mask peer s = s := by
        intro s
        unfold checkSocketAndUpdateList
        dsimp only
        split
        · rfl
        · rename_i socketPrefix className split
          split
          · rfl
          · rename_i m kind
            have known : socketKey socketFullPath socketName =
                some (m, className) := by
              simp only [socketKey, split, kind, Option.bind_some,
                Option.map_some]
            rw [known] at keyed
            simp at keyed
      rw [ignored, ignored]

/-- The part of a handled action that a step tells. -/
def Handled.outcome (handled : Handled) : Objects × Option Response :=
  (handled.state.objects, handled.answer.map Prod.snd)

theorem handledAdd_outcome (m : MonitorOrScraper) (cmd : Cmd)
    (env : Environment) (callback : Callback) (s : State) :
    (handledAdd m cmd env callback s).map Handled.outcome =
      onAdd m cmd env callback s.objects := by
  rw [handledAdd]
  cases onAdd m cmd env callback s.objects with
  | error fault => rfl
  | ok outcome =>
      rcases outcome with ⟨objects, _ | response⟩ <;> rfl

theorem handledStop_outcome (m : MonitorOrScraper) (cmd : Cmd)
    (env : Environment) (callback : Callback) (s : State) :
    some ((handledStop m cmd env callback s).map Handled.outcome) =
      ClassStep.run s.objects (.stop m cmd env callback) := by
  rw [handledStop, ClassStep.run]
  cases onStop m cmd env callback s.objects with
  | error fault => rfl
  | ok outcome =>
      rcases outcome with ⟨objects, response | exchange⟩ <;> rfl

/-- An action does to the stored objects what its step does. -/
theorem Performs.run_eq {config : Config} {s : State} {action : Action}
    {step : ClassStep} (performs : Performs config s action step) :
    (handle config s action).map (fun result =>
      result.map Handled.outcome) = step.run s.objects := by
  cases performs with
  | @add m index connection events env server cmd reading read code =>
      have lookup : handledMap.lookup cmd.cmd =
          some fun cmd env connection s =>
            handledAdd m cmd env (.client connection) s := by
        rw [code]
        cases m <;> rfl
      simp only [handle, reading, read, Option.bind_eq_bind,
        Option.bind_some, handledCommand, lookup, Option.isSome_none,
        Bool.false_eq_true, if_false, Option.map_some]
      exact congrArg some (handledAdd_outcome ..)
  | @stop m index connection events env server cmd reading read code =>
      have lookup : handledMap.lookup cmd.cmd =
          some fun cmd env connection s =>
            handledStop m cmd env (.client connection) s := by
        rw [code]
        cases m <;> rfl
      simp only [handle, reading, read, Option.bind_eq_bind,
        Option.bind_some, handledCommand, lookup, Option.isSome_none,
        Bool.false_eq_true, if_false, Option.map_some]
      exact handledStop_outcome ..
  | addHalf queued found adds =>
      simp only [handle, queued, handledHalf, found, adds, Option.map_some]
      exact congrArg some (handledAdd_outcome ..)
  | stopHalf queued found stops =>
      simp only [handle, queued, handledHalf, found, stops, Option.map_some]
      exact handledStop_outcome ..
  | addTimer timer =>
      have same : waitHandler timer { objects := s.objects } =
          waitHandler timer s := rfl
      simp only [handle, handledWait, ClassStep.run, same]
      cases waitHandler timer s with
      | none => rfl
      | some handler =>
          rcases handler with ⟨request, fault | ⟨objects, _ | response⟩⟩ <;>
            rfl
  | processExit child ec =>
      simp only [handle, step, runOnExit, ClassStep.run]
      cases s.objects.children[child]? with
      | none => rfl
      | some c =>
          simp only [Option.bind_some]
          split <;> rfl
  | @socket events fileWatcher event watch isOpen reads queued found
      directory sockets =>
      let taken : FileWatcher :=
        { fileWatcher with
          inotify := { fileWatcher.inotify with events := [] } }
      have here : taken.findWatch event.watch = some watch := found
      have handled : onInotifyEvent config event
          { s with fileWatcher := taken } =
            .ok (checkSocketAndUpdateList (watch.path ++ "/" ++ event.name)
              event.name event.mask event.surroundings.peer
              { s with fileWatcher := taken }) := by
        simp only [onInotifyEvent, here, directory, sockets, if_true]
      have update : onInotifyUpdate config { s with fileWatcher } =
          .ok (checkSocketAndUpdateList (watch.path ++ "/" ++ event.name)
            event.name event.mask event.surroundings.peer
            { s with fileWatcher := taken }) := by
        simp only [onInotifyUpdate, queued, onInotifyEvents]
        change onInotifyEvent config event { s with fileWatcher := taken } >>=
          _ = _
        rw [handled]
        rfl
      simp only [handle, step, readInotify, isOpen, reads, if_true,
        ClassStep.run]
      change some (((onInotifyUpdate config { s with fileWatcher }).map
        fun next => ({ state := next } : Handled)).map Handled.outcome) = _
      rw [update]
      simp only [Except.map, Handled.outcome, Option.map_none]
      rw [checkSocket_objects]
  | stopWritten found writing =>
      simp only [handle, handledExchange, found, ClassStep.run, writing,
        Option.bind_eq_bind, Option.bind_some, if_true]
      cases stopHandler _ with
      | none => rfl
      | some outcome => rcases outcome with response | exchange <;> rfl

/-! ## Two handlers -/

theorem Local.confined {key : Key} {o next : Objects}
    {response : Option Response}
    {ran : Objects → Option (Except Fault (Objects × Option Response))}
    {occasion : Occasion} {update : Update}
    (acts : Local key o next response ran occasion update)
    (owned : o.TimersOwned) (placed : o.supervision.Placed) :
    Confined key o next := by
  rw [acts.next]
  exact (Occasion.confined acts.of).trans
    (Update.confined (occasion.timersOwned owned) (occasion.placed placed)
      acts.allowed)

/-- States that agree about a class get the same step, with like effects. -/
theorem Local.alike_effect {key : Key} {o next other : Objects}
    {response : Option Response}
    {ran : Objects → Option (Except Fault (Objects × Option Response))}
    {occasion : Occasion} {update : Update}
    (acts : Local key o next response ran occasion update)
    (agree : AgreeAt key o other) :
    ∃ otherNext, ran other = some (.ok (otherNext, response)) ∧
      EntryConfined key other otherNext ∧
      SameEffect key o next other otherNext := by
  refine ⟨_, acts.alike other agree, ?_, ?_⟩
  · intro elsewhere different
    rw [update.entryConfined key _ elsewhere different,
      occasion.find?_begin]
  · rw [acts.next]
    cases Update.sameEffect (occasion.agreeAt agree) acts.allowed with
    | kept entry length otherLength =>
        rw [occasion.children_length] at length otherLength
        exact .kept entry length otherLength
    | launched entry renamed found otherFound length =>
        rw [occasion.children_length] at found otherFound length
        exact .launched entry renamed found otherFound length

/-- A step completes with this response. -/
def ClassStep.Completes (step : ClassStep) (o : Objects)
    (response : Option Response) : Prop :=
  ∃ next, step.run o = some (.ok (next, response))

/--
A step leaves every entry but that of its class unchanged.  Steps of different
classes, of which the second completes in the reached state or after the
first, complete in either order with the same responses and the same stores.
-/
theorem steps_commute {config : Config} {s : State}
    (reached : Reached config s) {first second : ClassStep}
    {firstKey secondKey : Key}
    (firstKeyed : first.key s.objects = some firstKey)
    (secondKeyed : second.key s.objects = some secondKey)
    (different : firstKey ≠ secondKey)
    {afterFirst : Objects} {firstResponse secondResponse : Option Response}
    (ranFirst : first.run s.objects =
      some (.ok (afterFirst, firstResponse)))
    (completes : second.Completes s.objects secondResponse ∨
      second.Completes afterFirst secondResponse) :
    ∃ afterSecond both other,
      second.run s.objects = some (.ok (afterSecond, secondResponse)) ∧
        second.run afterFirst = some (.ok (both, secondResponse)) ∧
        first.run afterSecond = some (.ok (other, firstResponse)) ∧
        EntryConfined firstKey s.objects afterFirst ∧
        EntryConfined secondKey s.objects afterSecond ∧
        SameStores s.objects.children.length both other := by
  have sound := reached.sound
  have placed := reached.placed
  rcases first.run_local sound.wellKept placed firstKeyed ranFirst with
    ⟨occasion, update, firstActs⟩
  have firstConfined := firstActs.confined sound.timersOwned placed
  have agree := firstConfined secondKey different.symm
  have ranSecond : second.Completes s.objects secondResponse := by
    rcases completes with before | ⟨after, ran⟩
    · exact before
    · have known := first.run_keeps sound placed ranFirst
      have keyed := second.key_of_agree agree secondKeyed
      rcases second.run_local known.1.wellKept known.2 keyed ran with
        ⟨_, _, acts⟩
      exact ⟨_, acts.alike s.objects agree.symm⟩
  rcases ranSecond with ⟨afterSecond, ranSecond⟩
  rcases second.run_local sound.wellKept placed secondKeyed ranSecond with
    ⟨secondOccasion, secondUpdate, secondActs⟩
  have secondConfined := secondActs.confined sound.timersOwned placed
  rcases secondActs.alike_effect agree with
    ⟨both, ranBoth, bothConfined, secondEffect⟩
  rcases firstActs.alike_effect (secondConfined firstKey different) with
    ⟨other, ranOther, otherConfined, firstEffect⟩
  exact ⟨afterSecond, both, other, ranSecond, ranBoth, ranOther,
    firstConfined.entryConfined, secondConfined.entryConfined,
    sameStores_of_effects sound.timersOwned placed different
      firstConfined.entryConfined secondConfined.entryConfined bothConfined
      otherConfined firstEffect secondEffect⟩

namespace Installation

/-- A client adds the monitor or the scraper of a class. -/
def addOf (m : MonitorOrScraper) : ClassStep :=
  .add m (about (addCommand m) "Shoes") environment (.client 0)

end Installation

open Installation

/-- The monitor and the scraper of a class are added in either order. -/
theorem steps_commute_adds :
    ∃ monitor scraper both other,
      (addOf .monitor).run start.objects = some (.ok (monitor, none)) ∧
        (addOf .scraper).run monitor = some (.ok (both, none)) ∧
        (addOf .scraper).run start.objects = some (.ok (scraper, none)) ∧
        (addOf .monitor).run scraper = some (.ok (other, none)) ∧
        SameStores start.objects.children.length both other := by
  have setting : ∀ m, ((addOf m).run start.objects).any (fun result =>
      result.toOption.any fun ran => ran.2.isNone) = true := by
    intro m
    cases m <;> decide +kernel
  have ran : ∀ m, ∃ after,
      (addOf m).run start.objects = some (.ok (after, none)) := by
    intro m
    rcases (Option.any_eq_true _ _).mp (setting m) with
      ⟨result, adds, facts⟩
    rcases (Option.any_eq_true _ _).mp facts with
      ⟨⟨after, response⟩, returned, silent⟩
    rcases Option.isNone_iff_eq_none.mp silent with rfl
    rw [toOption_eq_some.mp returned] at adds
    exact ⟨after, adds⟩
  rcases ran .monitor with ⟨monitor, ranMonitor⟩
  rcases ran .scraper with ⟨scraper, ranScraper⟩
  have monitorKey : (addOf .monitor).key start.objects =
      some (.monitor, "Shoes") := by
    decide +kernel
  have scraperKey : (addOf .scraper).key start.objects =
      some (.scraper, "Shoes") := by
    decide +kernel
  rcases steps_commute start_reached monitorKey scraperKey (by simp)
    ranMonitor (Or.inl ⟨scraper, ranScraper⟩) with
      ⟨after, both, other, ranAfter, ranBoth, ranOther, -, -, same⟩
  exact ⟨monitor, after, both, other, ranMonitor, ranBoth, ranAfter,
    ranOther, same⟩

end KekMonitors.Manager
