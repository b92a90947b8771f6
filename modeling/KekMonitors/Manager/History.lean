import KekMonitors.Manager.Invariants
import KekMonitors.Manager.Leaving
import KekMonitors.Standing
import KekMonitors.Transition.History

/-!
# The history of a class

What the manager records of a class, and what its status reply says about it,
follows from the launches, exits, STOP commands and socket events of this class
and from the shutdowns, in the order in which they were handled.  No other
handler has a say in it.
-/

namespace KekMonitors

open Manager (SocketEvent)

/-- What can happen to the standing of a class. -/
inductive ClassEvent where
  | launched (process : Process)
  | exited (child : Nat)
  /-- The write of a STOP has ended, also where it failed. -/
  | stopSent
  | socket (event : SocketEvent)
  | shutDown
  deriving DecidableEq

/-- A socket that appears is recorded for a class that is known. -/
def Standing.after (standing : Standing) : ClassEvent → Standing
  | .launched process => { process := some process }
  | .exited _ => { standing with process := none }
  | .stopSent => { standing with socket := false }
  | .socket .created =>
      { standing with socket := standing.process.isSome || standing.socket }
  | .socket .deleted => { standing with socket := false }
  | .shutDown => { standing with process := none }

namespace Manager

open Connection
open Objects
open Transition

/-! ## The events of a step -/

/-- The child that a step starts. -/
def startedBy (config : Config) (attempt : State × Action) : Option Child :=
  match step config attempt.1 attempt.2 with
  | some (.ok next) =>
      next.objects.children[attempt.1.objects.children.length]?
  | _ => none

/-- A launch, with the identifier and the time that the process was given. -/
def launchEvents (config : Config) (key : Key) (attempt : State × Action) :
    List ClassEvent :=
  match addCall attempt.1 attempt.2, startedBy config attempt with
  | some call, some c =>
      if (c.kind, c.className) = key then
        call.env.spawn.toList.map fun (pid, creation) =>
          .launched
            { child := attempt.1.objects.children.length
              pid := pid
              creation := creation }
      else []
  | _, _ => []

/-- What a step handles of a class, besides a launch. -/
def handledEvents (config : Config) (key : Key) :
    State × Action → List ClassEvent
  | (_, .commandRead _ events _) =>
      match asyncReadCmd events with
      | some (none, cmd) =>
          if cmd.cmd = Command.mmStopMonitorManager.code then [.shutDown]
          else []
      | _ => []
  | (s, .runOnExit child none) =>
      if (s.objects.children[child]?).any fun c =>
          (c.kind, c.className) = key then
        [.exited child]
      else []
  | (s, .runStop index) =>
      if (s.stops[index]?).any fun exchange =>
          exchange.stage = .writing ∧
            (exchange.kind, exchange.className) = key then
        [.stopSent]
      else []
  | (s, .inotifyRead events) =>
      (handledSocketEvents config key (s, .inotifyRead events)).map .socket
  | _ => []

def classEvents (config : Config) (key : Key) (attempt : State × Action) :
    List ClassEvent :=
  launchEvents config key attempt ++ handledEvents config key attempt

section Events

variable {config : Config} {startUp : StartUp} {start s next : State}
  {action : Action} {key : Key}

/-- A step that leaves the children in their number starts none. -/
theorem launchEvents_of_same
    (taken : step config s action = some (.ok next))
    (same : next.objects.children.length = s.objects.children.length) :
    launchEvents config key (s, action) = [] := by
  have none : startedBy config (s, action) = none := by
    simp [startedBy, taken, ← same]
  rw [launchEvents, none]
  split
  · rename_i started
    simp at started
  · rfl

/-- The process has what the environment of its add gives. -/
theorem spawn_of_startProcess {m : MonitorOrScraper} {env : Environment}
    {started : Started}
    (starts : startProcess m env = .ok (.ok started)) :
    env.spawn = some (started.pid, started.creation) := by
  unfold startProcess at starts
  split at starts
  · simp at starts
  · split at starts
    · simp at starts
    · split at starts
      · simp at starts
      · simp at starts
      · simp at starts
      · simp at starts
      · split at starts
        · simp at starts
        · rename_i spawned
          rcases Except.ok.inj (Except.ok.inj starts) with rfl
          exact spawned

theorem launchEvents_of_launch {call : AddCall} {className : String}
    {started : Started}
    (taken : step config s action = some (.ok next))
    (handles : addCall s action = some call)
    (starts : call.Starts s.objects className started)
    (absent : s.objects.find? call.kind className = none)
    (launched : next.objects = call.launch className started s.objects) :
    launchEvents config key (s, action) =
      if key = (call.kind, className) then
        [.launched
          { child := s.objects.children.length
            pid := started.pid
            creation := started.creation }]
      else [] := by
  have free : (s.objects.find? call.kind className).bind
      StoredObject.process = none := by
    rw [absent, Option.bind_none]
  have children : next.objects.children = s.objects.children ++
      [{ kind := call.kind
         className := className
         commandLine := started.commandLine }] := by
    rw [launched]
    exact children_launch free ..
  simp [launchEvents, startedBy, taken, children, handles,
    spawn_of_startProcess starts.starts, eq_comm (a := key)]

/-! ## Events of files -/

/-- A creation finds the class, or no class is known of that name. -/
theorem standing_updateList {m : MonitorOrScraper}
    {socketFullPath className : String} {mask : UInt32} {peer : Peer}
    (kept : s.objects.WellKept) (key : Key) :
    (updateList m socketFullPath className mask peer s).objects.standing
        key =
      replay Standing.after (s.objects.standing key)
        (if key = (m, className) then
          (socketEvent mask).toList.map .socket
        else []) := by
  unfold updateList socketEvent
  by_cases creates : mask = inCreate
  · rw [if_pos creates, if_pos creates]
    cases found : s.objects.find? m className with
    | none =>
        dsimp only
        rw [verifySocketIsCommunicating_objects]
        split
        · rename_i here
          rcases here with rfl
          rw [standing_of_absent found]
          rfl
        · rfl
    | some stored =>
        have known : (s.objects.standing (m, className)).process.isSome ∨
            (s.objects.standing (m, className)).socket := by
          have occupied : stored.process.isSome ∨ stored.endpoint.isSome :=
            (kept found).occupied
          simpa [standing, found] using occupied
        have stores : (s.objects.put m className
            { stored with endpoint := some socketFullPath }).standing key =
              replay Standing.after (s.objects.standing key)
                (if key = (m, className) then [.socket .created]
                else []) := by
          rw [standing_setEndpoint found]
          split
          · rename_i here
            rcases here with rfl
            simpa [replay, Standing.after] using known
          · rfl
        dsimp only
        split
        · rw [verifySocketIsCommunicating_objects]
          exact stores
        · exact stores
  · rw [if_neg creates, if_neg creates]
    split
    · rw [standing_removeStoredSocket]
      split
      · rfl
      · rfl
    · split
      · rfl
      · rfl

theorem standing_onInotifyEvent {event : InotifyEvent}
    (kept : s.objects.WellKept)
    (ran : onInotifyEvent config event s = .ok next) (key : Key) :
    next.objects.standing key =
      replay Standing.after (s.objects.standing key)
        ((socketEventOf config key s event).toList.map .socket) := by
  unfold onInotifyEvent at ran
  unfold socketEventOf
  split at ran
  · simp at ran
  · rename_i watch found
    simp only [found, Option.bind_eq_bind, Option.bind_some]
    dsimp only at ran
    split at ran
    · rename_i socketDir
      split at ran
      · rename_i handled
        rcases Except.ok.inj ran with rfl
        rw [checkSocketAndUpdateList_eq, socketDir]
        cases about : socketClass (config.socketPath ++ "/" ++ event.name)
            event.name with
        | none => rw [if_neg (by simp)]; rfl
        | some other =>
            rw [Option.elim_some, standing_updateList kept]
            by_cases here : key = other
            · rcases here with rfl
              rw [if_pos rfl, if_pos ⟨rfl, handled, rfl⟩]
            · rw [if_neg here, if_neg]
              · rfl
              · exact fun all => here (Option.some.inj all.2.2).symm
      · rename_i ignored
        rcases Except.ok.inj ran with rfl
        rw [if_neg fun all => ignored all.2.1]
        rfl
    · rename_i configDir
      rw [onConfigEvent_objects ran, if_neg fun all => configDir all.1]
      rfl

theorem standing_onInotifyEvents {events : List InotifyEvent}
    (sound : s.objects.Sound)
    (ran : onInotifyEvents config s events = .ok next) (key : Key) :
    next.objects.standing key =
      replay Standing.after (s.objects.standing key)
        ((socketEventsIn config key s events).map .socket) := by
  induction events generalizing s with
  | nil =>
      rcases Except.ok.inj ran with rfl
      rfl
  | cons event events ih =>
      rcases bind_eq_ok.mp ran with ⟨middle, handled, rest⟩
      have changes : Changes s.objects middle.objects :=
        (onInotifyEvent_quiet handled).objects.mono fun _ _ => trivial
      rw [socketEventsIn, handled, List.map_append, replay_append,
        ← standing_onInotifyEvent sound.wellKept handled key]
      exact ih (sound.changes changes) rest

/-! ## One step -/

/-- What a step does to the standing of a class. -/
inductive StandingEffect (config : Config) (key : Key) (s : State)
    (action : Action) (next : Objects) : Prop where
  | told (told : next.standing key =
      replay Standing.after (s.objects.standing key)
        (handledEvents config key (s, action)))
  | launches (call : AddCall) (className : String) (started : Started)
      (handles : addCall s action = some call)
      (starts : call.Starts s.objects className started)

theorem StandingEffect.silent {o : Objects}
    (silent : handledEvents config key (s, action) = [])
    (same : o.standing key = s.objects.standing key) :
    StandingEffect config key s action o := by
  refine .told ?_
  rw [silent, same]
  rfl

theorem StandingEffect.of_find? {o : Objects}
    (silent : handledEvents config key (s, action) = [])
    (same : o.find? key.1 key.2 = s.objects.find? key.1 key.2) :
    StandingEffect config key s action o :=
  .silent silent (standing_eq_of_find? same)

/-- A STOP that begins marks the entry and nothing more. -/
theorem standing_handleStop {m : MonitorOrScraper} {cmd : Cmd}
    {env : Environment} {callback : Callback}
    (handled : handleStop m cmd env callback s = .ok next) (key : Key) :
    next.objects.standing key = s.objects.standing key := by
  rcases bind_eq_ok.mp handled with ⟨⟨objects, outcome⟩, ran, replied⟩
  have marked : objects.standing key = s.objects.standing key := by
    rcases onStop_cases ran with
      ⟨response, same⟩ | ⟨exchange, stored, -, found, same⟩
    · rcases Prod.mk.inj same with ⟨rfl, -⟩
      rfl
    · rcases Prod.mk.inj same with ⟨rfl, -⟩
      exact standing_put found (by rfl) (by rfl) key
  cases outcome with
  | error response => rw [(invoke_same replied).objects]; exact marked
  | ok exchange =>
      rcases Except.ok.inj replied with rfl
      exact marked

theorem standing_shutdown (o : Objects) (key : Key) :
    ((o.terminateProcesses .monitor).terminateProcesses .scraper).standing
        key =
      { o.standing key with process := none } := by
  rcases key with ⟨_ | _, name⟩
  · simp [standing_terminateProcesses]
  · simp [standing_terminateProcesses]

/-- Of the commands, only an add and the shutdown change a standing. -/
theorem commandRead_standing {index : Nat} {events : List StreamEvent}
    {env : Environment}
    (taken : step config s (.commandRead index events env) =
      some (.ok next)) :
    StandingEffect config key s (.commandRead index events env)
      next.objects := by
  rcases Option.bind_eq_some_iff.mp taken with
    ⟨⟨connection, server⟩, accepted, ran⟩
  rcases Option.bind_eq_some_iff.mp ran with ⟨⟨err, cmd⟩, read, ran⟩
  have handled := Option.some.inj ran
  cases err with
  | some err =>
      rcases Except.ok.inj handled with rfl
      exact .silent (by simp [handledEvents, read]) rfl
  | none =>
      by_cases isShutdown : cmd.cmd = Command.mmStopMonitorManager.code
      · rcases step_shutdown ⟨index, events, env, cmd, rfl, read, isShutdown⟩
          taken with ⟨_, same, terminated⟩
        rcases Except.ok.inj same with rfl
        refine .told ?_
        rw [terminated, standing_shutdown]
        simp [handledEvents, read, isShutdown, replay, Standing.after]
      · have silent :
            handledEvents config key (s, .commandRead index events env) =
              [] := by
          simp [handledEvents, read, isShutdown]
        cases found : callbackMap.lookup cmd.cmd with
        | none =>
            rw [handleCallback_of_missing found] at handled
            rcases Except.ok.inj handled with rfl
            exact .silent silent rfl
        | some callback =>
            rw [handleCallback_of_lookup found] at handled
            rcases catchOutOfRange_eq_ok handled with ran | ⟨-, rfl⟩
            · rcases callbackMap_cases found with
                ⟨m, isAdd, rfl⟩ | ⟨m, isStop, rfl⟩ | ⟨stops, rfl⟩ |
                  ⟨answers, -⟩
              · have call : addCall s (.commandRead index events env) =
                    commandCall none cmd env connection := by
                  simp [addCall, accepted, read]
                have handles := call.trans (commandCall_add isAdd ..)
                rcases handleAdd_cases
                  { kind := m
                    cmd := cmd
                    env := env
                    callback := .client connection } ran with
                    same | ⟨className, started, starts, -⟩
                · exact .silent silent (by rw [same])
                · exact .launches _ className started handles starts
              · have stopped := standing_handleStop ran key
                exact .silent silent stopped
              · exact absurd stops isShutdown
              · rcases answers cmd env connection { s with server := server }
                  with ⟨answered, ran', objects, -⟩
                rcases Except.ok.inj (ran'.symm.trans ran) with rfl
                exact .silent silent (by rw [objects])
            · exact .silent silent rfl

theorem runPosted_standing {env : Environment}
    (taken : step config s (.runPosted env) = some (.ok next)) :
    StandingEffect config key s (.runPosted env) next.objects := by
  have silent : handledEvents config key (s, .runPosted env) = [] := rfl
  change runPosted env s = _ at taken
  unfold runPosted at taken
  split at taken
  · simp at taken
  · rename_i half posted queued
    have ran := Option.some.inj taken
    unfold runHalf at ran
    split at ran
    · rcases Except.ok.inj ran with rfl
      exact .silent silent rfl
    · rename_i c found
      cases handler : c.momanCb with
      | onAdd =>
          rw [handler] at ran
          rcases handleAdd_cases
            { kind := half.kind
              cmd := c.cmd
              env := env
              callback := .half half.completion } ran with
              same | ⟨className, started, starts, -⟩
          · exact .silent silent (by rw [same])
          · refine .launches _ className started ?_ starts
            have present : s.completions[half.completion]? = some c := found
            simp [addCall, queued, halfCall, present, handler]
      | onGetStatus =>
          rw [handler] at ran
          exact .silent silent (by rw [(invoke_same ran).objects])
      | onStop =>
          rw [handler] at ran
          have stopped := standing_handleStop ran key
          exact .silent silent stopped

theorem runAddWait_standing {timer : Nat}
    (taken : step config s (.runAddWait timer) = some (.ok next)) :
    StandingEffect config key s (.runAddWait timer) next.objects := by
  rcases runAddWait_takes taken with ⟨wait, outcome, -, -, handled, replied⟩
  rw [(reply_same replied).1]
  have took : (s.objects.takeWait timer).standing key =
      s.objects.standing key :=
    standing_eq_of_find? (find?_takeWait ..)
  refine .silent rfl ?_
  rcases onAddTimer_cases handled with
    same | ⟨stored, confirmAdded, found, -, cleared⟩
  · rw [same, took]
  · rw [cleared, ← took]
    exact standing_put found (by rfl) (by rfl) key

/-- An exit that is reported with an error tells nothing. -/
theorem runOnExit_standing {child : Nat} {ec : Option ErrorCode}
    (taken : step config s (.runOnExit child ec) = some (.ok next)) :
    StandingEffect config key s (.runOnExit child ec) next.objects := by
  rcases runOnExit_takes taken with ⟨c, found, -, -, rfl⟩
  cases ec with
  | some err => exact .of_find? rfl (find?_deliverExit ..)
  | none =>
      have delivered : (s.objects.deliverExit child).standing key =
          s.objects.standing key :=
        standing_eq_of_find? (find?_deliverExit ..)
      refine .told ?_
      change ((s.objects.deliverExit child).removeStoredProcess c.kind
        c.className).standing key = _
      rw [standing_removeStoredProcess, delivered]
      simp only [handledEvents, found, Option.any_some, decide_eq_true_eq,
        eq_comm (a := key)]
      split
      · rfl
      · rfl

theorem inotifyRead_standing {events : List KernelEvent}
    (sound : s.objects.Sound)
    (taken : step config s (.inotifyRead events) = some (.ok next)) :
    StandingEffect config key s (.inotifyRead events) next.objects := by
  rcases inotifyRead_takes taken with ⟨fileWatcher, queued, updated⟩
  refine .told ?_
  rw [handledEvents, handledSocketEvents, queued]
  unfold onInotifyUpdate at updated
  have told := standing_onInotifyEvents (by exact sound) updated key
  exact told

/-- The socket goes when the command has been written, or has failed to. -/
theorem runStop_standing {index : Nat}
    (taken : step config s (.runStop index) = some (.ok next)) :
    StandingEffect config key s (.runStop index) next.objects := by
  rcases Option.bind_eq_some_iff.mp taken with ⟨exchange, found, taken⟩
  rcases Option.bind_eq_some_iff.mp taken with ⟨outcome, -, taken⟩
  have stopped : next.objects = stopObjects exchange s.objects := by
    cases outcome with
    | ok waiting => rw [← Except.ok.inj (Option.some.inj taken)]
    | error response => exact (invoke_same (Option.some.inj taken)).objects
  refine .told ?_
  rw [stopped]
  simp only [handledEvents, found, Option.any_some, decide_eq_true_eq,
    stopObjects]
  cases stage : exchange.stage with
  | writing =>
      simp only [true_and]
      rw [standing_removeStoredSocket]
      simp only [eq_comm (a := key)]
      split
      · rfl
      · rfl
  | reading => simp

theorem step_standing (reached : Reached config s)
    (taken : step config s action = some (.ok next)) :
    StandingEffect config key s action next.objects := by
  cases action with
  | acceptCompletes index err =>
      rcases acceptCompletes_takes taken with ⟨server, -, rfl⟩
      exact .silent rfl rfl
  | runOnConnect index =>
      rcases runOnConnect_takes taken with ⟨server, -, rfl⟩
      exact .silent rfl rfl
  | commandRead index events env => exact commandRead_standing taken
  | runPosted env => exact runPosted_standing taken
  | timerExpires timer =>
      rcases timerExpires_takes taken with ⟨wait, -, -, rfl⟩
      exact .of_find? rfl (find?_expireTimer ..)
  | runAddWait timer => exact runAddWait_standing taken
  | childExits child =>
      rcases childExits_takes taken with ⟨c, -, -, rfl⟩
      exact .of_find? rfl (find?_kill ..)
  | runOnExit child ec => exact runOnExit_standing taken
  | inotifyRead events =>
      exact inotifyRead_standing reached.sound taken
  | runVerification index =>
      rcases runVerification_takes reached.aborted taken with rfl
      exact .silent rfl rfl
  | runStop index => exact runStop_standing taken

/-- A step that handles an add request handles nothing else. -/
theorem handledEvents_of_addCall {call : AddCall}
    (handles : addCall s action = some call) :
    handledEvents config key (s, action) = [] := by
  cases action with
  | commandRead index events env =>
      rcases Option.bind_eq_some_iff.mp handles with
        ⟨⟨connection, server⟩, -, handles⟩
      rcases Option.bind_eq_some_iff.mp handles with
        ⟨⟨err, cmd⟩, read, handles⟩
      cases err with
      | some err => simp [handledEvents, read]
      | none =>
          by_cases isShutdown : cmd.cmd = Command.mmStopMonitorManager.code
          · have ignored : commandCall none cmd env connection = none := by
              unfold commandCall
              rw [isShutdown]
              rfl
            exact absurd (ignored.symm.trans handles) (by simp)
          · simp [handledEvents, read, isShutdown]
  | runPosted env => rfl
  | _ => simp [addCall] at handles

/-- The standing of a class follows its events, one step after the other. -/
theorem standing_told (built : construct config startUp = .ok start)
    (key : Key) :
    Tells (step config) start (fun s => s.objects.standing key)
      Standing.after (classEvents config key) := by
  intro s action next reachable taken
  have reached : Reached config s := ⟨startUp, start, built, reachable⟩
  dsimp only
  rw [classEvents, replay_append]
  rcases (step_effect reached.aborted taken).objects with
    ⟨changes, rejected⟩ | ⟨call, className, started, handles, starts, after⟩
  · have same := changes.children_length
    rw [leaveQueue_children] at same
    rw [launchEvents_of_same taken same]
    rcases step_standing reached taken with
      told | ⟨call, className, started, handles, starts⟩
    · exact told
    · have rejects := rejected call handles className started
      rw [leaveQueue_of_addCall handles] at rejects
      exact absurd starts rejects
  · rw [leaveQueue_of_addCall handles] at starts after
    have absent := reached.sound.wellKept.absent starts.admits
    rw [launchEvents_of_launch taken handles starts absent after,
      handledEvents_of_addCall handles, after, AddCall.launch,
      standing_launch (by exact absent)]
    by_cases here : key = (call.kind, className)
    · rw [if_pos here, if_pos (by exact here)]
      rfl
    · rw [if_neg here, if_neg (by exact here)]
      rfl

end Events

/-! ## Runs -/

/-- The standing that the events of a run give to a class. -/
def told (config : Config) (key : Key) (attempts : List (State × Action)) :
    Standing :=
  replay Standing.after {} (attempts.flatMap (classEvents config key))

/-- The standing of a class is told by the run that reached it. -/
theorem standing_eq_told {config : Config} {startUp : StartUp}
    {start s : State} (built : construct config startUp = .ok start)
    {attempts : List (State × Action)}
    (run : Run (step config) start attempts (.ok s)) (key : Key) :
    s.objects.standing key = told config key attempts := by
  have absent := construct_absent built key.1 key.2
  have tells : Tells (step config) start (fun s => s.objects.standing key)
      Standing.after (classEvents config key) :=
    standing_told built key
  rw [told, ← standing_of_absent absent]
  exact Tells.run tells run

/--
After every run the status reply lists the process of a class as it was
launched, unless an exit or a shutdown came after, and its socket unless a
deletion or a STOP came after its creation, written or failed; a creation
counts when the class was known.  A class that is not listed has no entry.
-/
theorem status_tells_history {config : Config} {startUp : StartUp}
    {start s : State} (built : construct config startUp = .ok start)
    {attempts : List (State × Action)}
    (run : Run (step config) start attempts (.ok s))
    (m : MonitorOrScraper) :
    ∃ processes sockets,
      (onGetStatus m s.objects).payload.find? "monitored_processes" =
          some processes ∧
        (onGetStatus m s.objects).payload.find? "monitored_sockets" =
            some sockets ∧
          ∀ className,
            processes.find? className =
                (told config (m, className) attempts).process.map
                  Process.toJson ∧
              (sockets.find? className).isSome =
                  (told config (m, className) attempts).socket ∧
                (told config (m, className) attempts = {} →
                  s.objects.find? m className = none) := by
  have reached : Reached config s :=
    ⟨startUp, start, built, attempts, run⟩
  have kept := reached.sound.wellKept
  rcases onGetStatus_lists kept m with
    ⟨processes, sockets, first, second, lists⟩
  refine ⟨processes, sockets, first, second, ?_⟩
  intro className
  rw [← standing_eq_told built run (m, className)]
  rcases lists className with ⟨listed, connected⟩
  refine ⟨listed, ?_, ?_⟩
  · rw [connected, Option.isSome_map]
    rfl
  · intro nothing
    cases found : s.objects.find? m className with
    | none => rfl
    | some stored =>
        have process : stored.process = none := by
          simpa [standing, found] using congrArg Standing.process nothing
        have endpoint : stored.endpoint = none := by
          simpa [standing, found] using congrArg Standing.socket nothing
        have occupied := (kept found).occupied
        simp [StoredObject.Occupied, process, endpoint] at occupied

/-- A monitor whose socket outlives its process is listed with the socket. -/
theorem history_of_orphan :
    ∃ s processes sockets,
      execute (step Installation.config) Installation.start
          (Installation.request
              (Installation.about .mmAddMonitor "Shoes") ++
            [Installation.socketCreated, .childExits 0,
              .runOnExit 0 none]) = some s ∧
        (onGetStatus .monitor s.objects).payload.find?
            "monitored_processes" = some processes ∧
          (onGetStatus .monitor s.objects).payload.find?
              "monitored_sockets" = some sockets ∧
            processes.find? "Shoes" = none ∧
              (sockets.find? "Shoes").isSome = true := by
  have setting : (execute (step Installation.config) Installation.start
      (Installation.request (Installation.about .mmAddMonitor "Shoes") ++
        [Installation.socketCreated, .childExits 0,
          .runOnExit 0 none])).isSome = true := by
    decide +kernel
  rcases Option.isSome_iff_exists.mp setting with ⟨s, executed⟩
  have run := Run.of_execute executed
  rcases status_tells_history Installation.start_built run .monitor with
    ⟨processes, sockets, first, second, lists⟩
  refine ⟨s, processes, sockets, executed, first, second, ?_⟩
  have history : told Installation.config (.monitor, "Shoes")
      (attemptsOf (step Installation.config) Installation.start
        (Installation.request (Installation.about .mmAddMonitor "Shoes") ++
          [Installation.socketCreated, .childExits 0,
            .runOnExit 0 none])) = { socket := true } := by
    decide +kernel
  rcases lists "Shoes" with ⟨process, socket, -⟩
  rw [history] at process socket
  exact ⟨process, socket⟩

end Manager

end KekMonitors
