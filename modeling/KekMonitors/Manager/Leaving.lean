import KekMonitors.Manager.Effects
import KekMonitors.Manager.Expiry

/-!
# Entries that leave the store

An entry goes when it has neither a process nor a socket.  The exit handler
takes the process, the deletion of the socket the socket, in either order.  An
exit that is reported with an error is only logged: the entry that still holds
the process keeps it for good, and its class cannot be added again.
-/

namespace KekMonitors.Manager

open Connection
open Objects
open Transition

/-! ## Events of sockets -/

/-- The kind and the class that a socket name stands for. -/
def socketClass (socketFullPath socketName : String) : Option Key :=
  let socketName :=
    if socketName.isEmpty then baseName socketFullPath else socketName
  match splitSocketName socketName with
  | none => none
  | some (socketPrefix, className) =>
      (socketKind socketPrefix).map fun m => (m, className)

inductive SocketEvent where
  | created
  | deleted
  deriving DecidableEq

/-- The masks that `checkSocketAndUpdateList` distinguishes. -/
def socketEvent (mask : UInt32) : Option SocketEvent :=
  if mask = inCreate then some .created
  else if mask = inDelete then some .deleted
  else none

/-- What a file event says about the socket of a class, where it is handled. -/
def socketEventOf (config : Config) (key : Key) (s : State)
    (event : InotifyEvent) : Option SocketEvent := do
  let watch ← s.fileWatcher.findWatch event.watch
  if watch.path = config.socketPath ∧
      (event.mask &&& inCreate ≠ 0 ∧ event.surroundings.isSocket ∨
        event.mask &&& inDelete ≠ 0) ∧
      socketClass (watch.path ++ "/" ++ event.name) event.name = some key then
    socketEvent event.mask
  else none

/-- The events of the socket of a class that a loop handles. -/
def socketEventsIn (config : Config) (key : Key) (s : State) :
    List InotifyEvent → List SocketEvent
  | [] => []
  | event :: events =>
      (socketEventOf config key s event).toList ++
        match onInotifyEvent config event s with
        | .ok next => socketEventsIn config key next events
        | .error _ => []

/-- The events of the socket of a class that a step handles. -/
def handledSocketEvents (config : Config) (key : Key) :
    State × Action → List SocketEvent
  | (s, .inotifyRead events) =>
      match s.fileWatcher.queueEvents events with
      | .ok fileWatcher =>
          let inotify := { fileWatcher.inotify with events := [] }
          socketEventsIn config key
            { s with fileWatcher := { fileWatcher with inotify := inotify } }
            fileWatcher.inotify.events
      | .error _ => []
  | _ => []

/-! ## Finished processes -/

/-- A process of a class is done with, in a run since its launch. -/
structure Finished (config : Config) (since : List (State × Action))
    (child : Nat) (request : AddRequest) : Prop where
  /-- No other process has been launched for the class. -/
  latest : ∀ attempt ∈ since, ∀ other another,
    Launches attempt.1 attempt.2 other another → home another ≠ home request
  /-- The process has exited, and its exit handler has run. -/
  exited : ∃ s ec, (s, .runOnExit child ec) ∈ since
  /-- The wait handler of its add request has run. -/
  answered : HandlerRan since child
  /-- The deletion of its socket has been handled, if one was created. -/
  disconnected :
    (since.flatMap (handledSocketEvents config (home request))).getLast? ≠
      some .created

/-- A class whose process is done with has no entry, and can be added. -/
def Readmits (config : Config) (attempts : List (State × Action))
    (s : State) : Prop :=
  ∀ before since earlier action child request,
    attempts = before ++ (earlier, action) :: since →
      Launches earlier action child request →
        Finished config since child request →
          s.objects.find? request.kind request.className = none ∧
            (s.objects.find? request.kind request.className).bind
              (refuse request.kind) = none

/--
An exit handler that is given an error finds no entry that still holds the
process.
-/
def ErrsWhenGone (s : State) (action : Action) : Prop :=
  ∀ child err m className stored process,
    action = .runOnExit child (some err) →
      s.objects.find? m className = some stored →
        stored.process = some process → process.child ≠ child

/-! ## One event -/

/-- The entry of the class has a socket. -/
def Connected (o : Objects) (key : Key) : Prop :=
  ∃ stored, o.find? key.1 key.2 = some stored ∧ stored.endpoint.isSome

theorem checkSocketAndUpdateList_eq (socketFullPath socketName : String)
    (mask : UInt32) (peer : Peer) (s : State) :
    checkSocketAndUpdateList socketFullPath socketName mask peer s =
      (socketClass socketFullPath socketName).elim s fun key =>
        updateList key.1 socketFullPath key.2 mask peer s := by
  unfold checkSocketAndUpdateList socketClass
  dsimp only
  generalize (if socketName.isEmpty then _ else _) = name
  cases splitSocketName name with
  | none => rfl
  | some parts =>
      rcases parts with ⟨socketPrefix, className⟩
      dsimp only
      cases socketKind socketPrefix <;> rfl

theorem connected_of_changes {may : Deed → Prop} {o next : Objects}
    {key : Key} (changes : ChangesBy may o next) (idle : ¬ may .storesSocket)
    (connected : Connected next key) : Connected o key := by
  rcases connected with ⟨entry, found, reachable⟩
  rcases changes.origin found with ⟨stored, present, amends⟩
  exact ⟨stored, present, (amends.endpoint reachable).resolve_right idle⟩

/-- An event can connect its own class, by a creation, and no other. -/
theorem connected_updateList {m : MonitorOrScraper}
    {socketFullPath className : String} {mask : UInt32} {peer : Peer}
    {s : State} {key : Key}
    (connected : Connected
      (updateList m socketFullPath className mask peer s).objects key) :
    key = (m, className) ∧ socketEvent mask = some .created ∨
      Connected s.objects key ∧
        (key = (m, className) → socketEvent mask = none) := by
  rcases connected with ⟨entry, found, reachable⟩
  unfold updateList at found
  unfold socketEvent
  split at found
  · rename_i creates
    rw [if_pos creates]
    by_cases here : key = (m, className)
    · exact Or.inl ⟨here, rfl⟩
    · refine Or.inr ⟨⟨entry, ?_, reachable⟩, fun same => absurd same here⟩
      split at found
      · dsimp only at found
        split at found
        · rw [verifySocketIsCommunicating_objects, find?_put,
            if_neg here] at found
          exact found
        · rw [find?_put, if_neg here] at found
          exact found
      · rw [verifySocketIsCommunicating_objects] at found
        exact found
  · rename_i creates
    rw [if_neg creates]
    right
    split at found
    · rename_i deletes
      rw [if_pos deletes]
      rcases found_removeStoredSocket found with
        ⟨stored, present, ⟨-, rfl, -⟩ | ⟨elsewhere, rfl⟩⟩
      · simp at reachable
      · exact ⟨⟨entry, present, reachable⟩,
          fun here => absurd here elsewhere⟩
    · rename_i deletes
      rw [if_neg deletes]
      exact ⟨⟨entry, found, reachable⟩, fun _ => rfl⟩

/-- After an event a class is connected by it, or as it was before. -/
theorem connected_onInotifyEvent {config : Config} {event : InotifyEvent}
    {s next : State} {key : Key}
    (ran : onInotifyEvent config event s = .ok next)
    (connected : Connected next.objects key) :
    socketEventOf config key s event = some .created ∨
      socketEventOf config key s event = none ∧ Connected s.objects key := by
  unfold onInotifyEvent at ran
  unfold socketEventOf
  split at ran
  · simp at ran
  · rename_i watch found
    simp only [found, Option.bind_eq_bind, Option.bind_some]
    dsimp only at ran
    split at ran
    · rename_i socketDir
      split at ran
      · rename_i handled
        rcases Except.ok.inj ran with rfl
        rw [checkSocketAndUpdateList_eq, socketDir] at connected
        rw [socketDir]
        cases about : socketClass (config.socketPath ++ "/" ++ event.name)
            event.name with
        | none =>
            rw [about] at connected
            exact Or.inr ⟨if_neg (by simp), connected⟩
        | some other =>
            rw [about] at connected
            rcases connected_updateList connected with
              ⟨rfl, created⟩ | ⟨before, uneventful⟩
            · exact Or.inl ((if_pos ⟨rfl, handled, rfl⟩).trans created)
            · refine Or.inr ⟨?_, before⟩
              split
              · rename_i all
                exact uneventful (Option.some.inj all.2.2).symm
              · rfl
      · rename_i ignored
        rcases Except.ok.inj ran with rfl
        exact Or.inr ⟨if_neg fun all => ignored all.2.1, connected⟩
    · rename_i configDir
      rw [onConfigEvent_objects ran] at connected
      exact Or.inr ⟨if_neg fun all => configDir all.1, connected⟩

/-- After a loop a class is connected by its last event, or as before. -/
theorem connected_onInotifyEvents {config : Config}
    {events : List InotifyEvent} {s next : State} {key : Key}
    (ran : onInotifyEvents config s events = .ok next)
    (connected : Connected next.objects key) :
    (socketEventsIn config key s events).getLast? = some .created ∨
      socketEventsIn config key s events = [] ∧ Connected s.objects key := by
  induction events generalizing s with
  | nil =>
      rcases Except.ok.inj ran with rfl
      exact Or.inr ⟨rfl, connected⟩
  | cons event events ih =>
      rcases bind_eq_ok.mp ran with ⟨middle, handled, rest⟩
      rw [socketEventsIn, handled]
      dsimp only
      rw [List.getLast?_append]
      rcases ih rest with created | ⟨none, between⟩
      · exact Or.inl (by rw [created]; rfl)
      · rw [none, List.append_nil]
        rcases connected_onInotifyEvent handled between with
          created | ⟨silent, before⟩
        · exact Or.inl (by rw [created]; rfl)
        · exact Or.inr ⟨by rw [silent]; rfl, before⟩

/-! ## One step -/

section OneStep

variable {config : Config} {s next : State} {action : Action} {key : Key}

/-- After a step a class is connected by its last event, or as before. -/
theorem step_connected (reached : Reached config s)
    (other : ∀ child request, Launches s action child request →
      home request ≠ key)
    (taken : step config s action = some (.ok next))
    (connected : Connected next.objects key) :
    (handledSocketEvents config key (s, action)).getLast? = some .created ∨
      handledSocketEvents config key (s, action) = [] ∧
        Connected s.objects key := by
  have silent : (∀ events, action ≠ .inotifyRead events) →
      handledSocketEvents config key (s, action) = [] := by
    intro unread
    cases action with
    | inotifyRead events => exact absurd rfl (unread events)
    | _ => rfl
  cases step_effects reached.aborted taken with
  | changes unread unexited changed kept =>
      have before := connected_of_changes changed id connected
      rw [Connected, leaveQueue_find?] at before
      exact Or.inr ⟨silent unread, before⟩
  | launches call className started handles starts launched kept =>
      have launches : Launches s action s.objects.children.length
          (call.request className) :=
        ⟨call, className, started, handles, starts, rfl, rfl⟩
      have elsewhere := other _ _ launches
      have unread : ∀ events, action ≠ .inotifyRead events := by
        rintro events rfl
        simp [addCall] at handles
      rw [launched, Connected, AddCall.launch, find?_launch,
        if_neg fun same => elsewhere same.symm] at connected
      exact Or.inr ⟨silent unread, connected⟩
  | marks exchange stored unread found marked queued =>
      have marking : ChangesBy (· = .marksStop) s.objects next.objects := by
        rw [marked]
        exact put_marked_changes found rfl
      exact Or.inr ⟨silent unread,
        connected_of_changes marking (by simp) connected⟩
  | exchanges index exchange outcome runs queued handled stopped left =>
      have stopping : ChangesBy NoDeed s.objects next.objects := by
        rw [stopped]
        exact stopObjects_changes exchange s.objects
      exact Or.inr ⟨silent (by simp [runs]),
        connected_of_changes stopping id connected⟩
  | exits child ec c runs found exited kept =>
      have exiting : ChangesBy (· = .deliversExit) s.objects
          next.objects := by
        rw [exited]
        exact .head (.deliverExit child rfl) (onProcessExit_changes ..)
      exact Or.inr ⟨silent (by simp [runs]),
        connected_of_changes exiting (by simp) connected⟩
  | reads events fileWatcher after runs queued updated same kept =>
      subst runs
      rw [same] at connected
      rw [handledSocketEvents, queued]
      exact connected_onInotifyEvents updated connected

/-- Only a launch gives a class a process. -/
theorem step_processAt (reached : Reached config s)
    (other : ∀ child request, Launches s action child request →
      home request ≠ key)
    (taken : step config s action = some (.ok next)) {process : Process}
    (held : next.objects.processAt key.1 key.2 = some process) :
    s.objects.processAt key.1 key.2 = some process := by
  rcases (step_effect reached.aborted taken).objects with
    ⟨changes, -⟩ | ⟨call, className, started, handles, starts, launched⟩
  · have before := changes.processAt held
    rw [processAt, leaveQueue_find?] at before
    exact before
  · rw [leaveQueue_of_addCall handles] at starts launched
    have elsewhere := other _ _
      ⟨call, className, started, handles, starts, rfl, rfl⟩
    rw [launched, processAt, AddCall.launch, find?_launch,
      if_neg fun same => elsewhere same.symm] at held
    exact held

/-- After its exit handler no entry holds a process. -/
theorem runOnExit_releases (reached : Reached config s) {child : Nat}
    {ec : Option ErrorCode}
    (errs : ErrsWhenGone s (.runOnExit child ec))
    (taken : step config s (.runOnExit child ec) = some (.ok next))
    {process : Process}
    (held : s.objects.processAt key.1 key.2 = some process)
    (same : process.child = child) :
    next.objects.processAt key.1 key.2 = none := by
  rcases runOnExit_takes taken with ⟨c, found, -, -, rfl⟩
  cases ec with
  | some err =>
      rcases Option.bind_eq_some_iff.mp held with ⟨stored, present, holds⟩
      exact absurd same (errs child err key.1 key.2 stored process rfl present
        holds)
  | none =>
      have holder : s.objects.supervision.holder key = some child := by
        rw [← same]
        exact congrArg (Option.map Process.child) held
      have owner := reached.placed key child holder
      have here : (c.kind, c.className) = key := by
        simpa [supervision, found] using owner
      rw [← here]
      exact processAt_removeStoredProcess c.kind c.className _

/-- What a launch leaves for its class, as long as it is the last one. -/
structure Trails (config : Config) (key : Key) (child : Nat)
    (since : List (State × Action)) (s : State) : Prop where
  reached : Reached config s
  connected : Connected s.objects key →
    (since.flatMap (handledSocketEvents config key)).getLast? =
      some .created
  held : ∀ process, s.objects.processAt key.1 key.2 = some process →
    process.child = child ∧
      ∀ earlier ec, (earlier, Action.runOnExit child ec) ∉ since

theorem Trails.step {child : Nat} {since : List (State × Action)}
    (trails : Trails config key child since s)
    (errs : ErrsWhenGone s action)
    (other : ∀ child request, Launches s action child request →
      home request ≠ key)
    (taken : Manager.step config s action = some (.ok next)) :
    Trails config key child (since ++ [(s, action)]) next where
  reached := trails.reached.advance taken
  connected after := by
    rw [List.flatMap_append, List.flatMap_singleton, List.getLast?_append]
    rcases step_connected trails.reached other taken after with
      created | ⟨silent, before⟩
    · rw [created]
      rfl
    · rw [silent, trails.connected before]
      rfl
  held process holds := by
    have before := step_processAt trails.reached other taken holds
    rcases trails.held process before with ⟨same, running⟩
    refine ⟨same, ?_⟩
    intro earlier ec member
    rcases List.mem_append.mp member with old | new
    · exact running earlier ec old
    · rcases Prod.mk.inj (List.mem_singleton.mp new) with ⟨rfl, rfl⟩
      rw [runOnExit_releases trails.reached errs taken before same] at holds
      simp at holds

end OneStep

/-! ## Runs -/

section Runs

variable {config : Config} {startUp : StartUp} {start s : State}
  {attempts : List (State × Action)}

/-- A launch stores its process without a socket. -/
theorem Launches.trails {next : State} {action : Action} {child : Nat}
    {request : AddRequest} (reached : Reached config s)
    (launches : Launches s action child request)
    (taken : step config s action = some (.ok next)) :
    Trails config (home request) child [] next := by
  rcases launches with ⟨call, className, started, handles, starts, rfl, rfl⟩
  rcases step_of_starts handles starts with ⟨after, ran, launched⟩
  rcases Except.ok.inj (Option.some.inj (taken.symm.trans ran)) with rfl
  have absent : s.objects.find? call.kind className = none :=
    reached.sound.wellKept.absent starts.admits
  have found : next.objects.find? call.kind className =
      some (s.objects.launched (call.request className) started.pid
        started.creation) := by
    rw [launched, AddCall.launch, find?_launch]
    exact if_pos rfl
  refine ⟨reached.advance taken, ?_, ?_⟩
  · rintro ⟨stored, present, reachable⟩
    rcases Option.some.inj (found.symm.trans present) with rfl
    simp [Objects.launched, AddCall.request, absent] at reachable
  · intro process held
    rcases Option.bind_eq_some_iff.mp held with ⟨stored, present, holds⟩
    rcases Option.some.inj (found.symm.trans present) with rfl
    rcases Option.some.inj holds with rfl
    exact ⟨rfl, by simp⟩

/--
As long as no exit handler is given an error while an entry still holds its
process, a class whose process is done with has no entry.
-/
theorem finished_readmitted (built : construct config startUp = .ok start)
    (run : Run (step config) start attempts (.ok s))
    (errs : Meets ErrsWhenGone attempts) : Readmits config attempts s := by
  rintro before since earlier action child request rfl launches finished
  rcases run.after_attempt with ⟨reaches, result, taken, rest⟩
  cases result with
  | error fault => cases rest.2
  | ok next =>
      have reached : Reached config earlier :=
        ⟨startUp, start, built, _, reaches⟩
      have trails := rest.history_of_meets
        (fun s action => ErrsWhenGone s action ∧ ∀ other another,
          Launches s action other another → home another ≠ home request)
        (Trails config (home request) child)
        (launches.trails reached taken)
        (fun trails met taken => trails.step met.1 met.2 taken) ?_ rfl
      · have absent :
            s.objects.find? request.kind request.className = none := by
          cases found : s.objects.find? request.kind request.className with
          | none => rfl
          | some stored =>
              rcases (trails.reached.sound.wellKept found).occupied with
                running | reachable
              · rcases Option.isSome_iff_exists.mp running with
                  ⟨process, holds⟩
                rcases finished.exited with ⟨state, ec, member⟩
                have held := trails.held process
                  (Option.bind_eq_some_iff.mpr ⟨stored, found, holds⟩)
                exact absurd member (held.2 state ec)
              · exact absurd (trails.connected ⟨stored, found, reachable⟩)
                  finished.disconnected
        refine ⟨absent, ?_⟩
        rw [absent]
        rfl
      · intro attempt member
        exact ⟨errs attempt (by simp [member]),
          finished.latest attempt member⟩

end Runs

namespace Installation

/-- The socket of the monitor disappears. -/
def socketDeleted : Action :=
  .inotifyRead
    [{ wd := config.socketPath.length
       mask := inDelete
       name := "Monitor.Shoes" }]

/-- A monitor makes its socket, is confirmed, exits and removes its socket. -/
def exitsClean : List Action :=
  addShoes ++ [socketCreated, .timerExpires 0, .runAddWait 0, .childExits 0,
    .runOnExit 0 none, socketDeleted]

/-- The last action of the add: its command is read. -/
def addRead : Action :=
  .commandRead 0 (transmit [(about .mmAddMonitor "Shoes").toString])
    environment

/-- No such process: it has been waited for already. -/
def alreadyReaped : ErrorCode := .other 10 "No child processes"

/-- The monitor dies early, and its wait handler sees that before its exit. -/
def diesUnseen : List Action :=
  [.childExits 0, .timerExpires 0, .runAddWait 0,
    .runOnExit 0 (some alreadyReaped)]

end Installation

/-- The action neither handles an add nor reads file events. -/
def Silent (action : Action) : Prop :=
  (∀ s, addCall s action = none) ∧
    ∀ config key s, handledSocketEvents config key (s, action) = []

/-- Some actions after a launch finish its process. -/
theorem finished_of_execute {config : Config} {after final : State}
    {actions : List Action} {child : Nat} {ec : Option ErrorCode}
    (executed : execute (step config) after actions = some final)
    (silent : ∀ action ∈ actions, Silent action)
    (exits : .runOnExit child ec ∈ actions)
    (answers : .runAddWait child ∈ actions) (request : AddRequest) :
    Finished config (attemptsOf (step config) after actions) child
      request := by
  have attempted : ∀ action ∈ actions,
      ∃ s, (s, action) ∈ attemptsOf (step config) after actions := by
    intro action member
    rw [← map_attemptsOf executed] at member
    rcases List.mem_map.mp member with ⟨attempt, made, rfl⟩
    exact ⟨attempt.1, made⟩
  constructor
  · rintro ⟨s, action⟩ member other another ⟨call, -, -, handles, -⟩
    rw [(silent action (mem_attemptsOf member)).1] at handles
    simp at handles
  · rcases attempted _ exits with ⟨s, made⟩
    exact ⟨s, ec, made⟩
  · exact attempted _ answers
  · rw [List.flatMap_eq_nil_iff.mpr]
    · simp
    · rintro ⟨s, action⟩ member
      exact (silent action (mem_attemptsOf member)).2 config _ s

open Installation

/-- A monitor that exits cleanly can be added again. -/
theorem exited_readmitted :
    ∃ s, execute (step config) start exitsClean = some s ∧
      Readmits config (attemptsOf (step config) start exitsClean) s := by
  have succeeds : (execute (step config) start exitsClean).isSome = true := by
    decide +kernel
  rcases Option.isSome_iff_exists.mp succeeds with ⟨s, executed⟩
  refine ⟨s, executed,
    finished_readmitted start_built (.of_execute executed) ?_⟩
  rintro attempt member child err m className stored process same
  have action := mem_attemptsOf member
  rw [same] at action
  simp [exitsClean, addShoes, request, socketCreated, socketDeleted]
    at action

/--
The exit of a monitor that the wait handler has found dead is reported with an
error, and its entry stays: the monitor cannot be added again.
-/
theorem reaped_monitor_stays :
    ∃ attempts s, Run (step config) start attempts (.ok s) ∧
      ¬ Readmits config attempts s := by
  have setting : (execute (step config) start (addShoes.take 2)).any
      (fun before => (before.objects.awaited 0).isNone ∧
        (execute (step config) before [addRead]).any fun after =>
          ((after.objects.awaited 0).any fun request =>
            home request = (.monitor, "Shoes")) ∧
            (execute (step config) after diesUnseen).any fun s =>
              (s.objects.find? .monitor "Shoes").isSome) = true := by
    decide +kernel
  rcases (Option.any_eq_true _ _).mp setting with ⟨before, opened, facts⟩
  rcases of_decide_eq_true facts with ⟨fresh, facts⟩
  rcases (Option.any_eq_true _ _).mp facts with ⟨after, added, facts⟩
  rcases of_decide_eq_true facts with ⟨facts, dies⟩
  rcases (Option.any_eq_true _ _).mp facts with ⟨request, awaits, isShoes⟩
  rcases (Option.any_eq_true _ _).mp dies with ⟨s, executed, stays⟩
  rcases Prod.mk.inj (of_decide_eq_true isShoes) with ⟨isMonitor, isShoes⟩
  have taken := taken_of_execute added
  have reached := Installation.reached opened
  have launches : Launches before addRead 0 request := by
    rcases (step_awaited reached.aborted reached.sound taken 0 request).mp
      awaits with launches | ⟨old, -⟩
    · exact launches
    · simp [Option.isNone_iff_eq_none.mp fresh] at old
  have whole : execute (step config) start
      (addShoes.take 2 ++ addRead :: diesUnseen) = some s := by
    rw [execute_append, opened, Option.bind_some, execute, taken]
    exact executed
  have split : attemptsOf (step config) start
      (addShoes.take 2 ++ addRead :: diesUnseen) =
        attemptsOf (step config) start (addShoes.take 2) ++
          (before, addRead) :: attemptsOf (step config) after diesUnseen := by
    rw [attemptsOf_append opened, attemptsOf, taken]
  have silent : ∀ action ∈ diesUnseen, Silent action := by
    intro action member
    simp only [diesUnseen, List.mem_cons, List.not_mem_nil, or_false]
      at member
    rcases member with rfl | rfl | rfl | rfl <;>
      exact ⟨fun _ => rfl, fun _ _ _ => rfl⟩
  have exits : .runOnExit 0 (some alreadyReaped) ∈ diesUnseen := by
    simp [diesUnseen]
  have finished := finished_of_execute executed silent exits
    (by simp [diesUnseen]) request
  refine ⟨_, s, .of_execute whole, ?_⟩
  intro readmits
  have absent := (readmits _ _ before addRead 0 request split launches
    finished).1
  rw [isMonitor, isShoes] at absent
  simp [absent] at stays

end KekMonitors.Manager
