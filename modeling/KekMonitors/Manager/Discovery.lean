import KekMonitors.Manager.Progress

/-!
# Discovering sockets

What becomes of a socket that the manager finds without knowing its class.
The verification that should record it ends after a connect that succeeds, and
after one that fails it leaves a retry timer that is destroyed at once, so the
closure that records the socket is never run.
-/

namespace KekMonitors.Manager

open Connection
open Objects
open Transition

/-! ## Class sockets -/

/-- The name of the socket of a class. -/
def classSocketName (m : MonitorOrScraper) (className : String) : String :=
  m.name ++ "." ++ className

theorem socketKind_name (m : MonitorOrScraper) :
    socketKind m.name = some m := by
  cases m <;> rfl

theorem takeWhile_ne_dot {name rest : List Char} (whole : '.' ∉ name) :
    (name ++ '.' :: rest).takeWhile (· ≠ '.') = name := by
  rw [List.takeWhile_append_of_pos]
  · simp
  · intro c member
    have other : c ≠ '.' := fun same => whole (same ▸ member)
    simpa using other

theorem dropWhile_ne_dot {name rest : List Char} (whole : '.' ∉ name) :
    (name ++ '.' :: rest).dropWhile (· ≠ '.') = '.' :: rest := by
  rw [List.dropWhile_append_of_pos]
  · simp
  · intro c member
    have other : c ≠ '.' := fun same => whole (same ▸ member)
    simpa using other

/-- A class without a dot is read back from the name of its socket. -/
theorem splitSocketName_classSocketName (m : MonitorOrScraper)
    {className : String} (whole : '.' ∉ className.toList) :
    splitSocketName (classSocketName m className) =
      some (m.name, className) := by
  have reversed : (classSocketName m className).toList.reverse =
      className.toList.reverse ++ '.' :: m.name.toList.reverse := by
    simp [classSocketName]
  have wholeReversed : '.' ∉ className.toList.reverse := by
    simpa using whole
  rw [splitSocketName, reversed, dropWhile_ne_dot wholeReversed,
    takeWhile_ne_dot wholeReversed]
  simp

theorem classSocketName_nonempty (m : MonitorOrScraper)
    (className : String) :
    (classSocketName m className).isEmpty = false := by
  cases m <;> simp [classSocketName, MonitorOrScraper.name]

/-- The socket of a class without an entry is verified. -/
theorem checkSocket_of_absent {s : State} {m : MonitorOrScraper}
    {className : String} (whole : '.' ∉ className.toList)
    (absent : s.objects.find? m className = none) (path : String)
    (peer : Peer) :
    checkSocketAndUpdateList path (classSocketName m className) inCreate
        peer s =
      verifySocketIsCommunicating m path className .storeSocket peer s := by
  simp [checkSocketAndUpdateList, classSocketName_nonempty,
    splitSocketName_classSocketName m whole, socketKind_name, updateList,
    absent]

/-! ## What a verification does -/

/-- A verification that is aborted leaves the queue and does nothing. -/
theorem runVerification_aborted {s : State} (aborted : Aborted s)
    {v : Verification} {rest : List Verification}
    (queued : s.verifications = v :: rest) :
    runVerification 0 s = some (.ok { s with verifications := rest }) := by
  rcases aborted v (by simp [queued]) with ⟨errc, stage⟩
  simp [runVerification, queued, verificationHandler, stage, bind,
    Except.bind]

/-- All scheduled handlers can be run, and change nothing. -/
theorem verifications_end (config : Config) {s : State}
    (aborted : Aborted s) :
    ∃ attempts,
      Run (step config) s attempts (.ok { s with verifications := [] }) ∧
        Meets (fun _ action => action = .runVerification 0) attempts := by
  generalize queued : s.verifications = verifications
  induction verifications generalizing s with
  | nil =>
      rw [← queued]
      exact ⟨[], .start, by simp [Meets]⟩
  | cons v rest ih =>
      have ran : step config s (.runVerification 0) =
          some (.ok { s with verifications := rest }) :=
        runVerification_aborted aborted queued
      rcases ih (step_aborted aborted ran) rfl with ⟨attempts, run, only⟩
      refine ⟨_, run.cons ran, ?_⟩
      intro attempt member
      rcases List.mem_cons.mp member with rfl | later
      · rfl
      · exact only attempt later

/-! ## Recording -/

/-- A socket of a class, with the process behind it. -/
structure Socket where
  kind : MonitorOrScraper
  className : String
  path : String
  peer : Peer

def Recorded (s : State) (socket : Socket) : Prop :=
  ∃ stored, s.objects.find? socket.kind socket.className = some stored ∧
    stored.endpoint = some socket.path

/--
The peer accepts one of the two connects, takes the PING and answers it
without an error.
-/
def Communicates (peer : Peer) : Prop :=
  (peer.connect = none ∨ peer.reconnect = none) ∧ peer.write = none ∧
    ∃ response, asyncReadResponse peer.reply = some (none, response) ∧
      response.error = Error.ok.code

/-- The action handles an add request that launches the class. -/
def LaunchesClass (m : MonitorOrScraper) (className : String) (s : State)
    (action : Action) : Prop :=
  ∃ call started, addCall s action = some call ∧ call.kind = m ∧
    call.Starts s.objects className started

/-- The event reports a class socket in the directory of the sockets. -/
structure Reports (config : Config) (s : State) (event : KernelEvent)
    (socket : Socket) : Prop where
  watched : ∃ address watch,
    s.fileWatcher.inotify.watches.lookup event.wd = some address ∧
      s.fileWatcher.findWatch address = some watch ∧
        watch.path = config.socketPath
  created : event.mask = inCreate
  isSocket : event.surroundings.isSocket = true
  named : event.name = classSocketName socket.kind socket.className
  whole : '.' ∉ socket.className.toList
  path : socket.path = config.socketPath ++ "/" ++ event.name
  peer : socket.peer = event.surroundings.peer

/-- The scan finds a class socket. -/
structure Scans (config : Config) (file : FoundFile) (socket : Socket) :
    Prop where
  isSocket : file.isSocket = true
  named : file.filename = classSocketName socket.kind socket.className
  whole : '.' ∉ socket.className.toList
  path : socket.path = config.scannedDir ++ file.filename
  peer : socket.peer = file.peer

/-- A scanned socket is verified when its class has no entry. -/
theorem Scans.verified {config : Config} {file : FoundFile}
    {socket : Socket} (scans : Scans config file socket) {s : State}
    (absent : s.objects.find? socket.kind socket.className = none) :
    scanFile config s file =
      verifySocketIsCommunicating socket.kind socket.path socket.className
        .storeSocket socket.peer s := by
  have other : file.filename ≠ "MonitorManager" := by
    intro same
    have dot : '.' ∈ file.filename.toList := by
      simp [scans.named, classSocketName]
    rw [same] at dot
    exact absurd dot (by decide)
  rw [scanFile, if_pos ⟨scans.isSocket, other⟩, scans.path, scans.peer,
    scans.named]
  exact checkSocket_of_absent scans.whole absent _ _

/-- So is one that is reported, when its event is handled. -/
theorem Reports.verified {config : Config} {before s : State}
    {event : KernelEvent} {socket : Socket}
    (reports : Reports config before event socket)
    (absent : s.objects.find? socket.kind socket.className = none)
    {address : Nat} {watch : InotifyWatch}
    (found : s.fileWatcher.findWatch address = some watch)
    (path : watch.path = config.socketPath) :
    onInotifyEvent config
        { watch := address
          mask := event.mask
          name := event.name
          surroundings := event.surroundings } s =
      .ok (verifySocketIsCommunicating socket.kind socket.path
        socket.className .storeSocket socket.peer s) := by
  have created : inCreate &&& inCreate ≠ 0 := by decide
  have verified := checkSocket_of_absent reports.whole absent socket.path
    socket.peer
  rw [← reports.named, reports.path, reports.peer] at verified
  simp only [onInotifyEvent, found, path, if_true, reports.created,
    reports.isSocket]
  rw [if_pos (Or.inl ⟨created, trivial⟩), verified, reports.path,
    reports.peer]

/--
A socket that a run finds, by the scan or by an event, while there is no entry
of its class, and the class is not launched from then on.
-/
inductive Found (config : Config) (startUp : StartUp)
    (attempts : List (State × Action)) (socket : Socket) : Prop where
  | scanned {file : FoundFile} (listed : file ∈ startUp.files)
      (scans : Scans config file socket)
      (discovered : Meets (fun s action =>
        ¬ LaunchesClass socket.kind socket.className s action) attempts)
  | reported {front back : List (State × Action)} {s : State}
      {events : List KernelEvent} {event : KernelEvent}
      (split : attempts = front ++ (s, .inotifyRead events) :: back)
      (member : event ∈ events) (reports : Reports config s event socket)
      (absent : s.objects.find? socket.kind socket.className = none)
      (discovered : Meets (fun s action =>
        ¬ LaunchesClass socket.kind socket.className s action) back)

section Runs

variable {config : Config} {startUp : StartUp} {start final : State}
  {attempts : List (State × Action)} {m : MonitorOrScraper}
  {className : String}

/-- Only a launch makes an entry. -/
theorem step_absent {s next : State} {action : Action}
    (aborted : Aborted s) (absent : s.objects.find? m className = none)
    (other : ¬ LaunchesClass m className s action)
    (taken : step config s action = some (.ok next)) :
    next.objects.find? m className = none := by
  rcases (step_effect aborted taken).objects with
    ⟨changes, -⟩ | ⟨call, name, started, handles, starts, after⟩
  · apply changes.absent
    rw [leaveQueue_find?]
    exact absent
  · rw [leaveQueue_of_addCall handles] at starts after
    rw [after, AddCall.launch, find?_launch, if_neg]
    · exact absent
    · intro same
      rcases Prod.mk.inj same with ⟨rfl, rfl⟩
      exact other ⟨call, started, handles, rfl, starts⟩

/-- A class without an entry has none as long as it is not launched. -/
theorem run_absent (aborted : Aborted start)
    (absent : start.objects.find? m className = none)
    (run : Run (step config) start attempts (.ok final))
    (discovered : Meets
      (fun s action => ¬ LaunchesClass m className s action) attempts) :
    final.objects.find? m className = none := by
  have invariant := run.invariant_of_meets _
    (fun s => Aborted s ∧ s.objects.find? m className = none)
    ⟨aborted, absent⟩ ?_ discovered rfl
  · exact invariant.2
  · intro state action next holds other taken
    exact ⟨step_aborted holds.1 taken,
      step_absent holds.1 holds.2 other taken⟩

/-- No socket that is found is recorded. -/
theorem not_recorded (built : construct config startUp = .ok start)
    (run : Run (step config) start attempts (.ok final)) {socket : Socket}
    (found : Found config startUp attempts socket) :
    ¬ Recorded final socket := by
  have effect := construct_effect built
  have absent : final.objects.find? socket.kind socket.className = none := by
    cases found with
    | scanned listed scans discovered =>
        apply run_absent effect.2 _ run discovered
        exact effect.1.absent (find?_empty _ _)
    | reported split member reports absent discovered =>
        subst split
        rcases run.after_attempt with ⟨earlier, result, taken, rest⟩
        cases result with
        | error fault => cases rest.2
        | ok next =>
            have aborted := aborted_of_reachable effect.2 ⟨_, earlier⟩
            have quiet : next.objects.find? socket.kind socket.className =
                none := by
              apply step_absent aborted absent _ taken
              rintro ⟨call, started, handles, -⟩
              simp [addCall] at handles
            exact run_absent (step_aborted aborted taken) quiet rest
              discovered
  rintro ⟨stored, present, -⟩
  rw [absent] at present
  simp at present

/--
A socket that is found without an entry of its class is recorded as it
communicates, in the states of a run and so when all handlers have run,
precisely when it does not communicate.
-/
theorem recorded_iff_communicates
    (built : construct config startUp = .ok start)
    (run : Run (step config) start attempts (.ok final)) {socket : Socket}
    (found : Found config startUp attempts socket) :
    (Recorded final socket ↔ Communicates socket.peer) ↔
      ¬ Communicates socket.peer := by
  have missing := not_recorded built run found
  constructor
  · intro same communicates
    exact missing (same.mpr communicates)
  · intro silent
    exact ⟨fun recorded => absurd recorded missing,
      fun communicates => absurd communicates silent⟩

end Runs

/-! ## A monitor that is running already -/

namespace Installation

/-- A start-up that finds the socket of one monitor. -/
def startUpWith (peer : Peer) : StartUp :=
  { startUp with
    files :=
      [{ filename := "Monitor.Shoes"
         isSocket := true
         peer := peer }] }

def shoesSocket (peer : Peer) : Socket :=
  { kind := .monitor
    className := "Shoes"
    path := config.scannedDir ++ "Monitor.Shoes"
    peer := peer }

def refused : ErrorCode := .other 111 "Connection refused"

/-- A monitor that answers a PING. -/
def answering : Peer := { reply := transmit [Response.okResponse.toString] }

/-- A socket that nobody listens on. -/
def abandoned : Peer := { connect := some refused, reconnect := some refused }

theorem scans_shoes (peer : Peer) :
    Scans config
      { filename := "Monitor.Shoes"
        isSocket := true
        peer := peer } (shoesSocket peer) where
  isSocket := rfl
  named := by
    change "Monitor.Shoes" = classSocketName .monitor "Shoes"
    decide +kernel
  whole := by
    change '.' ∉ "Shoes".toList
    decide +kernel
  path := rfl
  peer := rfl

/-- All handlers run after a start-up that finds the socket. -/
theorem shoes_found (peer : Peer)
    (constructs :
      (construct config (startUpWith peer)).toOption.isSome = true) :
    ∃ start attempts final,
      construct config (startUpWith peer) = .ok start ∧
        Run (step config) start attempts (.ok final) ∧
          final.verifications = [] ∧
            Found config (startUpWith peer) attempts (shoesSocket peer) := by
  cases built : construct config (startUpWith peer) with
  | error fault => simp [built, Except.toOption] at constructs
  | ok start =>
      rcases verifications_end config (construct_effect built).2 with
        ⟨attempts, run, only⟩
      refine ⟨start, attempts, _, rfl, run, rfl,
        .scanned List.mem_cons_self (scans_shoes peer) ?_⟩
      rintro ⟨s, action⟩ member ⟨call, started, handles, -⟩
      rcases only _ member with rfl
      simp [addCall] at handles

end Installation

open Installation

theorem communicates_answering : Communicates answering := by
  refine ⟨Or.inl rfl, rfl, Response.okResponse, ?_, rfl⟩
  have sent : [Response.okResponse.toString].flatten =
      Response.okResponse.toString := by
    simp
  exact (readMessage_transmit_iff Response.okResponse sent).mpr
    (by decide +kernel)

/-- A socket that nobody listens on is not recorded, as it should be. -/
theorem abandoned_not_recorded :
    ∃ start attempts final,
      construct config (startUpWith abandoned) = .ok start ∧
        Run (step config) start attempts (.ok final) ∧
          final.verifications = [] ∧
            (Recorded final (shoesSocket abandoned) ↔
              Communicates abandoned) := by
  rcases shoes_found abandoned (by decide +kernel) with
    ⟨start, attempts, final, built, run, settled, found⟩
  refine ⟨start, attempts, final, built, run, settled,
    (recorded_iff_communicates built run found).mpr ?_⟩
  rintro ⟨connects | reconnects, -⟩
  · exact Option.some_ne_none refused connects
  · exact Option.some_ne_none refused reconnects

/-- A monitor that is up and answers the PING is not recorded. -/
theorem answering_not_recorded :
    ∃ start attempts final,
      construct config (startUpWith answering) = .ok start ∧
        Run (step config) start attempts (.ok final) ∧
          final.verifications = [] ∧
            Found config (startUpWith answering) attempts
              (shoesSocket answering) ∧
            ¬ (Recorded final (shoesSocket answering) ↔
              Communicates answering) := by
  rcases shoes_found answering (by decide +kernel) with
    ⟨start, attempts, final, built, run, settled, found⟩
  refine ⟨start, attempts, final, built, run, settled, found, ?_⟩
  intro same
  exact not_recorded built run found (same.mpr communicates_answering)

end KekMonitors.Manager
