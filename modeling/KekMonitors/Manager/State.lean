import KekMonitors.Configs
import KekMonitors.UnixServer
import KekMonitors.Utils

/-!
# The state of the manager

Besides its members the state holds what the event loop has queued for it: the
posted halves of combined commands, and the exchanges with monitored processes
whose next handler is still to come.
-/

namespace KekMonitors.Manager

open Connection
open UnixServer

/-- The directories read from the configuration. -/
structure Config where
  /-- `GlobalConfig.socket_path`. -/
  socketPath : String
  localKekDir : String

def Config.configDir (config : Config) : String :=
  config.localKekDir ++ "/config"

/-- The directory of the start-up scan, with its separator. -/
def Config.scannedDir (config : Config) : String :=
  config.localKekDir ++ "/sockets/"

/-- What `registerDb.find_one` and reading its document can give. -/
inductive QueryOutcome where
  | queryException (what : String)
  | otherException
  | notRegistered
  /-- The path is missing when the document has no text under it. -/
  | document (path : Option String)

/--
What a command finds outside the program: the interpreter, which is missing
when looking for it throws, the registry, the process identifier and the time
of a new process, which are missing when it cannot be started, and the process
behind the socket of the class.
-/
structure Environment where
  python : Option String := none
  query : QueryOutcome := .notRegistered
  spawn : Option (Json.Integer × Json.Integer) := none
  peer : Peer := {}

/-- The handlers that a combined command runs for both kinds. -/
inductive MonitorManagerCallback where
  | onAdd
  | onGetStatus
  | onStop
  deriving DecidableEq, Repr

/-- A `MonitorScraperCompletion`, with the connection of its client. -/
structure MonitorScraperCompletion where
  momanCb : MonitorManagerCallback
  cmd : Cmd
  connection : Nat
  bothCompleted : Bool := false
  firstResponse : Response := {}

/-- One of the two halves that `run` posts. -/
structure PostedHalf where
  kind : MonitorOrScraper
  completion : Nat
  deriving DecidableEq, Repr

/--
The closures passed as `on_success`.  The first holds an iterator, which is
known by the add timer of its entry.
-/
inductive OnSuccess where
  | confirmAdded (timer : Option Nat)
  | storeSocket
  deriving DecidableEq, Repr

/-- The handler that a socket verification waits for. -/
inductive VerificationStage where
  | retry (timerErrc : Option ErrorCode)
  | writing
  | reading
  deriving DecidableEq, Repr

structure Verification where
  kind : MonitorOrScraper
  socketFullPath : String
  className : String
  onSuccess : OnSuccess
  peer : Peer
  stage : VerificationStage

inductive StopStage where
  | writing
  | reading
  deriving DecidableEq, Repr

/-- A STOP sent to a monitored process. -/
structure StopExchange where
  kind : MonitorOrScraper
  className : String
  callback : Callback
  peer : Peer
  stage : StopStage := .writing

structure State where
  objects : Objects := {}
  server : ServerState := .bound
  fileWatcher : FileWatcher := {}
  /-- The queue of posted halves, first come first served. -/
  posted : List PostedHalf := []
  completions : List MonitorScraperCompletion := []
  verifications : List Verification := []
  stops : List StopExchange := []
  /-- The responses written to clients. -/
  written : List (Nat × Response) := []
  /-- The commands sent to monitored processes after a config change. -/
  sent : List Send := []

/-! ## Calling back -/

def asyncWriteResponse (connection : Nat) (response : Response)
    (s : State) : State :=
  { s with written := s.written ++ [(connection, response)] }

def orEmptyObject (payload : Json) : Json :=
  if payload.isNull then Json.emptyObject else payload

/-- The `m_completionCb` of each combined command. -/
def completionCb (momanCb : MonitorManagerCallback)
    (firstResponse secondResponse : Response) : Except Fault Response :=
  match momanCb with
  | .onAdd =>
      Utils.makeCommonResponse firstResponse secondResponse
        .mmCouldntAddMonitorScraper
  | .onGetStatus => do
      let response ← Utils.makeCommonResponse firstResponse secondResponse
      let payload := Json.null.set "monitors"
        (orEmptyObject firstResponse.payload)
      let payload := payload.set "scrapers"
        (orEmptyObject secondResponse.payload)
      .ok { response with payload := payload }
  | .onStop =>
      Utils.makeCommonResponse firstResponse secondResponse
        .mmCouldntStopMonitorScraper

def checkForCompletion (completion : Nat) (response : Response)
    (s : State) : Except Fault State :=
  match s.completions[completion]? with
  | none => .ok s
  | some c =>
      if ¬ c.bothCompleted then
        .ok
          { s with
            completions := s.completions.set completion
              { c with bothCompleted := true, firstResponse := response } }
      else do
        let common ← completionCb c.momanCb c.firstResponse response
        .ok (asyncWriteResponse c.connection common s)

/-- Call the `cb` of a handler. -/
def invoke (callback : Callback) (response : Response) (s : State) :
    Except Fault State :=
  match callback with
  | .client connection => .ok (asyncWriteResponse connection response s)
  | .half completion => checkForCompletion completion response s

/-- Answering touches the completions and the written responses alone. -/
structure SameButAnswers (s next : State) : Prop where
  objects : next.objects = s.objects
  server : next.server = s.server
  fileWatcher : next.fileWatcher = s.fileWatcher
  posted : next.posted = s.posted
  verifications : next.verifications = s.verifications
  stops : next.stops = s.stops
  sent : next.sent = s.sent

theorem invoke_same {callback : Callback} {response : Response}
    {s next : State} (called : invoke callback response s = .ok next) :
    SameButAnswers s next := by
  cases callback with
  | client connection =>
      rcases Except.ok.inj called with rfl
      exact ⟨rfl, rfl, rfl, rfl, rfl, rfl, rfl⟩
  | half completion =>
      simp only [invoke, checkForCompletion] at called
      split at called
      · rcases Except.ok.inj called with rfl
        exact ⟨rfl, rfl, rfl, rfl, rfl, rfl, rfl⟩
      · rename_i c found
        split at called
        · rcases Except.ok.inj called with rfl
          exact ⟨rfl, rfl, rfl, rfl, rfl, rfl, rfl⟩
        · cases common : completionCb c.momanCb c.firstResponse response with
          | error fault => simp [common, bind, Except.bind] at called
          | ok reply =>
              simp only [common, bind, Except.bind] at called
              rcases Except.ok.inj called with rfl
              exact ⟨rfl, rfl, rfl, rfl, rfl, rfl, rfl⟩

end KekMonitors.Manager
