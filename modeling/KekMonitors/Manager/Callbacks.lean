import KekMonitors.Manager.State

/-!
# The command handlers

The handlers that clients reach through the server, the wait handler of an add
timer, and the handlers of a STOP exchange.  A handler gives the response for
its callback, or none when the callback is to be called later or not at all.
-/

namespace KekMonitors.Manager

open Connection
open Timer

def addError : MonitorOrScraper → Error
  | .monitor => .mmCouldntAddMonitor
  | .scraper => .mmCouldntAddScraper

def stopError : MonitorOrScraper → Error
  | .monitor => .mmCouldntStopMonitor
  | .scraper => .mmCouldntStopScraper

def notRegisteredError : MonitorOrScraper → Error
  | .monitor => .monitorNotRegistered
  | .scraper => .scraperNotRegistered

def failure (error : Error) (info : String) : Response :=
  { error := error.code, info := info }

def onPing : Response :=
  { Response.okResponse with info := "Pong" }

/-! ## Adding -/

/--
The name in the payload of an add or a stop.  Only an object can have one, and
a name that is not a string does not convert.
-/
def nameArgument (cmd : Cmd) : Except Fault (Except Response String) :=
  if cmd.payload.isNull then
    .ok (.error { error := Error.missingPayload.code })
  else
    match cmd.payload.find? "name" with
    | none =>
        .ok (.error (failure .missingPayloadArgs
          "Missing payload arg: \"name\"."))
    | some name =>
        match name.string? with
        | none => .error (.raised .jsonTypeError)
        | some className => .ok (.ok className)

/-- The checks of `onAdd` on an entry that is already stored. -/
def refuse (m : MonitorOrScraper) (stored : StoredObject) :
    Option Response :=
  if stored.isBeingAdded then
    some (failure (addError m) (m.name ++ " still being processed."))
  else if stored.process.isSome then
    some (failure (addError m) (m.name ++ " already started."))
  else if stored.endpoint.isSome then
    some (failure (addError m)
      (m.name ++ " already has a socket available."))
  else none

/-- What `onAdd` starts. -/
structure Started where
  commandLine : String
  pid : Json.Integer
  creation : Json.Integer

/-- From the interpreter over the registry to the running process. -/
def startProcess (m : MonitorOrScraper) (env : Environment) :
    Except Fault (Except Response Started) :=
  match env.python with
  | none => .error (.raised .standard)
  | some pythonExecutable =>
      if pythonExecutable.isEmpty then
        .ok (.error (failure (addError m)
          "Could not find a correct python version."))
      else
        match env.query with
        | .queryException what =>
            .ok (.error (failure (addError m)
              ("Failed to query the database (is it up and running?)\n" ++
                what)))
        | .otherException => .error (.raised .database)
        | .notRegistered =>
            .ok (.error { error := (notRegisteredError m).code })
        | .document none => .error (.raised .bson)
        | .document (some path) =>
            match env.spawn with
            | none => .error (.raised .process)
            | some (pid, creation) =>
                .ok (.ok
                  { commandLine := pythonExecutable ++ " " ++ path ++
                      " --no-config-watcher --no-output"
                    pid := pid
                    creation := creation })

def onAdd (m : MonitorOrScraper) (cmd : Cmd) (env : Environment)
    (callback : Callback) (o : Objects) :
    Except Fault (Objects × Option Response) := do
  match ← nameArgument cmd with
  | .error response => .ok (o, some response)
  | .ok className =>
      match (o.find? m className).bind (refuse m) with
      | some response => .ok (o, some response)
      | none =>
          match ← startProcess m env with
          | .error response => .ok (o, some response)
          | .ok started =>
              let request : AddRequest :=
                { kind := m, className := className, callback := callback }
              .ok (o.launch request started.commandLine started.pid
                started.creation, none)

/-- `badResponse` with the error of the request and a text. -/
def addFailed (m : MonitorOrScraper) (info : String) : Response :=
  { Response.badResponse with error := (addError m).code, info := info }

/--
The wait handler of `onAdd`, after its wait has been taken from the queue.
-/
def onAddTimer (request : AddRequest) (status : WaitStatus) (o : Objects) :
    Except Fault (Objects × Option Response) :=
  let m := request.kind
  let className := request.className
  match status with
  | .waiting => .ok (o, none)
  | .cancelled =>
      match o.find? m className with
      | none =>
          .ok (o, some (addFailed m "Process exited sooner than expected."))
      | some storedObject =>
          let storedObject := { storedObject with isBeingAdded := false }
          if storedObject.confirmAdded then
            .ok (o.put m className { storedObject with confirmAdded := false },
              some Response.okResponse)
          else
            -- taken for the destruction of the manager, and not answered
            .ok (o.put m className storedObject, none)
  | .expired =>
      match o.find? m className with
      | none =>
          .ok (o, some (addFailed m
            ("Process exited sooner than expected. (WARNING: THIS CASE " ++
              "(1) SHOULD NOT HAVE HAPPENED -- NEED TO DEBUG!!!)")))
      | some storedObject =>
          match storedObject.process with
          | none => .error .undefinedBehaviour
          | some process =>
              if o.running process then
                .ok (o.put m className
                    { storedObject with isBeingAdded := false },
                  some Response.okResponse)
              else
                .ok (o, some (addFailed m
                  ("Process exited sooner than expected. " ++
                    "(WARNING: THIS CASE (2) SHOULD NOT HAVE " ++
                    "HAPPENED -- NEED TO DEBUG!!!)")))

/-! ## Status -/

/-- The member an entry adds to a map of the status. -/
def listObject (member : StoredObject → Option Json) (list : Json)
    (stored : StoredObject) : Json :=
  match member stored with
  | none => list
  | some value => list.set stored.className value

def listObjects (member : StoredObject → Option Json) (store : Store) :
    Json :=
  (store.entries.map Sigma.snd).foldl (listObject member) Json.emptyObject

def monitoredProcesses : Store → Json :=
  listObjects fun stored => stored.process.map Process.toJson

def monitoredSockets : Store → Json :=
  listObjects fun stored => stored.endpoint.map Json.string

def onGetStatus (m : MonitorOrScraper) (o : Objects) : Response :=
  let payload := Json.null.set "monitored_processes"
    (monitoredProcesses (o.store m))
  let payload := payload.set "monitored_sockets"
    (monitoredSockets (o.store m))
  { payload := payload }

/-! ## Stopping -/

def onStop (m : MonitorOrScraper) (cmd : Cmd) (env : Environment)
    (callback : Callback) (o : Objects) :
    Except Fault (Objects × Except Response StopExchange) := do
  match ← nameArgument cmd with
  | .error response => .ok (o, .error response)
  | .ok className =>
      match o.find? m className with
      | none =>
          .ok (o, .error (failure .socketDoesntExist (m.name ++ " " ++
            className ++ " not present in available sockets.")))
      | some storedObject =>
          if storedObject.endpoint.isNone then
            .ok (o, .error (failure .socketDoesntExist (m.name ++ " " ++
              className ++ " not present in available sockets.")))
          else if storedObject.isBeingStopped then
            .ok (o, .error (failure (stopError m) (m.name ++ " " ++
              className ++ " is already being stopped.")))
          else
            let o := o.put m className
              { storedObject with isBeingStopped := true }
            -- `connect` without an error code throws
            if env.peer.connect.isSome then .error (.raised .system)
            else
              .ok (o, .ok
                { kind := m
                  className := className
                  callback := callback
                  peer := env.peer })

/-- The response of a stop whose command could not be written. -/
def stopWriteFailed (m : MonitorOrScraper) (errc : ErrorCode) : Response :=
  failure (stopError m)
    ("Failed to send the STOP command: " ++ errc.message)

/--
The two handlers of a STOP exchange: what it passes to its callback, or the
exchange that waits for the reply.  It is not enabled while the reply is still
being read.
-/
def stopHandler (exchange : StopExchange) :
    Option (Except Response StopExchange) :=
  match exchange.stage with
  | .writing =>
      match exchange.peer.write with
      | none => some (.ok { exchange with stage := .reading })
      | some errc => some (.error (stopWriteFailed exchange.kind errc))
  | .reading =>
      -- an error is logged, and the response is passed on all the same
      (asyncReadResponse exchange.peer.reply).map fun read =>
        .error read.2

/-- What a STOP exchange does to the stored objects. -/
def stopObjects (exchange : StopExchange) (o : Objects) : Objects :=
  match exchange.stage with
  | .writing => o.removeStoredSocket exchange.kind exchange.className
  | .reading => o

/-! ## Dispatch -/

def reply (callback : Callback) (outcome : Objects × Option Response)
    (s : State) : Except Fault State :=
  let s := { s with objects := outcome.1 }
  match outcome.2 with
  | none => .ok s
  | some response => invoke callback response s

def handleAdd (m : MonitorOrScraper) (cmd : Cmd) (env : Environment)
    (callback : Callback) (s : State) : Except Fault State := do
  let outcome ← onAdd m cmd env callback s.objects
  reply callback outcome s

def handleStop (m : MonitorOrScraper) (cmd : Cmd) (env : Environment)
    (callback : Callback) (s : State) : Except Fault State := do
  let (objects, outcome) ← onStop m cmd env callback s.objects
  let s := { s with objects := objects }
  match outcome with
  | .error response => invoke callback response s
  | .ok exchange => .ok { s with stops := s.stops ++ [exchange] }

def handleGetStatus (m : MonitorOrScraper) (callback : Callback)
    (s : State) : Except Fault State :=
  invoke callback (onGetStatus m s.objects) s

/-- `MonitorScraperCompletion::create` and `run`. -/
def createCompletion (momanCb : MonitorManagerCallback) (cmd : Cmd)
    (connection : Nat) (s : State) : State :=
  let completion := s.completions.length
  { s with
    completions := s.completions ++
      [{ momanCb := momanCb, cmd := cmd, connection := connection }]
    posted := s.posted ++
      [{ kind := .monitor, completion := completion },
        { kind := .scraper, completion := completion }] }

def shutdown (connection : Nat) (s : State) : Except Fault State :=
  let s :=
    { s with
      fileWatcher := s.fileWatcher.close
      server := UnixServer.shutdown s.server
      objects := (s.objects.terminateProcesses .monitor).terminateProcesses
        .scraper }
  invoke (.client connection) Response.okResponse s

/-- A posted half runs its handler for its kind. -/
def runHalf (half : PostedHalf) (env : Environment) (s : State) :
    Except Fault State :=
  match s.completions[half.completion]? with
  | none => .ok s
  | some c =>
      let callback := Callback.half half.completion
      match c.momanCb with
      | .onAdd => handleAdd half.kind c.cmd env callback s
      | .onGetStatus => handleGetStatus half.kind callback s
      | .onStop => handleStop half.kind c.cmd env callback s

abbrev UserCmdCallback :=
  Cmd → Environment → Nat → State → Except Fault State

/-- `p_callbacks`, as the constructor fills it. -/
def callbackMap : List (CommandType × UserCmdCallback) :=
  [(Command.ping.code, fun _ _ connection s =>
      invoke (.client connection) onPing s),
    (Command.mmStopMonitorManager.code, fun _ _ connection s =>
      shutdown connection s),
    (Command.mmAddMonitor.code, fun cmd env connection s =>
      handleAdd .monitor cmd env (.client connection) s),
    (Command.mmAddScraper.code, fun cmd env connection s =>
      handleAdd .scraper cmd env (.client connection) s),
    (Command.mmAddMonitorScraper.code, fun cmd _ connection s =>
      .ok (createCompletion .onAdd cmd connection s)),
    (Command.mmGetMonitorStatus.code, fun _ _ connection s =>
      handleGetStatus .monitor (.client connection) s),
    (Command.mmGetScraperStatus.code, fun _ _ connection s =>
      handleGetStatus .scraper (.client connection) s),
    (Command.mmGetMonitorScraperStatus.code, fun cmd _ connection s =>
      .ok (createCompletion .onGetStatus cmd connection s)),
    (Command.mmStopMonitor.code, fun cmd env connection s =>
      handleStop .monitor cmd env (.client connection) s),
    (Command.mmStopScraper.code, fun cmd env connection s =>
      handleStop .scraper cmd env (.client connection) s),
    (Command.mmStopMonitorScraper.code, fun cmd _ connection s =>
      .ok (createCompletion .onStop cmd connection s))]

/-- `catch (std::out_of_range &)`. -/
def catchOutOfRange (recovered : State) :
    Except Fault State → Except Fault State
  | .error (.raised .outOfRange) => .ok recovered
  | outcome => outcome

/--
`_handleCallback`.  An unknown command and a handler that throws
`std::out_of_range` are answered alike; nothing else is caught.
-/
def handleCallback (err : Option ErrorCode) (cmd : Cmd) (env : Environment)
    (connection : Nat) (s : State) : Except Fault State :=
  if err.isSome then .ok s
  else
    let unrecognized := asyncWriteResponse connection
      { error := Error.unrecognizedCommand.code } s
    match callbackMap.lookup cmd.cmd with
    | none => .ok unrecognized
    | some callback =>
        catchOutOfRange unrecognized (callback cmd env connection s)

/-- A command that is in the map runs its callback. -/
theorem handleCallback_of_lookup {cmd : Cmd} {callback : UserCmdCallback}
    (found : callbackMap.lookup cmd.cmd = some callback)
    (env : Environment) (connection : Nat) (s : State) :
    handleCallback none cmd env connection s =
      catchOutOfRange
        (asyncWriteResponse connection
          { error := Error.unrecognizedCommand.code } s)
        (callback cmd env connection s) := by
  simp [handleCallback, found]

/-- A command that is not in the map is answered. -/
theorem handleCallback_of_missing {cmd : Cmd}
    (missing : callbackMap.lookup cmd.cmd = none)
    (env : Environment) (connection : Nat) (s : State) :
    handleCallback none cmd env connection s =
      .ok (asyncWriteResponse connection
        { error := Error.unrecognizedCommand.code } s) := by
  simp [handleCallback, missing]

theorem catchOutOfRange_eq_ok {recovered next : State}
    {outcome : Except Fault State}
    (caught : catchOutOfRange recovered outcome = .ok next) :
    outcome = .ok next ∨
      outcome = .error (.raised .outOfRange) ∧ next = recovered := by
  unfold catchOutOfRange at caught
  split at caught
  · exact Or.inr ⟨rfl, (Except.ok.inj caught).symm⟩
  · exact Or.inl caught

end KekMonitors.Manager
