import KekMonitors.Manager.State

/-!
# Sockets, files and exits

The handlers of the events that reach the manager from outside its server: the
exit of a process, the appearance of a socket and its verification, and changes
of the config files.
-/

namespace KekMonitors.Manager

open Connection

/-- An exit that was reported with an error is logged and nothing more. -/
def onProcessExit (ec : Option ErrorCode) (m : MonitorOrScraper)
    (className : String) (o : Objects) : Objects :=
  if ec.isSome then o else o.removeStoredProcess m className

/-! ## Verification -/

/--
The start of a verification.  The retry timer is a local variable, so when the
function returns its wait is aborted; after a successful connect the function
ends.  A path that is too long for an endpoint is left out.
-/
def verifySocketIsCommunicating (m : MonitorOrScraper)
    (socketFullPath className : String) (onSuccess : OnSuccess)
    (peer : Peer) (s : State) : State :=
  match peer.connect with
  | none => s
  | some _ =>
      { s with
        verifications := s.verifications ++
          [{ kind := m
             socketFullPath := socketFullPath
             className := className
             onSuccess := onSuccess
             peer := peer
             stage := .retry (some .operationAborted) }] }

/-- The closures run when a PING was answered without an error. -/
def runOnSuccess (v : Verification) (o : Objects) : Except Fault Objects :=
  match v.onSuccess with
  | .confirmAdded timer =>
      match o.find? v.kind v.className, timer with
      | some storedObject, some number =>
          if storedObject.onAddTimer = timer then
            .ok ((o.put v.kind v.className
              { storedObject with confirmAdded := true }).cancelTimer number)
          else .error .undefinedBehaviour
      -- the iterator is that of an erased entry, or there is no timer
      | _, _ => .error .undefinedBehaviour
  | .storeSocket =>
      match o.find? v.kind v.className with
      | some _ => .ok o
      | none =>
          .ok (o.put v.kind v.className
            { className := v.className
              endpoint := some v.socketFullPath })

/--
The next handler of a verification: the retry, with `on_connect` after it, and
the two handlers of `quickWriteCmd`.  It gives what is left to wait for, and is
not enabled while the reply is still being read.
-/
def verificationHandler (v : Verification) (o : Objects) :
    Option (Except Fault (Objects × Option Verification)) :=
  match v.stage with
  | .retry (some _) => some (.ok (o, none))
  | .retry none =>
      match v.peer.reconnect with
      | none => some (.ok (o, some { v with stage := .writing }))
      | some _ => some (.ok (o, none))
  | .writing =>
      match v.peer.write with
      | none => some (.ok (o, some { v with stage := .reading }))
      | some _ => some (.ok (o, none))
  | .reading =>
      (asyncReadResponse v.peer.reply).map fun read =>
        if read.1.isSome ∨ read.2.error ≠ 0 then .ok (o, none)
        else (runOnSuccess v o).map fun o => (o, none)

/-! ## Socket files -/

/-- The part of a path after the last separator. -/
def baseName (path : String) : String :=
  String.ofList (path.toList.reverse.takeWhile (· ≠ '/')).reverse

/-- A socket name, split at its last dot. -/
def splitSocketName (socketName : String) : Option (String × String) :=
  match socketName.toList.reverse.dropWhile (· ≠ '.') with
  | [] => none
  | _ :: socketPrefix =>
      some (String.ofList socketPrefix.reverse,
        String.ofList
          (socketName.toList.reverse.takeWhile (· ≠ '.')).reverse)

def socketKind (socketPrefix : String) : Option MonitorOrScraper :=
  if socketPrefix = "Monitor" then some .monitor
  else if socketPrefix = "Scraper" then some .scraper
  else none

/-- The cases of `IN_CREATE` and `IN_DELETE`, for a known kind and class. -/
def updateList (m : MonitorOrScraper) (socketFullPath className : String)
    (mask : UInt32) (peer : Peer) (s : State) : State :=
  if mask = inCreate then
    match s.objects.find? m className with
    | some storedObject =>
        let s :=
          { s with
            objects := s.objects.put m className
              { storedObject with endpoint := some socketFullPath } }
        if storedObject.isBeingAdded then
          verifySocketIsCommunicating m socketFullPath className
            (.confirmAdded storedObject.onAddTimer) peer s
        else s
    | none =>
        verifySocketIsCommunicating m socketFullPath className .storeSocket
          peer s
  else if mask = inDelete then
    { s with objects := s.objects.removeStoredSocket m className }
  else s

def checkSocketAndUpdateList (socketFullPath socketName : String)
    (mask : UInt32) (peer : Peer) (s : State) : State :=
  let socketName :=
    if socketName.isEmpty then baseName socketFullPath else socketName
  match splitSocketName socketName with
  | none => s
  | some (socketPrefix, className) =>
      match socketKind socketPrefix with
      | none => s
      | some m => updateList m socketFullPath className mask peer s

/-! ## File events -/

def allowedConfigSubDir : List String := ["common", "monitors", "scrapers"]

def allowedFilenames : List String :=
  ["whitelists.json", "blacklists.json", "webhooks.json", "configs.json"]

def allowedNames (isDir : Bool) : List String :=
  if isDir then allowedConfigSubDir else allowedFilenames

def addWatch (path : String) (mask : UInt32) (kernel : Option Nat)
    (s : State) : Except Fault State := do
  let fileWatcher ← s.fileWatcher.add path mask kernel
  .ok { s with fileWatcher := fileWatcher }

def reload (fullPath filename : String) (content : List Json.Byte)
    (s : State) : Except Fault State := do
  let sends ←
    Configs.parseAndSendConfigs fullPath filename content s.objects
  .ok { s with sent := s.sent ++ sends }

def onConfigEvent (fullEventPath : String) (event : InotifyEvent)
    (s : State) : Except Fault State :=
  let filename := event.name
  let isDir : Bool := event.mask &&& inIsDir ≠ 0
  let surroundings := event.surroundings
  let m := event.mask &&& ~~~inIsDir
  if m = inCreate then
    if isDir then
      if filename ∈ allowedConfigSubDir then
        addWatch fullEventPath (inCreate ||| inDelete) surroundings.addWatch s
      else .ok s
    else if filename ∈ allowedFilenames then
      let alreadyMonitored := s.fileWatcher.watches.any fun watch =>
        watch.path = fullEventPath
      if alreadyMonitored then
        -- the case falls through to that of a modified file
        reload fullEventPath filename surroundings.content s
      else do
        let s ← addWatch fullEventPath inModify surroundings.addWatch s
        reload fullEventPath filename surroundings.content s
    else .ok s
  else if m = inModify ∨ m = inCloseNoWrite ∨ m = inCloseWrite then
    reload fullEventPath filename surroundings.content s
  else if m = inDelete then
    if filename ∈ allowedNames isDir then
      match s.fileWatcher.watches.find? fun watch =>
          watch.path = fullEventPath with
      | none => .ok s
      | some watch => do
          let fileWatcher ←
            s.fileWatcher.remove watch surroundings.removeWatch
          .ok { s with fileWatcher := fileWatcher }
    else .ok s
  else .ok s

/-- The body of the loop of `onInotifyUpdate`. -/
def onInotifyEvent (config : Config) (event : InotifyEvent) (s : State) :
    Except Fault State :=
  match s.fileWatcher.findWatch event.watch with
  | none => .error .undefinedBehaviour
  | some watch =>
      let filename := event.name
      let eventPath := watch.path
      let fullEventPath :=
        if filename.isEmpty then eventPath
        else eventPath ++ "/" ++ filename
      if eventPath = config.socketPath then
        if event.mask &&& inCreate ≠ 0 ∧ event.surroundings.isSocket ∨
            event.mask &&& inDelete ≠ 0 then
          .ok (checkSocketAndUpdateList (eventPath ++ "/" ++ filename)
            filename event.mask event.surroundings.peer s)
        else .ok s
      else onConfigEvent fullEventPath event s

def onInotifyEvents (config : Config) (s : State) :
    List InotifyEvent → Except Fault State
  | [] => .ok s
  | event :: events => do
      let s ← onInotifyEvent config event s
      onInotifyEvents config s events

/-- The loop takes every event that was queued when it began. -/
def onInotifyUpdate (config : Config) (s : State) : Except Fault State :=
  let inotify := { s.fileWatcher.inotify with events := [] }
  onInotifyEvents config
    { s with fileWatcher := { s.fileWatcher with inotify := inotify } }
    s.fileWatcher.inotify.events

/-! ## The constructor -/

/-- A file that the start-up scan finds in the directory of the sockets. -/
structure FoundFile where
  filename : String
  isSocket : Bool
  peer : Peer

/-- The file system as the constructor finds it. -/
structure StartUp where
  files : List FoundFile := []
  isDirectory : String → Bool := fun _ => false
  isRegularFile : String → Bool := fun _ => false
  addWatch : String → Option Nat := fun _ => none

def scanFile (config : Config) (s : State) (file : FoundFile) : State :=
  if file.isSocket ∧ file.filename ≠ "MonitorManager" then
    checkSocketAndUpdateList (config.scannedDir ++ file.filename)
      file.filename inCreate file.peer s
  else s

/-- The watches that the constructor adds, in their order. -/
def initialWatches (config : Config) (startUp : StartUp) :
    List (String × UInt32) :=
  (config.socketPath, inCreate ||| inDelete) ::
    (config.configDir, inCreate ||| inDelete) ::
      allowedConfigSubDir.flatMap fun configSubDir =>
        let configSubPath := config.configDir ++ "/" ++ configSubDir
        if startUp.isDirectory configSubPath then
          (configSubPath, inCreate ||| inDelete) ::
            ((allowedFilenames.map fun configFile =>
              configSubPath ++ "/" ++ configFile).filter
                startUp.isRegularFile).map fun path => (path, inModify)
        else []

def addWatches (startUp : StartUp) (s : State) :
    List (String × UInt32) → Except Fault State
  | [] => .ok s
  | (path, mask) :: watches => do
      let s ← addWatch path mask (startUp.addWatch path) s
      addWatches startUp s watches

/-- `MonitorManager::MonitorManager`. -/
def construct (config : Config) (startUp : StartUp) : Except Fault State := do
  let s := startUp.files.foldl (scanFile config) {}
  let s ← addWatches startUp s (initialWatches config startUp)
  .ok { s with server := UnixServer.startAccepting s.server }

end KekMonitors.Manager
