import KekMonitors.Manager.Callbacks
import KekMonitors.Manager.Sockets
import KekMonitors.Transition.Run

/-!
# The event loop

One handler runs at a time.  An action is a handler that the loop runs next,
with what it finds outside the program, or something that happens outside: a
completed accept, an expired timer, the death of a child.
-/

namespace KekMonitors.Manager

open Connection
open Timer
open Transition

inductive Action where
  | acceptCompletes (index : Nat) (err : Option ErrorCode)
  | runOnConnect (index : Nat)
  | commandRead (index : Nat) (events : List StreamEvent)
      (env : Environment)
  | runPosted (env : Environment)
  | timerExpires (timer : Nat)
  | runAddWait (timer : Nat)
  | childExits (child : Nat)
  | runOnExit (child : Nat) (ec : Option ErrorCode)
  | inotifyRead (events : List KernelEvent)
  | runVerification (index : Nat)
  | runStop (index : Nat)

/-- The read of a command completes and its callback is dispatched. -/
def readCommand (index : Nat) (events : List StreamEvent)
    (env : Environment) (s : State) : Option (Except Fault State) := do
  let (connection, server) ← UnixServer.commandRead index s.server
  let (err, cmd) ← asyncReadCmd events
  some (handleCallback err cmd env connection { s with server := server })

theorem readCommand_of_read {index connection : Nat}
    {events : List StreamEvent} {s : State}
    {server : UnixServer.ServerState} {err : Option ErrorCode} {cmd : Cmd}
    (accepted : UnixServer.commandRead index s.server =
      some (connection, server))
    (read : asyncReadCmd events = some (err, cmd)) (env : Environment) :
    readCommand index events env s =
      some (handleCallback err cmd env connection
        { s with server := server }) := by
  simp [readCommand, accepted, read]

def runPosted (env : Environment) (s : State) :
    Option (Except Fault State) :=
  match s.posted with
  | [] => none
  | half :: posted => some (runHalf half env { s with posted := posted })

/-- The time of a timer passes while its wait is outstanding. -/
def timerExpires (timer : Nat) (s : State) : Option (Except Fault State) :=
  match s.objects.addWaits.lookup timer with
  | none => none
  | some wait =>
      if wait.status = .waiting then
        let addWaits := s.objects.addWaits.expire timer
        some (.ok
          { s with objects := { s.objects with addWaits := addWaits } })
      else none

def runAddWait (timer : Nat) (s : State) : Option (Except Fault State) :=
  match s.objects.addWaits.lookup timer with
  | none => none
  | some wait =>
      if wait.status = .waiting then none
      else
        let addWaits := s.objects.addWaits.erase timer
        some do
          let outcome ← onAddTimer wait.request wait.status
            { s.objects with addWaits := addWaits }
          reply wait.request.callback outcome s

def childExits (child : Nat) (s : State) : Option (Except Fault State) :=
  match s.objects.children[child]? with
  | none => none
  | some c =>
      if c.alive then some (.ok { s with objects := s.objects.kill child })
      else none

/-- The exit handler of a dead child runs once. -/
def runOnExit (child : Nat) (ec : Option ErrorCode) (s : State) :
    Option (Except Fault State) :=
  match s.objects.children[child]? with
  | none => none
  | some c =>
      if c.exitPending ∧ ¬ c.alive then
        let children := s.objects.children.modify child fun c =>
          { c with exitPending := false }
        some (.ok
          { s with
            objects := onProcessExit ec c.kind c.className
              { s.objects with children := children } })
      else none

def readInotify (config : Config) (events : List KernelEvent) (s : State) :
    Option (Except Fault State) :=
  if s.fileWatcher.inotify.isOpen then
    some do
      let fileWatcher ← s.fileWatcher.queueEvents events
      onInotifyUpdate config { s with fileWatcher := fileWatcher }
  else none

def runVerification (index : Nat) (s : State) :
    Option (Except Fault State) := do
  let v ← s.verifications[index]?
  let outcome ← verificationHandler v s.objects
  some do
    let (objects, waiting) ← outcome
    .ok
      { s with
        objects := objects
        verifications := s.verifications.eraseIdx index ++
          waiting.toList }

def runStop (index : Nat) (s : State) : Option (Except Fault State) := do
  let exchange ← s.stops[index]?
  let outcome ← stopHandler exchange
  let s :=
    { s with
      objects := stopObjects exchange s.objects
      stops := s.stops.eraseIdx index }
  match outcome with
  | .ok waiting => some (.ok { s with stops := s.stops ++ [waiting] })
  | .error response => some (invoke exchange.callback response s)

/-- The step of the event loop. -/
def step (config : Config) : StepFunction State Action Fault
  | s, .acceptCompletes index err =>
      (UnixServer.acceptCompletes index err s.server).map fun server =>
        .ok { s with server := server }
  | s, .runOnConnect index =>
      (UnixServer.runOnConnect index s.server).map fun server =>
        .ok { s with server := server }
  | s, .commandRead index events env => readCommand index events env s
  | s, .runPosted env => runPosted env s
  | s, .timerExpires timer => timerExpires timer s
  | s, .runAddWait timer => runAddWait timer s
  | s, .childExits child => childExits child s
  | s, .runOnExit child ec => runOnExit child ec s
  | s, .inotifyRead events => readInotify config events s
  | s, .runVerification index => runVerification index s
  | s, .runStop index => runStop index s

/-! ## A small installation -/

namespace Installation

def config : Config :=
  { socketPath := "/run/sockets"
    localKekDir := "/home/.kekmonitors" }

/-- No sockets and no config files yet; every path can be watched. -/
def startUp : StartUp :=
  { addWatch := fun path => some path.length }

/-- A command about one class. -/
def about (command : Command) (className : String) : Cmd :=
  { cmd := command.code
    payload := Json.null.set "name" (Json.string className) }

/-- Everything a command needs is there. -/
def environment : Environment :=
  { python := some "python3"
    query := .document (some "/opt/monitor.py")
    spawn := some (⟨4711, by decide⟩, ⟨1625000000, by decide⟩) }

/-- A client connects and its command is read in one piece. -/
def request (cmd : Cmd) (env : Environment := environment) : List Action :=
  [.acceptCompletes 0 none, .runOnConnect 0,
    .commandRead 0 (transmit [cmd.toString]) env]

/-- The socket of a monitor appears, and refuses its verification. -/
def socketCreated : Action :=
  .inotifyRead
    [{ wd := config.socketPath.length
       mask := inCreate
       name := "Monitor.Shoes"
       surroundings :=
        { isSocket := true
          peer := { connect := some (.other 111 "Connection refused") } } }]

/-- A command that fits the buffer is read as it was sent. -/
theorem read_command {cmd : Cmd}
    (fits : cmd.toString.length ≤ bufferSize) :
    asyncReadCmd (transmit [cmd.toString]) = some (none, cmd) :=
  (readMessage_transmit_iff cmd (by simp [Cmd.toString])).mpr fits

/-- The constructed manager. -/
def start : State :=
  ((construct config startUp).toOption).getD {}

theorem start_built : construct config startUp = .ok start := by
  rfl

end Installation

end KekMonitors.Manager
