import KekMonitors.Manager.Progress

/-!
# Reloading a config file

A config file is reloaded because its directory reports that it was created,
or because the watch on the file itself reports that it was modified.  Only
the directory gives the event a name, and the command is chosen by the name of
the event, so a modified file is sent under the default command.
-/

namespace KekMonitors.Manager

open Configs
open Connection
open Transition

/-! ## Config files and their commands -/

inductive ConfigDir where
  | common
  | monitors
  | scrapers
  deriving DecidableEq, Repr

def ConfigDir.name : ConfigDir → String
  | .common => "common"
  | .monitors => "monitors"
  | .scrapers => "scrapers"

inductive ConfigFile where
  | webhooks
  | whitelists
  | blacklists
  | configs
  deriving DecidableEq, Repr

def ConfigFile.name : ConfigFile → String
  | .webhooks => "webhooks.json"
  | .whitelists => "whitelists.json"
  | .blacklists => "blacklists.json"
  | .configs => "configs.json"

/-- The command that a file of a directory is meant to be sent under. -/
def setCommand : ConfigDir → ConfigFile → Command
  | .common, .webhooks => .setCommonWebhooks
  | .common, .whitelists => .setCommonWhitelist
  | .common, .blacklists => .setCommonBlacklist
  | .common, .configs => .setCommonConfig
  | _, .webhooks => .setSpecificWebhooks
  | _, .whitelists => .setSpecificWhitelist
  | _, .blacklists => .setSpecificBlacklist
  | _, .configs => .setSpecificConfig

def configPath (config : Config) (dir : ConfigDir) (file : ConfigFile) :
    String :=
  config.configDir ++ "/" ++ dir.name ++ "/" ++ file.name

theorem ConfigDir.name_whole (dir : ConfigDir) :
    '/' ∉ dir.name.toList := by
  cases dir <;> decide

theorem ConfigDir.name_nonempty (dir : ConfigDir) :
    dir.name.isEmpty = false := by
  cases dir <;> decide

theorem ConfigFile.name_whole (file : ConfigFile) :
    '/' ∉ file.name.toList := by
  cases file <;> decide

theorem ConfigFile.name_allowed (file : ConfigFile) :
    file.name ∈ allowedFilenames := by
  cases file <;> decide

/-- The name of a file chooses its command. -/
theorem configCommand_name (dir : ConfigDir) (file : ConfigFile) :
    configCommand file.name dir.name = (setCommand dir file).code := by
  cases dir <;> cases file <;> decide

/-- An empty name leaves the default, which is no command of a file. -/
theorem configCommand_unnamed (dir other : ConfigDir) (file : ConfigFile) :
    configCommand "" dir.name ≠ (setCommand other file).code := by
  cases dir <;> cases other <;> cases file <;> decide

/-- What a reload sends; the event of a watched file gives an empty name. -/
def sendsOf (filename : String) (dir : ConfigDir) (configJson : Json)
    (o : Objects) : List Send :=
  configJson.keys.flatMap
    (sendMember (configCommand filename dir.name) dir.name configJson o)

/-- The file has a member for a class that has a process and a socket. -/
def Heard (o : Objects) (dir : ConfigDir) (configJson : Json) : Prop :=
  ∃ m ∈ addressed dir.name, ∃ className ∈ configJson.keys,
    ∃ endpoint, Hears o m className endpoint

theorem sendsOf_eq_nil_iff {filename : String} {dir : ConfigDir}
    {configJson : Json} {o : Objects} :
    sendsOf filename dir configJson o = [] ↔ ¬ Heard o dir configJson := by
  rw [List.eq_nil_iff_forall_not_mem, ← not_exists, not_iff_not]
  constructor
  · rintro ⟨send, sent⟩
    rcases mem_sends_iff.mp sent with ⟨reaches, hears, -, found⟩
    exact ⟨send.kind, reaches, send.className,
      Json.mem_keys_iff.mpr (by simp [found]), send.endpoint, hears⟩
  · rintro ⟨m, reaches, className, member, endpoint, hears⟩
    rcases Option.isSome_iff_exists.mp (Json.mem_keys_iff.mp member) with
      ⟨value, found⟩
    let send : Send :=
      { kind := m
        className := className
        endpoint := endpoint
        cmd :=
          { cmd := configCommand filename dir.name
            payload := value } }
    exact ⟨send, mem_sends_iff.mpr ⟨reaches, hears, rfl, found⟩⟩

/-! ## Delivered events -/

/-- The next event of the loop of `onInotifyUpdate`. -/
def eventStep (config : Config) : StepFunction State InotifyEvent Fault :=
  fun s event => some (onInotifyEvent config event s)

/-- The loop is a run of its events. -/
theorem onInotifyEvents_run (config : Config) (events : List InotifyEvent)
    (s : State) :
    Run (eventStep config) s (attemptsOf (eventStep config) s events)
      (onInotifyEvents config s events) := by
  induction events generalizing s with
  | nil => exact .start
  | cons event events ih =>
      rw [attemptsOf, onInotifyEvents]
      cases ran : onInotifyEvent config event s with
      | error fault =>
          simp only [eventStep, ran]
          exact Run.next .start (congrArg some ran)
      | ok next =>
          simp only [eventStep, ran]
          exact (ih next).cons (congrArg some ran)

/--
An event as the kernel delivers it on a watch that the manager has set.  A
watched directory reports what happens to a child, with its name; a watched
file is modified, which has no name; and both end with a notice.
-/
inductive Delivered (watch : InotifyWatch) (event : InotifyEvent) : Prop
    where
  | child (directory : watch.mask = inCreate ||| inDelete)
      (change : event.mask ∈ [inCreate, inDelete, inCreate ||| inIsDir,
        inDelete ||| inIsDir])
      (named : event.name.isEmpty = false)
      (whole : '/' ∉ event.name.toList)
  | modified (file : watch.mask = inModify) (change : event.mask = inModify)
      (unnamed : event.name = "")
  | ended (change : event.mask &&& ~~~inIsDir ∈ [inIgnored, inUnmount])
      (unnamed : event.name = "")

/-- The event is delivered on its watch. -/
def IsDelivered (s : State) (event : InotifyEvent) : Prop :=
  ∀ watch, s.fileWatcher.findWatch event.watch = some watch →
    Delivered watch event

def fullEventPath (watch : InotifyWatch) (event : InotifyEvent) : String :=
  if event.name.isEmpty then watch.path
  else watch.path ++ "/" ++ event.name

/-- The event is about a config file that contains an object. -/
structure ConfigChange (config : Config) (s : State) (event : InotifyEvent)
    (dir : ConfigDir) (file : ConfigFile) (configJson : Json) : Prop where
  watched : ∃ watch, s.fileWatcher.findWatch event.watch = some watch ∧
    watch.path ≠ config.socketPath ∧
      fullEventPath watch event = configPath config dir file
  content : Json.parsePrefix event.surroundings.content = some configJson
  object : configJson.isObject = true

/--
Whatever the event sends has the command of its file and the values of the
classes.  A modified file sends the same as it would when it was created.
-/
def SendsRight (config : Config) (s : State) (event : InotifyEvent) : Prop :=
  ∀ dir file configJson next,
    ConfigChange config s event dir file configJson →
    onInotifyEvent config event s = .ok next →
    ∃ sends, next.sent = s.sent ++ sends ∧
      (∀ send ∈ sends, send.cmd.cmd = (setCommand dir file).code ∧
        configJson.find? send.className = some send.cmd.payload) ∧
      (event.mask = inModify → ∀ other created after,
        IsDelivered other created → created.mask = inCreate →
        ConfigChange config other created dir file configJson →
        other.objects = s.objects →
        onInotifyEvent config created other = .ok after →
          after.sent = other.sent ++ sends)

/-- A file that is modified has no member for a class that hears of it. -/
def ModifiedUnheard (config : Config) (s : State) (event : InotifyEvent) :
    Prop :=
  event.mask = inModify → ∀ dir file configJson,
    ConfigChange config s event dir file configJson →
      ¬ Heard s.objects dir configJson

/-! ## One event -/

section OneEvent

variable {config : Config} {s next : State} {event : InotifyEvent}
  {dir : ConfigDir} {file : ConfigFile} {configJson : Json}

/-- The part of a path after its last separator is unique. -/
theorem split_at_last_slash {front other back rest : List Char}
    (backWhole : '/' ∉ back) (restWhole : '/' ∉ rest)
    (same : front ++ '/' :: back = other ++ '/' :: rest) :
    front = other ∧ back = rest := by
  rcases List.append_eq_append_iff.mp same with
    ⟨between, rfl, split⟩ | ⟨between, rfl, split⟩
  · cases between with
    | nil => simpa using split
    | cons c between =>
        rcases List.cons.inj split with ⟨rfl, rfl⟩
        simp at backWhole
  · cases between with
    | nil => simpa [eq_comm] using split
    | cons c between =>
        rcases List.cons.inj split with ⟨rfl, rfl⟩
        simp at restWhole

/-- A child of a watched directory is a config file under its own name. -/
theorem ConfigChange.child_name
    (change : ConfigChange config s event dir file configJson)
    (named : event.name.isEmpty = false)
    (whole : '/' ∉ event.name.toList) : event.name = file.name := by
  rcases change.watched with ⟨watch, -, -, path⟩
  rw [fullEventPath, if_neg (by simp [named]), configPath] at path
  have same := congrArg String.toList path
  simp only [String.toList_append] at same
  have lists : watch.path.toList ++ '/' :: event.name.toList =
      (config.configDir ++ "/" ++ dir.name).toList ++
        '/' :: file.name.toList := by
    simpa using same
  exact String.ext
    (split_at_last_slash whole file.name_whole lists).2

theorem ConfigChange.event_eq
    (change : ConfigChange config s event dir file configJson) :
    onInotifyEvent config event s =
      onConfigEvent (configPath config dir file) event s := by
  rcases change.watched with ⟨watch, found, other, path⟩
  rw [fullEventPath] at path
  simp only [onInotifyEvent, found, if_neg other, path]

/-- What a reload of a config file does. -/
theorem ConfigChange.reload_eq
    (change : ConfigChange config s event dir file configJson)
    (filename : String) (state : State) :
    reload (configPath config dir file) filename
        event.surroundings.content state =
      .ok { state with
        sent := state.sent ++
          sendsOf filename dir configJson state.objects } := by
  have subDir : configSubDir (configPath config dir file) =
      .ok dir.name :=
    configSubDir_of_path _ dir.name_whole file.name_whole
  simp [reload, parseAndSendConfigs, Json.readFrom_eq_ok change.content,
    change.object, subDir, dir.name_nonempty, sendsOf, bind, Except.bind]

theorem addWatch_keeps {path : String} {mask : UInt32}
    {kernel : Option Nat} (added : addWatch path mask kernel s = .ok next) :
    next.sent = s.sent ∧ next.objects = s.objects := by
  rcases bind_eq_ok.mp added with ⟨fileWatcher, -, same⟩
  rcases Except.ok.inj same with rfl
  exact ⟨rfl, rfl⟩

/-- A created file is reloaded under its own name, or cannot be watched. -/
theorem ConfigChange.created
    (change : ConfigChange config s event dir file configJson)
    (delivered : IsDelivered s event) (created : event.mask = inCreate)
    (ran : onInotifyEvent config event s = .ok next) :
    next.sent = s.sent ++ sendsOf file.name dir configJson s.objects := by
  have name : event.name = file.name := by
    rcases change.watched with ⟨watch, found, -, -⟩
    cases delivered watch found with
    | child _ _ named whole => exact change.child_name named whole
    | modified _ other _ => exact absurd (created.symm.trans other) (by decide)
    | ended other _ => exact absurd (created ▸ other) (by decide)
  have plain : (inCreate &&& ~~~inIsDir) = inCreate := by decide
  have noDir : decide (inCreate &&& inIsDir ≠ 0) = false := by decide
  rw [change.event_eq, onConfigEvent] at ran
  simp only [created, plain, noDir, name, file.name_allowed, if_true,
    Bool.false_eq_true, if_false] at ran
  split at ran
  · rw [change.reload_eq] at ran
    rcases Except.ok.inj ran with rfl
    rfl
  · rcases bind_eq_ok.mp ran with ⟨watching, added, reloaded⟩
    rcases addWatch_keeps added with ⟨sent, objects⟩
    rw [change.reload_eq] at reloaded
    rcases Except.ok.inj reloaded with rfl
    rw [sent, objects]

/-- A modified file is reloaded under no name. -/
theorem ConfigChange.modified
    (change : ConfigChange config s event dir file configJson)
    (delivered : IsDelivered s event) (modified : event.mask = inModify) :
    onInotifyEvent config event s =
      .ok { s with
        sent := s.sent ++ sendsOf "" dir configJson s.objects } := by
  have unnamed : event.name = "" := by
    rcases change.watched with ⟨watch, found, -, -⟩
    cases delivered watch found with
    | child _ other _ _ => exact absurd (modified ▸ other) (by decide)
    | modified _ _ unnamed => exact unnamed
    | ended _ unnamed => exact unnamed
  have plain : (inModify &&& ~~~inIsDir) = inModify := by decide
  have notCreate : inModify ≠ inCreate := by decide
  rw [change.event_eq, onConfigEvent]
  simp only [modified, plain, unnamed, if_neg notCreate, true_or, if_true]
  exact change.reload_eq "" s

/-- A directory that is created may be watched, and is not reloaded. -/
theorem onConfigEvent_dir {path : String}
    (created : event.mask = inCreate ||| inIsDir)
    (ran : onConfigEvent path event s = .ok next) : next.sent = s.sent := by
  have plain : (inCreate ||| inIsDir) &&& ~~~inIsDir = inCreate := by decide
  have isDir : (inCreate ||| inIsDir) &&& inIsDir ≠ 0 := by decide
  simp only [onConfigEvent, created, plain, isDir, ne_eq, not_false_eq_true,
    decide_true, if_true] at ran
  split at ran
  · exact (addWatch_keeps ran).1
  · rcases Except.ok.inj ran with rfl
    rfl

/-- The cases of the switch that do not reload. -/
theorem onConfigEvent_other {path : String}
    (other : event.mask &&& ~~~inIsDir ∉
      [inCreate, inModify, inCloseNoWrite, inCloseWrite])
    (ran : onConfigEvent path event s = .ok next) : next.sent = s.sent := by
  simp only [List.mem_cons, List.not_mem_nil, or_false, not_or] at other
  rcases other with ⟨notCreate, notModify, notNoWrite, notWrite⟩
  simp only [onConfigEvent, notCreate, notModify, notNoWrite, notWrite,
    or_self, if_false] at ran
  split at ran
  · split at ran
    · split at ran
      · rcases Except.ok.inj ran with rfl
        rfl
      · rcases bind_eq_ok.mp ran with ⟨fileWatcher, -, same⟩
        rcases Except.ok.inj same with rfl
        rfl
    · rcases Except.ok.inj ran with rfl
      rfl
  · rcases Except.ok.inj ran with rfl
    rfl

/-- No other event sends anything. -/
theorem ConfigChange.silent
    (change : ConfigChange config s event dir file configJson)
    (delivered : IsDelivered s event) (notCreated : event.mask ≠ inCreate)
    (notModified : event.mask ≠ inModify)
    (ran : onInotifyEvent config event s = .ok next) :
    next.sent = s.sent := by
  rw [change.event_eq] at ran
  rcases change.watched with ⟨watch, found, -, -⟩
  cases delivered watch found with
  | child _ kind _ _ =>
      simp only [List.mem_cons, List.not_mem_nil, or_false] at kind
      rcases kind with created | deleted | created | deleted
      · exact absurd created notCreated
      · exact onConfigEvent_other (by rw [deleted]; decide) ran
      · exact onConfigEvent_dir created ran
      · exact onConfigEvent_other (by rw [deleted]; decide) ran
  | modified _ other _ => exact absurd other notModified
  | ended other _ =>
      simp only [List.mem_cons, List.not_mem_nil, or_false] at other
      rcases other with other | other
      · exact onConfigEvent_other (by rw [other]; decide) ran
      · exact onConfigEvent_other (by rw [other]; decide) ran

/-- What an event sends is right just when no modified file is heard. -/
theorem sendsRight_iff (delivered : IsDelivered s event) :
    SendsRight config s event ↔ ModifiedUnheard config s event := by
  constructor
  · intro right modified dir file configJson change heard
    rcases right dir file configJson _ change
      (change.modified delivered modified) with ⟨sends, sent, good, -⟩
    rcases List.append_cancel_left sent with rfl
    rcases List.exists_mem_of_ne_nil _
      (mt sendsOf_eq_nil_iff.mp (not_not_intro heard)) with ⟨send, member⟩
    -- the watch on a file gives no name, and an empty one sets no command
    have command := (mem_sends_iff.mp member).2.2.1
    exact configCommand_unnamed dir dir file
      (command.symm.trans (good send member).1)
  · intro unheard dir file configJson next change ran
    by_cases created : event.mask = inCreate
    · refine ⟨_, change.created delivered created ran, ?_, ?_⟩
      · intro send member
        rcases mem_sends_iff.mp member with ⟨-, -, command, value⟩
        exact ⟨command.trans (configCommand_name dir file), value⟩
      · intro modified
        exact absurd (created.symm.trans modified) (by decide)
    · refine ⟨[], ?_, by simp, ?_⟩
      · by_cases modified : event.mask = inModify
        · have silent := unheard modified dir file configJson change
          rw [change.modified delivered modified] at ran
          rcases Except.ok.inj ran with rfl
          simp [sendsOf_eq_nil_iff.mpr silent]
        · simpa using change.silent delivered created modified ran
      · intro modified other creation after deliveredOther createdOther
          changeOther same ranOther
        have silent := unheard modified dir file configJson change
        rw [changeOther.created deliveredOther createdOther ranOther, same,
          sendsOf_eq_nil_iff.mpr silent]

end OneEvent

/-! ## Every sequence of events -/

/--
Along any sequence of delivered events, from any state, every event sends what
is right precisely when no modified file has a member for a class that hears
of it.
-/
theorem reloads_send_iff (config : Config) (start : State)
    (events : List InotifyEvent)
    (delivered : Meets IsDelivered
      (attemptsOf (eventStep config) start events)) :
    Meets (SendsRight config)
        (attemptsOf (eventStep config) start events) ↔
      Meets (ModifiedUnheard config)
        (attemptsOf (eventStep config) start events) := by
  constructor
  · intro right attempt member
    exact (sendsRight_iff (delivered attempt member)).mp
      (right attempt member)
  · intro unheard attempt member
    exact (sendsRight_iff (delivered attempt member)).mpr
      (unheard attempt member)

/-! ## A whitelist for one monitor -/

namespace Installation

/-- A monitor runs and has a socket. -/
def shoesRunning : List Action :=
  request (about .mmAddMonitor "Shoes") environment ++ [socketCreated]

/-- The watch on the config directory is the second one. -/
def commonCreated : InotifyEvent :=
  { watch := 1
    mask := inCreate ||| inIsDir
    name := "common"
    surroundings := { addWatch := some 1000 } }

def whitelists : List Json.Byte :=
  (Json.null.set "Shoes" Json.emptyObject).toBytes

def whitelistsCreated : InotifyEvent :=
  { watch := 2
    mask := inCreate
    name := "whitelists.json"
    surroundings :=
      { content := whitelists
        addWatch := some 1001 } }

def whitelistsModified : InotifyEvent :=
  { watch := 3
    mask := inModify
    name := ""
    surroundings := { content := whitelists } }

end Installation

open Installation

/-- A decidable form of the deliveries that the installation needs. -/
def deliveredBy (watch : InotifyWatch) (event : InotifyEvent) : Bool :=
  (watch.mask = inCreate ||| inDelete ∧
      event.mask ∈ [inCreate, inDelete, inCreate ||| inIsDir,
        inDelete ||| inIsDir] ∧
      event.name.isEmpty = false ∧ '/' ∉ event.name.toList) ∨
    (watch.mask = inModify ∧ event.mask = inModify ∧ event.name = "")

theorem isDelivered_of {s : State} {event : InotifyEvent}
    (delivered : (s.fileWatcher.findWatch event.watch).all
      (fun watch => deliveredBy watch event) = true) :
    IsDelivered s event := by
  intro watch found
  rw [found] at delivered
  rcases of_decide_eq_true delivered with
    ⟨directory, change, named, whole⟩ | ⟨file, change, unnamed⟩
  · exact .child directory change named whole
  · exact .modified file change unnamed

/-- Files that are only created are reloaded under the right command. -/
theorem created_sends_right :
    ∃ s, Reached config s ∧ Meets (SendsRight config)
      (attemptsOf (eventStep config) s
        [commonCreated, whitelistsCreated]) := by
  have setting : (execute (step config) start shoesRunning).any (fun s =>
      (attemptsOf (eventStep config) s
          [commonCreated, whitelistsCreated]).all fun attempt =>
        (attempt.1.fileWatcher.findWatch attempt.2.watch).all
            (fun watch => deliveredBy watch attempt.2) ∧
          attempt.2.mask ≠ inModify) = true := by
    decide +kernel
  rcases (Option.any_eq_true _ _).mp setting with ⟨s, executed, facts⟩
  have each := List.all_eq_true.mp facts
  refine ⟨s, reached executed, (reloads_send_iff _ _ _ ?_).mpr ?_⟩
  · intro attempt member
    exact isDelivered_of (of_decide_eq_true (each attempt member)).1
  · intro attempt member modified
    exact absurd modified (of_decide_eq_true (each attempt member)).2

/--
A whitelist is created and then modified, while its monitor runs: the monitor
is sent the default command, a PING.
-/
theorem modified_sends_default :
    ∃ s, Reached config s ∧
      Meets IsDelivered (attemptsOf (eventStep config) s
        [commonCreated, whitelistsCreated, whitelistsModified]) ∧
      ¬ Meets (SendsRight config) (attemptsOf (eventStep config) s
        [commonCreated, whitelistsCreated, whitelistsModified]) := by
  have setting : (execute (step config) start shoesRunning).any (fun s =>
      ((attemptsOf (eventStep config) s
          [commonCreated, whitelistsCreated, whitelistsModified]).all
        fun attempt =>
          (attempt.1.fileWatcher.findWatch attempt.2.watch).all
            (fun watch => deliveredBy watch attempt.2)) ∧
      (execute (eventStep config) s [commonCreated, whitelistsCreated]).any
        fun created =>
          ((created.fileWatcher.findWatch whitelistsModified.watch).any
            fun watch => watch.path ≠ config.socketPath ∧
              fullEventPath watch whitelistsModified =
                configPath config .common .whitelists) ∧
          (created.objects.find? .monitor "Shoes").any fun stored =>
            stored.process.isSome ∧ stored.endpoint.isSome) = true := by
    decide +kernel
  have content : (Json.parsePrefix whitelists).any (fun configJson =>
      configJson.isObject ∧ "Shoes" ∈ configJson.keys) = true := by
    decide +kernel
  rcases (Option.any_eq_true _ _).mp setting with ⟨s, executed, facts⟩
  rcases of_decide_eq_true facts with ⟨deliveries, facts⟩
  rcases (Option.any_eq_true _ _).mp facts with ⟨created, before, facts⟩
  rcases of_decide_eq_true facts with ⟨watched, running⟩
  rcases (Option.any_eq_true _ _).mp watched with ⟨watch, found, facts⟩
  rcases (Option.any_eq_true _ _).mp running with ⟨stored, entry, both⟩
  rcases of_decide_eq_true both with ⟨process, endpoint⟩
  rcases Option.isSome_iff_exists.mp endpoint with ⟨path, endpoint⟩
  rcases (Option.any_eq_true _ _).mp content with
    ⟨configJson, parsed, shape⟩
  rcases of_decide_eq_true shape with ⟨object, key⟩
  have delivered : Meets IsDelivered (attemptsOf (eventStep config) s
      [commonCreated, whitelistsCreated, whitelistsModified]) := by
    intro attempt member
    exact isDelivered_of (List.all_eq_true.mp deliveries attempt member)
  refine ⟨s, reached executed, delivered, ?_⟩
  intro right
  have last : (created, whitelistsModified) ∈
      attemptsOf (eventStep config) s
        ([commonCreated, whitelistsCreated] ++ [whitelistsModified]) := by
    rw [attemptsOf_append before]
    exact List.mem_append_right _ List.mem_cons_self
  have change : ConfigChange config created whitelistsModified .common
      .whitelists configJson :=
    { watched := ⟨watch, found, of_decide_eq_true facts⟩
      content := parsed
      object := object }
  refine (sendsRight_iff (delivered _ last)).mp (right _ last) rfl .common
    .whitelists configJson change ?_
  exact ⟨.monitor, by decide, "Shoes", key, path, stored, entry, process,
    endpoint⟩

end KekMonitors.Manager
