import KekMonitors.Manager.Handling
import KekMonitors.Manager.Reload

/-!
# The sends of a reload

The loop over the members of a config file keeps overwriting one command.  A
connection that it starts holds a copy of the command, which is written when
the connection has been accepted, after any other handlers.
-/

namespace KekMonitors.Manager

open Configs
open Transition

/-! ## The loop -/

/-- A directory addresses its own kind, and the common one each. -/
def sendIfAddressed (own : String) (m : MonitorOrScraper)
    (configSubDir : String) (cmd : Cmd) (className : String) (o : Objects) :
    List Send :=
  if configSubDir = own ∨ configSubDir = "common" then
    (sendCmdIfProcess m cmd className o).toList
  else []

/-- The loop, with the command as the last member leaves it. -/
def sendMembers (configSubDir : String) (configJson : Json) (o : Objects) :
    List String → Cmd → List Send → Cmd × List Send
  | [], cmd, sends => (cmd, sends)
  | className :: later, cmd, sends =>
      let cmd :=
        { cmd with payload := (configJson.find? className).getD Json.null }
      let sends := sends ++
        sendIfAddressed "monitors" .monitor configSubDir cmd className o
      let sends := sends ++
        sendIfAddressed "scrapers" .scraper configSubDir cmd className o
      sendMembers configSubDir configJson o later cmd sends

/-- The sends for a member are those with its value as the payload. -/
theorem sendIfAddressed_eq_sendMember (command : CommandType)
    (configSubDir : String) {configJson value : Json} (o : Objects)
    {className : String}
    (found : configJson.find? className = some value) :
    sendIfAddressed "monitors" .monitor configSubDir
          { cmd := command, payload := value } className o ++
        sendIfAddressed "scrapers" .scraper configSubDir
          { cmd := command, payload := value } className o =
      sendMember command configSubDir configJson o className := by
  rw [sendMember, found]
  dsimp only
  rw [addressed, List.filterMap_append]
  congr 1
  · rw [sendIfAddressed]
    split
    · rw [List.filterMap_cons, List.filterMap_nil]
      split <;> rename_i sent <;> rw [sent] <;> rfl
    · rfl
  · rw [sendIfAddressed]
    split
    · rw [List.filterMap_cons, List.filterMap_nil]
      split <;> rename_i sent <;> rw [sent] <;> rfl
    · rfl

/-- What the payload was before a member does not matter. -/
theorem sendMembers_sends (configSubDir : String) (configJson : Json)
    (o : Objects) {names : List String}
    (members : ∀ name ∈ names, (configJson.find? name).isSome) (cmd : Cmd)
    (sends : List Send) :
    (sendMembers configSubDir configJson o names cmd sends).2 =
      sends ++ names.flatMap
        (sendMember cmd.cmd configSubDir configJson o) := by
  induction names generalizing cmd sends with
  | nil => simp [sendMembers]
  | cons className later ih =>
      have rest : ∀ name ∈ later, (configJson.find? name).isSome :=
        fun name member => members name (List.mem_cons_of_mem _ member)
      rcases Option.isSome_iff_exists.mp
        (members className List.mem_cons_self) with ⟨value, found⟩
      rw [sendMembers, ih rest, List.flatMap_cons,
        ← sendIfAddressed_eq_sendMember cmd.cmd configSubDir o found, found]
      simp only [Option.getD_some, List.append_assoc]

/-! ## The recipients -/

/-- A file below a directory, which is the last one of its path. -/
def ParentDir (fullPath subDir : String) : Prop :=
  ∃ base filename, fullPath = base ++ "/" ++ subDir ++ "/" ++ filename ∧
    '/' ∉ subDir.toList ∧ '/' ∉ filename.toList

/-- The directory of the config files of one kind. -/
def kindDir : MonitorOrScraper → ConfigDir
  | .monitor => .monitors
  | .scraper => .scrapers

def Addresses (subDir : String) (m : MonitorOrScraper) : Prop :=
  subDir = ConfigDir.common.name ∨ subDir = (kindDir m).name

/-- The pair of a kind and a class that a send is for. -/
def Send.pair (send : Send) : MonitorOrScraper × String :=
  (send.kind, send.className)

/-- The sends are one for each pair that is to be sent its value. -/
structure SendsEach (command : CommandType) (subDir : String)
    (configJson : Json) (o : Objects) (sends : List Send) : Prop where
  mem_iff : ∀ send, send ∈ sends ↔
    Addresses subDir send.kind ∧
      Hears o send.kind send.className send.endpoint ∧
        configJson.find? send.className = some send.cmd.payload ∧
          send.cmd.cmd = command
  once : (sends.map Send.pair).Nodup

theorem mem_addressed_iff {subDir : String} {m : MonitorOrScraper} :
    m ∈ addressed subDir ↔ Addresses subDir m := by
  cases m <;>
    simp [addressed, Addresses, kindDir, ConfigDir.name, or_comm]

theorem nodup_addressed (subDir : String) : (addressed subDir).Nodup := by
  unfold addressed
  split <;> split <;> simp

/-- The sends for one class are for some of the kinds, in their order. -/
theorem pairs_sendMember (command : CommandType) (subDir : String)
    (configJson : Json) (o : Objects) (className : String) :
    ((sendMember command subDir configJson o className).map
      Send.pair).Sublist
        ((addressed subDir).map fun m => (m, className)) := by
  unfold sendMember
  split
  · exact List.nil_sublist _
  · rename_i value found
    induction addressed subDir with
    | nil => exact .refl _
    | cons m later ih =>
        rw [List.filterMap_cons, List.map_cons]
        split
        · exact ih.cons _
        · rename_i send sent
          rcases sendCmdIfProcess_eq_some_iff.mp sent with
            ⟨-, rfl, rfl, -⟩
          exact ih.cons_cons _

theorem nodup_keys (configJson : Json) : configJson.keys.Nodup :=
  (List.pairwise_map.mpr configJson.members_ordered).imp ne_of_lt

theorem nodup_pairs (command : CommandType) (subDir : String)
    (configJson : Json) (o : Objects) :
    ((configJson.keys.flatMap
      (sendMember command subDir configJson o)).map Send.pair).Nodup := by
  rw [List.map_flatMap, List.nodup_flatMap]
  have pairs := pairs_sendMember command subDir configJson o
  constructor
  · intro className member
    refine (pairs className).nodup ((nodup_addressed subDir).map ?_)
    exact fun first second same => congrArg Prod.fst same
  · refine (nodup_keys configJson).imp ?_
    intro first second different pair inFirst inSecond
    rcases List.mem_map.mp ((pairs first).subset inFirst) with ⟨m, -, rfl⟩
    rcases List.mem_map.mp ((pairs second).subset inSecond) with
      ⟨other, -, same⟩
    exact different (congrArg Prod.snd same).symm

theorem sendsEach_flatMap (command : CommandType) (subDir : String)
    (configJson : Json) (o : Objects) :
    SendsEach command subDir configJson o
      (configJson.keys.flatMap (sendMember command subDir configJson o)) where
  mem_iff := by
    intro send
    rw [mem_sends_iff, mem_addressed_iff]
    tauto
  once := nodup_pairs command subDir configJson o

theorem last_separator {chars : List Char} (member : '/' ∈ chars) :
    ∃ front back, chars = front ++ '/' :: back ∧ '/' ∉ back := by
  rcases List.eq_append_cons_of_mem (List.mem_reverse.mpr member) with
    ⟨back, front, split, whole⟩
  refine ⟨front.reverse, back.reverse, ?_, by simpa using whole⟩
  rw [← List.reverse_reverse chars, split]
  simp

/-- Two separators are enough for a directory between them. -/
theorem parentDir_of_separators {fullPath : String}
    (separators : 2 ≤ fullPath.toList.count '/') :
    ∃ subDir, ParentDir fullPath subDir := by
  have some : '/' ∈ fullPath.toList :=
    List.count_pos_iff.mp (by omega)
  rcases last_separator some with ⟨front, filename, split, filenameWhole⟩
  have more : '/' ∈ front := by
    rw [split, List.count_append, List.count_cons_self,
      List.count_eq_zero.mpr filenameWhole] at separators
    exact List.count_pos_iff.mp (by omega)
  rcases last_separator more with ⟨base, subDir, rfl, subDirWhole⟩
  refine ⟨.ofList subDir, .ofList base, .ofList filename, ?_, ?_, ?_⟩
  · apply String.ext
    simp [split]
  · simpa using subDirWhole
  · simpa using filenameWhole

theorem ParentDir.configSubDir_eq {fullPath subDir : String}
    (parent : ParentDir fullPath subDir) :
    configSubDir fullPath = .ok subDir := by
  rcases parent with ⟨base, filename, rfl, subDirWhole, filenameWhole⟩
  exact configSubDir_of_path base subDirWhole filenameWhole

/-! ## A reload -/

/-- A directory without a name addresses nobody, and its file is skipped. -/
theorem parseAndSendConfigs_eq {fullPath subDir : String} (filename : String)
    {content : List Json.Byte} {configJson : Json}
    (parsed : Json.parsePrefix content = some configJson)
    (object : configJson.isObject = true)
    (parent : ParentDir fullPath subDir) (o : Objects) :
    parseAndSendConfigs fullPath filename content o =
      .ok (configJson.keys.flatMap
        (sendMember (configCommand filename subDir) subDir configJson o)) := by
  have whole : parseAndSendConfigs fullPath filename content o =
      if subDir.isEmpty then .ok []
      else
        .ok (configJson.keys.flatMap
          (sendMember (configCommand filename subDir) subDir configJson
            o)) := by
    simp [parseAndSendConfigs, Json.readFrom_eq_ok parsed, object,
      parent.configSubDir_eq, bind, Except.bind]
  rw [whole]
  split
  · rename_i empty
    have unnamed : subDir = "" := String.isEmpty_iff.mp empty
    have nobody : ∀ m, ¬ Addresses subDir m := by
      intro m
      cases m <;> simp [unnamed, Addresses, kindDir, ConfigDir.name]
    congr 1
    apply (List.eq_nil_iff_forall_not_mem.mpr ?_).symm
    intro send sent
    exact nobody send.kind ((sendsEach_flatMap ..).mem_iff send |>.mp sent).1
  · rfl

/-- A message is read as the command that its send holds. -/
theorem fromString_sent (send : Send) :
    Cmd.fromString send.cmd.toString none = (send.cmd, none) := by
  have read := Cmd.codec.fromString_padded send.cmd 0
  rw [List.replicate_zero, List.append_nil] at read
  exact read

theorem sent_of_run {config : Config} {s later : State}
    {attempts : List (State × Action)} {outcome : Except Fault State}
    (run : Run (step config) s attempts outcome)
    (visited : Visits attempts outcome later) : s.sent <+: later.sent := by
  rcases run.visited_reached visited with ⟨earlier, rest, -, reached⟩
  refine reached.invariant (fun state => s.sent <+: state.sent)
    List.prefix_rfl ?_
  intro state action next sent taken
  exact sent.trans (step_sent taken)

/-- The sends that a reload starts, until their messages are written. -/
structure SendsOnce (config : Config) (fullPath filename : String)
    (content : List Json.Byte) (configJson : Json) (s : State)
    (subDir : String) (sends : List Send) : Prop where
  parent : ParentDir fullPath subDir
  started : parseAndSendConfigs fullPath filename content s.objects =
    .ok sends
  /-- The loop over the one command makes them. -/
  loop : sends = (sendMembers subDir configJson s.objects configJson.keys
    { cmd := configCommand filename subDir } []).2
  each : SendsEach (configCommand filename subDir) subDir configJson
    s.objects sends
  reloaded : reload fullPath filename content s =
    .ok { s with sent := s.sent ++ sends }
  /-- Whatever the manager does before it writes, they stay as they are. -/
  kept : ∀ attempts outcome later,
    Run (step config) { s with sent := s.sent ++ sends } attempts outcome →
      Visits attempts outcome later → s.sent ++ sends <+: later.sent
  messages : ∀ send ∈ sends,
    Cmd.fromString send.cmd.toString none = (send.cmd, none)

/-- What has been read as an object is sent, each value once. -/
theorem sendsOnce_of_object {fullPath : String} {content : List Json.Byte}
    {configJson : Json} (parsed : Json.parsePrefix content = some configJson)
    (object : configJson.isObject = true)
    (separators : 2 ≤ fullPath.toList.count '/') (file : ConfigFile)
    (config : Config) (s : State) :
    ∃ subDir sends, SendsOnce config fullPath file.name content configJson
      s subDir sends := by
  rcases parentDir_of_separators separators with ⟨subDir, parent⟩
  have sent := parseAndSendConfigs_eq file.name parsed object parent s.objects
  have members : ∀ name ∈ configJson.keys,
      (configJson.find? name).isSome :=
    fun name member => Json.mem_keys_iff.mp member
  exact ⟨subDir, _, {
    parent := parent
    started := sent
    loop := by
      rw [sendMembers_sends subDir configJson s.objects members]
      rfl
    each := sendsEach_flatMap ..
    reloaded := by
      rw [reload, sent]
      rfl
    kept := fun attempts outcome later run visited => sent_of_run run visited
    messages := fun send _ => fromString_sent send }⟩

/-- A reload makes the sends of the object in its file. -/
def SendsMembers (config : Config) (fullPath filename : String)
    (content : List Json.Byte) (s : State) : Prop :=
  ∃ configJson subDir sends,
    Json.parsePrefix content = some configJson ∧
      SendsOnce config fullPath filename content configJson s subDir sends

/-- A number that overflows ends the manager before anything is sent. -/
theorem reload_overflow {content : List Json.Byte}
    (overflow : Json.overflows content = true) (fullPath filename : String)
    (s : State) :
    reload fullPath filename content s =
      .error (.raised .jsonOutOfRange) := by
  rw [reload, parseAndSendConfigs, Json.readFrom_overflow overflow]
  rfl

/--
A reload sends each addressed entry the value of its class, once, unless a
number of the object overflows.
-/
theorem members_sent_iff {fullPath : String} {content : List Json.Byte}
    (object : Json.IsObjectText content)
    (separators : 2 ≤ fullPath.toList.count '/') (file : ConfigFile)
    (config : Config) (s : State) :
    SendsMembers config fullPath file.name content s ↔
      Json.overflows content = false := by
  constructor
  · rintro ⟨configJson, subDir, sends, -, once⟩
    by_contra overflow
    have raised := reload_overflow (Bool.eq_true_of_not_eq_false overflow)
      fullPath file.name s
    have returned := once.reloaded
    rw [raised] at returned
    simp at returned
  · intro fits
    rcases Json.parsePrefix_object_iff.mpr ⟨object, fits⟩ with
      ⟨configJson, parsed, isObject⟩
    rcases sendsOnce_of_object parsed isObject separators file config s with
      ⟨subDir, sends, once⟩
    exact ⟨configJson, subDir, sends, parsed, once⟩

namespace Installation

/-- The common directory appears among the config files. -/
def commonAppears : Action :=
  .inotifyRead
    [{ wd := config.configDir.length
       mask := inCreate ||| inIsDir
       name := "common"
       surroundings := { addWatch := some 1000 } }]

/-- A whitelist whose other member no double can hold. -/
def overflowing : List Json.Byte :=
  Json.word "\x7b\"Hats\": 1e999, \"Shoes\": []\x7d"

def overflowAppears : Action :=
  .inotifyRead
    [{ wd := 1000
       mask := inCreate
       name := "whitelists.json"
       surroundings :=
         { content := overflowing
           addWatch := some 1001 } }]

end Installation

open Installation

/-- The exception with which a step ends the manager. -/
def raisedBy (config : Config) (s : State) (action : Action) :
    Option Fault :=
  match step config s action with
  | some (.error fault) => some fault
  | _ => none

theorem step_of_raisedBy {config : Config} {s : State} {action : Action}
    {fault : Fault} (raises : raisedBy config s action = some fault) :
    step config s action = some (.error fault) := by
  unfold raisedBy at raises
  split at raises
  · rename_i other taken
    rw [taken, Option.some.inj raises]
  · simp at raises

/-- Shoes can be sent its value, and the manager ends instead. -/
theorem shoes_hears :
    ∃ s, Reached config s ∧
      Hears s.objects .monitor "Shoes" "/run/sockets/Monitor.Shoes" ∧
      step config s overflowAppears =
        some (.error (.raised .jsonOutOfRange)) := by
  have setting : (execute (step config) start
      (shoesRunning ++ [commonAppears])).any (fun s =>
        (s.objects.find? .monitor "Shoes").any (fun stored =>
          stored.process.isSome ∧
            stored.endpoint = some "/run/sockets/Monitor.Shoes") ∧
        raisedBy config s overflowAppears =
          some (.raised .jsonOutOfRange)) = true := by
    decide +kernel
  rcases (Option.any_eq_true _ _).mp setting with ⟨s, executed, facts⟩
  rcases of_decide_eq_true facts with ⟨entry, raises⟩
  rcases (Option.any_eq_true _ _).mp entry with ⟨stored, found, hears⟩
  exact ⟨s, reached executed, ⟨stored, found, of_decide_eq_true hears⟩,
    step_of_raisedBy raises⟩

/-- The common whitelist is sent to the one monitor that it is about. -/
theorem whitelist_sent :
    ∃ s, Reached config s ∧
      Hears s.objects .monitor "Shoes" "/run/sockets/Monitor.Shoes" ∧
      SendsMembers config (configPath config .common .whitelists)
        ConfigFile.whitelists.name whitelists s := by
  have object : Json.IsObjectText whitelists := by decide +kernel
  have separators : 2 ≤
      (configPath config .common .whitelists).toList.count '/' := by
    decide
  rcases shoes_hears with ⟨s, reached, hears, -⟩
  exact ⟨s, reached, hears,
    (members_sent_iff object separators .whitelists config s).mpr
      (by decide +kernel)⟩

/--
The whitelist of Shoes is not sent where another number overflows: the event of
its file ends the manager.
-/
theorem overflow_not_sent :
    Json.IsObjectText overflowing ∧
      2 ≤ (configPath config .common .whitelists).toList.count '/' ∧
      ∃ s, Reached config s ∧
        Hears s.objects .monitor "Shoes" "/run/sockets/Monitor.Shoes" ∧
        step config s overflowAppears =
          some (.error (.raised .jsonOutOfRange)) ∧
        ¬ SendsMembers config (configPath config .common .whitelists)
          ConfigFile.whitelists.name overflowing s := by
  refine ⟨by decide +kernel, by decide, ?_⟩
  rcases shoes_hears with ⟨s, reached, hears, ended⟩
  refine ⟨s, reached, hears, ended, ?_⟩
  rintro ⟨configJson, subDir, sends, -, once⟩
  have overflows : Json.overflows overflowing = true := by decide +kernel
  have returned := once.reloaded
  rw [reload_overflow overflows] at returned
  simp at returned

end KekMonitors.Manager
