import KekMonitors.FileWatcher
import KekMonitors.Json.Overflow
import KekMonitors.Store

/-!
# Config files

A config file maps class names to values.  When it is reloaded, each value is
sent to the running monitor and scraper of its class, as far as the directory
of the file addresses them.
-/

namespace KekMonitors

open Json

/-- A command on its way to the socket of a monitored process. -/
structure Send where
  kind : MonitorOrScraper
  className : String
  endpoint : String
  cmd : Cmd

namespace Configs

/-- Only an entry with a process and a socket is sent the command. -/
def sendCmdIfProcess (m : MonitorOrScraper) (cmd : Cmd)
    (className : String) (o : Objects) : Option Send :=
  match o.find? m className with
  | none => none
  | some stored =>
      match stored.process, stored.endpoint with
      | some _, some endpoint =>
          some
            { kind := m
              className := className
              endpoint := endpoint
              cmd := cmd }
      | _, _ => none

/--
The scan of a path from its end: to the last separator, and from there to the
one before.  It has no other bound, so a path without two separators is read
out of range.
-/
def scanSubDir : List Char → Option (List Char) → Except Fault String
  | [], _ => .error .undefinedBehaviour
  | c :: rest, none =>
      if c = '/' then scanSubDir rest (some []) else scanSubDir rest none
  | c :: rest, some subDir =>
      if c = '/' then .ok (String.ofList subDir)
      else scanSubDir rest (some (c :: subDir))

def configSubDir (fullPath : String) : Except Fault String :=
  scanSubDir fullPath.toList.reverse none

/-- The command chosen by the file name; any other name leaves the default. -/
def configCommand (filename subDir : String) : CommandType :=
  if filename = "webhooks.json" then
    if subDir = "common" then Command.setCommonWebhooks.code
    else Command.setSpecificWebhooks.code
  else if filename = "whitelists.json" then
    if subDir = "common" then Command.setCommonWhitelist.code
    else Command.setSpecificWhitelist.code
  else if filename = "blacklists.json" then
    if subDir = "common" then Command.setCommonBlacklist.code
    else Command.setSpecificBlacklist.code
  else if filename = "configs.json" then
    if subDir = "common" then Command.setCommonConfig.code
    else Command.setSpecificConfig.code
  else ({} : Cmd).cmd

/-- The kinds that a directory addresses, in the order of the sends. -/
def addressed (subDir : String) : List MonitorOrScraper :=
  (if subDir = "monitors" ∨ subDir = "common" then [.monitor] else []) ++
    if subDir = "scrapers" ∨ subDir = "common" then [.scraper] else []

/-- The sends for one member of the file. -/
def sendMember (command : CommandType) (subDir : String) (config : Json)
    (o : Objects) (className : String) : List Send :=
  match config.find? className with
  | none => []
  | some value =>
      (addressed subDir).filterMap fun m =>
        sendCmdIfProcess m { cmd := command, payload := value } className o

/--
`parseAndSendConfigs`.  A file that cannot be opened reads as an empty one,
which is not JSON.
-/
def parseAndSendConfigs (fullPath filename : String)
    (content : List Byte) (o : Objects) : Except Fault (List Send) :=
  match Json.readFrom content with
  | .error .parseError => .ok []
  | .error .outOfRange =>
      -- only a `json::parse_error` is caught
      .error (.raised .jsonOutOfRange)
  | .ok configJson =>
      if ¬ configJson.isObject then .ok []
      else do
        let subDir ← configSubDir fullPath
        if subDir.isEmpty then .ok []
        else
          .ok (configJson.keys.flatMap
            (sendMember (configCommand filename subDir) subDir configJson o))

/-! ## The directory of a path -/

theorem scanSubDir_skip {name : List Char} (whole : '/' ∉ name)
    (rest : List Char) :
    scanSubDir (name ++ rest) none = scanSubDir rest none := by
  induction name with
  | nil => rfl
  | cons c name ih =>
      rcases not_or.mp (mt List.mem_cons.mpr whole) with ⟨other, whole⟩
      rw [List.cons_append, scanSubDir, if_neg (Ne.symm other), ih whole]

theorem scanSubDir_take {name : List Char} (whole : '/' ∉ name)
    (seen rest : List Char) :
    scanSubDir (name ++ rest) (some seen) =
      scanSubDir rest (some (name.reverse ++ seen)) := by
  induction name generalizing seen with
  | nil => rfl
  | cons c name ih =>
      rcases not_or.mp (mt List.mem_cons.mpr whole) with ⟨other, whole⟩
      rw [List.cons_append, scanSubDir, if_neg (Ne.symm other), ih whole]
      simp

/-- The directory of a file is found whatever lies above it. -/
theorem configSubDir_of_path (base : String) {subDir filename : String}
    (subDirWhole : '/' ∉ subDir.toList)
    (filenameWhole : '/' ∉ filename.toList) :
    configSubDir (base ++ "/" ++ subDir ++ "/" ++ filename) =
      .ok subDir := by
  have reversed :
      (base ++ "/" ++ subDir ++ "/" ++ filename).toList.reverse =
        filename.toList.reverse ++
          '/' :: (subDir.toList.reverse ++ '/' :: base.toList.reverse) := by
    simp
  rw [configSubDir, reversed,
    scanSubDir_skip (by simpa using filenameWhole), scanSubDir,
    if_pos rfl, scanSubDir_take (by simpa using subDirWhole), scanSubDir,
    if_pos rfl]
  simp

/-! ## What is sent -/

/-- A class has a process and a socket in the store of a kind. -/
def Hears (o : Objects) (m : MonitorOrScraper) (className endpoint : String) :
    Prop :=
  ∃ stored, o.find? m className = some stored ∧
    stored.process.isSome ∧ stored.endpoint = some endpoint

theorem sendCmdIfProcess_eq_some_iff {m : MonitorOrScraper} {cmd : Cmd}
    {className : String} {o : Objects} {send : Send} :
    sendCmdIfProcess m cmd className o = some send ↔
      Hears o m className send.endpoint ∧
        send.kind = m ∧ send.className = className ∧ send.cmd = cmd := by
  unfold sendCmdIfProcess Hears
  cases found : o.find? m className with
  | none => simp
  | some stored =>
      cases running : stored.process with
      | none => simp [running]
      | some process =>
          cases reachable : stored.endpoint with
          | none => simp [running, reachable]
          | some endpoint =>
              cases send
              simp only [running, reachable, Option.some.injEq,
                Send.mk.injEq, exists_eq_left', Option.isSome_some]
              tauto

/-- A reload sends to whoever hears it, the value of its class. -/
theorem mem_sends_iff {command : CommandType} {subDir : String}
    {config : Json} {o : Objects} {send : Send} :
    send ∈ config.keys.flatMap (sendMember command subDir config o) ↔
      send.kind ∈ addressed subDir ∧
        Hears o send.kind send.className send.endpoint ∧
          send.cmd.cmd = command ∧
            config.find? send.className = some send.cmd.payload := by
  constructor
  · intro sent
    rcases List.mem_flatMap.mp sent with ⟨className, -, sent⟩
    unfold sendMember at sent
    split at sent
    · simp at sent
    · rename_i value found
      rcases List.mem_filterMap.mp sent with ⟨m, reaches, sends⟩
      rcases sendCmdIfProcess_eq_some_iff.mp sends with
        ⟨hears, rfl, rfl, same⟩
      rw [same]
      exact ⟨reaches, hears, rfl, found⟩
  · rintro ⟨reaches, hears, rfl, found⟩
    apply List.mem_flatMap.mpr
    refine ⟨send.className, Json.mem_keys_iff.mpr (by simp [found]), ?_⟩
    rw [sendMember, found]
    apply List.mem_filterMap.mpr
    exact ⟨send.kind, reaches,
      sendCmdIfProcess_eq_some_iff.mpr ⟨hears, rfl, rfl, rfl⟩⟩

end Configs

end KekMonitors
