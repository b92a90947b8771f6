import KekMonitors.Core
import KekMonitors.Json.Codec
import Mathlib.Logic.Function.Basic

/-!
# Files with a default content

`getContentIfFileExistsElseCreate` gives the content of a file, or creates the
file with the content of its caller.  It reads a file line by line, and puts
the lines together without the breaks between them.
-/

namespace KekMonitors.Utils

open Json

/-! ## The file system -/

/-- What a path can lead to. -/
inductive Node where
  | directory
  | regular (content : List Byte)
  deriving DecidableEq, Repr

/-- What each path leads to, and the paths that may be opened and created. -/
structure FileSystem where
  node : String → Option Node
  permits : String → Bool

/-- What ends before a separator, of a path that has been read in part. -/
def waypoints (front : List Char) : List Char → List (List Char)
  | [] => [front]
  | c :: rest =>
      if c = '/' ∧ front ≠ [] then front :: waypoints (front ++ [c]) rest
      else waypoints (front ++ [c]) rest

/-- The directories on the way to a path, and the path. -/
def directoriesOf (path : String) : List String :=
  (waypoints [] path.toList).map String.ofList

namespace FileSystem

def put (fs : FileSystem) (path : String) (node : Node) : FileSystem :=
  { fs with node := Function.update fs.node path (some node) }

/-- A directory that exists stays as it is. -/
def createDirectory (fs : FileSystem) (path : String) :
    Except Fault FileSystem :=
  match fs.node path with
  | some .directory => .ok fs
  | some (.regular _) => .error (.raised .system)
  | none =>
      if fs.permits path then .ok (fs.put path .directory)
      else .error (.raised .system)

/-- `create_directories`, which does not take an empty path. -/
def createDirectories (fs : FileSystem) (path : String) :
    Except Fault FileSystem :=
  if path.isEmpty then .error (.raised .system)
  else (directoriesOf path).foldlM createDirectory fs

def isRegularFile (fs : FileSystem) (path : String) : Bool :=
  match fs.node path with
  | some (.regular _) => true
  | _ => false

/-- Open a file for reading. -/
def openIn (fs : FileSystem) (path : String) : Option (List Byte) :=
  match fs.node path with
  | some (.regular content) => if fs.permits path then some content else none
  | _ => none

/-- Open a file for writing, which creates it or makes it empty. -/
def openOut (fs : FileSystem) (path : String) : Option FileSystem :=
  match fs.node path with
  | some .directory => none
  | _ => if fs.permits path then some (fs.put path (.regular [])) else none

/-- Write to the end of an open file. -/
def write (fs : FileSystem) (path : String) (content : List Byte) :
    FileSystem :=
  match fs.node path with
  | some (.regular old) => fs.put path (.regular (old ++ content))
  | _ => fs

end FileSystem

/-! ## Reading and creating -/

/-- The position of the last occurrence. -/
def rfind (c : Char) : List Char → Option Nat
  | [] => none
  | d :: rest =>
      match rfind c rest with
      | some pos => some (pos + 1)
      | none => if d = c then some 0 else none

/-- A path without a separator is all of it. -/
def filepathUntilFile (filepath : String) : String :=
  match rfind '/' filepath.toList with
  | none => filepath
  | some pos => String.ofList (filepath.toList.take pos)

/-- What `getline` reads, and whether it got to the end of the file. -/
structure Line where
  text : List Byte
  rest : List Byte
  eof : Bool

def getline : List Byte → Line
  | [] => { text := [], rest := [], eof := true }
  | c :: rest =>
      if c = byte '\n' then { text := [], rest := rest, eof := false }
      else { getline rest with text := c :: (getline rest).text }

theorem getline_shorter {file : List Byte}
    (more : (getline file).eof = false) :
    (getline file).rest.length < file.length := by
  induction file with
  | nil => simp [getline] at more
  | cons c rest ih =>
      rw [getline] at more ⊢
      split at more
      · rename_i ends
        rw [if_pos ends, List.length_cons]
        exact Nat.lt_succ_self _
      · rename_i goesOn
        rw [if_neg goesOn, List.length_cons]
        exact Nat.lt_succ_of_lt (ih more)

/-- The loop over the lines, with what it has put together so far. -/
def readLines (ss file : List Byte) : List Byte :=
  if _ended : (getline file).eof then ss ++ (getline file).text
  else readLines (ss ++ (getline file).text) (getline file).rest
  termination_by file.length
  decreasing_by exact getline_shorter (by simpa using _ended)

def getContentIfFileExistsElseCreate (filepath : String)
    (content : List Byte) (fs : FileSystem) :
    Except Fault (List Byte × FileSystem) := do
  let fs ← fs.createDirectories (filepathUntilFile filepath)
  if fs.isRegularFile filepath then
    match fs.openIn filepath with
    | none => .ok ([], fs)
    | some file => .ok (readLines [] file, fs)
  else
    match fs.openOut filepath with
    | none => .ok ([], fs)
    | some fs => .ok (content, fs.write filepath content)

/-- Several calls for one file, and what each of them returned. -/
def contents (filepath : String) :
    List (List Byte) → FileSystem →
      Except Fault (List (List Byte) × FileSystem)
  | [], fs => .ok ([], fs)
  | content :: later, fs => do
      let (result, fs) ← getContentIfFileExistsElseCreate filepath content fs
      let (results, fs) ← contents filepath later fs
      .ok (result :: results, fs)

/-! ## What is read -/

theorem filter_getline (file : List Byte) :
    file.filter (· ≠ byte '\n') =
      (getline file).text ++ (getline file).rest.filter (· ≠ byte '\n') := by
  induction file with
  | nil => rfl
  | cons c rest ih =>
      rw [getline]
      split
      · rename_i ends
        simp [ends]
      · rename_i goesOn
        simp only [ne_eq, decide_not] at ih ⊢
        rw [List.filter_cons_of_pos (by simpa using goesOn), ih,
          List.cons_append]

theorem rest_of_eof {file : List Byte} (ended : (getline file).eof = true) :
    (getline file).rest = [] := by
  induction file with
  | nil => rfl
  | cons c rest ih =>
      rw [getline] at ended ⊢
      split at ended
      · simp at ended
      · rename_i goesOn
        rw [if_neg goesOn]
        exact ih ended

/-- The lines of a file, put together, are the file without its breaks. -/
theorem readLines_eq (ss file : List Byte) :
    readLines ss file = ss ++ file.filter (· ≠ byte '\n') := by
  fun_induction readLines ss file with
  | case1 ss file ended =>
      rw [filter_getline file, rest_of_eof ended, List.filter_nil,
        List.append_nil]
  | case2 ss file more ih => rw [ih, filter_getline file, List.append_assoc]

theorem filter_of_noBreak {file : List Byte} (noBreak : byte '\n' ∉ file) :
    file.filter (· ≠ byte '\n') = file := by
  rw [List.filter_eq_self]
  intro c member
  simp only [ne_eq, decide_not, Bool.not_eq_true', decide_eq_false_iff_not]
  rintro rfl
  exact noBreak member

/-! ## The directory part -/

theorem rfind_lt {c : Char} {text : List Char} {pos : Nat}
    (found : rfind c text = some pos) : pos < text.length := by
  induction text generalizing pos with
  | nil => simp [rfind] at found
  | cons d rest ih =>
      rw [rfind] at found
      split at found
      · rename_i later foundLater
        rcases Option.some.inj found with rfl
        exact Nat.succ_lt_succ (ih foundLater)
      · split at found
        · rcases Option.some.inj found with rfl
          exact Nat.succ_pos _
        · simp at found

theorem rfind_of_mem {c : Char} {text : List Char} (member : c ∈ text) :
    ∃ pos, rfind c text = some pos := by
  induction text with
  | nil => simp at member
  | cons d rest ih =>
      rw [rfind]
      split
      · exact ⟨_, rfl⟩
      · rename_i nowhere
        rcases List.mem_cons.mp member with rfl | later
        · exact ⟨0, if_pos rfl⟩
        · rcases ih later with ⟨pos, found⟩
          simp [nowhere] at found

/-- The directory part of a path that has one is shorter than the path. -/
theorem filepathUntilFile_length {filepath : String}
    (separator : '/' ∈ filepath.toList) :
    (filepathUntilFile filepath).toList.length < filepath.toList.length := by
  rcases rfind_of_mem separator with ⟨pos, found⟩
  have inside := rfind_lt found
  rw [filepathUntilFile, found, String.toList_ofList, List.length_take]
  omega

theorem length_of_mem_waypoints {front rest dir : List Char}
    (member : dir ∈ waypoints front rest) :
    dir.length ≤ front.length + rest.length := by
  induction rest generalizing front with
  | nil =>
      rcases List.mem_singleton.mp member with rfl
      exact Nat.le_refl _
  | cons c rest ih =>
      rw [waypoints] at member
      rw [List.length_cons]
      split at member
      · rcases List.mem_cons.mp member with rfl | later
        · omega
        · have shorter := ih later
          rw [List.length_append, List.length_singleton] at shorter
          omega
      · have shorter := ih member
        rw [List.length_append, List.length_singleton] at shorter
        omega

theorem not_mem_directoriesOf {filepath : String}
    (separator : '/' ∈ filepath.toList) :
    filepath ∉ directoriesOf (filepathUntilFile filepath) := by
  intro member
  rcases List.mem_map.mp member with ⟨dir, listed, rfl⟩
  have shorter := length_of_mem_waypoints listed
  have longer := filepathUntilFile_length separator
  rw [String.toList_ofList] at longer
  rw [List.length_nil] at shorter
  omega

namespace FileSystem

variable {fs next : FileSystem} {dir filepath : String}

/-- A directory is there, or can be created. -/
def Usable (fs : FileSystem) (dir : String) : Prop :=
  fs.node dir = some .directory ∨
    fs.node dir = none ∧ fs.permits dir = true

/-- The file can be created, with all directories, and read. -/
structure Serves (fs : FileSystem) (filepath : String) : Prop where
  directories : ∀ dir ∈ directoriesOf (filepathUntilFile filepath),
    fs.Usable dir
  file : fs.node filepath ≠ some .directory
  permitted : fs.permits filepath = true

/-- Only directories have been added, and only at some of the paths. -/
structure Grows (dirs : List String) (fs next : FileSystem) : Prop where
  kept : ∀ path, path ∉ dirs → next.node path = fs.node path
  usable : ∀ path, fs.Usable path → next.Usable path
  permits : next.permits = fs.permits

theorem createDirectory_of_usable (usable : fs.Usable dir) :
    ∃ next, createDirectory fs dir = .ok next ∧ Grows [dir] fs next := by
  rcases usable with there | ⟨absent, permitted⟩
  · refine ⟨fs, by rw [createDirectory, there], ?_⟩
    exact ⟨fun _ _ => rfl, fun _ usable => usable, rfl⟩
  · refine ⟨fs.put dir .directory, ?_, ?_⟩
    · simp only [createDirectory, absent, permitted, if_true]
    · constructor
      · intro path other
        exact Function.update_of_ne (mt List.mem_singleton.mpr other) _ _
      · intro path usable
        by_cases same : path = dir
        · subst same
          exact Or.inl (Function.update_self ..)
        · have kept : (fs.put dir .directory).node path = fs.node path :=
            Function.update_of_ne same _ _
          rw [Usable, kept]
          exact usable
      · rfl

theorem foldlM_createDirectory {dirs : List String}
    (usable : ∀ dir ∈ dirs, fs.Usable dir) :
    ∃ next, dirs.foldlM createDirectory fs = .ok next ∧
      Grows dirs fs next := by
  induction dirs generalizing fs with
  | nil => exact ⟨fs, rfl, fun _ _ => rfl, fun _ usable => usable, rfl⟩
  | cons dir dirs ih =>
      rcases createDirectory_of_usable (usable dir List.mem_cons_self) with
        ⟨middle, created, first⟩
      have later : ∀ other ∈ dirs, middle.Usable other := fun other member =>
        first.usable other (usable other (List.mem_cons_of_mem _ member))
      rcases ih later with ⟨next, createdAll, grows⟩
      refine ⟨next, ?_, ?_⟩
      · rw [List.foldlM_cons, created]
        exact createdAll
      · constructor
        · intro path outside
          rcases not_or.mp (mt List.mem_cons.mpr outside) with
            ⟨other, outside⟩
          rw [grows.kept path outside,
            first.kept path (mt List.mem_singleton.mp other)]
        · intro path before
          exact grows.usable path (first.usable path before)
        · rw [grows.permits, first.permits]

/-- The directories of a file are created, and the file stays as it is. -/
theorem Serves.createDirectories (serves : fs.Serves filepath)
    (separator : '/' ∈ filepath.toList)
    (inDirectory : filepathUntilFile filepath ≠ "") :
    ∃ next,
      fs.createDirectories (filepathUntilFile filepath) = .ok next ∧
        next.node filepath = fs.node filepath ∧ next.Serves filepath := by
  rcases foldlM_createDirectory serves.directories with
    ⟨next, created, grows⟩
  have same := grows.kept filepath (not_mem_directoriesOf separator)
  refine ⟨next, ?_, same, ?_, ?_, ?_⟩
  · rw [FileSystem.createDirectories, if_neg (by simpa using inDirectory)]
    exact created
  · intro dir member
    exact grows.usable dir (serves.directories dir member)
  · rw [same]
    exact serves.file
  · rw [grows.permits]
    exact serves.permitted

/-- A file is put where no directory is needed. -/
theorem Serves.put (serves : fs.Serves filepath)
    (separator : '/' ∈ filepath.toList) (content : List Byte) :
    (fs.put filepath (.regular content)).Serves filepath := by
  constructor
  · intro dir member
    have other : dir ≠ filepath := by
      rintro rfl
      exact not_mem_directoriesOf separator member
    have kept : (fs.put filepath (.regular content)).node dir =
        fs.node dir :=
      Function.update_of_ne other _ _
    rw [Usable, kept]
    exact serves.directories dir member
  · simp [FileSystem.put]
  · exact serves.permitted

end FileSystem

/-! ## Several calls -/

/-- What the file is to hold from the first call on. -/
def keptContent (fs : FileSystem) (filepath : String) (content : List Byte) :
    List Byte :=
  match fs.node filepath with
  | some (.regular old) => old
  | _ => content

/--
The first call creates the file with the content, unless it exists.  Then and
ever after, whatever their contents are, the calls return what the file holds
and leave it unchanged.
-/
def KeepsContent (fs : FileSystem) (filepath : String)
    (content : List Byte) : Prop :=
  ∀ later, ∃ final,
    contents filepath (content :: later) fs =
        .ok (List.replicate (later.length + 1)
          (keptContent fs filepath content), final) ∧
      final.node filepath = some (.regular (keptContent fs filepath content))

section Calls

variable {fs : FileSystem} {filepath : String}

/-- A file that exists is read without its line breaks. -/
theorem content_of_regular (serves : fs.Serves filepath)
    (separator : '/' ∈ filepath.toList)
    (inDirectory : filepathUntilFile filepath ≠ "") {old : List Byte}
    (holds : fs.node filepath = some (.regular old)) (content : List Byte) :
    ∃ next,
      getContentIfFileExistsElseCreate filepath content fs =
          .ok (old.filter (· ≠ byte '\n'), next) ∧
        next.node filepath = some (.regular old) ∧ next.Serves filepath := by
  rcases serves.createDirectories separator inDirectory with
    ⟨next, created, same, stays⟩
  rw [holds] at same
  refine ⟨next, ?_, same, stays⟩
  have regular : next.isRegularFile filepath = true := by
    rw [FileSystem.isRegularFile, same]
  have opened : next.openIn filepath = some old := by
    simp only [FileSystem.openIn, same, stays.permitted, if_true]
  simp only [getContentIfFileExistsElseCreate, created, regular, opened,
    readLines_eq, List.nil_append, bind, Except.bind, if_true]

/-- A file that does not exist is created with the content. -/
theorem content_of_absent (serves : fs.Serves filepath)
    (separator : '/' ∈ filepath.toList)
    (inDirectory : filepathUntilFile filepath ≠ "")
    (absent : fs.node filepath = none) (content : List Byte) :
    ∃ next,
      getContentIfFileExistsElseCreate filepath content fs =
          .ok (content, next) ∧
        next.node filepath = some (.regular content) ∧
          next.Serves filepath := by
  rcases serves.createDirectories separator inDirectory with
    ⟨middle, created, same, stays⟩
  rw [absent] at same
  have regular : middle.isRegularFile filepath = false := by
    rw [FileSystem.isRegularFile, same]
  have opened : middle.openOut filepath =
      some (middle.put filepath (.regular [])) := by
    simp only [FileSystem.openOut, same, stays.permitted, if_true]
  have written :
      (middle.put filepath (.regular [])).write filepath content =
        (middle.put filepath (.regular [])).put filepath
          (.regular content) := by
    simp [FileSystem.write, FileSystem.put]
  refine ⟨_, ?_, ?_, (stays.put separator []).put separator content⟩
  · simp only [getContentIfFileExistsElseCreate, created, regular, opened,
      written, bind, Except.bind, Bool.false_eq_true, if_false]
  · simp [FileSystem.put]

/-- The first call leaves the file as it is to be kept. -/
theorem content_of_first (serves : fs.Serves filepath)
    (separator : '/' ∈ filepath.toList)
    (inDirectory : filepathUntilFile filepath ≠ "") (content : List Byte) :
    ∃ result next,
      getContentIfFileExistsElseCreate filepath content fs =
          .ok (result, next) ∧
        next.node filepath =
            some (.regular (keptContent fs filepath content)) ∧
          next.Serves filepath ∧
            (byte '\n' ∉ keptContent fs filepath content →
              result = keptContent fs filepath content) := by
  cases found : fs.node filepath with
  | none =>
      have same : keptContent fs filepath content = content := by
        rw [keptContent, found]
      rcases content_of_absent serves separator inDirectory found content with
        ⟨next, called, holds, stays⟩
      rw [same]
      exact ⟨content, next, called, holds, stays, fun _ => rfl⟩
  | some node =>
      cases node with
      | directory => exact absurd found serves.file
      | regular old =>
          have same : keptContent fs filepath content = old := by
            rw [keptContent, found]
          rcases content_of_regular serves separator inDirectory found
            content with ⟨next, called, holds, stays⟩
          rw [same]
          refine ⟨_, next, called, holds, stays, fun noBreak => ?_⟩
          exact filter_of_noBreak noBreak

/-- All further calls read the file. -/
theorem contents_of_regular (serves : fs.Serves filepath)
    (separator : '/' ∈ filepath.toList)
    (inDirectory : filepathUntilFile filepath ≠ "") {old : List Byte}
    (holds : fs.node filepath = some (.regular old))
    (later : List (List Byte)) :
    ∃ final,
      contents filepath later fs =
          .ok (List.replicate later.length (old.filter (· ≠ byte '\n')),
            final) ∧
        final.node filepath = some (.regular old) := by
  induction later generalizing fs with
  | nil => exact ⟨fs, rfl, holds⟩
  | cons content later ih =>
      rcases content_of_regular serves separator inDirectory holds content
        with ⟨next, called, stillHolds, stays⟩
      rcases ih stays stillHolds with ⟨final, rest, unchanged⟩
      refine ⟨final, ?_, unchanged⟩
      simp only [contents, called, rest, bind, Except.bind, List.length_cons,
        List.replicate_succ]

theorem contents_first (serves : fs.Serves filepath)
    (separator : '/' ∈ filepath.toList)
    (inDirectory : filepathUntilFile filepath ≠ "") (content : List Byte)
    (later : List (List Byte)) :
    ∃ result final,
      contents filepath (content :: later) fs =
          .ok (result :: List.replicate later.length
            ((keptContent fs filepath content).filter (· ≠ byte '\n')),
              final) ∧
        final.node filepath =
            some (.regular (keptContent fs filepath content)) ∧
          (byte '\n' ∉ keptContent fs filepath content →
            result = keptContent fs filepath content) := by
  rcases content_of_first serves separator inDirectory content with
    ⟨result, next, called, holds, stays, whole⟩
  rcases contents_of_regular stays separator inDirectory holds later with
    ⟨final, rest, unchanged⟩
  refine ⟨result, final, ?_, unchanged, whole⟩
  simp only [contents, called, rest, bind, Except.bind]

/-- A path right below the root has no directory that could be created. -/
theorem inDirectory_of_keeps {content : List Byte}
    (keeps : KeepsContent fs filepath content) :
    filepathUntilFile filepath ≠ "" := by
  intro root
  rcases keeps [] with ⟨final, called, -⟩
  have raises : fs.createDirectories (filepathUntilFile filepath) =
      .error (.raised .system) := by
    rw [root]
    rfl
  simp [contents, getContentIfFileExistsElseCreate, raises, bind,
    Except.bind] at called

/-- The second call shows whether the file has a line break. -/
theorem noBreak_of_keeps (serves : fs.Serves filepath)
    (separator : '/' ∈ filepath.toList) {content : List Byte}
    (keeps : KeepsContent fs filepath content) :
    byte '\n' ∉ keptContent fs filepath content := by
  rcases contents_first serves separator (inDirectory_of_keeps keeps) content
    [content] with ⟨result, final, called, -, -⟩
  rcases keeps [content] with ⟨other, demanded, -⟩
  have same := (Prod.mk.inj (Except.ok.inj (called.symm.trans demanded))).1
  have second := (List.cons.inj (List.cons.inj same).2).1
  intro member
  rw [← second] at member
  simp at member

/--
The calls keep to the content of the file just when it is in a directory other
than the root and has no line break.
-/
theorem content_kept_iff (serves : fs.Serves filepath)
    (separator : '/' ∈ filepath.toList) (content : List Byte) :
    KeepsContent fs filepath content ↔
      filepathUntilFile filepath ≠ "" ∧
        byte '\n' ∉ keptContent fs filepath content := by
  constructor
  · intro keeps
    exact ⟨inDirectory_of_keeps keeps,
      noBreak_of_keeps serves separator keeps⟩
  · rintro ⟨inDirectory, noBreak⟩ later
    rcases contents_first serves separator inDirectory content later with
      ⟨result, final, called, holds, whole⟩
    refine ⟨final, ?_, holds⟩
    rw [called, whole noBreak, filter_of_noBreak noBreak,
      List.replicate_succ]

end Calls

/-! ## An empty disk -/

def emptyDisk : FileSystem where
  node _ := none
  permits _ := true

theorem emptyDisk_serves (filepath : String) : emptyDisk.Serves filepath :=
  ⟨fun _ _ => Or.inr ⟨rfl, rfl⟩, nofun, rfl⟩

theorem line_kept :
    KeepsContent emptyDisk "/home/.kekmonitors/config/config.cfg"
      (word "[GlobalConfig]") :=
  (content_kept_iff (emptyDisk_serves _) (by decide) _).mpr
    ⟨by decide, by decide⟩

/-- The default config has more than one line. -/
theorem lines_joined :
    ¬ KeepsContent emptyDisk "/home/.kekmonitors/config/config.cfg"
      (word "[GlobalConfig]\nsocket_path = /home/.kekmonitors/sockets\n") := by
  intro keeps
  have noBreak := noBreak_of_keeps (emptyDisk_serves _) (by decide) keeps
  exact noBreak (by decide)

end KekMonitors.Utils
