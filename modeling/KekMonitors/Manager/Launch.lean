import KekMonitors.CommandLine
import KekMonitors.Manager.Progress
import KekMonitors.Python

/-!
# What an add launches

`onAdd` looks for an interpreter, which raises an exception where `onAdd`
expects an empty path.  It joins the interpreter, the registered path and two
options to one command line, and Boost.Process splits that again.
-/

namespace KekMonitors.Manager

open CommandLine
open Json
open Objects
open Transition
open Utils

/-! ## The interpreter -/

/-- The first call that knows of a Python 3 decides for all later ones. -/
def decidedPython (systems : List System) : Option String :=
  systems.findSome? fun system => firstPython system pythonCandidates

/-- What an add that needs the interpreter must do with a call. -/
structure FindsPython (earlier : List System) (pythonExecutable : String)
    (system : System) : Prop where
  inside : getPythonExecutable system pythonExecutable ≠
    .error .undefinedBehaviour
  first : ∀ pythonExe, decidedPython (earlier ++ [system]) = some pythonExe →
    getPythonExecutable system pythonExecutable = .ok pythonExe
  /-- Without an interpreter the client is told so, and nothing changes. -/
  answered : decidedPython (earlier ++ [system]) = none →
    ∀ m cmd env callback o className,
      env.python =
          (getPythonExecutable system pythonExecutable).toOption →
        nameArgument cmd = .ok (.ok className) →
          (o.find? m className).bind (refuse m) = none →
            ∃ response, onAdd m cmd env callback o = .ok (o, some response) ∧
              response.error = (addError m).code

/-- An interpreter that is missing or named does not make `onAdd` answer. -/
theorem onAdd_raises {python : Option String} (named : python ≠ some "") :
    ∃ exception,
      onAdd .monitor (Installation.about (addCommand .monitor) "Shoes")
        { python := python, query := .otherException } (.client 0) {} =
          .error (.raised exception) := by
  cases python with
  | none => exact ⟨.standard, rfl⟩
  | some pythonExecutable =>
      have notEmpty : pythonExecutable.isEmpty = false := by
        cases empty : pythonExecutable.isEmpty with
        | false => rfl
        | true => exact absurd (by rw [String.isEmpty_iff.mp empty]) named
      refine ⟨.database, ?_⟩
      have starts : startProcess .monitor
          { python := some pythonExecutable, query := .otherException } =
            .error (.raised .database) := by
        simp [startProcess, notEmpty]
      have argument : nameArgument
          (Installation.about (addCommand .monitor) "Shoes") =
            .ok (.ok "Shoes") := rfl
      simp only [onAdd, argument, starts, bind, Except.bind]
      rfl

theorem candidate_isEmpty {pythonExe : String}
    (candidate : pythonExe ∈ pythonCandidates) :
    pythonExe.isEmpty = false := by
  revert pythonExe
  decide

theorem candidate_ne_empty {pythonExe : String}
    (candidate : pythonExe ∈ pythonCandidates) : pythonExe ≠ "" := by
  rintro rfl
  exact absurd (candidate_isEmpty candidate) (by decide)

theorem decidedPython_cons_of_some {system : System} {pythonExe : String}
    (first : firstPython system pythonCandidates = some pythonExe)
    (later : List System) :
    decidedPython (system :: later) = some pythonExe := by
  rw [decidedPython, List.findSome?_cons, first]

theorem decidedPython_single (system : System) :
    decidedPython [system] = firstPython system pythonCandidates := by
  rw [decidedPython, List.findSome?_cons]
  cases firstPython system pythonCandidates <;> rfl

/-- The first call meets its demands just when its search decides. -/
theorem findsPython_first_iff (system : System) :
    FindsPython [] "" system ↔ Decides system pythonCandidates := by
  have searches : getPythonExecutable system "" =
      findPython system pythonCandidates := rfl
  constructor
  · intro finds
    have decided : decidedPython ([] ++ [system]) =
        firstPython system pythonCandidates := decidedPython_single system
    cases first : firstPython system pythonCandidates with
    | some pythonExe =>
        rw [first] at decided
        exact decides_of_found first (finds.first pythonExe decided)
    | none =>
        exfalso
        rw [first] at decided
        have named : (getPythonExecutable system "").toOption ≠ some "" := by
          intro same
          rw [searches] at same
          have found := toOption_eq_some.mp same
          exact candidate_ne_empty (mem_of_findPython found) rfl
        rcases onAdd_raises named with ⟨exception, raises⟩
        rcases finds.answered decided .monitor
          (Installation.about (addCommand .monitor) "Shoes")
          { python := (getPythonExecutable system "").toOption
            query := .otherException }
          (.client 0) {} "Shoes" rfl rfl rfl with ⟨response, answers, -⟩
        exact absurd (raises.symm.trans answers) (by simp)
  · intro decides
    rcases decides.found with ⟨pythonExe, first, found⟩
    have decided : decidedPython ([] ++ [system]) = some pythonExe :=
      decidedPython_cons_of_some first []
    constructor
    · rw [searches, found]
      simp
    · intro other same
      rw [searches, found, Option.some.inj (decided.symm.trans same)]
    · intro none
      rw [decided] at none
      simp at none

/--
In a run of calls, all find what they must just when the first of them gets to
a Python 3 before it misreads the line of another candidate.
-/
theorem python_found_iff {calls : List (String × System)}
    {outcome : Except Fault String}
    (run : Run pythonStep "" calls outcome) :
    (∀ earlier later pythonExecutable system,
        calls = earlier ++ (pythonExecutable, system) :: later →
          FindsPython (earlier.map Prod.snd) pythonExecutable system) ↔
      Meets (fun pythonExecutable system =>
        pythonExecutable = "" → Decides system pythonCandidates) calls := by
  constructor
  · rintro finds ⟨pythonExecutable, system⟩ member rfl
    rcases List.append_of_mem member with ⟨earlier, later, rfl⟩
    rcases pythonExecutable_of_run run.after_attempt.1 with
      ⟨rfl, -⟩ | ⟨first, rest, rfl, found⟩
    · exact (findsPython_first_iff system).mp (finds [] later "" system rfl)
    · exact absurd rfl (candidate_ne_empty (mem_of_findPython found))
  · rintro meets earlier later pythonExecutable system rfl
    rcases pythonExecutable_of_run run.after_attempt.1 with
      ⟨rfl, rfl⟩ | ⟨first, rest, rfl, found⟩
    · exact (findsPython_first_iff system).mpr
        (meets ("", system) (by simp) rfl)
    · have decides := meets ("", first) (by simp) rfl
      rcases decides.found with ⟨pythonExe, isFirst, same⟩
      rcases Except.ok.inj (found.symm.trans same) with rfl
      have returned : getPythonExecutable system pythonExecutable =
          .ok pythonExecutable := by
        rw [getPythonExecutable, candidate_isEmpty (mem_of_findPython found)]
        rfl
      have decided := decidedPython_cons_of_some isFirst
        (rest.map Prod.snd ++ [system])
      constructor
      · rw [returned]
        simp
      · intro other known
        rw [returned, Option.some.inj (decided.symm.trans known)]
      · intro none
        exact absurd (decided.symm.trans none) (by simp)

/-- A host with a Python 3, and with or without another `python`. -/
def host (python : Option (List Byte)) : System := fun command =>
  if command = versionCommand "python" then python
  else if command = versionCommand "python3" then
    some (word "Python 3.9.2")
  else none

theorem host_finds :
    pythonStep "" (host none) = some (.ok "python3") := by
  rfl

/-- The interpreter is found once, and kept when it is gone. -/
theorem python_found_twice :
    Decides (host none) pythonCandidates ∧ FindsPython [] "" (host none) ∧
      FindsPython [host none] "python3" fun _ => none := by
  have run : Run pythonStep ""
      [("", host none), ("python3", fun _ => none)] (.ok "python3") :=
    (Run.start.next host_finds).next rfl
  have decides : Decides (host none) pythonCandidates := by decide
  have meets : Meets (fun pythonExecutable system =>
      pythonExecutable = "" → Decides system pythonCandidates)
      [("", host none), ("python3", fun _ => none)] := by
    decide
  have finds := (python_found_iff run).mpr meets
  exact ⟨decides, finds [] _ _ _ rfl, finds [("", host none)] [] _ _ rfl⟩

/--
A Python 2 prints its version to the standard error, so that its line is empty.
It is read past its end, and the Python 3 behind it is not found.
-/
theorem python_misread :
    firstPython (host (some [])) pythonCandidates = some "python3" ∧
      Run pythonStep "" [("", host (some []))]
        (.error .undefinedBehaviour) ∧
      ¬ FindsPython [] "" (host (some [])) := by
  have misread : ¬ Decides (host (some [])) pythonCandidates := by decide
  exact ⟨by decide, Run.start.next rfl,
    fun finds => misread ((findsPython_first_iff _).mp finds)⟩

/-! ## The command line -/

/-- Every child launched for a path gets the path and the two options. -/
def PassesPath (q : Quoting) (path : String) : Prop :=
  ∀ ⦃m cmd env callback o next pythonExe⦄,
    Reachable pythonStep "" pythonExe → env.python = some pythonExe →
      env.query = .document (some path) →
        onAdd m cmd env callback o = .ok (next, none) →
          ∃ child, next.children = o.children ++ [child] ∧
            q.split child.commandLine =
              [pythonExe, path, "--no-config-watcher", "--no-output"]

/-- What `onAdd` puts behind the path. -/
def options : List (List Char) :=
  ["--no-config-watcher".toList, "--no-output".toList]

theorem options_plain : ∀ word ∈ options, IsPlain word := by
  decide

theorem candidate_plain {pythonExe : String}
    (candidate : pythonExe ∈ pythonCandidates) :
    IsPlain pythonExe.toList := by
  revert pythonExe
  decide

/-- The interpreter is split off in front of what remains of the line. -/
theorem split_commandLine (q : Quoting) {pythonExe : String}
    (candidate : pythonExe ∈ pythonCandidates) (path : String) :
    q.split (pythonExe ++ " " ++ path ++
        " --no-config-watcher --no-output") =
      pythonExe :: ((q.texts [] (path.toList ++ blankBefore options)).map
        q.argument).map String.ofList := by
  have line : (pythonExe ++ " " ++ path ++
      " --no-config-watcher --no-output").toList =
        pythonExe.toList ++ ' ' ::
          (path.toList ++ blankBefore options) := by
    simp [String.toList_append, blankBefore, options]
  have plain := candidate_plain candidate
  rw [Quoting.split, line, Quoting.texts_append_of_plain plain,
    List.map_cons, q.argument_plain _ plain.noQuote, String.ofList_toList,
    List.map_map]
  rfl

/-- The line gives the four arguments just when the path is one of them. -/
theorem split_commandLine_iff (q : Quoting) {pythonExe : String}
    (candidate : pythonExe ∈ pythonCandidates) (path : String) :
    q.split (pythonExe ++ " " ++ path ++
        " --no-config-watcher --no-output") =
      [pythonExe, path, "--no-config-watcher", "--no-output"] ↔
        q.OneArgument path.toList := by
  have texts : [path, "--no-config-watcher", "--no-output"] =
      (path.toList :: options).map String.ofList := by
    simp [options]
  have injective : Function.Injective String.ofList := by
    intro first second same
    simpa using congrArg String.toList same
  rw [split_commandLine q candidate, List.cons_inj_right, texts,
    (List.map_injective_iff.mpr injective).eq_iff,
    Quoting.arguments_blankBefore_iff options_plain (by simp [options])]

theorem python3_reached : Reachable pythonStep "" "python3" :=
  Reachable.refl.advance host_finds

theorem python_reached {pythonExe : String}
    (reached : Reachable pythonStep "" pythonExe) :
    pythonExe = "" ∨ pythonExe ∈ pythonCandidates := by
  rcases reached with ⟨calls, run⟩
  rcases pythonExecutable_of_run run with ⟨-, rfl⟩ | ⟨_, _, -, found⟩
  · exact Or.inl rfl
  · exact Or.inr (mem_of_findPython found)

/-- An admitted entry has no process that would have to make way. -/
theorem AddCall.Starts.children {call : AddCall} {o : Objects}
    {className : String} {started : Started}
    (starts : call.Starts o className started) :
    (call.launch className started o).children =
      o.children ++
        [{ kind := call.kind
           className := className
           commandLine := started.commandLine }] := by
  have free : (o.find? call.kind className).bind StoredObject.process =
      none := by
    cases found : o.find? call.kind className with
    | none => rfl
    | some stored =>
        have idle := (starts.admits stored found).2
        rw [Option.bind_some]
        by_contra occupied
        exact idle (Or.inl (Option.isSome_iff_ne_none.mpr occupied))
  exact children_launch free started.commandLine started.pid
    started.creation

/-- The line that a launch for a path is started with. -/
theorem commandLine_of_starts {m : MonitorOrScraper} {env : Environment}
    {pythonExe path : String} {started : Started}
    (python : env.python = some pythonExe)
    (registered : env.query = .document (some path))
    (starts : startProcess m env = .ok (.ok started)) :
    pythonExe ≠ "" ∧ started.commandLine = pythonExe ++ " " ++ path ++
      " --no-config-watcher --no-output" := by
  rw [startProcess, python] at starts
  dsimp only at starts
  split at starts
  · simp at starts
  · rename_i named
    rw [registered] at starts
    dsimp only at starts
    split at starts
    · simp at starts
    · rcases Except.ok.inj (Except.ok.inj starts) with rfl
      exact ⟨fun empty => named (by simp [empty]), rfl⟩

/-- An add of a monitor that is registered with the path. -/
def addOf (path : String) : AddCall where
  kind := .monitor
  cmd := Installation.about (addCommand .monitor) "Shoes"
  env :=
    { Installation.environment with query := .document (some path) }
  callback := .client 0

theorem addOf_starts (path : String) :
    ∃ started, (addOf path).Starts {} "Shoes" started ∧
      started.commandLine = "python3" ++ " " ++ path ++
        " --no-config-watcher --no-output" :=
  ⟨_, ⟨rfl, rfl, rfl⟩, rfl⟩

theorem oneArgument_of_passesPath {q : Quoting} {path : String}
    (passes : PassesPath q path) : q.OneArgument path.toList := by
  rcases addOf_starts path with ⟨started, starts, line⟩
  rcases passes python3_reached rfl rfl (onAdd_of_starts starts) with
    ⟨child, grown, split⟩
  have same := List.append_cancel_left (starts.children.symm.trans grown)
  rcases List.singleton_inj.mp same with rfl
  rw [line] at split
  exact (split_commandLine_iff q (by decide) path).mp split

/--
Every child launched for a path gets it as one unchanged argument just when a
splitter takes the path alone for one.
-/
theorem path_passed_iff (q : Quoting) (path : String) :
    PassesPath q path ↔ q.OneArgument path.toList := by
  constructor
  · exact oneArgument_of_passesPath
  · intro one m cmd env callback o next pythonExe reached python registered
      ran
    let call : AddCall := ⟨m, cmd, env, callback⟩
    have added : onAdd call.kind call.cmd call.env call.callback o =
        .ok (next, none) := ran
    rcases onAdd_cases added with
      ⟨response, answers, -⟩ | ⟨className, started, starts, launches⟩
    · simp at answers
    · rcases Prod.mk.inj launches with ⟨rfl, -⟩
      rcases commandLine_of_starts python registered starts.starts with
        ⟨named, line⟩
      refine ⟨_, starts.children, ?_⟩
      have candidate := (python_reached reached).resolve_left named
      rw [line]
      exact (split_commandLine_iff q candidate path).mpr one

/-- A blank in the path makes two arguments of it. -/
theorem path_split :
    ¬ PassesPath Quoting.paired "/opt/my monitor.py" := by
  intro passes
  have one := oneArgument_of_passesPath passes
  have plain := (Quoting.oneArgument_of_noQuote (by decide)).mp one
  exact plain.noBlank (by decide)

end KekMonitors.Manager
