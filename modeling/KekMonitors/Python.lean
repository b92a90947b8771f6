import KekMonitors.Core
import KekMonitors.Json.Codec
import KekMonitors.Transition.Run

/-!
# The Python interpreter

`getPythonExecutable` asks two candidates for their versions and keeps the
first that it takes for a Python 3 in a static variable.
-/

namespace KekMonitors.Utils

open Json
open Transition

/-- The first line that a command prints, unless it cannot be started. -/
abbrev System := String → Option (List Byte)

def pythonCandidates : List String := ["python", "python3"]

def versionCommand (pythonExe : String) : String := pythonExe ++ " --version"

/-- The loop over the candidates. -/
def findPython (system : System) : List String → Except Fault String
  | [] => .error (.raised .standard)
  | pythonExe :: rest =>
      match system (versionCommand pythonExe) with
      -- the `process_error` of a missing command is caught
      | none => findPython system rest
      | some version => do
          let c ← subscript 0 version 7
          if c = byte '3' then .ok pythonExe else findPython system rest

/-- The static variable is empty until a candidate has been found. -/
def getPythonExecutable (system : System) (pythonExecutable : String) :
    Except Fault String :=
  if pythonExecutable.isEmpty then findPython system pythonCandidates
  else .ok pythonExecutable

/-- A call leaves what it returns in the static variable. -/
def pythonStep : StepFunction String System Fault :=
  fun pythonExecutable system =>
    some (getPythonExecutable system pythonExecutable)

/-! ## The candidates -/

/-- The line has the form `Python 3...`. -/
def IsPython3 (version : List Byte) : Prop := word "Python 3" <+: version

instance (version : List Byte) : Decidable (IsPython3 version) :=
  inferInstanceAs (Decidable (_ <+: _))

/-- The candidate can be started and is a Python 3. -/
def Qualifies (system : System) (pythonExe : String) : Prop :=
  ∃ version, system (versionCommand pythonExe) = some version ∧
    IsPython3 version

/-- The candidate cannot be started, or is not taken for a Python 3. -/
def IsPassed (system : System) (pythonExe : String) : Prop :=
  ∀ version, system (versionCommand pythonExe) = some version →
    7 ≤ version.length ∧ version[7]? ≠ some (byte '3')

/-- The search gets to a Python 3 and past all candidates before it. -/
def Decides (system : System) : List String → Prop
  | [] => False
  | pythonExe :: rest =>
      Qualifies system pythonExe ∨
        IsPassed system pythonExe ∧ Decides system rest

instance (system : System) (pythonExe : String) :
    Decidable (Qualifies system pythonExe) :=
  match found : system (versionCommand pythonExe) with
  | none => isFalse (by simp [Qualifies, found])
  | some version =>
      decidable_of_iff (IsPython3 version) (by simp [Qualifies, found])

instance (system : System) (pythonExe : String) :
    Decidable (IsPassed system pythonExe) :=
  match found : system (versionCommand pythonExe) with
  | none => isTrue (by simp [IsPassed, found])
  | some version =>
      decidable_of_iff (7 ≤ version.length ∧ version[7]? ≠ some (byte '3'))
        (by simp [IsPassed, found])

instance (system : System) :
    (candidates : List String) → Decidable (Decides system candidates)
  | [] => inferInstanceAs (Decidable False)
  | pythonExe :: rest =>
      have := instDecidableDecides system rest
      inferInstanceAs (Decidable (Qualifies system pythonExe ∨
        IsPassed system pythonExe ∧ Decides system rest))

/-- The first candidate that qualifies. -/
def firstPython (system : System) (candidates : List String) :
    Option String :=
  candidates.find? fun pythonExe => decide (Qualifies system pythonExe)

theorem IsPython3.subscript {version : List Byte}
    (python3 : IsPython3 version) :
    subscript 0 version 7 = .ok (byte '3') := by
  rcases python3 with ⟨rest, rfl⟩
  exact subscript_of_lt 0 rfl

section Search

variable {system : System} {pythonExe : String} {rest : List String}

theorem findPython_of_qualifies (qualifies : Qualifies system pythonExe) :
    findPython system (pythonExe :: rest) = .ok pythonExe := by
  rcases qualifies with ⟨version, found, python3⟩
  simp only [findPython, found, python3.subscript, bind, Except.bind, if_true]

theorem findPython_of_passed (passed : IsPassed system pythonExe) :
    findPython system (pythonExe :: rest) = findPython system rest := by
  cases found : system (versionCommand pythonExe) with
  | none => simp only [findPython, found]
  | some version =>
      rcases passed version found with ⟨long, other⟩
      rcases Nat.lt_or_eq_of_le long with longer | short
      · have there := List.getElem?_eq_getElem longer
        rw [there] at other
        simp only [findPython, found, subscript_of_lt 0 there, bind,
          Except.bind]
        exact if_neg fun same => other (congrArg some same)
      · have null : subscript 0 version 7 = .ok 0 := by
          rw [short]
          exact subscript_end 0 version
        simp only [findPython, found, null, bind, Except.bind]
        exact if_neg (by decide)

/-- A candidate that is not passed is taken, or its line read past its end. -/
theorem findPython_of_not_passed (notPassed : ¬ IsPassed system pythonExe)
    (rest : List String) :
    findPython system (pythonExe :: rest) = .error .undefinedBehaviour ∨
      findPython system (pythonExe :: rest) = .ok pythonExe := by
  cases found : system (versionCommand pythonExe) with
  | none =>
      apply absurd _ notPassed
      intro version there
      simp [found] at there
  | some version =>
      by_cases long : 7 ≤ version.length
      · right
        have three : version[7]? = some (byte '3') := by
          by_contra other
          apply notPassed
          intro same there
          rcases Option.some.inj (found.symm.trans there) with rfl
          exact ⟨long, other⟩
        simp only [findPython, found, subscript_of_lt 0 three, bind,
          Except.bind, if_true]
      · left
        simp only [findPython, found,
          subscript_of_gt 0 (Nat.lt_of_not_le long), bind, Except.bind]

theorem firstPython_of_qualifies (qualifies : Qualifies system pythonExe) :
    firstPython system (pythonExe :: rest) = some pythonExe :=
  List.find?_cons_of_pos (decide_eq_true qualifies)

theorem firstPython_of_not (notQualified : ¬ Qualifies system pythonExe) :
    firstPython system (pythonExe :: rest) = firstPython system rest :=
  List.find?_cons_of_neg (by simpa using notQualified)

/-- A search that decides finds the first candidate that qualifies. -/
theorem Decides.found {candidates : List String}
    (decides : Decides system candidates) :
    ∃ pythonExe, firstPython system candidates = some pythonExe ∧
      findPython system candidates = .ok pythonExe := by
  induction candidates with
  | nil => cases decides
  | cons pythonExe rest ih =>
      by_cases qualifies : Qualifies system pythonExe
      · exact ⟨pythonExe, firstPython_of_qualifies qualifies,
          findPython_of_qualifies qualifies⟩
      · rcases decides.resolve_left qualifies with ⟨passed, later⟩
        rw [firstPython_of_not qualifies, findPython_of_passed passed]
        exact ih later

/-- A search that finds the first candidate that qualifies decides. -/
theorem decides_of_found {candidates : List String} {pythonExe : String}
    (first : firstPython system candidates = some pythonExe)
    (found : findPython system candidates = .ok pythonExe) :
    Decides system candidates := by
  induction candidates with
  | nil => simp [firstPython] at first
  | cons candidate rest ih =>
      by_cases qualifies : Qualifies system candidate
      · exact Or.inl qualifies
      · by_cases passed : IsPassed system candidate
        · rw [firstPython_of_not qualifies] at first
          rw [findPython_of_passed passed] at found
          exact Or.inr ⟨passed, ih first found⟩
        · rcases findPython_of_not_passed passed rest with
            outside | misread
          · simp [outside] at found
          · rcases Except.ok.inj (misread.symm.trans found) with rfl
            have mine := List.find?_some first
            exact absurd (of_decide_eq_true mine) qualifies

theorem mem_of_findPython {candidates : List String}
    (found : findPython system candidates = .ok pythonExe) :
    pythonExe ∈ candidates := by
  induction candidates with
  | nil => simp [findPython] at found
  | cons candidate rest ih =>
      by_cases qualifies : Qualifies system candidate
      · rw [findPython_of_qualifies qualifies] at found
        rw [Except.ok.inj found]
        exact List.mem_cons_self
      · by_cases passed : IsPassed system candidate
        · rw [findPython_of_passed passed] at found
          exact List.mem_cons_of_mem _ (ih found)
        · rcases findPython_of_not_passed passed rest with
            outside | misread
          · simp [outside] at found
          · rw [Except.ok.inj (misread.symm.trans found)]
            exact List.mem_cons_self

end Search

/-! ## Several calls -/

/-- What the static variable holds after some calls. -/
theorem pythonExecutable_of_run {calls : List (String × System)}
    {pythonExecutable : String}
    (run : Run pythonStep "" calls (.ok pythonExecutable)) :
    calls = [] ∧ pythonExecutable = "" ∨
      ∃ system rest, calls = ("", system) :: rest ∧
        findPython system pythonCandidates = .ok pythonExecutable := by
  refine run.history_of_meets (fun _ _ => True)
    (fun calls pythonExecutable =>
      calls = [] ∧ pythonExecutable = "" ∨
        ∃ system rest, calls = ("", system) :: rest ∧
          findPython system pythonCandidates = .ok pythonExecutable)
    (Or.inl ⟨rfl, rfl⟩) ?_ (fun _ _ => trivial) rfl
  intro calls pythonExecutable system next holds _ taken
  have returned := Option.some.inj taken
  right
  rcases holds with ⟨rfl, rfl⟩ | ⟨first, rest, rfl, found⟩
  · exact ⟨system, [], rfl, returned⟩
  · have named : pythonExecutable.isEmpty = false := by
      have listed := mem_of_findPython found
      simp only [pythonCandidates, List.mem_cons, List.not_mem_nil,
        or_false] at listed
      rcases listed with rfl | rfl <;> rfl
    rw [getPythonExecutable, named] at returned
    rcases Except.ok.inj returned with rfl
    exact ⟨first, rest ++ [(pythonExecutable, system)], rfl, found⟩

end KekMonitors.Utils
