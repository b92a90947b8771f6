import KekMonitors.Manager.Broadcast

/-!
# The scan for the directory of a config file

`parseAndSendConfigs` reads the path of a file from its end, by an index that
it counts down, and leaves the loop at the second separator.  The condition of
the loop always holds, so a path without two separators is read outside.
-/

namespace KekMonitors.Manager.SubDirScan

open Configs
open Transition

/-! ## The loop -/

/-- A path is a string, and none has as many characters as `size_t` counts. -/
structure FullPath where
  text : String
  fits : text.toList.length < 2 ^ 64 - 1

def FullPath.chars (fullPath : FullPath) : List Char :=
  fullPath.text.toList

/-- Counting down a `size_t`, which wraps around at zero. -/
def decrement (i : Nat) : Nat := (i + (2 ^ 64 - 1)) % 2 ^ 64

/-- The variables of the loop, and whether it has been left. -/
structure Scan where
  i : Nat
  flag : Bool := false
  lastSlash : Nat := 0
  configSubDir : String := ""
  left : Bool := false
  deriving DecidableEq, Repr

def scanStart (fullPath : FullPath) : Scan :=
  { i := decrement fullPath.chars.length }

def substr (chars : List Char) (pos n : Nat) : String :=
  String.ofList ((chars.drop pos).take n)

/-- The body of the loop, for the character at the index. -/
def Scan.read (scan : Scan) (fullPath : FullPath) (c : Char) : Scan :=
  if c = '/' then
    if scan.flag then
      -- the last separator lies behind the index, so nothing wraps here
      { scan with
        configSubDir := substr fullPath.chars (scan.i + 1)
          (scan.lastSlash - scan.i - 1)
        left := true }
    else
      { scan with
        i := decrement scan.i
        flag := true
        lastSlash := scan.i }
  else { scan with i := decrement scan.i }

/-- One pass through the loop, until it is left. -/
def scanPass (fullPath : FullPath) : StepFunction Scan Unit Fault :=
  fun scan _ =>
    if scan.left then none
    else some do
      let c ← subscript '\x00' fullPath.chars scan.i
      .ok (scan.read fullPath c)

theorem Scan.read_other (scan : Scan) (fullPath : FullPath) {c : Char}
    (other : c ≠ '/') :
    scan.read fullPath c = { scan with i := decrement scan.i } :=
  if_neg other

theorem Scan.read_first {scan : Scan} (fullPath : FullPath)
    (unset : scan.flag = false) :
    scan.read fullPath '/' =
      { scan with
        i := decrement scan.i
        flag := true
        lastSlash := scan.i } := by
  rw [read, if_pos rfl, unset]
  rfl

theorem Scan.read_second {scan : Scan} (fullPath : FullPath)
    (set : scan.flag = true) :
    scan.read fullPath '/' =
      { scan with
        configSubDir := substr fullPath.chars (scan.i + 1)
          (scan.lastSlash - scan.i - 1)
        left := true } := by
  rw [read, if_pos rfl, if_pos set]

theorem decrement_zero : decrement 0 = 2 ^ 64 - 1 := rfl

theorem decrement_succ {i : Nat} (fits : i < 2 ^ 64 - 1) :
    decrement (i + 1) = i := by
  unfold decrement
  omega

theorem scanPass_inside {fullPath : FullPath} {scan : Scan} {c : Char}
    (going : scan.left = false) (there : fullPath.chars[scan.i]? = some c) :
    scanPass fullPath scan () = some (.ok (scan.read fullPath c)) := by
  rw [scanPass, going, subscript_of_lt _ there]
  rfl

theorem scanPass_outside {fullPath : FullPath} {scan : Scan}
    (going : scan.left = false) (outside : fullPath.chars.length < scan.i) :
    scanPass fullPath scan () = some (.error .undefinedBehaviour) := by
  rw [scanPass, going, subscript_of_gt _ outside]
  rfl

theorem scanPass_left {fullPath : FullPath} {scan : Scan}
    (left : scan.left = true) : scanPass fullPath scan () = none := by
  rw [scanPass, left]
  rfl

/-! ## What the loop has read -/

/--
The loop has the rest of the path to read, as the scan of the list has, and
knows what it has seen behind the last separator.
-/
structure Reading (fullPath : FullPath) (scan : Scan) (remaining : Nat)
    (seen : Option (List Char)) : Prop where
  inside : remaining ≤ fullPath.chars.length
  index : scan.i = decrement remaining
  going : scan.left = false
  unset : scan.configSubDir = ""
  flag : scan.flag = seen.isSome
  slice : ∀ subDir, seen = some subDir →
    remaining ≤ scan.lastSlash ∧
      subDir = (fullPath.chars.drop remaining).take
        (scan.lastSlash - remaining)
  same : scanSubDir (fullPath.chars.take remaining).reverse seen =
    configSubDir fullPath.text

/-- The loop has been left with the directory. -/
structure Found (fullPath : FullPath) (scan : Scan) : Prop where
  left : scan.left = true
  same : configSubDir fullPath.text = .ok scan.configSubDir

variable {fullPath : FullPath} {scan : Scan} {remaining : Nat}
  {seen : Option (List Char)}

theorem reading_start (fullPath : FullPath) :
    Reading fullPath (scanStart fullPath) fullPath.chars.length none := by
  refine ⟨Nat.le_refl _, rfl, rfl, rfl, rfl, by simp, ?_⟩
  rw [List.take_length]
  rfl

/-- The index of the next character. -/
theorem Reading.index_eq
    (reading : Reading fullPath scan (remaining + 1) seen) :
    scan.i = remaining := by
  have inside := reading.inside
  have fits : fullPath.chars.length < 2 ^ 64 - 1 := fullPath.fits
  rw [reading.index, decrement_succ (by omega)]

/-- Where characters remain, a pass reads the last of them. -/
theorem Reading.pass (reading : Reading fullPath scan (remaining + 1) seen) :
    ∃ next, scanPass fullPath scan () = some (.ok next) ∧
      ((∃ seen, Reading fullPath next remaining seen) ∨
        Found fullPath next) := by
  have inside : remaining < fullPath.chars.length := reading.inside
  have index := reading.index_eq
  have there := List.getElem?_eq_getElem inside
  have same := reading.same
  rw [List.take_add_one, there, Option.toList_some, List.reverse_append,
    List.reverse_singleton, List.singleton_append] at same
  generalize fullPath.chars[remaining] = c at there same
  rw [← index] at there
  refine ⟨_, scanPass_inside reading.going there, ?_⟩
  cases seen with
  | none =>
      left
      by_cases separator : c = '/'
      · subst separator
        rw [Scan.read_first fullPath reading.flag]
        refine ⟨some [], Nat.le_of_lt inside, congrArg decrement index,
          reading.going, reading.unset, rfl, ?_, ?_⟩
        · intro subDir seen
          rcases Option.some.inj seen with rfl
          simp [index]
        · rw [← same, scanSubDir, if_pos rfl]
      · rw [scan.read_other fullPath separator]
        refine ⟨none, Nat.le_of_lt inside, congrArg decrement index,
          reading.going, reading.unset, reading.flag, by simp, ?_⟩
        rw [← same, scanSubDir, if_neg separator]
  | some subDir =>
      rcases reading.slice subDir rfl with ⟨behind, slice⟩
      by_cases separator : c = '/'
      · right
        subst separator
        rw [Scan.read_second fullPath reading.flag]
        refine ⟨rfl, ?_⟩
        rw [← same, scanSubDir, if_pos rfl, slice, index, Nat.sub_sub]
        rfl
      · left
        rw [scan.read_other fullPath separator]
        refine ⟨some (c :: subDir), Nat.le_of_lt inside,
          congrArg decrement index, reading.going, reading.unset,
          reading.flag, ?_, ?_⟩
        · intro longer seen
          rcases Option.some.inj seen with rfl
          refine ⟨Nat.le_of_succ_le behind, ?_⟩
          rw [index] at there
          have more : scan.lastSlash - remaining =
              scan.lastSlash - (remaining + 1) + 1 := by
            omega
          rw [List.drop_eq_getElem?_toList_append, there, more, slice]
          rfl
        · rw [← same, scanSubDir, if_neg separator]

/-- Where nothing remains, the loop reads outside the path. -/
theorem Reading.outside (reading : Reading fullPath scan 0 seen) :
    scanPass fullPath scan () = some (.error .undefinedBehaviour) ∧
      configSubDir fullPath.text = .error .undefinedBehaviour := by
  have fits : fullPath.chars.length < 2 ^ 64 - 1 := fullPath.fits
  constructor
  · apply scanPass_outside reading.going
    rw [reading.index, decrement_zero]
    exact fits
  · rw [← reading.same, List.take_zero, List.reverse_nil]
    cases seen <;> rfl

/-! ## Runs of the loop -/

/-- Where the loop stands after some passes. -/
def Position (fullPath : FullPath) (passes : Nat) (scan : Scan) : Prop :=
  (∃ remaining seen, passes + remaining = fullPath.chars.length ∧
      Reading fullPath scan remaining seen) ∨
    passes ≤ fullPath.chars.length ∧ Found fullPath scan

theorem Position.next {passes : Nat} {next : Scan}
    (position : Position fullPath passes scan)
    (taken : scanPass fullPath scan () = some (.ok next)) :
    Position fullPath (passes + 1) next := by
  rcases position with ⟨remaining, seen, counted, reading⟩ | ⟨-, found⟩
  · cases remaining with
    | zero => simp [reading.outside.1] at taken
    | succ remaining =>
        rcases reading.pass with ⟨other, passed, goesOn⟩
        rcases Except.ok.inj (Option.some.inj (taken.symm.trans passed)) with
          rfl
        rcases goesOn with ⟨seen, reading⟩ | found
        · exact Or.inl ⟨remaining, seen, by omega, reading⟩
        · exact Or.inr ⟨by omega, found⟩
  · simp [scanPass_left found.left] at taken

theorem position_of_run {attempts : List (Scan × Unit)}
    (run : Run (scanPass fullPath) (scanStart fullPath) attempts
      (.ok scan)) :
    Position fullPath attempts.length scan := by
  refine run.history_of_meets (fun _ _ => True)
    (fun attempts scan => Position fullPath attempts.length scan) ?_ ?_
    (fun _ _ => trivial) rfl
  · exact Or.inl ⟨_, none, Nat.zero_add _, reading_start fullPath⟩
  · intro attempts scan action next position _ taken
    rw [List.length_append, List.length_singleton]
    exact position.next taken

/-- There is one pass for each character, and one more that fails. -/
theorem passes_bounded {attempts : List (Scan × Unit)}
    {outcome : Except Fault Scan}
    (run : Run (scanPass fullPath) (scanStart fullPath) attempts outcome) :
    attempts.length ≤ fullPath.chars.length + 1 := by
  have bounded : ∀ {attempts scan},
      Run (scanPass fullPath) (scanStart fullPath) attempts (.ok scan) →
        attempts.length ≤ fullPath.chars.length := by
    intro attempts scan run
    rcases position_of_run run with ⟨_, _, counted, -⟩ | ⟨counted, -⟩
    · omega
    · exact counted
  cases run with
  | start => exact Nat.zero_le _
  | next earlier taken =>
      rw [List.length_append, List.length_singleton]
      exact Nat.succ_le_succ (bounded earlier)

/-- A loop that has ended gives what the scan of the list does. -/
theorem configSubDir_of_run {attempts : List (Scan × Unit)}
    {outcome : Except Fault Scan}
    (run : Run (scanPass fullPath) (scanStart fullPath) attempts outcome)
    (ended : ∀ scan, outcome = .ok scan → scan.left = true) :
    configSubDir fullPath.text = outcome.map Scan.configSubDir := by
  cases outcome with
  | ok scan =>
      rcases position_of_run run with ⟨_, _, -, reading⟩ | ⟨-, found⟩
      · have going := reading.going
        rw [ended scan rfl] at going
        simp at going
      · exact found.same
  | error fault =>
      rcases run.outcome_eq_error_iff.mp rfl with
        ⟨⟨scan, action⟩, member, fails⟩
      rcases run.attempt_reached member with ⟨earlier, later, -, reached⟩
      rcases position_of_run reached with
        ⟨remaining, seen, -, reading⟩ | ⟨-, found⟩
      · cases remaining with
        | zero =>
            rcases reading.outside with ⟨outside, same⟩
            rw [same]
            exact Option.some.inj (outside.symm.trans fails) ▸ rfl
        | succ remaining =>
            rcases reading.pass with ⟨next, passed, -⟩
            simp [passed] at fails
      · simp [scanPass_left found.left] at fails

/-- The loop goes on until it is left or has read the whole path. -/
theorem Reading.ends (reading : Reading fullPath scan remaining seen)
    (reached : Reachable (scanPass fullPath) (scanStart fullPath) scan) :
    ∃ final,
      Reachable (scanPass fullPath) (scanStart fullPath) final ∧
        (Found fullPath final ∨ ∃ seen, Reading fullPath final 0 seen) := by
  induction remaining generalizing scan seen with
  | zero => exact ⟨scan, reached, Or.inr ⟨seen, reading⟩⟩
  | succ remaining ih =>
      rcases reading.pass with ⟨next, passed, ⟨seen, goesOn⟩ | found⟩
      · exact ih goesOn (reached.advance passed)
      · exact ⟨next, reached.advance passed, Or.inl found⟩

/-! ## The directory -/

/-- What the scan must do with a path. -/
structure ScansSubDir (fullPath : FullPath) : Prop where
  terminates : ∃ bound, ∀ attempts outcome,
    Run (scanPass fullPath) (scanStart fullPath) attempts outcome →
      attempts.length ≤ bound
  inside : ∀ scan,
    Reachable (scanPass fullPath) (scanStart fullPath) scan →
      scan.left = false → scan.i < fullPath.chars.length
  /-- The component between the last two separators is found. -/
  leaves : 2 ≤ fullPath.chars.count '/' → ∃ scan,
    Reachable (scanPass fullPath) (scanStart fullPath) scan ∧
      scan.left = true
  between : ∀ scan,
    Reachable (scanPass fullPath) (scanStart fullPath) scan →
      scan.left = true → ParentDir fullPath.text scan.configSubDir
  /-- Where there is none, nothing is sent. -/
  missing : fullPath.chars.count '/' < 2 →
    (∀ scan, Reachable (scanPass fullPath) (scanStart fullPath) scan →
        scan.configSubDir = "") ∧
      ∀ filename content o,
        parseAndSendConfigs fullPath.text filename content o = .ok []

theorem separators_of_scanSubDir {chars : List Char}
    {seen : Option (List Char)} {subDir : String}
    (found : scanSubDir chars seen = .ok subDir) :
    (if seen.isSome then 1 else 2) ≤ chars.count '/' := by
  fun_induction scanSubDir chars seen with
  | case1 seen => simp at found
  | case2 rest ih =>
      have more := ih found
      simp at more ⊢
      omega
  | case3 c rest other ih =>
      have more := ih found
      simpa [List.count_cons_of_ne other] using more
  | case4 rest subDir => simp
  | case5 c rest subDir other ih =>
      have more := ih found
      simpa [List.count_cons_of_ne other] using more

theorem separators_of_configSubDir {subDir : String}
    (found : configSubDir fullPath.text = .ok subDir) :
    2 ≤ fullPath.chars.count '/' := by
  have separators := separators_of_scanSubDir found
  rw [List.count_reverse] at separators
  exact separators

/-- Without two separators, the loop reads the whole path. -/
theorem reads_all (few : fullPath.chars.count '/' < 2) :
    ∃ final seen,
      Reachable (scanPass fullPath) (scanStart fullPath) final ∧
        Reading fullPath final 0 seen := by
  rcases (reading_start fullPath).ends .refl with
    ⟨final, reached, found | ⟨seen, reading⟩⟩
  · exact absurd (separators_of_configSubDir found.same)
      (Nat.not_le_of_lt few)
  · exact ⟨final, seen, reached, reading⟩

/-- And then it goes on outside. -/
theorem reads_outside (few : fullPath.chars.count '/' < 2) :
    ∃ attempts, Run (scanPass fullPath) (scanStart fullPath) attempts
      (.error .undefinedBehaviour) := by
  rcases reads_all few with ⟨final, seen, ⟨attempts, run⟩, reading⟩
  exact ⟨_, run.next reading.outside.1⟩

theorem separators_of_scans (scans : ScansSubDir fullPath) :
    2 ≤ fullPath.chars.count '/' := by
  by_contra few
  rcases reads_all (Nat.lt_of_not_le few) with
    ⟨final, seen, reached, reading⟩
  have inside := scans.inside final reached reading.going
  have fits : fullPath.chars.length < 2 ^ 64 - 1 := fullPath.fits
  rw [reading.index, decrement_zero] at inside
  omega

/-- The scan does what it must just when the path has two separators. -/
theorem subDir_scanned_iff (fullPath : FullPath) :
    ScansSubDir fullPath ↔ 2 ≤ fullPath.chars.count '/' := by
  constructor
  · exact separators_of_scans
  · intro separators
    rcases parentDir_of_separators separators with ⟨subDir, parent⟩
    have remains : ∀ {scan seen}, ¬ Reading fullPath scan 0 seen := by
      intro scan seen reading
      have outside := reading.outside.2
      rw [parent.configSubDir_eq] at outside
      simp at outside
    constructor
    · exact ⟨_, fun _ _ run => passes_bounded run⟩
    · rintro scan ⟨attempts, run⟩ going
      rcases position_of_run run with
        ⟨remaining, seen, -, reading⟩ | ⟨-, found⟩
      · cases remaining with
        | zero => exact absurd reading remains
        | succ remaining =>
            rw [reading.index_eq]
            exact reading.inside
      · simp [found.left] at going
    · intro _
      rcases (reading_start fullPath).ends .refl with
        ⟨final, reached, found | ⟨seen, reading⟩⟩
      · exact ⟨final, reached, found.left⟩
      · exact absurd reading remains
    · rintro scan ⟨attempts, run⟩ left
      have same := configSubDir_of_run run fun other same => by
        rcases Except.ok.inj same with rfl
        exact left
      rw [parent.configSubDir_eq] at same
      rcases Except.ok.inj same with rfl
      exact parent
    · intro few
      exact absurd separators (Nat.not_le_of_lt few)

/-- A file name alone, whose scan wraps around. -/
def filenameOnly : FullPath := ⟨"configs.json", by decide⟩

theorem filename_scanned_outside :
    (∃ attempts, Run (scanPass filenameOnly) (scanStart filenameOnly)
        attempts (.error .undefinedBehaviour)) ∧
      ¬ ScansSubDir filenameOnly := by
  constructor
  · exact reads_outside (by decide)
  · intro scans
    exact absurd (separators_of_scans scans) (by decide)

end KekMonitors.Manager.SubDirScan
