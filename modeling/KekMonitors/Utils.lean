import KekMonitors.Message

/-!
# Common responses

The response to a combined command, made from the responses of its halves.
-/

namespace KekMonitors.Utils

/-- `errorStringMap().left.at(err)`, which throws for an unknown code. -/
def errorToString (err : ErrorType) : Except Fault String :=
  match errorNames[err.toNat]? with
  | some name => .ok name
  | none => .error (.raised .outOfRange)

/-- What a failed half adds to the common info. -/
def failureInfo (response : Response) : Except Fault String :=
  if response.error ≠ 0 then do
    let name ← errorToString response.error
    if response.info.isEmpty then .ok (name ++ "; ")
    else .ok (name ++ (": " ++ response.info ++ " "))
  else .ok ""

def makeCommonResponse (firstResponse secondResponse : Response)
    (commonError : Error := .unknownError) : Except Fault Response :=
  if firstResponse.error ≠ 0 ∨ secondResponse.error ≠ 0 then do
    let first ← failureInfo firstResponse
    let second ← failureInfo secondResponse
    .ok { Response.okResponse with
      error := commonError.code
      info := first ++ second }
  else .ok Response.okResponse

/-! ## What the common response says -/

/-- The code has a name in the table. -/
def IsNamed (err : ErrorType) : Prop := err.toNat < errorNames.length

instance (err : ErrorType) : Decidable (IsNamed err) :=
  inferInstanceAs (Decidable (_ < _))

/-- The name of a failing response, with its own info if it has one. -/
def described (response : Response) : String :=
  errorNames.getD response.error.toNat "" ++
    if response.info.isEmpty then "; " else ": " ++ response.info ++ " "

/-- The failing ones among some responses, in their order. -/
def failingNames (responses : List Response) : String :=
  ((responses.filter fun response => response.error ≠ Error.ok.code).map
    described).foldr (· ++ ·) ""

/-- What the response to a combined command must say. -/
structure Combines (commonError : Error) (first second common : Response) :
    Prop where
  ok : common.error = Error.ok.code ↔
    first.error = Error.ok.code ∧ second.error = Error.ok.code
  failed : common.error ≠ Error.ok.code →
    common.error = commonError.code ∧
      common.info = failingNames [first, second]

theorem errorToString_of_named {err : ErrorType} (named : IsNamed err) :
    errorToString err = .ok (errorNames.getD err.toNat "") := by
  rw [errorToString, List.getElem?_eq_getElem named, List.getD,
    List.getElem?_eq_getElem named]
  rfl

theorem errorToString_of_unnamed {err : ErrorType} (unnamed : ¬ IsNamed err) :
    errorToString err = .error (.raised .outOfRange) := by
  rw [errorToString, List.getElem?_eq_none (Nat.not_lt.mp unnamed)]

/-- Only a failing response with an unknown code has no info. -/
theorem failureInfo_eq (response : Response) :
    failureInfo response =
      if response.error = Error.ok.code then .ok ""
      else if IsNamed response.error then .ok (described response)
      else .error (.raised .outOfRange) := by
  have zero : Error.ok.code = 0 := rfl
  rw [zero]
  by_cases fine : response.error = 0
  · rw [failureInfo, if_neg (not_not.mpr fine), if_pos fine]
  · rw [failureInfo, if_pos fine, if_neg fine]
    by_cases named : IsNamed response.error
    · rw [errorToString_of_named named, if_pos named, described]
      cases response.info.isEmpty <;> rfl
    · rw [errorToString_of_unnamed named, if_neg named]
      rfl

theorem code_eq_ok_iff {error : Error} :
    error.code = Error.ok.code ↔ error = .ok := by
  cases error <;> decide

/-- Every failing one among some responses has a code with a name. -/
def FailuresNamed (responses : List Response) : Prop :=
  ∀ response ∈ responses,
    response.error ≠ Error.ok.code → IsNamed response.error

instance (responses : List Response) : Decidable (FailuresNamed responses) :=
  inferInstanceAs (Decidable (∀ _ ∈ _, _))

theorem makeCommonResponse_eq (first second : Response)
    (commonError : Error) :
    makeCommonResponse first second commonError =
      if first.error = Error.ok.code ∧ second.error = Error.ok.code then
        .ok Response.okResponse
      else if FailuresNamed [first, second] then
        .ok
          { error := commonError.code
            info := failingNames [first, second] }
      else .error (.raised .outOfRange) := by
  have zero : (0 : ErrorType) = Error.ok.code := rfl
  rw [makeCommonResponse, failureInfo_eq, failureInfo_eq, zero]
  by_cases firstOk : first.error = Error.ok.code <;>
    by_cases secondOk : second.error = Error.ok.code
  · simp [firstOk, secondOk]
  · by_cases named : IsNamed second.error
    · simp [firstOk, secondOk, named, FailuresNamed, failingNames, bind,
        Except.bind, Response.okResponse]
    · simp [firstOk, secondOk, named, FailuresNamed, bind, Except.bind]
  · by_cases named : IsNamed first.error
    · simp [firstOk, secondOk, named, FailuresNamed, failingNames, bind,
        Except.bind, Response.okResponse]
    · simp [firstOk, secondOk, named, FailuresNamed, bind, Except.bind]
  · by_cases firstNamed : IsNamed first.error
    · by_cases secondNamed : IsNamed second.error
      · simp [firstOk, secondOk, firstNamed, secondNamed, FailuresNamed,
          failingNames, bind, Except.bind, Response.okResponse]
      · simp [firstOk, secondOk, firstNamed, secondNamed, FailuresNamed,
          bind, Except.bind]
    · simp [firstOk, secondOk, firstNamed, FailuresNamed, bind,
        Except.bind]

/--
A common response is made, and says what it must, just when every failing
input has a code with a name.
-/
theorem makeCommonResponse_combines_iff (first second : Response)
    {commonError : Error} (bad : commonError ≠ .ok) :
    (∃ common, makeCommonResponse first second commonError = .ok common ∧
        Combines commonError first second common) ↔
      FailuresNamed [first, second] := by
  have failed : commonError.code ≠ Error.ok.code :=
    fun same => bad (code_eq_ok_iff.mp same)
  rw [makeCommonResponse_eq]
  split
  · rename_i fine
    constructor
    · rintro - response member notOk
      rcases List.mem_cons.mp member with rfl | last
      · exact absurd fine.1 notOk
      · exact absurd (List.mem_singleton.mp last ▸ fine.2) notOk
    · intro _
      exact ⟨_, rfl, iff_of_true rfl fine, fun notOk => absurd rfl notOk⟩
  · rename_i notFine
    split
    · rename_i named
      refine iff_of_true ⟨_, rfl, iff_of_false failed notFine, ?_⟩ named
      exact fun _ => ⟨rfl, rfl⟩
    · rename_i unnamed
      refine iff_of_false ?_ unnamed
      rintro ⟨common, made, -⟩
      simp at made

/-- Both inputs fail, each with a registered code. -/
theorem makeCommonResponse_combines_stop :
    ∃ common, makeCommonResponse
        { error := Error.socketDoesntExist.code, info := "no socket" }
        { error := Error.mmCouldntStopScraper.code }
        .mmCouldntStopMonitorScraper = .ok common ∧
      Combines .mmCouldntStopMonitorScraper
        { error := Error.socketDoesntExist.code, info := "no socket" }
        { error := Error.mmCouldntStopScraper.code } common :=
  (makeCommonResponse_combines_iff _ _ (by decide)).mpr (by decide)

/-- A monitored process answers with the first code of its own. -/
theorem custom_error_throws :
    ¬ ∃ common, makeCommonResponse { error := 20 } {}
        .mmCouldntStopMonitorScraper = .ok common ∧
      Combines .mmCouldntStopMonitorScraper { error := 20 } {} common := by
  have thrown : makeCommonResponse { error := 20 } {}
      .mmCouldntStopMonitorScraper = .error (.raised .outOfRange) := by
    rw [makeCommonResponse_eq, if_neg (by decide), if_neg (by decide)]
  rintro ⟨common, made, -⟩
  rw [thrown] at made
  simp at made

end KekMonitors.Utils
