import KekMonitors.Cli
import KekMonitors.Exchange
import KekMonitors.Manager.Contracts
import KekMonitors.Manager.Stop

/-!
# The programs that ask the manager

The command line client and `stopmm` look up the name of the error in a
response, which throws for a code that has none.  Of all the replies that the
manager writes, only one that it passes on from a monitored process can have
such a code.
-/

namespace KekMonitors

namespace Stopmm

/-- The command of `stopmm.cpp`. -/
def cmd : Cmd := { cmd := Command.mmStopMonitorManager.code }

/-- `main`: both branches of its callback look up the error. -/
def main (connects : Bool) (received : Option Response) : Cli.Outcome :=
  if connects then
    { sent := some cmd
      ended := Cli.showResponse received }
  else .exit 1

end Stopmm

namespace Cli

theorem mainWith_sent {command : CommandType} {options : List (List Json.Byte)}
    {cmd : Cmd} (sent : (mainWith command options none).sent = some cmd)
    (received : Option Response) :
    (mainWith command options received).sent = some cmd ∧
      (mainWith command options received).ended = showResponse received := by
  have sending : ∀ {payload : Payload},
      (send command payload none).sent = some cmd →
        (send command payload received).sent = some cmd ∧
          (send command payload received).ended = showResponse received := by
    intro payload sent
    unfold send at sent ⊢
    split
    · rename_i failed
      rw [failed] at sent
      simp [Outcome.raise] at sent
    · rename_i json made
      rw [made] at sent
      exact ⟨sent, rfl⟩
  unfold mainWith at sent ⊢
  split
  · rename_i none
    rw [if_pos none] at sent
    exact sending sent
  · rename_i some
    rw [if_neg some] at sent
    split
    · rename_i paired
      rw [if_pos paired] at sent
      cases read : readPayload ∅ options with
      | error code =>
          rw [read] at sent
          simp [Outcome.exit] at sent
      | ok payload =>
          rw [read] at sent
          exact sending sent
    · rename_i odd
      rw [if_neg odd] at sent
      simp [Outcome.exit] at sent

/-- The response comes after the command, and says how the client ends. -/
theorem main_sent {args : List (List Json.Byte)} {cmd : Cmd}
    (sent : (main args none).sent = some cmd) (received : Option Response) :
    (main args received).sent = some cmd ∧
      (main args received).ended = showResponse received := by
  unfold main at sent ⊢
  cases args with
  | nil => simp [Outcome.exit] at sent
  | cons first options =>
      dsimp only at sent ⊢
      split
      · rename_i lists
        rw [if_pos lists] at sent
        simp [Outcome.exit] at sent
      · rename_i other
        rw [if_neg other] at sent
        cases named : stringToCommand first with
        | some command =>
            rw [named] at sent
            exact mainWith_sent sent received
        | none =>
            rw [named] at sent
            cases number : stoi first with
            | ok command =>
                rw [number] at sent
                exact mainWith_sent sent received
            | error err =>
                rw [number] at sent
                cases err <;> simp [Outcome.exit, Outcome.raise] at sent

end Cli

namespace Manager

open Connection
open Transition

/-! ## Errors without a name -/

theorem isNamed_code (error : Error) : Utils.IsNamed error.code := by
  cases error <;> decide

section Replies

variable {attempts : List (State × Action)} {connection : Nat}
  {response : Response}

theorem FitsHalf.named {callback : Callback}
    {momanCb : MonitorManagerCallback} {m : MonitorOrScraper}
    (fits : FitsHalf attempts callback momanCb m response) :
    Utils.IsNamed response.error ∨
      momanCb = .onStop ∧ PassedOn attempts m callback response := by
  cases fits with
  | own reports =>
      rcases reports with ⟨error, -, code⟩
      rw [code]
      exact Or.inl (isNamed_code error)
  | passedOn stops passed => exact Or.inr ⟨stops, passed⟩

/-- The common response of two halves has an error of its own. -/
theorem completionCb_named {momanCb : MonitorManagerCallback}
    {first second : Response}
    (made : completionCb momanCb first second = .ok response) :
    Utils.IsNamed response.error := by
  have common : ∀ {commonError : Error} {common : Response},
      Utils.makeCommonResponse first second commonError = .ok common →
        Utils.IsNamed common.error := by
    intro commonError common made
    rw [Utils.makeCommonResponse_eq] at made
    split at made
    · rw [← Except.ok.inj made]
      exact isNamed_code .ok
    · split at made
      · rw [← Except.ok.inj made]
        exact isNamed_code commonError
      · simp at made
  cases momanCb with
  | onAdd => exact common made
  | onGetStatus =>
      rcases bind_eq_ok.mp made with ⟨shared, combined, same⟩
      have named := common combined
      rw [← Except.ok.inj same]
      exact named
  | onStop => exact common made

/-- Only a reply that a stop of one kind passes on can have no named error. -/
theorem Fits.named {code : CommandType}
    (fits : Fits attempts connection code response) :
    Utils.IsNamed response.error ∨ ∃ m, code = (stopCommand m).code ∧
      PassedOn attempts m (.client connection) response := by
  cases fits with
  | ping asked same =>
      rw [same]
      exact Or.inl (isNamed_code .ok)
  | shutdown asked same =>
      rw [same]
      exact Or.inl (isNamed_code .ok)
  | single momanCb m asked half =>
      rcases half.named with named | ⟨rfl, passed⟩
      · exact Or.inl named
      · exact Or.inr ⟨m, asked, passed⟩
  | combined momanCb c first second m other asked firstFits secondFits made =>
      exact Or.inl (completionCb_named made)
  | unrecognized unknown same =>
      rw [same]
      exact Or.inl (isNamed_code .unrecognizedCommand)

/-- The command to stop the manager has one answer. -/
theorem Fits.of_stopmm
    (fits : Fits attempts connection Stopmm.cmd.cmd response) :
    response = Response.okResponse := by
  cases fits with
  | ping asked same => exact absurd asked (by decide)
  | shutdown asked same => exact same
  | single momanCb m asked half =>
      exact absurd asked (by cases momanCb <;> cases m <;> decide)
  | combined momanCb c first second m other asked firstFits secondFits made =>
      exact absurd asked (by cases momanCb <;> decide)
  | unrecognized unknown same => exact absurd unknown (by decide)

end Replies

/-! ## Runs -/

section Runs

variable {config : Config} {startUp : StartUp} {start final : State}
  {attempts : List (State × Action)}

/--
Whatever a run writes to a client is for a command it has read from it.  If
this came from the command line client, the client shows the response, unless
the command stops one class and the response is what the process of a stop has
sent; if it came from `stopmm`, the response is the default one, and is shown.
-/
theorem tools_show_replies (built : construct config startUp = .ok start)
    (run : Run (step config) start attempts (.ok final)) :
    ∀ connection response, (connection, response) ∈ final.written →
      ∃ cmd, Received attempts connection cmd ∧
        (∀ args, (Cli.main args none).sent = some cmd →
          (Cli.main args (some response)).ended = .ok 0 ∨
            (Cli.main args (some response)).ended =
                .error (.raised .outOfRange) ∧
              ∃ m, cmd.cmd = (stopCommand m).code ∧
                PassedOn attempts m (.client connection) response) ∧
        (cmd = Stopmm.cmd → response = Response.okResponse ∧
          (Stopmm.main true (some response)).ended = .ok 0) := by
  intro connection response member
  rcases (run_entrusts built run).written connection response member with
    ⟨cmd, received, fits⟩
  refine ⟨cmd, received, ?_, ?_⟩
  · intro args sent
    rw [(Cli.main_sent sent (some response)).2]
    rcases Cli.showResponse_cases (some response) with
      ⟨-, ended⟩ | ⟨hidden, raised⟩
    · exact Or.inl ended
    · have unnamed : ¬ Utils.IsNamed response.error := by
        intro named
        apply hidden
        rintro shown same
        exact Option.some.inj same ▸ named
      exact Or.inr ⟨raised, fits.named.resolve_left unnamed⟩
  · rintro rfl
    rcases fits.of_stopmm with rfl
    exact ⟨rfl, rfl⟩

end Runs

namespace Installation

/-- The response of a monitored process whose error has no name. -/
def unnamedError : Response := { error := 99 }

/-- What the client is started with to stop the monitor. -/
def stopArguments : List (List Json.Byte) :=
  [Json.word "MM_STOP_MONITOR", Json.word "--name", Json.word "Shoes"]

end Installation

open Installation

/-- A client that stops a monitor ends over what its process answered. -/
theorem client_of_stop :
    ∃ final cmd response,
      execute (step config) start
        (stopShoes (transmit [unnamedError.toString]) ++ [.runStop 0]) =
          some final ∧
      Received (attemptsOf (step config) start
        (stopShoes (transmit [unnamedError.toString]) ++ [.runStop 0]))
          1 cmd ∧
      (Cli.main stopArguments none).sent = some cmd ∧
      (Cli.main stopArguments (some response)).ended =
        .error (.raised .outOfRange) ∧
      PassedOn (attemptsOf (step config) start
        (stopShoes (transmit [unnamedError.toString]) ++ [.runStop 0]))
          .monitor (.client 1) response := by
  have ran : (execute (step config) start
      (stopShoes (transmit [unnamedError.toString]) ++ [.runStop 0])).any
        (fun final => final.written.any fun reply =>
          reply.1 = 1 ∧ reply.2.error = 99) = true := by
    decide +kernel
  have read : ((attemptsOf (step config) start
      (stopShoes (transmit [unnamedError.toString]) ++
        [.runStop 0])).all fun attempt =>
          (received attempt.1 attempt.2).all fun (connection, cmd) =>
            connection = 1 →
              cmd.toString = (about .mmStopMonitor "Shoes").toString) =
      true := by
    decide +kernel
  have sent : (Cli.main stopArguments none).sent =
      some (about .mmStopMonitor "Shoes") := by
    rfl
  rcases (Option.any_eq_true _ _).mp ran with ⟨final, executed, found⟩
  rcases List.any_eq_true.mp found with ⟨⟨client, response⟩, member, facts⟩
  rcases of_decide_eq_true facts with ⟨rfl, code⟩
  rcases tools_show_replies start_built (.of_execute executed) 1 response
    member with ⟨cmd, asked, shows, -⟩
  -- the second client sent nothing but the stop
  have only : cmd = about .mmStopMonitor "Shoes" := by
    rcases asked with ⟨attempt, inside, same⟩
    have checked := List.all_eq_true.mp read attempt inside
    rw [same, Option.all_some] at checked
    exact Cmd.codec.toString_injective (of_decide_eq_true checked rfl)
  rw [← only] at sent
  rcases shows stopArguments sent with shown | ⟨raised, m, code, passedOn⟩
  · have unnamed : ¬ Utils.IsNamed response.error := by
      rw [show response.error = 99 from code]
      decide
    rw [(Cli.main_sent sent _).2, Cli.showResponse,
      Utils.errorToString_of_unnamed unnamed] at shown
    simp [bind, Except.bind] at shown
  · cases m with
    | monitor =>
        exact ⟨final, cmd, response, executed, asked, sent, raised, passedOn⟩
    | scraper =>
        rw [only] at code
        exact absurd code (by decide)

end Manager

end KekMonitors
