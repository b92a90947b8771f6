import KekMonitors.Manager.Progress

/-!
# Exceptions of the dispatched handlers

The dispatcher catches `std::out_of_range` alone.  What follows are the inputs
on which a handler throws something else, which nobody catches.
-/

namespace KekMonitors.Manager

open Connection
open Transition

/-! ## The name -/

def Names (cmd : Cmd) (className : String) : Prop :=
  ∃ name, cmd.payload.find? "name" = some name ∧
    name.string? = some className

/-- The payload has something else than a string under `name`. -/
def UnusableName (cmd : Cmd) : Prop :=
  ∃ name, cmd.payload.find? "name" = some name ∧ name.string? = none

theorem notNull_of_find? {j value : Json} {key : String}
    (found : j.find? key = some value) : j.isNull = false := by
  cases null : j.isNull with
  | false => rfl
  | true =>
      rw [Json.isNull_iff.mp null, Json.find?_null] at found
      simp at found

theorem nameArgument_of_names {cmd : Cmd} {className : String}
    (names : Names cmd className) :
    nameArgument cmd = .ok (.ok className) := by
  rcases names with ⟨name, found, text⟩
  simp [nameArgument, notNull_of_find? found, found, text]

theorem nameArgument_of_unusable {cmd : Cmd} (unusable : UnusableName cmd) :
    nameArgument cmd = .error (.raised .jsonTypeError) := by
  rcases unusable with ⟨name, found, noText⟩
  simp [nameArgument, notNull_of_find? found, found, noText]

/-- A name that is not unusable is there or is asked for. -/
theorem nameArgument_cases {cmd : Cmd} (usable : ¬ UnusableName cmd) :
    (∃ className, Names cmd className ∧
        nameArgument cmd = .ok (.ok className)) ∨
      ∃ response, nameArgument cmd = .ok (.error response) := by
  cases found : cmd.payload.find? "name" with
  | none =>
      right
      unfold nameArgument
      split
      · exact ⟨_, rfl⟩
      · rw [found]
        exact ⟨_, rfl⟩
  | some name =>
      left
      cases text : name.string? with
      | none => exact absurd ⟨name, found, text⟩ usable
      | some className =>
          have names : Names cmd className := ⟨name, found, text⟩
          exact ⟨className, names, nameArgument_of_names names⟩

/-! ## Starting a process -/

/-- The ways in which the start of a process throws. -/
inductive StartFails (env : Environment) : Prop where
  | interpreter (missing : env.python = none)
  | query (python : String) (found : env.python = some python)
      (usable : python.isEmpty = false)
      (fails : env.query = .otherException)
  | path (python : String) (found : env.python = some python)
      (usable : python.isEmpty = false)
      (fails : env.query = .document none)
  | spawn (python path : String) (found : env.python = some python)
      (usable : python.isEmpty = false)
      (registered : env.query = .document (some path))
      (fails : env.spawn = none)

/-- An exception that the dispatcher lets through. -/
def Uncaught (fault : Fault) : Prop := fault ≠ .raised .outOfRange

theorem startProcess_fails {env : Environment} (fails : StartFails env)
    (m : MonitorOrScraper) :
    ∃ fault, startProcess m env = .error fault ∧ Uncaught fault := by
  cases fails with
  | interpreter missing =>
      exact ⟨.raised .standard, by simp [startProcess, missing],
        by simp [Uncaught]⟩
  | query python found usable fails =>
      exact ⟨.raised .database,
        by simp [startProcess, found, usable, fails], by simp [Uncaught]⟩
  | path python found usable fails =>
      exact ⟨.raised .bson,
        by simp [startProcess, found, usable, fails], by simp [Uncaught]⟩
  | spawn python path found usable registered fails =>
      exact ⟨.raised .process,
        by simp [startProcess, found, usable, registered, fails],
        by simp [Uncaught]⟩

theorem startProcess_returns {env : Environment}
    (succeeds : ¬ StartFails env) (m : MonitorOrScraper) :
    ∃ result, startProcess m env = .ok result := by
  unfold startProcess
  cases found : env.python with
  | none => exact absurd (.interpreter found) succeeds
  | some python =>
      dsimp only
      split
      · exact ⟨_, rfl⟩
      · rename_i nonempty
        have usable : python.isEmpty = false := by simpa using nonempty
        cases query : env.query with
        | queryException what => exact ⟨_, rfl⟩
        | otherException =>
            exact absurd (.query python found usable query) succeeds
        | notRegistered => exact ⟨_, rfl⟩
        | document path =>
            cases path with
            | none =>
                exact absurd (.path python found usable query) succeeds
            | some path =>
                cases spawn : env.spawn with
                | none =>
                    exact absurd
                      (.spawn python path found usable query spawn) succeeds
                | some process => exact ⟨_, rfl⟩

/-! ## Adding -/

/-- The inputs on which `onAdd` throws. -/
inductive AddFails (m : MonitorOrScraper) (cmd : Cmd) (env : Environment)
    (o : Objects) : Prop where
  | name (unusable : UnusableName cmd)
  | start (className : String) (names : Names cmd className)
      (admitted : (o.find? m className).bind (refuse m) = none)
      (fails : StartFails env)

theorem onAdd_fails {m : MonitorOrScraper} {cmd : Cmd} {env : Environment}
    {o : Objects} (fails : AddFails m cmd env o) (callback : Callback) :
    ∃ fault, onAdd m cmd env callback o = .error fault ∧
      Uncaught fault := by
  cases fails with
  | name unusable =>
      refine ⟨.raised .jsonTypeError, ?_, by simp [Uncaught]⟩
      rw [onAdd, nameArgument_of_unusable unusable]
      rfl
  | start className names admitted fails =>
      rcases startProcess_fails fails m with ⟨fault, failed, uncaught⟩
      refine ⟨fault, ?_, uncaught⟩
      simp only [onAdd, nameArgument_of_names names, admitted, failed, bind,
        Except.bind]

theorem onAdd_returns {m : MonitorOrScraper} {cmd : Cmd}
    {env : Environment} {o : Objects} (succeeds : ¬ AddFails m cmd env o)
    (callback : Callback) :
    ∃ outcome, onAdd m cmd env callback o = .ok outcome := by
  rcases nameArgument_cases fun unusable => succeeds (.name unusable) with
    ⟨className, names, named⟩ | ⟨response, missing⟩
  · cases admitted : (o.find? m className).bind (refuse m) with
    | some response =>
        simp only [onAdd, named, admitted, bind, Except.bind]
        exact ⟨_, rfl⟩
    | none =>
        rcases startProcess_returns
            (fun fails => succeeds (.start className names admitted fails))
            m with ⟨result, returned⟩
        cases result with
        | error response =>
            simp only [onAdd, named, admitted, returned, bind, Except.bind]
            exact ⟨_, rfl⟩
        | ok started =>
            simp only [onAdd, named, admitted, returned, bind, Except.bind]
            exact ⟨_, rfl⟩
  · exact ⟨(o, some response), by
      simp only [onAdd, missing, bind, Except.bind]⟩

/-! ## Stopping -/

/-- The inputs on which `onStop` throws. -/
inductive StopFails (m : MonitorOrScraper) (cmd : Cmd) (env : Environment)
    (o : Objects) : Prop where
  | name (unusable : UnusableName cmd)
  | connect (className : String) (stored : StoredObject)
      (names : Names cmd className)
      (found : o.find? m className = some stored)
      (reachable : stored.endpoint.isSome = true)
      (idle : stored.isBeingStopped = false)
      (refused : env.peer.connect.isSome = true)

theorem onStop_fails {m : MonitorOrScraper} {cmd : Cmd} {env : Environment}
    {o : Objects} (fails : StopFails m cmd env o) (callback : Callback) :
    ∃ fault, onStop m cmd env callback o = .error fault ∧
      Uncaught fault := by
  cases fails with
  | name unusable =>
      refine ⟨.raised .jsonTypeError, ?_, by simp [Uncaught]⟩
      rw [onStop, nameArgument_of_unusable unusable]
      rfl
  | connect className stored names found reachable idle refused =>
      refine ⟨.raised .system, ?_, by simp [Uncaught]⟩
      have present : stored.endpoint.isNone = false := by
        simpa using reachable
      simp [onStop, nameArgument_of_names names, found, present, idle,
        refused, bind, Except.bind]

theorem onStop_returns {m : MonitorOrScraper} {cmd : Cmd}
    {env : Environment} {o : Objects} (succeeds : ¬ StopFails m cmd env o)
    (callback : Callback) :
    ∃ outcome, onStop m cmd env callback o = .ok outcome := by
  rcases nameArgument_cases fun unusable => succeeds (.name unusable) with
    ⟨className, names, named⟩ | ⟨response, missing⟩
  · unfold onStop
    rw [named]
    cases found : o.find? m className with
    | none =>
        simp only [found, bind, Except.bind]
        exact ⟨_, rfl⟩
    | some stored =>
        simp only [found, bind, Except.bind]
        split
        · exact ⟨_, rfl⟩
        · rename_i reachable
          split
          · exact ⟨_, rfl⟩
          · rename_i idle
            split
            · rename_i refused
              refine absurd (.connect className stored names found ?_ ?_
                refused) succeeds
              · simpa [Option.isSome_iff_ne_none] using reachable
              · simpa using idle
            · exact ⟨_, rfl⟩
  · exact ⟨(o, .error response), by
      simp only [onStop, missing, bind, Except.bind]⟩

/-! ## Dispatch -/

/--
The inputs on which the dispatched handler throws: an add or a stop of one
kind.  The halves of a combined command are only posted.
-/
inductive Throws (cmd : Cmd) (env : Environment) (s : State) : Prop where
  | add (m : MonitorOrScraper) (isAdd : cmd.cmd = (addCommand m).code)
      (fails : AddFails m cmd env s.objects)
  | stop (m : MonitorOrScraper) (isStop : cmd.cmd = (stopCommand m).code)
      (fails : StopFails m cmd env s.objects)

theorem catchOutOfRange_uncaught {recovered : State} {fault : Fault}
    (uncaught : Uncaught fault) :
    catchOutOfRange recovered (.error fault) = .error fault := by
  unfold catchOutOfRange
  split
  · rename_i caught
    rw [Except.error.injEq] at caught
    exact absurd caught uncaught
  · rfl

theorem lookup_stopCommand {cmd : Cmd} {m : MonitorOrScraper}
    (isStop : cmd.cmd = (stopCommand m).code) :
    callbackMap.lookup cmd.cmd =
      some fun cmd env connection s =>
        handleStop m cmd env (.client connection) s := by
  rw [isStop]
  cases m <;> rfl

/--
The handling of a command returns normally on exactly the inputs that make no
handler throw.
-/
theorem handleCallback_returns_iff (cmd : Cmd) (env : Environment)
    (connection : Nat) (s : State) :
    (∃ next, handleCallback none cmd env connection s = .ok next) ↔
      ¬ Throws cmd env s := by
  constructor
  · rintro ⟨next, returned⟩ throws
    cases throws with
    | add m isAdd fails =>
        rcases onAdd_fails fails (.client connection) with
          ⟨fault, failed, uncaught⟩
        have raised : handleAdd m cmd env (.client connection) s =
            .error fault := by
          rw [handleAdd, failed]
          rfl
        rw [handleCallback_of_lookup (lookup_addCommand isAdd), raised,
          catchOutOfRange_uncaught uncaught] at returned
        simp at returned
    | stop m isStop fails =>
        rcases onStop_fails fails (.client connection) with
          ⟨fault, failed, uncaught⟩
        have raised : handleStop m cmd env (.client connection) s =
            .error fault := by
          rw [handleStop, failed]
          rfl
        rw [handleCallback_of_lookup (lookup_stopCommand isStop), raised,
          catchOutOfRange_uncaught uncaught] at returned
        simp at returned
  · intro returns
    cases found : callbackMap.lookup cmd.cmd with
    | none => exact ⟨_, handleCallback_of_missing found env connection s⟩
    | some callback =>
        rw [handleCallback_of_lookup found]
        rcases callbackMap_cases found with
          ⟨m, isAdd, rfl⟩ | ⟨m, isStop, rfl⟩ | ⟨-, rfl⟩ | ⟨answers, -⟩
        · rcases onAdd_returns (fun fails => returns (.add m isAdd fails))
            (.client connection) with ⟨⟨objects, response⟩, ran⟩
          cases response with
          | none =>
              simp only [handleAdd, ran, reply, bind, Except.bind,
                catchOutOfRange]
              exact ⟨_, rfl⟩
          | some response =>
              simp only [handleAdd, ran, reply, invoke, bind, Except.bind,
                catchOutOfRange]
              exact ⟨_, rfl⟩
        · rcases onStop_returns (fun fails => returns (.stop m isStop fails))
            (.client connection) with ⟨⟨objects, outcome⟩, ran⟩
          cases outcome with
          | error response =>
              simp only [handleStop, ran, invoke, bind, Except.bind,
                catchOutOfRange]
              exact ⟨_, rfl⟩
          | ok exchange =>
              simp only [handleStop, ran, bind, Except.bind,
                catchOutOfRange]
              exact ⟨_, rfl⟩
        · exact ⟨_, rfl⟩
        · rcases answers cmd env connection s with ⟨next, ran, -⟩
          rw [ran]
          exact ⟨next, rfl⟩

/-- An add whose name is a number. -/
def numberedAdd : Cmd :=
  { cmd := Command.mmAddMonitor.code
    payload := Json.null.set "name" (Json.ofUInt32 5) }

/-- A client that sends a number for a name brings the manager down. -/
theorem numbered_name_throws :
    ∃ s, Reached Installation.config s ∧
      ¬ ∃ next, handleCallback none numberedAdd Installation.environment 0
        s = .ok next := by
  refine ⟨Installation.start, Installation.start_reached, ?_⟩
  rintro ⟨next, returned⟩
  have raised : handleCallback none numberedAdd Installation.environment 0
      Installation.start = .error (.raised .jsonTypeError) := by
    rfl
  rw [raised] at returned
  simp at returned

end KekMonitors.Manager
