import KekMonitors.Bimap
import KekMonitors.Cli

/-!
# Registered commands and errors

The two maps between codes and names.  `initMaps` fills them with the
enumerations, and a program of its own may register more.  The name is the text
of the registered expression without its namespaces.
-/

namespace KekMonitors

/-! ## Namespaces -/

/-- `std::string::rfind`: the last position of a text in another. -/
def rfind (text : List Char) : List Char → Option Nat
  | [] => if text = [] then some 0 else none
  | c :: rest =>
      match rfind text rest with
      | some pos => some (pos + 1)
      | none => if text <+: c :: rest then some 0 else none

/-- What separates namespaces. -/
def separator : List Char := "::".toList

def getStringWithoutNamespaces (command : String) : String :=
  match rfind separator command.toList with
  | some lastNamespaceSeparator =>
      String.ofList (command.toList.drop (lastNamespaceSeparator + 2))
  | none => command

/-- No separator is found in what follows the last one. -/
theorem rfind_drop {text line : List Char} {pos : Nat}
    (found : rfind text line = some pos) (nonempty : text ≠ []) :
    rfind text (line.drop (pos + 1)) = none := by
  induction line generalizing pos with
  | nil => simp [rfind, nonempty] at found
  | cons c rest ih =>
      rw [rfind] at found
      split at found
      · rename_i later there
        rcases Option.some.inj found with rfl
        exact ih there
      · rename_i absent
        split at found
        · rcases Option.some.inj found with rfl
          exact absent
        · simp at found

theorem rfind_tail {text line : List Char} (absent : rfind text line = none) :
    rfind text (line.drop 1) = none := by
  cases line with
  | nil => exact absent
  | cons c rest =>
      rw [rfind] at absent
      split at absent
      · simp at absent
      · assumption

/-- A name without a namespace is left as it is. -/
theorem getStringWithoutNamespaces_idem (command : String) :
    getStringWithoutNamespaces (getStringWithoutNamespaces command) =
      getStringWithoutNamespaces command := by
  have plain : rfind separator
      (getStringWithoutNamespaces command).toList = none := by
    unfold getStringWithoutNamespaces
    cases found : rfind separator command.toList with
    | none => exact found
    | some pos =>
        have dropped := rfind_tail (rfind_drop found (by decide))
        rw [List.drop_drop, Nat.add_assoc] at dropped
        simpa using dropped
  rw [getStringWithoutNamespaces, plain]

theorem rfind_append {text front back : List Char} {pos : Nat}
    (found : rfind text back = some pos) :
    rfind text (front ++ back) = some (front.length + pos) := by
  induction front with
  | nil => simpa using found
  | cons c front ih =>
      rw [List.cons_append, rfind, ih]
      simp only [List.length_cons, Option.some.injEq]
      omega

theorem rfind_eq_none {c : Char} {text line : List Char} (starts : c ∈ text)
    (absent : c ∉ line) : rfind text line = none := by
  induction line with
  | nil =>
      rw [rfind, if_neg]
      rintro rfl
      simp at starts
  | cons first rest ih =>
      rw [rfind, ih fun later => absent (List.mem_cons_of_mem _ later)]
      dsimp only
      rw [if_neg fun isPrefix => absent (isPrefix.subset starts)]

/-- The name of a registered enumerator is what follows its namespaces. -/
theorem getStringWithoutNamespaces_scoped (scope : String) {name : String}
    (plain : ':' ∉ name.toList) :
    getStringWithoutNamespaces (scope ++ "::" ++ name) = name := by
  have colon : ':' ∈ separator := by decide
  have unscoped := rfind_eq_none colon plain
  have once : rfind separator (':' :: name.toList) = none := by
    rw [rfind, unscoped]
    dsimp only
    rw [if_neg]
    intro isPrefix
    have second : [':'] <+: name.toList :=
      (List.cons_prefix_cons.mp isPrefix).2
    exact plain (second.subset List.mem_cons_self)
  have last : rfind separator (separator ++ name.toList) = some 0 := by
    change rfind separator (':' :: ':' :: name.toList) = some 0
    rw [rfind, once]
    exact if_pos ⟨name.toList, rfl⟩
  have found : rfind separator
      (scope.toList ++ (separator ++ name.toList)) =
        some (scope.toList.length + 0) :=
    rfind_append last
  have text : (scope ++ "::" ++ name).toList =
      scope.toList ++ (separator ++ name.toList) := by
    simp [separator]
  rw [getStringWithoutNamespaces, text, found]
  simp [separator, List.drop_append]

/-! ## The maps -/

abbrev CommandStringMap := Bimap CommandType String

abbrev ErrorStringMap := Bimap ErrorType String

structure StringMaps where
  commands : CommandStringMap := .empty
  errors : ErrorStringMap := .empty

/-- `REGISTER_COMMAND` and `REGISTER_ERROR`, with the registered expression. -/
inductive Registration where
  | command (cmd : CommandType) (text : String)
  | error (err : ErrorType) (text : String)

def register (maps : StringMaps) : Registration → StringMaps
  | .command cmd text =>
      { maps with
        commands := maps.commands.insert cmd
          (getStringWithoutNamespaces text) }
  | .error err text =>
      { maps with
        errors := maps.errors.insert err
          (getStringWithoutNamespaces text) }

/-- The registrations of `initMaps`. -/
def coreRegistrations : List Registration :=
  (commandStringMap.map fun pair =>
      .command pair.1.code ("kekmonitors::COMMANDS" ++ "::" ++ pair.2)) ++
    errorNames.zipIdx.map fun pair =>
      .error (UInt32.ofNat pair.2) ("kekmonitors::ERRORS" ++ "::" ++ pair.1)

def initMaps (maps : StringMaps) : StringMaps :=
  coreRegistrations.foldl register maps

def commandToString (maps : StringMaps) (cmd : CommandType) :
    Except Fault String :=
  match maps.commands.left cmd with
  | some str => .ok str
  | none => .error (.raised .outOfRange)

def stringToCommand (maps : StringMaps) (str : String) :
    Except Fault CommandType :=
  match maps.commands.right str with
  | some cmd => .ok cmd
  | none => .error (.raised .outOfRange)

def errorToString (maps : StringMaps) (err : ErrorType) :
    Except Fault String :=
  match maps.errors.left err with
  | some str => .ok str
  | none => .error (.raised .outOfRange)

def stringToError (maps : StringMaps) (str : String) :
    Except Fault ErrorType :=
  match maps.errors.right str with
  | some err => .ok err
  | none => .error (.raised .outOfRange)

/-- The maps of a program that has registered its own as well. -/
def registered (registrations : List Registration) : StringMaps :=
  registrations.foldl register (initMaps {})

/-- The name of one code, if `--list-cmd` prints it. -/
def listed (maps : StringMaps) (cmd : CommandType) :
    Except Fault (Option String) := do
  let commandString ← commandToString maps cmd
  let commandString := getStringWithoutNamespaces commandString
  .ok (if commandString.toList.take 2 = "MM".toList then some commandString
    else none)

/-- What `--list-cmd` prints: the codes up to the first custom one. -/
def listCmd (maps : StringMaps) : Except Fault (List String) := do
  let names ← (List.range' 1 49).mapM fun i => listed maps (UInt32.ofNat i)
  .ok names.reduceOption

/-- The names of the commands for the manager. -/
def managerNames : List String :=
  (commandStringMap.map Prod.snd).filter fun name =>
    name.toList.take 2 = "MM".toList

/-! ## Registering -/

def Registration.commands : Registration → List (CommandType × String)
  | .command cmd text => [(cmd, getStringWithoutNamespaces text)]
  | .error _ _ => []

def Registration.errors : Registration → List (ErrorType × String)
  | .command _ _ => []
  | .error err text => [(err, getStringWithoutNamespaces text)]

theorem register_commands (maps : StringMaps)
    (registrations : List Registration) :
    (registrations.foldl register maps).commands =
      maps.commands.insertAll
        (registrations.flatMap Registration.commands) := by
  induction registrations generalizing maps with
  | nil => rfl
  | cons registration registrations ih =>
      rw [List.foldl_cons, ih]
      cases registration <;> rfl

theorem register_errors (maps : StringMaps)
    (registrations : List Registration) :
    (registrations.foldl register maps).errors =
      maps.errors.insertAll (registrations.flatMap Registration.errors) := by
  induction registrations generalizing maps with
  | nil => rfl
  | cons registration registrations ih =>
      rw [List.foldl_cons, ih]
      cases registration <;> rfl

/-- The names of the enumerators have no namespaces. -/
theorem coreRegistrations_commands :
    coreRegistrations.flatMap Registration.commands =
      commandStringMap.map fun pair => (pair.1.code, pair.2) := by
  have plain : ∀ pair ∈ commandStringMap, ':' ∉ pair.2.toList := by
    decide +kernel
  have commands : (commandStringMap.map fun pair =>
      Registration.command pair.1.code
        ("kekmonitors::COMMANDS" ++ "::" ++ pair.2)).flatMap
          Registration.commands =
      commandStringMap.map fun pair => (pair.1.code, pair.2) := by
    rw [List.flatMap_map, List.map_eq_flatMap]
    apply List.flatMap_congr
    intro pair member
    rw [Registration.commands,
      getStringWithoutNamespaces_scoped _ (plain pair member)]
  have errors : (errorNames.zipIdx.map fun pair =>
      Registration.error (UInt32.ofNat pair.2)
        ("kekmonitors::ERRORS" ++ "::" ++ pair.1)).flatMap
          Registration.commands = [] := by
    rw [List.flatMap_map]
    exact List.flatMap_eq_nil_iff.mpr fun pair member => rfl
  rw [coreRegistrations, List.flatMap_append, commands, errors,
    List.append_nil]

theorem coreRegistrations_errors :
    coreRegistrations.flatMap Registration.errors =
      errorNames.zipIdx.map fun pair => (UInt32.ofNat pair.2, pair.1) := by
  have plain : ∀ pair ∈ errorNames.zipIdx, ':' ∉ pair.1.toList := by
    decide +kernel
  have commands : (commandStringMap.map fun pair =>
      Registration.command pair.1.code
        ("kekmonitors::COMMANDS" ++ "::" ++ pair.2)).flatMap
          Registration.errors = [] := by
    rw [List.flatMap_map]
    exact List.flatMap_eq_nil_iff.mpr fun pair member => rfl
  have errors : (errorNames.zipIdx.map fun pair =>
      Registration.error (UInt32.ofNat pair.2)
        ("kekmonitors::ERRORS" ++ "::" ++ pair.1)).flatMap
          Registration.errors =
      errorNames.zipIdx.map fun pair => (UInt32.ofNat pair.2, pair.1) := by
    rw [List.flatMap_map, List.map_eq_flatMap]
    apply List.flatMap_congr
    intro pair member
    rw [Registration.errors,
      getStringWithoutNamespaces_scoped _ (plain pair member)]
  rw [coreRegistrations, List.flatMap_append, commands, errors,
    List.nil_append]

/-- No enumerator is refused. -/
theorem initMaps_commands :
    (initMaps {}).commands.pairs =
      commandStringMap.map fun pair => (pair.1.code, pair.2) := by
  rw [initMaps, register_commands, coreRegistrations_commands]
  apply Bimap.insertAll_pairs
  · decide +kernel
  · decide +kernel

theorem initMaps_errors :
    (initMaps {}).errors.pairs =
      errorNames.zipIdx.map fun pair => (UInt32.ofNat pair.2, pair.1) := by
  rw [initMaps, register_errors, coreRegistrations_errors]
  apply Bimap.insertAll_pairs
  · decide +kernel
  · decide +kernel

/-! ## The tables of the other modules -/

/-- The client finds the command of a name in this map. -/
theorem cli_stringToCommand_iff (str : List Json.Byte) (cmd : CommandType) :
    Cli.stringToCommand str = some cmd ↔
      ∃ name, Json.word name = str ∧
        stringToCommand (initMaps {}) name = .ok cmd := by
  have distinct : (commandStringMap.map fun pair =>
      Json.word pair.2).Nodup := by
    decide +kernel
  have found : ∀ name, stringToCommand (initMaps {}) name = .ok cmd ↔
      ∃ pair ∈ commandStringMap, pair.1.code = cmd ∧ pair.2 = name := by
    intro name
    have inMap : (initMaps {}).commands.right name = some cmd ↔
        ∃ pair ∈ commandStringMap, pair.1.code = cmd ∧ pair.2 = name := by
      rw [Bimap.right_eq_some_iff, initMaps_commands]
      simp
    rw [← inMap, stringToCommand]
    cases (initMaps {}).commands.right name <;> simp
  simp only [found, Cli.stringToCommand, Option.map_eq_some_iff]
  constructor
  · rintro ⟨pair, there, rfl⟩
    rcases (Bimap.find?_eq_some_iff_mem
      (fun pair : Command × String => Json.word pair.2)
      distinct).mp there with ⟨member, rfl⟩
    exact ⟨pair.2, rfl, pair, member, rfl, rfl⟩
  · rintro ⟨name, rfl, pair, member, rfl, rfl⟩
    exact ⟨pair, (Bimap.find?_eq_some_iff_mem
      (fun pair : Command × String => Json.word pair.2)
      distinct).mpr ⟨member, rfl⟩, rfl⟩

/-- The replies look an error up in this map. -/
theorem utils_errorToString (err : ErrorType) :
    Utils.errorToString err = errorToString (initMaps {}) err := by
  have inMap : ∀ name, (initMaps {}).errors.left err = some name ↔
      errorNames[err.toNat]? = some name := by
    intro name
    rw [Bimap.left_eq_some_iff, initMaps_errors, List.mem_map]
    constructor
    · rintro ⟨⟨_, index⟩, member, same⟩
      rcases Prod.mk.inj same with ⟨rfl, rfl⟩
      have there := List.mem_zipIdx_iff_getElem?.mp member
      rcases List.getElem?_eq_some_iff.mp there with ⟨inside, -⟩
      have small : index < 20 := inside
      rw [UInt32.toNat_ofNat_of_lt' (by simp [UInt32.size]; omega)]
      exact there
    · intro there
      exact ⟨(name, err.toNat), List.mem_zipIdx_iff_getElem?.mpr there,
        by simp⟩
  rw [Utils.errorToString, errorToString]
  cases found : (initMaps {}).errors.left err with
  | some name => rw [(inMap name).mp found]
  | none =>
      cases there : errorNames[err.toNat]? with
      | none => rfl
      | some name =>
          rw [(inMap name).mpr there] at found
          simp at found

/-! ## After any registrations -/

section Registered

variable {registrations : List Registration}

theorem commandToString_eq_ok_iff {maps : StringMaps} {cmd : CommandType}
    {str : String} :
    commandToString maps cmd = .ok str ↔ (cmd, str) ∈ maps.commands.pairs := by
  rw [← Bimap.left_eq_some_iff, commandToString]
  cases maps.commands.left cmd <;> simp

theorem errorToString_eq_ok_iff {maps : StringMaps} {err : ErrorType}
    {str : String} :
    errorToString maps err = .ok str ↔ (err, str) ∈ maps.errors.pairs := by
  rw [← Bimap.left_eq_some_iff, errorToString]
  cases maps.errors.left err <;> simp

/-- The names of the enumeration stay. -/
theorem registered_command {pair : Command × String}
    (member : pair ∈ commandStringMap) :
    commandToString (registered registrations) pair.1.code = .ok pair.2 := by
  rw [commandToString_eq_ok_iff, registered, register_commands]
  apply Bimap.mem_insertAll
  rw [initMaps_commands]
  exact List.mem_map_of_mem member

theorem registered_error {err : ErrorType} (named : Utils.IsNamed err) :
    errorToString (registered registrations) err =
      Utils.errorToString err := by
  have known := Utils.errorToString_of_named named
  rw [known]
  rw [utils_errorToString, errorToString_eq_ok_iff] at known
  rw [errorToString_eq_ok_iff, registered, register_errors]
  exact Bimap.mem_insertAll known

/-- The names that a list of registrations gives have no namespaces. -/
theorem commands_plain {list : List Registration} :
    ∀ pair ∈ list.flatMap Registration.commands,
      getStringWithoutNamespaces pair.2 = pair.2 := by
  rintro ⟨cmd, str⟩ member
  rcases List.mem_flatMap.mp member with ⟨registration, -, member⟩
  cases registration with
  | command code text =>
      rcases Prod.mk.inj (List.mem_singleton.mp member) with ⟨-, rfl⟩
      exact getStringWithoutNamespaces_idem text
  | error err text => simp [Registration.commands] at member

theorem errors_plain {list : List Registration} :
    ∀ pair ∈ list.flatMap Registration.errors,
      getStringWithoutNamespaces pair.2 = pair.2 := by
  rintro ⟨err, str⟩ member
  rcases List.mem_flatMap.mp member with ⟨registration, -, member⟩
  cases registration with
  | command code text => simp [Registration.errors] at member
  | error code text =>
      rcases Prod.mk.inj (List.mem_singleton.mp member) with ⟨-, rfl⟩
      exact getStringWithoutNamespaces_idem text

theorem insertAll_plain {Code : Type} [DecidableEq Code]
    {core own : List (Code × String)} {code : Code} {str : String}
    (corePlain : ∀ pair ∈ core, getStringWithoutNamespaces pair.2 = pair.2)
    (ownPlain : ∀ pair ∈ own, getStringWithoutNamespaces pair.2 = pair.2)
    (found : (code, str) ∈ ((Bimap.empty.insertAll core).insertAll own).pairs) :
    getStringWithoutNamespaces str = str := by
  rcases Bimap.of_mem_insertAll found with old | new
  · rcases Bimap.of_mem_insertAll old with none | given
    · simp [Bimap.empty] at none
    · exact corePlain _ given
  · exact ownPlain _ new

/-- Every registered name is without namespaces. -/
theorem registered_plain {cmd : CommandType} {str : String}
    (found : commandToString (registered registrations) cmd = .ok str) :
    getStringWithoutNamespaces str = str := by
  rw [commandToString_eq_ok_iff, registered, register_commands, initMaps,
    register_commands] at found
  exact insertAll_plain commands_plain commands_plain found

theorem registered_error_plain {err : ErrorType} {str : String}
    (found : errorToString (registered registrations) err = .ok str) :
    getStringWithoutNamespaces str = str := by
  rw [errorToString_eq_ok_iff, registered, register_errors, initMaps,
    register_errors] at found
  exact insertAll_plain errors_plain errors_plain found

theorem mapM_map_eq {α β γ : Type} {f : β → Except Fault γ} {h : α → β}
    {g : α → γ} {list : List α} (succeeds : ∀ a ∈ list, f (h a) = .ok (g a)) :
    (list.map h).mapM f = .ok (list.map g) := by
  induction list with
  | nil => rfl
  | cons first list ih =>
      rw [List.map_cons, List.mapM_cons, succeeds first List.mem_cons_self,
        ih fun a later => succeeds a (List.mem_cons_of_mem _ later)]
      rfl

/-- The list has the commands for the manager, in their order. -/
theorem listCmd_registered :
    listCmd (registered registrations) = .ok managerNames := by
  have codes : List.range' 1 49 =
      commandStringMap.map fun pair => pair.1.code.toNat := by
    decide +kernel
  have names : ((commandStringMap.map fun pair =>
      if pair.2.toList.take 2 = "MM".toList then some pair.2
      else none).reduceOption) = managerNames := by
    decide +kernel
  have each : ∀ pair ∈ commandStringMap,
      listed (registered registrations) (UInt32.ofNat pair.1.code.toNat) =
        .ok (if pair.2.toList.take 2 = "MM".toList then some pair.2
          else none) := by
    intro pair member
    have found : commandToString (registered registrations) pair.1.code =
        .ok pair.2 := registered_command member
    have plain := registered_plain found
    rw [UInt32.ofNat_toNat, listed, found]
    simp only [bind, Except.bind, plain]
  have read : (commandStringMap.map fun pair => pair.1.code.toNat).mapM
      (fun i => listed (registered registrations) (UInt32.ofNat i)) =
        .ok (commandStringMap.map fun pair =>
          if pair.2.toList.take 2 = "MM".toList then some pair.2
          else none) :=
    mapM_map_eq each
  rw [listCmd, codes, read]
  exact congrArg Except.ok names

theorem registered_last (registration : Registration) :
    registered (registrations ++ [registration]) =
      register (registered registrations) registration := by
  rw [registered, registered, List.foldl_append]
  rfl

/-- A registration counts where both of its keys are new. -/
theorem registered_append (cmd : CommandType) (text : String) :
    commandToString (registered (registrations ++ [.command cmd text])) cmd =
        .ok (getStringWithoutNamespaces text) ↔
      commandToString (registered registrations) cmd =
          .ok (getStringWithoutNamespaces text) ∨
        (registered registrations).commands.Fresh cmd
          (getStringWithoutNamespaces text) := by
  rw [commandToString_eq_ok_iff, commandToString_eq_ok_iff, registered_last,
    register, Bimap.mem_insert]
  simp

theorem registered_error_append (err : ErrorType) (text : String) :
    errorToString (registered (registrations ++ [.error err text])) err =
        .ok (getStringWithoutNamespaces text) ↔
      errorToString (registered registrations) err =
          .ok (getStringWithoutNamespaces text) ∨
        (registered registrations).errors.Fresh err
          (getStringWithoutNamespaces text) := by
  rw [errorToString_eq_ok_iff, errorToString_eq_ok_iff, registered_last,
    register, Bimap.mem_insert]
  simp

/--
Whatever a program registers after the enumerations, in any order: looking up
a name is the inverse of looking up a code, no code or name of the enumerations
is taken over, the names have no namespaces, a registration counts if and only
if both its code and its name are new, and the list of commands is that of the
enumeration.
-/
theorem registrations_agree (registrations : List Registration) :
    (∀ cmd str,
      commandToString (registered registrations) cmd = .ok str ↔
        stringToCommand (registered registrations) str = .ok cmd) ∧
      (∀ err str,
        errorToString (registered registrations) err = .ok str ↔
          stringToError (registered registrations) str = .ok err) ∧
      (∀ pair ∈ commandStringMap,
        commandToString (registered registrations) pair.1.code =
          .ok pair.2) ∧
      (∀ err, Utils.IsNamed err →
        errorToString (registered registrations) err =
          Utils.errorToString err) ∧
      (∀ cmd str,
        commandToString (registered registrations) cmd = .ok str →
          getStringWithoutNamespaces str = str) ∧
      (∀ cmd text,
        commandToString (registered (registrations ++ [.command cmd text]))
              cmd =
            .ok (getStringWithoutNamespaces text) ↔
          commandToString (registered registrations) cmd =
              .ok (getStringWithoutNamespaces text) ∨
            (registered registrations).commands.Fresh cmd
              (getStringWithoutNamespaces text)) ∧
      (∀ err str,
        errorToString (registered registrations) err = .ok str →
          getStringWithoutNamespaces str = str) ∧
      (∀ err text,
        errorToString (registered (registrations ++ [.error err text]))
              err =
            .ok (getStringWithoutNamespaces text) ↔
          errorToString (registered registrations) err =
              .ok (getStringWithoutNamespaces text) ∨
            (registered registrations).errors.Fresh err
              (getStringWithoutNamespaces text)) ∧
      listCmd (registered registrations) = .ok managerNames := by
  refine ⟨?_, ?_, fun pair => registered_command, fun err => registered_error,
    fun cmd str => registered_plain, registered_append,
    fun err str => registered_error_plain, registered_error_append,
    listCmd_registered⟩
  · intro cmd str
    have inverse :=
      (registered registrations).commands.left_iff_right cmd str
    rw [commandToString_eq_ok_iff, ← Bimap.left_eq_some_iff, inverse,
      stringToCommand]
    cases (registered registrations).commands.right str <;> simp
  · intro err str
    have inverse := (registered registrations).errors.left_iff_right err str
    rw [errorToString_eq_ok_iff, ← Bimap.left_eq_some_iff, inverse,
      stringToError]
    cases (registered registrations).errors.right str <;> simp

end Registered

end KekMonitors
