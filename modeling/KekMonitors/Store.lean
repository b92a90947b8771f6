import KekMonitors.Core
import KekMonitors.Json.Value
import KekMonitors.Timer

/-!
# Stored objects

The two maps of the manager, with the child processes and the add-timer waits
that their entries own.  Destroying a `Process` kills its child if it is still
running, and destroying a timer cancels its wait, so every operation that
drops an entry or one of its pointers acts on these as well.
-/

namespace KekMonitors

open Timer

/-- The object behind `p_process`; its child is known by a number. -/
structure Process where
  child : Nat
  pid : Json.Integer
  creation : Json.Integer
  deriving DecidableEq, Repr

def Process.toJson (process : Process) : Json :=
  (Json.emptyObject.set "Started at" (Json.integer process.creation)).set
    "PID" (Json.integer process.pid)

/-- An entry of `_storedMonitors` or `_storedScrapers`. -/
structure StoredObject where
  process : Option Process := none
  endpoint : Option String := none
  onAddTimer : Option Nat := none
  className : String
  isBeingAdded : Bool := false
  isBeingStopped : Bool := false
  confirmAdded : Bool := false
  deriving DecidableEq, Repr

abbrev Store := AList fun _ : String => StoredObject

/--
A launched child: the arguments bound to its exit handler, its command line,
whether it is alive, and whether its exit handler has still to run.
-/
structure Child where
  kind : MonitorOrScraper
  className : String
  commandLine : String
  alive : Bool := true
  exitPending : Bool := true
  deriving DecidableEq, Repr

/--
Where a handler sends its response: to the client that asked, or to the
completion of a combined command.
-/
inductive Callback where
  | client (connection : Nat)
  | half (completion : Nat)
  deriving DecidableEq, Repr

/-- What the wait handler of `onAdd` captures. -/
structure AddRequest where
  kind : MonitorOrScraper
  className : String
  callback : Callback
  deriving DecidableEq, Repr

/-- The stored objects, and what they own. -/
structure Objects where
  storedMonitors : Store := ∅
  storedScrapers : Store := ∅
  /-- Every child ever launched; its number is its position. -/
  children : List Child := []
  /-- The waits on add timers; a timer has the number of its child. -/
  addWaits : Waits AddRequest := ∅

namespace Objects

def store (o : Objects) : MonitorOrScraper → Store
  | .monitor => o.storedMonitors
  | .scraper => o.storedScrapers

def setStore (o : Objects) (m : MonitorOrScraper) (store : Store) :
    Objects :=
  match m with
  | .monitor => { o with storedMonitors := store }
  | .scraper => { o with storedScrapers := store }

def find? (o : Objects) (m : MonitorOrScraper) (className : String) :
    Option StoredObject :=
  (o.store m).lookup className

/-- Assign through an iterator, or emplace where there is no entry. -/
def put (o : Objects) (m : MonitorOrScraper) (className : String)
    (stored : StoredObject) : Objects :=
  o.setStore m ((o.store m).insert className stored)

/-- The child dies, on its own or killed. -/
def kill (child : Nat) (o : Objects) : Objects :=
  { o with
    children := o.children.modify child fun c => { c with alive := false } }

def cancelTimer (timer : Nat) (o : Objects) : Objects :=
  { o with addWaits := o.addWaits.cancel timer }

/-- `~child` kills a child that is still running. -/
def destroyProcess (process : Option Process) (o : Objects) : Objects :=
  match process with
  | none => o
  | some process => o.kill process.child

/-- `~steady_timer` cancels the outstanding wait. -/
def destroyTimer (timer : Option Nat) (o : Objects) : Objects :=
  { o with addWaits := o.addWaits.destroy timer }

/-- `map.erase(it)`, with the destruction of the entry. -/
def erase (o : Objects) (m : MonitorOrScraper) (className : String) :
    Objects :=
  match o.find? m className with
  | none => o
  | some stored =>
      ((o.setStore m ((o.store m).erase className)).destroyProcess
        stored.process).destroyTimer stored.onAddTimer

/-- The iterator is that of an entry; there is nothing to do without one. -/
def removeStoredSocket (m : MonitorOrScraper) (className : String)
    (o : Objects) : Objects :=
  match o.find? m className with
  | none => o
  | some stored =>
      let o := o.put m className { stored with endpoint := none }
      if stored.process.isNone then o.erase m className else o

/-- As above; resetting the pointer destroys the process. -/
def removeStoredProcess (m : MonitorOrScraper) (className : String)
    (o : Objects) : Objects :=
  match o.find? m className with
  | none => o
  | some stored =>
      let o := (o.put m className { stored with process := none
        }).destroyProcess stored.process
      if stored.endpoint.isNone then o.erase m className else o

/-- `process.running()`. -/
def running (o : Objects) (process : Process) : Bool :=
  (o.children[process.child]?).any Child.alive

/-- What the loop of `terminateProcesses` does to an entry with a process. -/
def terminateProcess (m : MonitorOrScraper) (className : String)
    (process : Process) (o : Objects) : Objects :=
  (if o.running process then o.kill process.child else o
    ).removeStoredProcess m className

/-- The entry that `onAdd` stores, made from the one it found, if any. -/
def launched (o : Objects) (request : AddRequest)
    (pid creation : Json.Integer) : StoredObject :=
  let child := o.children.length
  let process : Process :=
    { child := child, pid := pid, creation := creation }
  let obj := (o.find? request.kind request.className).getD
    { className := request.className }
  { obj with
    process := some process
    isBeingAdded := true
    onAddTimer := some child }

/--
The part of `onAdd` that starts the process and the timer and stores them.
Where an entry was found, its old process and timer are destroyed.
-/
def launch (o : Objects) (request : AddRequest) (commandLine : String)
    (pid creation : Json.Integer) : Objects :=
  let stored := o.find? request.kind request.className
  let obj := o.launched request pid creation
  let started : Child :=
    { kind := request.kind
      className := request.className
      commandLine := commandLine }
  let timer := o.children.length
  let o := { o with children := o.children ++ [started] }
  let o := o.put request.kind request.className obj
  let o := o.destroyProcess (stored.bind StoredObject.process)
  let o := o.destroyTimer (stored.bind StoredObject.onAddTimer)
  { o with addWaits := o.addWaits.start timer request }

/-! ## Reading the operations -/

@[simp]
theorem find?_empty (m : MonitorOrScraper) (className : String) :
    ({} : Objects).find? m className = none := by
  cases m <;> rfl

/-- The entries are in the maps alone. -/
@[simp]
theorem find?_mk (o : Objects) (children : List Child)
    (addWaits : Waits AddRequest) (m : MonitorOrScraper)
    (className : String) :
    ({ o with children := children, addWaits := addWaits } : Objects).find?
        m className = o.find? m className := by
  cases m <;> rfl

theorem find?_put (o : Objects) (m other : MonitorOrScraper)
    (className name : String) (stored : StoredObject) :
    (o.put m className stored).find? other name =
      if (other, name) = (m, className) then some stored
      else o.find? other name := by
  by_cases sameName : name = className
  · subst sameName
    cases m <;> cases other <;>
      simp [put, find?, setStore, store, AList.lookup_insert]
  · cases m <;> cases other <;>
      simp [put, find?, setStore, store, sameName,
        AList.lookup_insert_ne sameName]

@[simp]
theorem find?_kill (child : Nat) (o : Objects) (m : MonitorOrScraper)
    (className : String) :
    (o.kill child).find? m className = o.find? m className := by
  cases m <;> rfl

@[simp]
theorem find?_destroyProcess (process : Option Process) (o : Objects)
    (m : MonitorOrScraper) (className : String) :
    (o.destroyProcess process).find? m className = o.find? m className := by
  cases process with
  | none => rfl
  | some process => exact find?_kill ..

@[simp]
theorem find?_destroyTimer (timer : Option Nat) (o : Objects)
    (m : MonitorOrScraper) (className : String) :
    (o.destroyTimer timer).find? m className = o.find? m className := by
  cases m <;> rfl

theorem find?_erase (o : Objects) (m other : MonitorOrScraper)
    (className name : String) :
    (o.erase m className).find? other name =
      if (other, name) = (m, className) then none
      else o.find? other name := by
  by_cases same : (other, name) = (m, className)
  · rcases Prod.mk.inj same with ⟨rfl, rfl⟩
    rw [if_pos rfl, erase]
    cases found : o.find? other name with
    | none => exact found
    | some stored =>
        simp only [find?_destroyTimer, find?_destroyProcess]
        cases other <;> exact AList.lookup_erase name _
  · rw [if_neg same, erase]
    cases o.find? m className with
    | none => rfl
    | some stored =>
        simp only [find?_destroyTimer, find?_destroyProcess]
        cases m <;> cases other <;> first
          | rfl
          | exact AList.lookup_erase_ne fun sameName =>
              same (by rw [sameName])

/-- An entry that keeps its socket stays, without a process. -/
theorem find?_removeStoredProcess (o : Objects)
    (m other : MonitorOrScraper) (className name : String) :
    (o.removeStoredProcess m className).find? other name =
      if (other, name) = (m, className) then
        ((o.find? m className).map fun stored =>
          { stored with process := none }).filter
            fun stored => stored.endpoint.isSome
      else o.find? other name := by
  by_cases same : (other, name) = (m, className)
  · rcases Prod.mk.inj same with ⟨rfl, rfl⟩
    rw [if_pos rfl, removeStoredProcess]
    cases found : o.find? other name with
    | none => exact found
    | some stored =>
        cases held : stored.endpoint <;>
          simp [held, find?_erase, find?_put, Option.filter]
  · rw [if_neg same, removeStoredProcess]
    cases o.find? m className with
    | none => rfl
    | some stored =>
        cases held : stored.endpoint <;>
          simp [held, same, find?_erase, find?_put]

/-- An entry that is found then has a socket, or is of another class. -/
theorem found_removeStoredProcess {o : Objects}
    {m other : MonitorOrScraper} {className name : String}
    {entry : StoredObject}
    (found : (o.removeStoredProcess m className).find? other name =
      some entry) :
    ∃ stored, o.find? other name = some stored ∧
      ((other, name) = (m, className) ∧
          entry = { stored with process := none } ∧
            stored.endpoint.isSome ∨
        (other, name) ≠ (m, className) ∧ entry = stored) := by
  rw [find?_removeStoredProcess] at found
  split at found
  · rename_i same
    rcases Prod.mk.inj same with ⟨rfl, rfl⟩
    rcases Option.filter_eq_some_iff.mp found with ⟨mapped, reachable⟩
    rcases Option.map_eq_some_iff.mp mapped with ⟨stored, present, rfl⟩
    exact ⟨stored, present, Or.inl ⟨rfl, rfl, reachable⟩⟩
  · rename_i elsewhere
    exact ⟨entry, found, Or.inr ⟨elsewhere, rfl⟩⟩

@[simp]
theorem children_put (o : Objects) (m : MonitorOrScraper)
    (className : String) (stored : StoredObject) :
    (o.put m className stored).children = o.children := by
  cases m <;> rfl

@[simp]
theorem addWaits_put (o : Objects) (m : MonitorOrScraper)
    (className : String) (stored : StoredObject) :
    (o.put m className stored).addWaits = o.addWaits := by
  cases m <;> rfl

@[simp]
theorem addWaits_kill (child : Nat) (o : Objects) :
    (o.kill child).addWaits = o.addWaits :=
  rfl

@[simp]
theorem children_destroyTimer (timer : Option Nat) (o : Objects) :
    (o.destroyTimer timer).children = o.children :=
  rfl

@[simp]
theorem addWaits_destroyProcess (process : Option Process) (o : Objects) :
    (o.destroyProcess process).addWaits = o.addWaits := by
  cases process <;> rfl

@[simp]
theorem children_length_kill (child : Nat) (o : Objects) :
    (o.kill child).children.length = o.children.length :=
  List.length_modify ..

@[simp]
theorem children_length_destroyProcess (process : Option Process)
    (o : Objects) :
    (o.destroyProcess process).children.length = o.children.length := by
  cases process with
  | none => rfl
  | some process => exact children_length_kill ..

/-- Where no process has to make way, a launch adds one child. -/
theorem children_launch {o : Objects} {request : AddRequest}
    (free : (o.find? request.kind request.className).bind
      StoredObject.process = none)
    (commandLine : String) (pid creation : Json.Integer) :
    (o.launch request commandLine pid creation).children =
      o.children ++
        [{ kind := request.kind
           className := request.className
           commandLine := commandLine }] := by
  simp [launch, free, destroyProcess]

/-! ## The termination loop -/

def processAt (m : MonitorOrScraper) (o : Objects) (className : String) :
    Option Process :=
  (o.find? m className).bind StoredObject.process

theorem processAt_removeStoredProcess (m : MonitorOrScraper)
    (className : String) (o : Objects) :
    (o.removeStoredProcess m className).processAt m className = none := by
  rw [processAt, find?_removeStoredProcess, if_pos rfl]
  cases o.find? m className with
  | none => rfl
  | some stored =>
      cases held : stored.endpoint <;> simp [held, Option.filter]

theorem processAt_terminateProcess (m : MonitorOrScraper)
    (className : String) (process : Process) (o : Objects) :
    (o.terminateProcess m className process).processAt m className =
      none :=
  processAt_removeStoredProcess m className _

/--
The loop over a map, from an iterator on.  Where `removeStoredProcess` erases
the entry, it moves the iterator on; an entry that is kept is visited again,
now without a process.
-/
def terminateFrom (m : MonitorOrScraper) (o : Objects) :
    List String → Objects
  | [] => o
  | className :: later =>
      match _found : o.processAt m className with
      | none => o.terminateFrom m later
      | some process =>
          let o := o.terminateProcess m className process
          if (o.find? m className).isSome then
            o.terminateFrom m (className :: later)
          else o.terminateFrom m later
  termination_by names =>
    2 * names.length +
      (names.head?.bind (o.processAt m)).elim 0 fun _ => 1
  decreasing_by
    · cases later.head?.bind (o.processAt m) <;> simp <;> omega
    · simp [_found, processAt_terminateProcess]
    · simp only [List.length_cons]
      cases later.head?.bind (Objects.processAt m _) <;> simp <;> omega

def terminateProcesses (m : MonitorOrScraper) (o : Objects) : Objects :=
  o.terminateFrom m (o.store m).keys

theorem processAt_terminateProcess_of_none {m other : MonitorOrScraper}
    {className name : String} {o : Objects} (process : Process)
    (absent : o.processAt other name = none) :
    (o.terminateProcess m className process).processAt other name =
      none := by
  by_cases same : (other, name) = (m, className)
  · rcases Prod.mk.inj same with ⟨rfl, rfl⟩
    exact processAt_terminateProcess other name process o
  · rw [processAt, terminateProcess, find?_removeStoredProcess,
      if_neg same]
    split
    · rw [find?_kill]
      exact absent
    · exact absent

/-- The loop leaves no process behind in the names it visits. -/
theorem processAt_terminateFrom {m : MonitorOrScraper} {o : Objects}
    {names : List String} {className : String}
    (covered : className ∈ names ∨ o.processAt m className = none) :
    (o.terminateFrom m names).processAt m className = none := by
  fun_induction terminateFrom m o names with
  | case1 o =>
      rcases covered with member | absent
      · simp at member
      · exact absent
  | case2 o name later found ih =>
      apply ih
      rcases covered with member | absent
      · rcases List.mem_cons.mp member with rfl | later
        · exact Or.inr found
        · exact Or.inl later
      · exact Or.inr absent
  | case3 o name later process found next kept ih =>
      apply ih
      rcases covered with member | absent
      · exact Or.inl member
      · exact Or.inr (processAt_terminateProcess_of_none process absent)
  | case4 o name later process found next erased ih =>
      apply ih
      rcases covered with member | absent
      · rcases List.mem_cons.mp member with rfl | later
        · exact Or.inr (processAt_terminateProcess m className process o)
        · exact Or.inl later
      · exact Or.inr (processAt_terminateProcess_of_none process absent)

/-- The loop starts no process. -/
theorem processAt_terminateFrom_of_none {m other : MonitorOrScraper}
    {o : Objects} {names : List String} {className : String}
    (absent : o.processAt other className = none) :
    (o.terminateFrom m names).processAt other className = none := by
  fun_induction terminateFrom m o names with
  | case1 o => exact absent
  | case2 o name later found ih => exact ih absent
  | case3 o name later process found next kept ih =>
      exact ih (processAt_terminateProcess_of_none process absent)
  | case4 o name later process found next erased ih =>
      exact ih (processAt_terminateProcess_of_none process absent)

/-- After `terminateProcesses` no entry of the map has a process. -/
theorem processAt_terminateProcesses (m : MonitorOrScraper) (o : Objects)
    (className : String) :
    (o.terminateProcesses m).processAt m className = none := by
  apply processAt_terminateFrom
  by_cases member : className ∈ (o.store m).keys
  · exact Or.inl member
  · right
    have absent : o.find? m className = none :=
      AList.lookup_eq_none.mpr fun stored =>
        member (AList.mem_keys.mp stored)
    rw [processAt, absent, Option.bind_none]

end Objects

end KekMonitors
