import KekMonitors.Children

/-!
# The standing of a class

What the manager records of a class comes down to its process, if it has one,
and to whether its socket is there.  A class of which neither is known has no
entry.
-/

namespace KekMonitors

structure Standing where
  process : Option Process := none
  socket : Bool := false
  deriving DecidableEq, Repr

namespace Objects

def standing (o : Objects) (key : Key) : Standing where
  process := (o.find? key.1 key.2).bind StoredObject.process
  socket := ((o.find? key.1 key.2).bind StoredObject.endpoint).isSome

theorem standing_eq_of_find? {o next : Objects} {key : Key}
    (same : next.find? key.1 key.2 = o.find? key.1 key.2) :
    next.standing key = o.standing key := by
  rw [standing, standing, same]

theorem standing_of_absent {o : Objects} {key : Key}
    (absent : o.find? key.1 key.2 = none) : o.standing key = {} := by
  rw [standing, absent]
  rfl

/-- Flags and paths of sockets are not part of the standing. -/
theorem standing_put {o : Objects} {m : MonitorOrScraper}
    {className : String} {old stored : StoredObject}
    (found : o.find? m className = some old)
    (process : stored.process = old.process)
    (endpoint : stored.endpoint.isSome = old.endpoint.isSome) (key : Key) :
    (o.put m className stored).standing key = o.standing key := by
  rcases key with ⟨other, name⟩
  rw [standing, standing, find?_put]
  split
  · rename_i here
    rcases Prod.mk.inj here with ⟨rfl, rfl⟩
    simp [found, process, endpoint]
  · rfl

/-- A socket that appears is known of a class that has an entry. -/
theorem standing_setEndpoint {o : Objects} {m : MonitorOrScraper}
    {className : String} {old : StoredObject}
    (found : o.find? m className = some old) (path : String) (key : Key) :
    (o.put m className { old with endpoint := some path }).standing key =
      if key = (m, className) then
        { o.standing key with socket := true }
      else o.standing key := by
  rcases key with ⟨other, name⟩
  rw [standing, standing, find?_put]
  split
  · rename_i here
    rcases Prod.mk.inj here with ⟨rfl, rfl⟩
    rw [found]
    rfl
  · rfl

theorem standing_removeStoredSocket (o : Objects) (m : MonitorOrScraper)
    (className : String) (key : Key) :
    (o.removeStoredSocket m className).standing key =
      if key = (m, className) then
        { o.standing key with socket := false }
      else o.standing key := by
  rcases key with ⟨other, name⟩
  rw [standing, standing, find?_removeStoredSocket]
  split
  · rename_i here
    rcases Prod.mk.inj here with ⟨rfl, rfl⟩
    cases found : o.find? other name with
    | none => rfl
    | some stored =>
        cases held : stored.process <;> simp [held, Option.filter]
  · rfl

theorem standing_removeStoredProcess (o : Objects) (m : MonitorOrScraper)
    (className : String) (key : Key) :
    (o.removeStoredProcess m className).standing key =
      if key = (m, className) then
        { o.standing key with process := none }
      else o.standing key := by
  rcases key with ⟨other, name⟩
  rw [standing, standing, find?_removeStoredProcess]
  split
  · rename_i here
    rcases Prod.mk.inj here with ⟨rfl, rfl⟩
    cases found : o.find? other name with
    | none => rfl
    | some stored =>
        cases held : stored.endpoint <;> simp [held, Option.filter]
  · rfl

/-- A launched class has a new child and no socket yet. -/
theorem standing_launch {o : Objects} {request : AddRequest}
    (absent : o.find? request.kind request.className = none)
    (commandLine : String) (pid creation : Json.Integer) (key : Key) :
    (o.launch request commandLine pid creation).standing key =
      if key = (request.kind, request.className) then
        { process := some
            { child := o.children.length, pid := pid, creation := creation } }
      else o.standing key := by
  rcases key with ⟨other, name⟩
  rw [standing, standing, find?_launch]
  split
  · rw [launched, absent]
    rfl
  · rfl

theorem standing_terminateProcess (m : MonitorOrScraper)
    (className : String) (process : Process) (o : Objects) (key : Key) :
    (o.terminateProcess m className process).standing key =
      if key = (m, className) then
        { o.standing key with process := none }
      else o.standing key := by
  have killed : (if o.running process then o.kill process.child
      else o).standing key = o.standing key := by
    split
    · exact standing_eq_of_find? (find?_kill ..)
    · rfl
  rw [terminateProcess, standing_removeStoredProcess, killed]

/-- A class without a process has none to lose. -/
theorem standing_of_processAt {o : Objects} {m : MonitorOrScraper}
    {className : String} (absent : o.processAt m className = none) :
    { o.standing (m, className) with process := none } =
      o.standing (m, className) := by
  have none : (o.standing (m, className)).process = none := absent
  rw [← none]

/-- The loop takes the processes of the classes that it visits. -/
theorem standing_terminateFrom (m : MonitorOrScraper) (o : Objects)
    (names : List String) (key : Key) :
    (o.terminateFrom m names).standing key =
      if key.1 = m ∧ key.2 ∈ names then
        { o.standing key with process := none }
      else o.standing key := by
  rcases key with ⟨other, name⟩
  fun_induction terminateFrom m o names with
  | case1 o => simp
  | case2 o className later absent ih =>
      rw [ih]
      by_cases here : other = m ∧ name = className
      · rcases here with ⟨rfl, rfl⟩
        simp [standing_of_processAt absent]
      · grind
  | case3 o className later process found next kept ih =>
      rw [ih]
      simp only [next, standing_terminateProcess]
      grind
  | case4 o className later process found next erased ih =>
      rw [ih]
      simp only [next, standing_terminateProcess]
      grind

theorem standing_terminateProcesses (m : MonitorOrScraper) (o : Objects)
    (key : Key) :
    (o.terminateProcesses m).standing key =
      if key.1 = m then { o.standing key with process := none }
      else o.standing key := by
  rcases key with ⟨other, name⟩
  rw [terminateProcesses, standing_terminateFrom]
  by_cases here : other = m
  · rcases here with rfl
    by_cases member : name ∈ (o.store other).keys
    · simp [member]
    · have absent : o.find? other name = none :=
        AList.lookup_eq_none.mpr fun stored =>
          member (AList.mem_keys.mp stored)
      have nothing : o.standing (other, name) = {} :=
        standing_of_absent absent
      simp [member, nothing]
  · simp [here]

end Objects

end KekMonitors
