import KekMonitors.Children

/-!
# The termination loop

The loop of `terminateProcesses` erases entries of the map that it iterates
over, and visits an entry that it keeps once more.  Its passes are recorded
here, each with the position of the iterator and with the child on which
`terminate` is called.
-/

namespace KekMonitors.Objects

structure Visit where
  className : String
  terminated : Option Nat := none
  deriving DecidableEq, Repr

/-- `terminateFrom`, with a record of its passes. -/
def terminateLoop (m : MonitorOrScraper) (o : Objects) :
    List String → Objects × List Visit
  | [] => (o, [])
  | className :: later =>
      match _found : o.processAt m className with
      | none =>
          let rest := o.terminateLoop m later
          (rest.1, { className := className } :: rest.2)
      | some process =>
          let visit : Visit :=
            { className := className
              terminated :=
                if o.running process then some process.child else none }
          let o := o.terminateProcess m className process
          if (o.find? m className).isSome then
            let rest := o.terminateLoop m (className :: later)
            (rest.1, visit :: rest.2)
          else
            let rest := o.terminateLoop m later
            (rest.1, visit :: rest.2)
  termination_by names =>
    2 * names.length +
      (names.head?.bind (o.processAt m)).elim 0 fun _ => 1
  decreasing_by
    · cases later.head?.bind (o.processAt m) <;> simp <;> omega
    · simp [_found, processAt_terminateProcess]
    · simp only [List.length_cons]
      cases later.head?.bind (Objects.processAt m _) <;> simp <;> omega

/-- The record leaves the loop as it is. -/
theorem terminateLoop_fst (m : MonitorOrScraper) (o : Objects)
    (names : List String) :
    (o.terminateLoop m names).1 = o.terminateFrom m names := by
  fun_induction terminateLoop m o names with
  | case1 o => rw [terminateFrom]
  | case2 o className later found rest ih =>
      rw [terminateFrom, found]
      exact ih
  | case3 o className later process found visit next kept rest ih =>
      rw [terminateFrom, found]
      simp only [next] at kept
      simp only [kept, if_true]
      exact ih
  | case4 o className later process found visit next erased rest ih =>
      rw [terminateFrom, found]
      simp only [next] at erased
      simp only [erased]
      exact ih

/-! ## One pass -/

/-- An entry, once its process has been removed. -/
def withoutProcess (stored : Option StoredObject) : Option StoredObject :=
  (stored.map fun stored => { stored with process := none }).filter
    fun stored => stored.endpoint.isSome

theorem find?_terminateProcess (m other : MonitorOrScraper)
    (className name : String) (process : Process) (o : Objects) :
    (o.terminateProcess m className process).find? other name =
      if (other, name) = (m, className) then
        withoutProcess (o.find? m className)
      else o.find? other name := by
  rw [terminateProcess, find?_removeStoredProcess, withoutProcess]
  split <;> split <;> simp

theorem running_iff (o : Objects) (process : Process) :
    o.running process = true ↔ process.child ∈ o.supervision.live := by
  simp [running, supervision, Option.any_eq_true]

theorem held_of_processAt {m : MonitorOrScraper} {className : String}
    {process : Process} {o : Objects}
    (found : o.processAt m className = some process) :
    o.supervision.held (m, className) = {process.child} := by
  ext child
  have holder : o.supervision.holder (m, className) = some process.child :=
    congrArg (Option.map Process.child) found
  simp [Supervision.held, holder, eq_comm]

/-- Whether killed by the pass or found dead, the child is not alive then. -/
theorem live_terminateProcess {m : MonitorOrScraper} {className : String}
    {process : Process} {o : Objects}
    (found : o.processAt m className = some process) :
    (o.terminateProcess m className process).supervision.live =
      o.supervision.live \ {process.child} := by
  have held := held_of_processAt found
  rw [terminateProcess, supervision_removeStoredProcess]
  split
  · rw [supervision_kill]
    simp only [Supervision.release, Supervision.die, Supervision.held]
      at held ⊢
    rw [held, Set.sdiff_sdiff, Set.union_self]
  · simp only [Supervision.release, held]

/-! ## The whole loop -/

/-- An entry that keeps its socket is visited before and after. -/
def visits (stored : Option StoredObject) : Nat :=
  if stored.any fun stored =>
      stored.process.isSome && stored.endpoint.isSome then 2 else 1

def AllOccupied (m : MonitorOrScraper) (o : Objects) : Prop :=
  ∀ className stored, o.find? m className = some stored → stored.Occupied

theorem AllOccupied.terminateProcess {m : MonitorOrScraper} {o : Objects}
    (occupied : o.AllOccupied m) (className : String) (process : Process) :
    (o.terminateProcess m className process).AllOccupied m := by
  intro name stored found
  rw [find?_terminateProcess] at found
  split at found
  · exact Or.inr (Option.filter_eq_some_iff.mp found).2
  · exact occupied name stored found

theorem withoutProcess_idem (stored : Option StoredObject) :
    withoutProcess (withoutProcess stored) = withoutProcess stored := by
  cases stored with
  | none => rfl
  | some stored =>
      cases held : stored.endpoint <;>
        simp [withoutProcess, held, Option.filter]

/-- An entry in use that has no process has a socket. -/
theorem AllOccupied.withoutProcess {m : MonitorOrScraper} {o : Objects}
    (occupied : o.AllOccupied m) {className : String}
    (absent : o.processAt m className = none) :
    Objects.withoutProcess (o.find? m className) = o.find? m className := by
  cases found : o.find? m className with
  | none => rfl
  | some stored =>
      have none : stored.process = none := by
        simpa [processAt, found] using absent
      have some : stored.endpoint.isSome := by
        simpa [StoredObject.Occupied, none] using occupied _ _ found
      rw [Objects.withoutProcess, Option.map_some, ← none]
      simp [Option.filter, some]

theorem find?_terminateFrom {m : MonitorOrScraper} {o : Objects}
    (occupied : o.AllOccupied m) (names : List String)
    (other : MonitorOrScraper) (name : String) :
    (o.terminateFrom m names).find? other name =
      if other = m ∧ name ∈ names then withoutProcess (o.find? m name)
      else o.find? other name := by
  fun_induction terminateFrom m o names with
  | case1 o => simp
  | case2 o className later absent ih =>
      rw [ih occupied]
      by_cases here : other = m ∧ name = className
      · rcases here with ⟨rfl, rfl⟩
        simp [occupied.withoutProcess absent]
      · grind
  | case3 o className later process found next kept ih =>
      rw [ih (occupied.terminateProcess className process)]
      simp only [next, find?_terminateProcess]
      by_cases here : other = m ∧ name = className
      · simp [here, withoutProcess_idem]
      · grind
  | case4 o className later process found next erased ih =>
      rw [ih (occupied.terminateProcess className process)]
      simp only [next, find?_terminateProcess]
      by_cases here : other = m ∧ name = className
      · simp [here, withoutProcess_idem]
      · grind

/-! ## The passes -/

theorem visits_withoutProcess (stored : Option StoredObject) :
    visits (withoutProcess stored) = 1 := by
  cases stored with
  | none => rfl
  | some stored =>
      cases held : stored.endpoint <;>
        simp [visits, withoutProcess, held, Option.filter]

theorem visits_of_processAt {m : MonitorOrScraper} {className : String}
    {process : Process} {o : Objects}
    (found : o.processAt m className = some process) :
    visits (o.find? m className) =
      if (withoutProcess (o.find? m className)).isSome then 2 else 1 := by
  rcases Option.bind_eq_some_iff.mp found with ⟨stored, present, running⟩
  rw [present]
  cases held : stored.endpoint <;>
    simp [visits, withoutProcess, held, running, Option.filter]

theorem visits_of_none {m : MonitorOrScraper} {className : String}
    {o : Objects} (absent : o.processAt m className = none) :
    visits (o.find? m className) = 1 := by
  cases found : o.find? m className with
  | none => rfl
  | some stored =>
      have none : stored.process = none := by
        simpa [processAt, found] using absent
      simp [visits, none]

/-- Every position is visited, and only one that is kept is visited again. -/
theorem className_terminateLoop (m : MonitorOrScraper) (o : Objects)
    {names : List String} (nodup : names.Nodup) :
    (o.terminateLoop m names).2.map Visit.className =
      names.flatMap fun name =>
        List.replicate (visits (o.find? m name)) name := by
  have later_same {o : Objects} {className : String} {later : List String}
      (process : Process) (fresh : className ∉ later) :
      (later.flatMap fun name => List.replicate
          (visits ((o.terminateProcess m className process).find? m name))
          name) =
        later.flatMap fun name =>
          List.replicate (visits (o.find? m name)) name := by
    apply List.flatMap_congr
    intro name member
    have other : name ≠ className := fun same => fresh (same ▸ member)
    rw [find?_terminateProcess, if_neg (by simp [other])]
  fun_induction terminateLoop m o names with
  | case1 o => rfl
  | case2 o className later absent rest ih =>
      rcases List.nodup_cons.mp nodup with ⟨-, nodup⟩
      rw [List.flatMap_cons, visits_of_none absent, List.map_cons, ih nodup]
      rfl
  | case3 o className later process found visit next kept rest ih =>
      rcases List.nodup_cons.mp nodup with ⟨fresh, -⟩
      have again : next.find? m className =
          withoutProcess (o.find? m className) := by
        rw [find?_terminateProcess, if_pos rfl]
      rw [List.map_cons, ih nodup, List.flatMap_cons, List.flatMap_cons,
        later_same process fresh, visits_of_processAt found, ← again,
        if_pos kept, again, visits_withoutProcess]
      rfl
  | case4 o className later process found visit next erased rest ih =>
      rcases List.nodup_cons.mp nodup with ⟨fresh, nodup⟩
      have gone : next.find? m className =
          withoutProcess (o.find? m className) := by
        rw [find?_terminateProcess, if_pos rfl]
      rw [List.map_cons, ih nodup, List.flatMap_cons,
        later_same process fresh, visits_of_processAt found, ← gone,
        if_neg erased]
      rfl

/-! ## What is terminated -/

/-- An entry under one of the names holds the child. -/
def Holds (m : MonitorOrScraper) (o : Objects) (names : List String)
    (child : Nat) : Prop :=
  ∃ name ∈ names, (o.processAt m name).map Process.child = some child

theorem processAt_terminateProcess_eq (m : MonitorOrScraper)
    (className name : String) (process : Process) (o : Objects) :
    (o.terminateProcess m className process).processAt m name =
      if name = className then none else o.processAt m name := by
  split
  · rename_i here
    rw [here, processAt_terminateProcess]
  · rename_i other
    rw [processAt, find?_terminateProcess, if_neg (by simp [other])]
    rfl

theorem holds_cons_of_none {m : MonitorOrScraper} {className : String}
    {o : Objects} (absent : o.processAt m className = none)
    (later : List String) (child : Nat) :
    o.Holds m (className :: later) child ↔ o.Holds m later child := by
  simp [Holds, absent]

/-- A pass takes its child from the names that are left. -/
theorem holds_terminateProcess {m : MonitorOrScraper} {className : String}
    {process : Process} {o : Objects}
    (found : o.processAt m className = some process)
    (later : List String) (child : Nat) :
    o.Holds m (className :: later) child ↔
      child = process.child ∨
        (o.terminateProcess m className process).Holds m later child := by
  simp only [Holds, processAt_terminateProcess_eq,
    List.exists_mem_cons_iff]
  constructor
  · rintro (here | ⟨name, member, held⟩)
    · rw [found] at here
      exact Or.inl (Option.some.inj here).symm
    · by_cases same : name = className
      · rw [same, found] at held
        exact Or.inl (Option.some.inj held).symm
      · exact Or.inr ⟨name, member, by rwa [if_neg same]⟩
  · rintro (rfl | ⟨name, member, held⟩)
    · exact Or.inl (by rw [found]; rfl)
    · split at held
      · simp at held
      · exact Or.inr ⟨name, member, held⟩

theorem live_terminateFrom (m : MonitorOrScraper) (o : Objects)
    (names : List String) :
    (o.terminateFrom m names).supervision.live =
      o.supervision.live \ {child | o.Holds m names child} := by
  fun_induction terminateFrom m o names with
  | case1 o => simp [Holds]
  | case2 o className later absent ih =>
      simp only [ih, holds_cons_of_none absent]
  | case3 o className later process found next kept ih =>
      have absent := processAt_terminateProcess m className process o
      simp only [ih, next, live_terminateProcess found,
        holds_cons_of_none absent, holds_terminateProcess found,
        Set.sdiff_sdiff]
      rfl
  | case4 o className later process found next erased ih =>
      simp only [ih, next, live_terminateProcess found,
        holds_terminateProcess found, Set.sdiff_sdiff]
      rfl

/-- What a pass terminates, and what the passes after it terminate. -/
def terminated (visits : List Visit) : List Nat :=
  visits.filterMap Visit.terminated

theorem terminated_cons (visit : Visit) (rest : List Visit) :
    terminated (visit :: rest) =
      visit.terminated.toList ++ terminated rest := by
  cases held : visit.terminated <;> simp [terminated, held]

/-- The children of the entries that are alive are terminated. -/
theorem mem_terminated (m : MonitorOrScraper) (o : Objects)
    (names : List String) (child : Nat) :
    child ∈ terminated (o.terminateLoop m names).2 ↔
      child ∈ o.supervision.live ∧ o.Holds m names child := by
  have pass {o : Objects} {className : String} {process : Process}
      (found : o.processAt m className = some process)
      (later : List String) (rest : List Visit)
      (ih : child ∈ terminated rest ↔
        child ∈ (o.terminateProcess m className process).supervision.live ∧
          (o.terminateProcess m className process).Holds m later child) :
      child ∈ (if o.running process then some process.child
          else none).toList ++ terminated rest ↔
        child ∈ o.supervision.live ∧
          o.Holds m (className :: later) child := by
    rw [List.mem_append, ih, holds_terminateProcess found,
      live_terminateProcess found]
    have alive := running_iff o process
    by_cases same : child = process.child
    · subst same
      simp [← alive]
    · have other : process.child ≠ child := fun here => same here.symm
      simp [same, other]
  fun_induction terminateLoop m o names with
  | case1 o => simp [Holds, terminated]
  | case2 o className later absent rest ih =>
      rw [holds_cons_of_none absent, terminated_cons]
      exact ih
  | case3 o className later process found visit next kept rest ih =>
      have absent := processAt_terminateProcess m className process o
      rw [holds_cons_of_none absent] at ih
      rw [terminated_cons]
      exact pass found later _ ih
  | case4 o className later process found visit next erased rest ih =>
      rw [terminated_cons]
      exact pass found later _ ih

/-- A pass terminates no child that an earlier one has terminated. -/
theorem nodup_terminated (m : MonitorOrScraper) (o : Objects)
    (names : List String) :
    (terminated (o.terminateLoop m names).2).Nodup := by
  have pass {o : Objects} {className : String} {process : Process}
      (found : o.processAt m className = some process)
      (later : List String)
      (ih : (terminated ((o.terminateProcess m className process
        ).terminateLoop m later).2).Nodup) :
      ((if o.running process then some process.child else none).toList ++
        terminated ((o.terminateProcess m className process
          ).terminateLoop m later).2).Nodup := by
    have dead : process.child ∉ terminated
        ((o.terminateProcess m className process).terminateLoop
          m later).2 := by
      intro member
      have live := ((mem_terminated ..).mp member).1
      rw [live_terminateProcess found] at live
      exact live.2 rfl
    split
    · exact List.nodup_cons.mpr ⟨dead, ih⟩
    · exact ih
  fun_induction terminateLoop m o names with
  | case1 o => exact List.nodup_nil
  | case2 o className later absent rest ih =>
      rw [terminated_cons]
      exact ih
  | case3 o className later process found visit next kept rest ih =>
      rw [terminated_cons]
      exact pass found _ ih
  | case4 o className later process found visit next erased rest ih =>
      rw [terminated_cons]
      exact pass found _ ih

/-! ## The loop in any order -/

/-- What the loop over a map does, whichever order its names come in. -/
structure Terminates (m : MonitorOrScraper) (o : Objects)
    (names : List String) (last : Objects) (passes : List Visit) : Prop where
  /-- The entries with a socket are left, without their processes. -/
  entries : ∀ className,
    last.find? m className = withoutProcess (o.find? m className)
  others : ∀ other ≠ m, ∀ className,
    last.find? other className = o.find? other className
  /-- No position is skipped, and none is visited after its erasure. -/
  positions : passes.map Visit.className =
    names.flatMap fun name =>
      List.replicate (visits (o.find? m name)) name
  /-- The running processes of the entries are terminated. -/
  running : ∀ child,
    child ∈ terminated passes ↔
      ∃ className process, o.processAt m className = some process ∧
        process.child = child ∧ o.running process = true
  once : (terminated passes).Nodup
  live : last.supervision.live =
    o.supervision.live \ {child | child ∈ terminated passes}

theorem mem_keys_iff (o : Objects) (m : MonitorOrScraper)
    (className : String) :
    className ∈ (o.store m).keys ↔ (o.find? m className).isSome :=
  AList.mem_keys.symm.trans AList.lookup_isSome.symm

theorem live_and_holds_iff {m : MonitorOrScraper} {o : Objects}
    {names : List String} (order : names.Perm (o.store m).keys)
    (child : Nat) :
    child ∈ o.supervision.live ∧ o.Holds m names child ↔
      ∃ className process, o.processAt m className = some process ∧
        process.child = child ∧ o.running process = true := by
  constructor
  · rintro ⟨live, className, -, held⟩
    rcases Option.map_eq_some_iff.mp held with ⟨process, found, rfl⟩
    exact ⟨className, process, found, rfl, (running_iff o process).mpr live⟩
  · rintro ⟨className, process, found, rfl, running⟩
    refine ⟨(running_iff o process).mp running, className, ?_, ?_⟩
    · apply order.mem_iff.mpr
      rcases Option.bind_eq_some_iff.mp found with ⟨stored, present, -⟩
      rw [mem_keys_iff, present]
      rfl
    · rw [found]
      rfl

/--
Whatever order the map is iterated in, the loop ends, after it has terminated
each running process of the map once, and leaves the entries with a socket.
-/
theorem terminateLoop_terminates {m : MonitorOrScraper} {o : Objects}
    (occupied : o.AllOccupied m) {names : List String}
    (order : names.Perm (o.store m).keys) :
    (o.terminateLoop m names).1 = o.terminateFrom m names ∧
      Terminates m o names (o.terminateFrom m names)
        (o.terminateLoop m names).2 := by
  refine ⟨terminateLoop_fst m o names, ?_⟩
  have member := mem_terminated m o names
  exact {
    entries := by
      intro className
      rw [find?_terminateFrom occupied]
      split
      · rfl
      · rename_i outside
        have absent : o.find? m className = none := by
          apply Option.not_isSome_iff_eq_none.mp
          rw [← mem_keys_iff, ← order.mem_iff]
          exact fun inside => outside ⟨rfl, inside⟩
        rw [absent]
        rfl
    others := by
      intro other different className
      rw [find?_terminateFrom occupied, if_neg fun same => different same.1]
    positions := by
      apply className_terminateLoop
      exact order.nodup_iff.mpr (o.store m).nodupKeys
    running := by
      intro child
      rw [member, live_and_holds_iff order]
    once := nodup_terminated m o names
    live := by
      rw [live_terminateFrom]
      ext child
      have member := member child
      simp only [Set.mem_sdiff, Set.mem_ofPred_eq, member]
      tauto }

/-- Three entries with children, of which one is dead and two are alive. -/
def mixedMonitors : Objects :=
  let child : Child :=
    { kind := .monitor, className := "Dead", commandLine := "" }
  let process (child : Nat) : Process :=
    { child := child, pid := ⟨4000, by decide⟩, creation := ⟨0, by decide⟩ }
  let o : Objects :=
    { children := [{ child with alive := false }, child, child] }
  let o := o.put .monitor "Dead"
    { className := "Dead"
      process := some (process 0)
      endpoint := some "sock/Monitor.Dead" }
  let o := o.put .monitor "Foo"
    { className := "Foo", process := some (process 1) }
  o.put .monitor "Bar"
    { className := "Bar"
      process := some (process 2)
      endpoint := some "sock/Monitor.Bar" }

theorem allOccupied_mixedMonitors : mixedMonitors.AllOccupied .monitor := by
  intro className stored found
  simp only [mixedMonitors, find?_put] at found
  repeat
    split at found
    · rcases Option.some.inj found with rfl
      exact Or.inl rfl
  simp [find?, store] at found

theorem terminateLoop_mixedMonitors :
    (mixedMonitors.terminateLoop .monitor ["Foo", "Dead", "Bar"]).1 =
        mixedMonitors.terminateFrom .monitor ["Foo", "Dead", "Bar"] ∧
      Terminates .monitor mixedMonitors ["Foo", "Dead", "Bar"]
        (mixedMonitors.terminateFrom .monitor ["Foo", "Dead", "Bar"])
        (mixedMonitors.terminateLoop .monitor ["Foo", "Dead", "Bar"]).2 :=
  terminateLoop_terminates allOccupied_mixedMonitors (by decide)

end KekMonitors.Objects
