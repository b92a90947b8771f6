import KekMonitors.Lifecycle
import KekMonitors.Supervision

/-!
# Children

The stored objects supervise the launched children: an entry holds the child
of its process, and a child belongs to the class it was launched for.  Every
change of the stored objects is a step of this supervisor, so a class never
has two live children.
-/

namespace KekMonitors.Objects

open Timer

/-- The key under which the entry of a class is stored. -/
abbrev Key := MonitorOrScraper × String

/-- The manager as a supervisor of its children. -/
def supervision (o : Objects) : Supervision Key Nat where
  holder key :=
    ((o.find? key.1 key.2).bind StoredObject.process).map Process.child
  owner child :=
    (o.children[child]?).map fun c => (c.kind, c.className)
  live := {child | ∃ c, o.children[child]? = some c ∧ c.alive = true}

theorem getElem?_kill (child other : Nat) (o : Objects) :
    (o.kill child).children[other]? =
      if child = other then
        (o.children[other]?).map fun c => { c with alive := false }
      else o.children[other]? := by
  rw [kill, List.getElem?_modify]
  split <;> simp

/-- A killed child is no longer live, and nothing else has changed. -/
theorem supervision_kill (child : Nat) (o : Objects) :
    (o.kill child).supervision = o.supervision.die child := by
  apply Supervision.ext
  · funext key
    simp [supervision, Supervision.die]
  · funext other
    simp only [supervision, Supervision.die, getElem?_kill]
    split
    · rw [Option.map_map]
      rfl
    · rfl
  · ext other
    simp only [supervision, Supervision.die, getElem?_kill, Set.mem_sdiff,
      Set.mem_ofPred_eq, Set.mem_singleton_iff]
    constructor
    · rintro ⟨c, found, alive⟩
      split at found
      · rcases Option.map_eq_some_iff.mp found with ⟨old, -, rfl⟩
        simp at alive
      · rename_i different
        exact ⟨⟨c, found, alive⟩, fun same => different same.symm⟩
    · rintro ⟨⟨c, found, alive⟩, different⟩
      rw [if_neg fun same => different same.symm]
      exact ⟨c, found, alive⟩

theorem supervision_put {o : Objects} {m : MonitorOrScraper}
    {className : String} {old stored : StoredObject}
    (found : o.find? m className = some old)
    (same : stored.process = old.process) :
    (o.put m className stored).supervision = o.supervision := by
  apply Supervision.ext
  · funext key
    simp only [supervision, find?_put]
    split
    · rename_i here
      rcases Prod.mk.inj here with ⟨rfl, rfl⟩
      simp [found, same]
    · rfl
  · funext child
    simp only [supervision, children_put]
  · simp only [supervision, children_put]

theorem supervision_removeStoredSocket (o : Objects)
    (m : MonitorOrScraper) (className : String) :
    (o.removeStoredSocket m className).supervision = o.supervision := by
  apply Supervision.ext
  · funext key
    simp only [supervision, find?_removeStoredSocket]
    split
    · rename_i here
      rcases Prod.mk.inj here with ⟨rfl, rfl⟩
      cases found : o.find? key.1 key.2 with
      | none => rfl
      | some stored =>
          cases held : stored.process <;> simp [held, Option.filter]
    · rfl
  · funext child
    simp only [supervision, children_removeStoredSocket]
  · simp only [supervision, children_removeStoredSocket]

/-- What is live after the process of an entry has been destroyed. -/
theorem live_destroyProcess (process : Option Process) (o : Objects) :
    (o.destroyProcess process).supervision.live =
      o.supervision.live \
        {child | process.map Process.child = some child} := by
  cases process with
  | none =>
      ext child
      simp [destroyProcess]
  | some process =>
      rw [destroyProcess, supervision_kill]
      ext child
      simp [Supervision.die, eq_comm]

theorem owner_destroyProcess (process : Option Process) (o : Objects) :
    (o.destroyProcess process).supervision.owner = o.supervision.owner := by
  cases process with
  | none => rfl
  | some process =>
      rw [destroyProcess, supervision_kill]
      rfl

/-- Removing the process of an entry releases what its key holds. -/
theorem supervision_removeStoredProcess (o : Objects)
    (m : MonitorOrScraper) (className : String) :
    (o.removeStoredProcess m className).supervision =
      o.supervision.release (m, className) := by
  have children := children_removeStoredProcess o m className
  apply Supervision.ext
  · funext key
    simp only [supervision, Supervision.release, find?_removeStoredProcess,
      Function.update_apply]
    split
    · cases found : o.find? m className with
      | none => rfl
      | some stored =>
          cases held : stored.endpoint <;> simp [held, Option.filter]
    · rfl
  · have owner := owner_destroyProcess
      ((o.find? m className).bind StoredObject.process) o
    simp only [supervision, Supervision.release, children] at owner ⊢
    exact owner
  · have live := live_destroyProcess
      ((o.find? m className).bind StoredObject.process) o
    simp only [supervision, Supervision.release, children] at live ⊢
    exact live

/-- A launch starts a new child under the key of its class. -/
theorem supervision_launch {o : Objects} {request : AddRequest}
    (absent : o.find? request.kind request.className = none)
    (commandLine : String) (pid creation : Json.Integer) :
    (o.launch request commandLine pid creation).supervision =
      o.supervision.start (request.kind, request.className)
        o.children.length := by
  have free : (o.find? request.kind request.className).bind
      StoredObject.process = none := by
    rw [absent, Option.bind_none]
  have children := children_launch free commandLine pid creation
  apply Supervision.ext
  · funext key
    simp only [supervision, Supervision.start, find?_launch,
      Function.update_apply]
    split <;> rfl
  · funext child
    simp only [supervision, Supervision.start, children,
      Function.update_apply, List.getElem?_append]
    split
    · rename_i old
      rw [if_neg (by omega)]
    · split
      · rename_i here
        simp [here]
      · rename_i later elsewhere
        rw [List.getElem?_eq_none (by simp; omega),
          List.getElem?_eq_none (by omega)]
  · ext child
    simp only [supervision, Supervision.start, Supervision.held, children,
      absent, Set.mem_insert_iff, Set.mem_sdiff, Set.mem_ofPred_eq,
      List.getElem?_append]
    constructor
    · rintro ⟨c, found, alive⟩
      split at found
      · exact Or.inr ⟨⟨c, found, alive⟩, by simp⟩
      · rename_i later
        left
        rcases List.getElem?_eq_some_iff.mp found with ⟨inside, -⟩
        simp at inside
        omega
    · rintro (here | ⟨⟨c, found, alive⟩, -⟩)
      · simp [here]
      · rcases List.getElem?_eq_some_iff.mp found with ⟨inside, -⟩
        rw [if_pos inside]
        exact ⟨c, found, alive⟩

/-- The exit handler of a child says nothing about what is alive. -/
theorem supervision_deliverExit (child : Nat) (o : Objects) :
    (o.deliverExit child).supervision = o.supervision := by
  apply Supervision.ext
  · funext key
    simp [supervision, deliverExit]
  · funext other
    simp only [supervision, deliverExit, List.getElem?_modify]
    cases o.children[other]? with
    | none => split <;> rfl
    | some c => split <;> rfl
  · ext other
    simp only [supervision, deliverExit, List.getElem?_modify,
      Set.mem_ofPred_eq]
    cases o.children[other]? with
    | none => simp
    | some c => split <;> simp

/-- Every change is a step of the supervisor, or none. -/
theorem ChangeBy.supervision {may : Deed → Prop} {o next : Objects}
    (change : ChangeBy may o next) :
    next.supervision = o.supervision ∨
      o.supervision.Step next.supervision := by
  cases change with
  | setEndpoint found path => exact Or.inl (supervision_put found rfl)
  | setFlags found isBeingAdded isBeingStopped confirmAdded notRaised =>
      exact Or.inl (supervision_put found rfl)
  | removeStoredSocket m className =>
      exact Or.inl (supervision_removeStoredSocket o m className)
  | removeStoredProcess m className =>
      rw [supervision_removeStoredProcess]
      exact Or.inr (.release _)
  | kill child =>
      rw [supervision_kill]
      exact Or.inr (.die _)
  | deliverExit child => exact Or.inl (supervision_deliverExit child o)
  | expireTimer timer =>
      left
      simp [Objects.supervision, Objects.expireTimer]

/-- Live children are held by the entry of their class. -/
theorem held_change {o next : Objects} (held : o.supervision.Held)
    (change : Change o next) : next.supervision.Held := by
  rcases change.supervision with same | taken
  · rw [same]
    exact held
  · exact held.step taken

theorem held_takeWait {o : Objects} (held : o.supervision.Held)
    (timer : Nat) : (o.takeWait timer).supervision.Held := by
  have same : (o.takeWait timer).supervision = o.supervision := by
    simp [Objects.supervision, Objects.takeWait]
  rw [same]
  exact held

theorem held_launch {o : Objects} (held : o.supervision.Held)
    {request : AddRequest}
    (absent : o.find? request.kind request.className = none)
    (commandLine : String) (pid creation : Json.Integer) :
    (o.launch request commandLine pid creation).supervision.Held := by
  rw [supervision_launch absent]
  apply held.step
  apply Supervision.Step.start
  simp [supervision]

theorem held_empty : ({} : Objects).supervision.Held := by
  rintro child ⟨c, found, -⟩
  simp at found

/-- An entry holds a child of its own class. -/
theorem placed_change {o next : Objects} (placed : o.supervision.Placed)
    (change : Change o next) : next.supervision.Placed := by
  rcases change.supervision with same | taken
  · rw [same]
    exact placed
  · exact placed.step taken

theorem placed_takeWait {o : Objects} (placed : o.supervision.Placed)
    (timer : Nat) : (o.takeWait timer).supervision.Placed := by
  have same : (o.takeWait timer).supervision = o.supervision := by
    simp [Objects.supervision, Objects.takeWait]
  rw [same]
  exact placed

theorem placed_launch {o : Objects} (placed : o.supervision.Placed)
    {request : AddRequest}
    (absent : o.find? request.kind request.className = none)
    (commandLine : String) (pid creation : Json.Integer) :
    (o.launch request commandLine pid creation).supervision.Placed := by
  rw [supervision_launch absent]
  apply placed.step
  apply Supervision.Step.start
  simp [supervision]

theorem placed_empty : ({} : Objects).supervision.Placed := by
  rintro key child holder
  simp [supervision] at holder

end KekMonitors.Objects
