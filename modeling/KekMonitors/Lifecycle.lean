import KekMonitors.Store
import KekMonitors.Transition.Run

/-!
# The life of a stored object

Whatever the handlers do to the stored objects is a sequence of the changes
below.  All of them leave every entry under its own name and in use, so the
entry that `onAdd` would reuse is never there.
-/

namespace KekMonitors

open Timer

/-- A process or a socket keeps an entry stored. -/
def StoredObject.Occupied (stored : StoredObject) : Prop :=
  stored.process.isSome ∨ stored.endpoint.isSome

namespace Objects

/-- The checks of `onAdd` let an entry pass when it is not in use. -/
def Admits (o : Objects) (m : MonitorOrScraper) (className : String) :
    Prop :=
  ∀ stored, o.find? m className = some stored →
    stored.isBeingAdded = false ∧ ¬ stored.Occupied

/-- The exit handler of a child has run. -/
def deliverExit (child : Nat) (o : Objects) : Objects :=
  { o with
    children := o.children.modify child fun c =>
      { c with exitPending := false } }

def expireTimer (timer : Nat) (o : Objects) : Objects :=
  { o with addWaits := o.addWaits.expire timer }

/-- The wait handler of a timer is taken out of its queue. -/
def takeWait (timer : Nat) (o : Objects) : Objects :=
  { o with addWaits := o.addWaits.erase timer }

@[simp]
theorem find?_deliverExit (child : Nat) (o : Objects) (m : MonitorOrScraper)
    (className : String) :
    (o.deliverExit child).find? m className = o.find? m className :=
  find?_mk ..

@[simp]
theorem find?_expireTimer (timer : Nat) (o : Objects) (m : MonitorOrScraper)
    (className : String) :
    (o.expireTimer timer).find? m className = o.find? m className :=
  find?_mk ..

@[simp]
theorem find?_takeWait (timer : Nat) (o : Objects) (m : MonitorOrScraper)
    (className : String) :
    (o.takeWait timer).find? m className = o.find? m className :=
  find?_mk ..

@[simp]
theorem running_takeWait (timer : Nat) (o : Objects) (process : Process) :
    (o.takeWait timer).running process = o.running process :=
  rfl

/-- What only some of the handlers do. -/
inductive Deed where
  | storesSocket
  | marksStop
  | deliversExit

/--
What a handler does to the stored objects, short of a launch, if it may do
these deeds.
-/
inductive ChangeBy (may : Deed → Prop) (o : Objects) : Objects → Prop where
  | setEndpoint {m : MonitorOrScraper} {className : String}
      {stored : StoredObject}
      (found : o.find? m className = some stored) (path : String)
      (allowed : may .storesSocket) :
      ChangeBy may o
        (o.put m className { stored with endpoint := some path })
  | setFlags {m : MonitorOrScraper} {className : String}
      {stored : StoredObject}
      (found : o.find? m className = some stored)
      (isBeingAdded isBeingStopped confirmAdded : Bool)
      (notRaised : confirmAdded = true → stored.confirmAdded = true)
      (notAdded : isBeingAdded = true → stored.isBeingAdded = true)
      (notMarked : isBeingStopped = true →
        stored.isBeingStopped = true ∨ may .marksStop) :
      ChangeBy may o (o.put m className
        { stored with
          isBeingAdded := isBeingAdded
          isBeingStopped := isBeingStopped
          confirmAdded := confirmAdded })
  | removeStoredSocket (m : MonitorOrScraper) (className : String) :
      ChangeBy may o (o.removeStoredSocket m className)
  | removeStoredProcess (m : MonitorOrScraper) (className : String) :
      ChangeBy may o (o.removeStoredProcess m className)
  | kill (child : Nat) : ChangeBy may o (o.kill child)
  | deliverExit (child : Nat) (allowed : may .deliversExit) :
      ChangeBy may o (o.deliverExit child)
  | expireTimer (timer : Nat) : ChangeBy may o (o.expireTimer timer)

theorem ChangeBy.mono {may could : Deed → Prop} {o next : Objects}
    (more : ∀ deed, may deed → could deed) (change : ChangeBy may o next) :
    ChangeBy could o next := by
  cases change with
  | setEndpoint found path allowed =>
      exact .setEndpoint found path (more _ allowed)
  | setFlags found _ _ _ notRaised notAdded notMarked =>
      exact .setFlags found _ _ _ notRaised notAdded
        fun marked => (notMarked marked).imp_right (more _)
  | removeStoredSocket m className => exact .removeStoredSocket m className
  | removeStoredProcess m className => exact .removeStoredProcess m className
  | kill child => exact .kill child
  | deliverExit child allowed => exact .deliverExit child (more _ allowed)
  | expireTimer timer => exact .expireTimer timer

abbrev ChangesBy (may : Deed → Prop) : Objects → Objects → Prop :=
  Relation.ReflTransGen (ChangeBy may)

theorem ChangesBy.mono {may could : Deed → Prop} {o next : Objects}
    (more : ∀ deed, may deed → could deed) (changes : ChangesBy may o next) :
    ChangesBy could o next :=
  changes.lift id fun _ _ change => change.mono more

abbrev Change : Objects → Objects → Prop := ChangeBy fun _ => True

/-- A sequence of changes. -/
abbrev Changes : Objects → Objects → Prop := ChangesBy fun _ => True

/--
A launch, which the checks of `onAdd` precede, a change, or the start of a
wait handler.
-/
inductive Progress (o : Objects) : Objects → Prop where
  | launch (request : AddRequest) (commandLine : String)
      (pid creation : Json.Integer)
      (admitted : o.Admits request.kind request.className) :
      Progress o (o.launch request commandLine pid creation)
  | change {next : Objects} (changed : Change o next) : Progress o next
  | takeWait (timer : Nat) : Progress o (o.takeWait timer)

theorem ChangesBy.progress {o next : Objects} (changes : Changes o next) :
    Relation.ReflTransGen Progress o next :=
  changes.lift id fun _ _ => .change

section Termination

variable {may : Deed → Prop}

theorem terminateProcess_changes (m : MonitorOrScraper)
    (className : String) (process : Process) (o : Objects) :
    ChangesBy may o (o.terminateProcess m className process) := by
  rw [terminateProcess]
  split
  · exact (Relation.ReflTransGen.single (.kill process.child)).tail
      (.removeStoredProcess m className)
  · exact .single (.removeStoredProcess m className)

theorem terminateFrom_changes (m : MonitorOrScraper) (o : Objects)
    (names : List String) : ChangesBy may o (o.terminateFrom m names) := by
  fun_induction terminateFrom m o names with
  | case1 => exact .refl
  | case2 o className later absent ih => exact ih
  | case3 o className later process found o' kept ih =>
      exact (terminateProcess_changes m className process o).trans ih
  | case4 o className later process found o' erased ih =>
      exact (terminateProcess_changes m className process o).trans ih

theorem terminateProcesses_changes (m : MonitorOrScraper) (o : Objects) :
    ChangesBy may o (o.terminateProcesses m) :=
  terminateFrom_changes m o _

end Termination

/-! ## The effect of the operations -/

theorem find?_removeStoredSocket (o : Objects)
    (m other : MonitorOrScraper) (className name : String) :
    (o.removeStoredSocket m className).find? other name =
      if (other, name) = (m, className) then
        ((o.find? m className).map fun stored =>
          { stored with endpoint := none }).filter
            fun stored => stored.process.isSome
      else o.find? other name := by
  by_cases same : (other, name) = (m, className)
  · rcases Prod.mk.inj same with ⟨rfl, rfl⟩
    rw [if_pos rfl, removeStoredSocket]
    cases found : o.find? other name with
    | none => exact found
    | some stored =>
        cases held : stored.process <;>
          simp [held, find?_erase, find?_put, Option.filter]
  · rw [if_neg same, removeStoredSocket]
    cases o.find? m className with
    | none => rfl
    | some stored =>
        cases held : stored.process <;>
          simp [held, same, find?_erase, find?_put]

/-- An entry that is found then has a process, or is of another class. -/
theorem found_removeStoredSocket {o : Objects}
    {m other : MonitorOrScraper} {className name : String}
    {entry : StoredObject}
    (found : (o.removeStoredSocket m className).find? other name =
      some entry) :
    ∃ stored, o.find? other name = some stored ∧
      ((other, name) = (m, className) ∧
          entry = { stored with endpoint := none } ∧
            stored.process.isSome ∨
        (other, name) ≠ (m, className) ∧ entry = stored) := by
  rw [find?_removeStoredSocket] at found
  split at found
  · rename_i same
    rcases Prod.mk.inj same with ⟨rfl, rfl⟩
    rcases Option.filter_eq_some_iff.mp found with ⟨mapped, running⟩
    rcases Option.map_eq_some_iff.mp mapped with ⟨stored, present, rfl⟩
    exact ⟨stored, present, Or.inl ⟨rfl, rfl, running⟩⟩
  · rename_i elsewhere
    exact ⟨entry, found, Or.inr ⟨elsewhere, rfl⟩⟩

theorem find?_launch (o : Objects) (request : AddRequest)
    (commandLine : String) (pid creation : Json.Integer) (m : MonitorOrScraper)
    (className : String) :
    (o.launch request commandLine pid creation).find? m className =
      if (m, className) = (request.kind, request.className) then
        some (o.launched request pid creation)
      else o.find? m className := by
  simp only [launch, find?_mk, find?_destroyTimer, find?_destroyProcess,
    find?_put]

theorem children_erase (o : Objects) (m : MonitorOrScraper)
    (className : String) :
    (o.erase m className).children =
      (o.destroyProcess
        ((o.find? m className).bind StoredObject.process)).children := by
  rw [erase]
  cases found : o.find? m className with
  | none => rfl
  | some stored =>
      rw [children_destroyTimer, Option.bind_some]
      cases stored.process <;> cases m <;> rfl

theorem addWaits_erase (o : Objects) (m : MonitorOrScraper)
    (className : String) :
    (o.erase m className).addWaits =
      o.addWaits.destroy
        ((o.find? m className).bind StoredObject.onAddTimer) := by
  rw [erase]
  cases found : o.find? m className with
  | none => rfl
  | some stored =>
      simp only [destroyTimer, addWaits_destroyProcess, Option.bind_some]
      cases m <;> rfl

/-- An erased socket entry had no process to destroy. -/
theorem children_removeStoredSocket (o : Objects) (m : MonitorOrScraper)
    (className : String) :
    (o.removeStoredSocket m className).children = o.children := by
  rw [removeStoredSocket]
  cases o.find? m className with
  | none => rfl
  | some stored =>
      cases held : stored.process with
      | none =>
          simp [held, children_erase, find?_put, destroyProcess]
      | some process => simp [held]

theorem children_removeStoredProcess (o : Objects) (m : MonitorOrScraper)
    (className : String) :
    (o.removeStoredProcess m className).children =
      (o.destroyProcess
        ((o.find? m className).bind StoredObject.process)).children := by
  rw [removeStoredProcess]
  cases found : o.find? m className with
  | none => rfl
  | some stored =>
      cases held : stored.endpoint <;> cases running : stored.process <;>
        cases m <;>
          simp [held, running, children_erase, find?_put, destroyProcess,
            kill]

/-- Only a launch adds a child. -/
theorem ChangeBy.children_length {may : Deed → Prop} {o next : Objects}
    (change : ChangeBy may o next) :
    next.children.length = o.children.length := by
  cases change with
  | setEndpoint found path => rw [children_put]
  | setFlags => rw [children_put]
  | removeStoredSocket m className => rw [children_removeStoredSocket]
  | removeStoredProcess m className =>
      rw [children_removeStoredProcess, children_length_destroyProcess]
  | kill child => exact children_length_kill child o
  | deliverExit child => exact List.length_modify ..
  | expireTimer timer => rfl

theorem ChangesBy.children_length {may : Deed → Prop} {o next : Objects}
    (changes : ChangesBy may o next) :
    next.children.length = o.children.length := by
  induction changes with
  | refl => rfl
  | tail _ last ih => rw [last.children_length, ih]

/-! ## Entries -/

end Objects

/-- What changes may make of an entry that stays stored. -/
structure StoredObject.Amends (may : Objects.Deed → Prop)
    (stored entry : StoredObject) : Prop where
  className : entry.className = stored.className
  onAddTimer : entry.onAddTimer = stored.onAddTimer
  process : entry.process = stored.process ∨ entry.process = none
  occupied : stored.Occupied → entry.Occupied
  confirmAdded : entry.confirmAdded = true → stored.confirmAdded = true
  isBeingAdded : entry.isBeingAdded = true → stored.isBeingAdded = true
  isBeingStopped : entry.isBeingStopped = true →
    stored.isBeingStopped = true ∨ may .marksStop
  endpoint : entry.endpoint.isSome →
    stored.endpoint.isSome ∨ may .storesSocket

theorem StoredObject.Amends.refl {may : Objects.Deed → Prop}
    (stored : StoredObject) : stored.Amends may stored :=
  ⟨rfl, rfl, Or.inl rfl, id, id, id, Or.inl, Or.inl⟩

theorem StoredObject.Amends.trans {may : Objects.Deed → Prop}
    {stored middle entry : StoredObject} (first : stored.Amends may middle)
    (second : middle.Amends may entry) : stored.Amends may entry where
  className := second.className.trans first.className
  onAddTimer := second.onAddTimer.trans first.onAddTimer
  process := by
    rcases second.process with same | gone
    · rw [same]
      exact first.process
    · exact Or.inr gone
  occupied := second.occupied ∘ first.occupied
  confirmAdded := first.confirmAdded ∘ second.confirmAdded
  isBeingAdded := first.isBeingAdded ∘ second.isBeingAdded
  isBeingStopped marked :=
    (second.isBeingStopped marked).elim first.isBeingStopped Or.inr
  endpoint reachable :=
    (second.endpoint reachable).elim first.endpoint Or.inr

namespace Objects

theorem origin_put {may : Deed → Prop} {o : Objects}
    {m other : MonitorOrScraper} {className name : String}
    {stored amended entry : StoredObject}
    (present : o.find? m className = some stored)
    (found : (o.put m className amended).find? other name = some entry)
    (amends : stored.Amends may amended) :
    ∃ old, o.find? other name = some old ∧ old.Amends may entry := by
  rw [find?_put] at found
  split at found
  · rename_i same
    rcases Prod.mk.inj same with ⟨rfl, rfl⟩
    exact ⟨stored, present, Option.some.inj found ▸ amends⟩
  · exact ⟨entry, found, .refl entry⟩

/-- After a change, every entry is one from before, amended. -/
theorem ChangeBy.origin {may : Deed → Prop} {o next : Objects}
    (change : ChangeBy may o next) {m : MonitorOrScraper}
    {className : String} {entry : StoredObject}
    (found : next.find? m className = some entry) :
    ∃ stored, o.find? m className = some stored ∧
      stored.Amends may entry := by
  cases change with
  | setEndpoint present path allowed =>
      exact origin_put present found
        ⟨rfl, rfl, Or.inl rfl, fun _ => Or.inr rfl, id, id, Or.inl,
          fun _ => Or.inr allowed⟩
  | setFlags present _ _ _ notRaised notAdded notMarked =>
      exact origin_put present found
        ⟨rfl, rfl, Or.inl rfl, id, notRaised, notAdded, notMarked, Or.inl⟩
  | removeStoredSocket other name =>
      rcases found_removeStoredSocket found with
        ⟨stored, present, ⟨-, rfl, running⟩ | ⟨-, rfl⟩⟩
      · exact ⟨stored, present, rfl, rfl, Or.inl rfl,
          fun _ => Or.inl running, id, id, Or.inl, by simp⟩
      · exact ⟨entry, present, .refl entry⟩
  | removeStoredProcess other name =>
      rcases found_removeStoredProcess found with
        ⟨stored, present, ⟨-, rfl, reachable⟩ | ⟨-, rfl⟩⟩
      · exact ⟨stored, present, rfl, rfl, Or.inr rfl,
          fun _ => Or.inr reachable, id, id, Or.inl, Or.inl⟩
      · exact ⟨entry, present, .refl entry⟩
  | kill child =>
      exact ⟨entry, find?_kill child o m className ▸ found, .refl entry⟩
  | deliverExit child =>
      exact ⟨entry, find?_deliverExit child o m className ▸ found,
        .refl entry⟩
  | expireTimer timer =>
      exact ⟨entry, find?_expireTimer timer o m className ▸ found,
        .refl entry⟩

theorem ChangesBy.origin {may : Deed → Prop} {o next : Objects}
    (changes : ChangesBy may o next) {m : MonitorOrScraper}
    {className : String} {entry : StoredObject}
    (found : next.find? m className = some entry) :
    ∃ stored, o.find? m className = some stored ∧
      stored.Amends may entry := by
  induction changes generalizing entry with
  | refl => exact ⟨entry, found, .refl entry⟩
  | tail _ last ih =>
      rcases last.origin found with ⟨middle, present, amends⟩
      rcases ih present with ⟨stored, old, earlier⟩
      exact ⟨stored, old, earlier.trans amends⟩

/-- No change makes an entry. -/
theorem ChangesBy.absent {may : Deed → Prop} {o next : Objects}
    (changes : ChangesBy may o next) {m : MonitorOrScraper}
    {className : String} (absent : o.find? m className = none) :
    next.find? m className = none := by
  cases found : next.find? m className with
  | none => rfl
  | some entry =>
      rcases changes.origin found with ⟨stored, present, -⟩
      simp [absent] at present

/-- No change gives an entry a process. -/
theorem ChangesBy.processAt {may : Deed → Prop} {o next : Objects}
    (changes : ChangesBy may o next) {m : MonitorOrScraper}
    {className : String} {process : Process}
    (held : next.processAt m className = some process) :
    o.processAt m className = some process := by
  rcases Option.bind_eq_some_iff.mp held with ⟨entry, found, holds⟩
  rcases changes.origin found with ⟨stored, present, amends⟩
  rcases amends.process with same | gone
  · exact Option.bind_eq_some_iff.mpr ⟨stored, present, same ▸ holds⟩
  · simp [gone] at holds

end Objects

/-- What every entry satisfies under its key. -/
structure StoredObject.KeptAs (stored : StoredObject) (className : String) :
    Prop where
  named : stored.className = className
  occupied : stored.Occupied
  unconfirmed : stored.confirmAdded = false

namespace Objects

def WellKept (o : Objects) : Prop :=
  ∀ ⦃m : MonitorOrScraper⦄ ⦃className : String⦄ ⦃stored : StoredObject⦄,
    o.find? m className = some stored → stored.KeptAs className

theorem wellKept_empty : ({} : Objects).WellKept := by
  intro m className stored found
  simp at found

/-- An admitted class has no entry, so the one found is never reused. -/
theorem WellKept.absent {o : Objects} (kept : o.WellKept)
    {m : MonitorOrScraper} {className : String}
    (admitted : o.Admits m className) : o.find? m className = none := by
  cases found : o.find? m className with
  | none => rfl
  | some stored =>
      exact absurd (kept found).occupied (admitted stored found).2

/-- A launch of an admitted class stores a new entry. -/
theorem WellKept.launch {o : Objects} (kept : o.WellKept)
    {request : AddRequest}
    (admitted : o.Admits request.kind request.className)
    (commandLine : String) (pid creation : Json.Integer) :
    (o.launch request commandLine pid creation).WellKept := by
  intro m className stored found
  rw [find?_launch] at found
  split at found
  · rename_i same
    rcases Prod.mk.inj same with ⟨-, rfl⟩
    have absent := kept.absent admitted
    rcases Option.some.inj found with rfl
    rw [launched, absent]
    exact ⟨rfl, Or.inl rfl, rfl⟩
  · exact kept found

/-- Every change keeps the entries well. -/
theorem WellKept.change {o next : Objects} (kept : o.WellKept)
    (change : Change o next) : next.WellKept := by
  intro m className entry found
  rcases change.origin found with ⟨stored, present, amends⟩
  have old := kept present
  refine ⟨amends.className.trans old.named, amends.occupied old.occupied, ?_⟩
  apply Bool.eq_false_iff.mpr
  intro confirmed
  have before := amends.confirmAdded confirmed
  rw [old.unconfirmed] at before
  simp at before

theorem WellKept.takeWait {o : Objects} (kept : o.WellKept) (timer : Nat) :
    (o.takeWait timer).WellKept := by
  intro m className stored found
  exact kept (find?_takeWait timer o m className ▸ found)

end Objects

end KekMonitors
