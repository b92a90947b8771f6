import KekMonitors.AddTimers
import Mathlib.Logic.Equiv.Basic

/-!
# Locality

What happens to the entry of one class leaves everything that belongs to
another class alone: its entry, the children launched for it and the waits of
its add requests.  An entry holds only a child and a waiting timer of its own
class, so destroying them touches no other class.

Children and timers are numbered as they are launched, so two launches in the
other order exchange two numbers; the numbers stand for pointers, and nothing
else of an entry depends on them.
-/

namespace KekMonitors

/-- The entry with its child and its timer under other numbers. -/
def StoredObject.rename (number : Nat → Nat) (stored : StoredObject) :
    StoredObject :=
  { stored with
    process := stored.process.map fun process =>
      { process with child := number process.child }
    onAddTimer := stored.onAddTimer.map number }

/-- An entry keeps the numbers that keep theirs. -/
theorem StoredObject.rename_of_fixed {number : Nat → Nat}
    {stored : StoredObject}
    (child : ∀ process, stored.process = some process →
      number process.child = process.child)
    (timer : ∀ old, stored.onAddTimer = some old → number old = old) :
    stored.rename number = stored := by
  rcases stored with ⟨process, endpoint, onAddTimer, className, _, _, _⟩
  have children : (process.map fun process =>
      ({ process with child := number process.child } : Process)) =
        process := by
    cases process with
    | none => rfl
    | some process =>
        rw [Option.map_some, child process rfl]
  have timers : onAddTimer.map number = onAddTimer := by
    cases onAddTimer with
    | none => rfl
    | some old => rw [Option.map_some, timer old rfl]
  simp only [rename, children, timers]

namespace Objects

open Timer

def childKey (c : Child) : Key := (c.kind, c.className)

/-- What belongs to a class is the same in both. -/
structure AgreeAt (key : Key) (o other : Objects) : Prop where
  entry : other.find? key.1 key.2 = o.find? key.1 key.2
  child : ∀ {number : Nat} {c : Child}, childKey c = key →
    (other.children[number]? = some c ↔ o.children[number]? = some c)
  wait : ∀ {timer : Nat} {wait : Wait AddRequest}, home wait.request = key →
    (other.addWaits.lookup timer = some wait ↔
      o.addWaits.lookup timer = some wait)

theorem AgreeAt.refl (key : Key) (o : Objects) : AgreeAt key o o :=
  ⟨rfl, fun _ => Iff.rfl, fun _ => Iff.rfl⟩

theorem AgreeAt.symm {key : Key} {o other : Objects}
    (agree : AgreeAt key o other) : AgreeAt key other o where
  entry := agree.entry.symm
  child here := (agree.child here).symm
  wait here := (agree.wait here).symm

theorem AgreeAt.trans {key : Key} {first middle last : Objects}
    (before : AgreeAt key first middle) (after : AgreeAt key middle last) :
    AgreeAt key first last where
  entry := after.entry.trans before.entry
  child here := (after.child here).trans (before.child here)
  wait here := (after.wait here).trans (before.wait here)

/-- Only what belongs to one class may have changed. -/
def Confined (key : Key) (o next : Objects) : Prop :=
  ∀ other, other ≠ key → AgreeAt other o next

theorem Confined.refl (key : Key) (o : Objects) : Confined key o o :=
  fun other _ => .refl other o

theorem Confined.trans {key : Key} {first middle last : Objects}
    (before : Confined key first middle) (after : Confined key middle last) :
    Confined key first last :=
  fun other elsewhere => (before other elsewhere).trans (after other elsewhere)

section Operations

variable {o : Objects}

theorem confined_put (m : MonitorOrScraper) (className : String)
    (stored : StoredObject) :
    Confined (m, className) o (o.put m className stored) := by
  intro other elsewhere
  refine ⟨?_, ?_, ?_⟩
  · rw [find?_put, if_neg elsewhere]
  · intro number c here
    rw [children_put]
  · intro timer wait here
    rw [addWaits_put]

/-- A modified child, which keeps its class, is no other class's child. -/
theorem getElem?_modify_elsewhere {children : List Child} {number : Nat}
    {key other : Key} {f : Child → Child}
    (kept : ∀ c, childKey (f c) = childKey c)
    (owned : ∀ c, children[number]? = some c → childKey c = key)
    (elsewhere : other ≠ key) {position : Nat} {c : Child}
    (here : childKey c = other) :
    (children.modify number f)[position]? = some c ↔
      children[position]? = some c := by
  rw [List.getElem?_modify]
  split
  · rename_i same
    subst same
    constructor
    · intro found
      rcases Option.map_eq_some_iff.mp found with ⟨old, present, rfl⟩
      rw [kept] at here
      exact absurd (here.symm.trans (owned old present)) elsewhere
    · intro present
      exact absurd (here.symm.trans (owned c present)) elsewhere
  · simp

theorem confined_kill {key : Key} {child : Nat}
    (owned : ∀ c, o.children[child]? = some c → childKey c = key) :
    Confined key o (o.kill child) := by
  intro other elsewhere
  refine ⟨find?_kill .., ?_, fun _ => Iff.rfl⟩
  intro number c here
  apply getElem?_modify_elsewhere ?_ owned elsewhere here
  intro old
  rfl

theorem confined_deliverExit {key : Key} {child : Nat}
    (owned : ∀ c, o.children[child]? = some c → childKey c = key) :
    Confined key o (o.deliverExit child) := by
  intro other elsewhere
  refine ⟨find?_deliverExit .., ?_, fun _ => Iff.rfl⟩
  intro number c here
  apply getElem?_modify_elsewhere ?_ owned elsewhere here
  intro old
  rfl

theorem confined_takeWait {key : Key} {timer : Nat}
    (owned : ∀ wait, o.addWaits.lookup timer = some wait →
      home wait.request = key) :
    Confined key o (o.takeWait timer) := by
  intro other elsewhere
  refine ⟨find?_takeWait .., fun _ => Iff.rfl, ?_⟩
  intro number wait here
  rw [takeWait, Waits.lookup_erase_eq]
  split
  · rename_i same
    subst same
    constructor
    · intro found
      simp at found
    · intro found
      exact absurd (here.symm.trans (owned wait found)) elsewhere
  · rfl

/-- A waiting timer in the slot of a class is that of a request for it. -/
theorem confined_destroyTimer (owned : o.TimersOwned) {key : Key}
    {slot : Option Nat} (held : slot = o.timerSlots key) :
    Confined key o (o.destroyTimer slot) := by
  cases slot with
  | none => exact .refl key o
  | some number =>
      intro other elsewhere
      refine ⟨find?_destroyTimer .., fun _ => Iff.rfl, ?_⟩
      intro timer wait here
      -- the wait of this timer has been settled, or is of the same class
      have settled : ∀ old, o.addWaits.lookup number = some old →
          home old.request = other → old.settle .cancelled = old := by
        intro old found home
        rcases old with ⟨request, _ | _ | _⟩
        · have slots := owned.waiting found rfl
          have same := owned.slot_unique held.symm slots
          exact absurd (home.symm.trans same.symm) elsewhere
        · rfl
        · rfl
      change (Waits.settle .cancelled number o.addWaits).lookup timer =
        some wait ↔ _
      rw [Waits.lookup_settle]
      split
      · rename_i same
        subst same
        constructor
        · intro found
          rcases Option.map_eq_some_iff.mp found with ⟨old, present, rfl⟩
          rw [Wait.settle_request] at here
          rw [settled old present here]
          exact present
        · intro found
          rw [found, Option.map_some, settled wait found here]
      · rfl

/-- The child of an entry was launched for it. -/
theorem childKey_of_placed (placed : o.supervision.Placed)
    {m : MonitorOrScraper} {className : String} {stored : StoredObject}
    (found : o.find? m className = some stored) {process : Process}
    (held : stored.process = some process) :
    ∃ c, o.children[process.child]? = some c ∧
      childKey c = (m, className) := by
  have holder : o.supervision.holder (m, className) = some process.child := by
    simp [supervision, found, held]
  rcases Option.map_eq_some_iff.mp (placed _ _ holder) with ⟨c, there, same⟩
  exact ⟨c, there, same⟩

theorem confined_destroyProcess (placed : o.supervision.Placed)
    {m : MonitorOrScraper} {className : String} {stored : StoredObject}
    (found : o.find? m className = some stored) :
    Confined (m, className) o (o.destroyProcess stored.process) := by
  cases held : stored.process with
  | none => exact .refl _ o
  | some process =>
      rcases childKey_of_placed placed found held with ⟨c, there, same⟩
      apply confined_kill
      intro other present
      rcases Option.some.inj (there.symm.trans present) with rfl
      exact same

/-- Removing the socket or the process of an entry may erase it. -/
theorem addWaits_removeStoredSocket (m : MonitorOrScraper)
    (className : String) :
    (o.removeStoredSocket m className).addWaits = o.addWaits ∨
      (o.removeStoredSocket m className).addWaits =
        (o.destroyTimer (o.timerSlots (m, className))).addWaits := by
  rw [removeStoredSocket, timerSlots]
  cases found : o.find? m className with
  | none => exact Or.inl rfl
  | some stored =>
      dsimp only
      split
      · right
        simp [addWaits_erase, find?_put, destroyTimer]
      · left
        simp

theorem addWaits_removeStoredProcess (m : MonitorOrScraper)
    (className : String) :
    (o.removeStoredProcess m className).addWaits = o.addWaits ∨
      (o.removeStoredProcess m className).addWaits =
        (o.destroyTimer (o.timerSlots (m, className))).addWaits := by
  rw [removeStoredProcess, timerSlots]
  cases found : o.find? m className with
  | none => exact Or.inl rfl
  | some stored =>
      dsimp only
      split
      · right
        simp [addWaits_erase, find?_put, destroyTimer]
      · left
        simp

theorem confined_removeStoredSocket (owned : o.TimersOwned)
    (m : MonitorOrScraper) (className : String) :
    Confined (m, className) o (o.removeStoredSocket m className) := by
  intro other elsewhere
  refine ⟨?_, ?_, ?_⟩
  · rw [find?_removeStoredSocket, if_neg elsewhere]
  · rw [children_removeStoredSocket]
    exact fun _ => Iff.rfl
  · rcases addWaits_removeStoredSocket m className with same | same
    · rw [same]
      exact fun _ => Iff.rfl
    · rw [same]
      exact (confined_destroyTimer owned rfl other elsewhere).wait

theorem confined_removeStoredProcess (owned : o.TimersOwned)
    (placed : o.supervision.Placed) (m : MonitorOrScraper)
    (className : String) :
    Confined (m, className) o (o.removeStoredProcess m className) := by
  intro other elsewhere
  refine ⟨?_, ?_, ?_⟩
  · rw [find?_removeStoredProcess, if_neg elsewhere]
  · rw [children_removeStoredProcess]
    cases found : o.find? m className with
    | none => exact fun _ => Iff.rfl
    | some stored =>
        exact (confined_destroyProcess placed found other elsewhere).child
  · rcases addWaits_removeStoredProcess m className with same | same
    · rw [same]
      exact fun _ => Iff.rfl
    · rw [same]
      exact (confined_destroyTimer owned rfl other elsewhere).wait

/-- A launch adds a child and a wait of its class. -/
theorem confined_launch (owned : o.TimersOwned) {request : AddRequest}
    (absent : o.find? request.kind request.className = none)
    (commandLine : String) (pid creation : Json.Integer) :
    Confined (home request) o
      (o.launch request commandLine pid creation) := by
  intro other elsewhere
  refine ⟨?_, ?_, ?_⟩
  · rw [find?_launch, if_neg elsewhere]
  · intro number c here
    have free : (o.find? request.kind request.className).bind
        StoredObject.process = none := by
      rw [absent, Option.bind_none]
    rw [children_launch free, List.getElem?_append]
    split
    · rfl
    · rename_i new
      rw [List.getElem?_eq_none (Nat.le_of_not_lt new)]
      constructor
      · intro found
        have same := List.mem_of_getElem? found
        rcases List.mem_singleton.mp same with rfl
        exact absurd here.symm elsewhere
      · intro found
        simp at found
  · intro timer wait here
    rw [addWaits_launch absent, Waits.lookup_start]
    split
    · rename_i same
      subst same
      constructor
      · intro found
        rcases Option.some.inj found with rfl
        exact absurd here.symm elsewhere
      · intro found
        exact absurd (owned.wait_lt found) (Nat.lt_irrefl _)
    · rfl

end Operations

/-! ## Two handlers -/

/--
Both stores are the same, up to the numbers of what did not exist before.
-/
def SameStores (known : Nat) (o other : Objects) : Prop :=
  ∃ number : Equiv.Perm Nat, (∀ old < known, number old = old) ∧
    ∀ m className, other.find? m className =
      (o.find? m className).map (StoredObject.rename number)

/-- A handler touches no entry but that of its class. -/
def EntryConfined (key : Key) (o next : Objects) : Prop :=
  ∀ other, other ≠ key →
    next.find? other.1 other.2 = o.find? other.1 other.2

theorem Confined.entryConfined {key : Key} {o next : Objects}
    (confined : Confined key o next) : EntryConfined key o next :=
  fun other elsewhere => (confined other elsewhere).entry

/--
A handler leaves the entry of its class alike in two states: it launches
nothing, or a new entry with the next number.
-/
inductive SameEffect (key : Key) (o next other otherNext : Objects) :
    Prop where
  | kept
      (entry : otherNext.find? key.1 key.2 = next.find? key.1 key.2)
      (length : next.children.length = o.children.length)
      (otherLength : otherNext.children.length = other.children.length)
  | launched (entry : Nat → StoredObject)
      (renamed : ∀ number n, (entry n).rename number = entry (number n))
      (found : next.find? key.1 key.2 = some (entry o.children.length))
      (otherFound : otherNext.find? key.1 key.2 =
        some (entry other.children.length))
      (length : next.children.length = o.children.length + 1)

/-- The numbers in an entry are those of launched children. -/
theorem rename_known {o : Objects} (owned : o.TimersOwned)
    (placed : o.supervision.Placed) {number : Nat → Nat}
    (fixed : ∀ old < o.children.length, number old = old)
    (m : MonitorOrScraper) (className : String) :
    (o.find? m className).map (StoredObject.rename number) =
      o.find? m className := by
  cases found : o.find? m className with
  | none => rfl
  | some stored =>
      rw [Option.map_some, StoredObject.rename_of_fixed]
      · intro process held
        rcases childKey_of_placed placed found held with ⟨c, there, -⟩
        rcases List.getElem?_eq_some_iff.mp there with ⟨inside, -⟩
        exact fixed _ inside
      · intro old held
        have slot : o.timerSlots (m, className) = some old := by
          simp [timerSlots, found, held]
        exact fixed old (owned.slot_lt slot)

section Commute

variable {first second : Key} {o afterFirst afterSecond both other : Objects}

theorem map_rename_refl (stored : Option StoredObject) :
    stored.map (StoredObject.rename (Equiv.refl Nat)) = stored := by
  cases stored with
  | none => rfl
  | some stored =>
      rw [Option.map_some, StoredObject.rename_of_fixed]
      · exact fun _ _ => rfl
      · exact fun _ _ => rfl

/-- Handlers of different classes leave the same stores in either order. -/
theorem sameStores_of_effects (owned : o.TimersOwned)
    (placed : o.supervision.Placed) (different : first ≠ second)
    (firstConfined : EntryConfined first o afterFirst)
    (secondConfined : EntryConfined second o afterSecond)
    (bothConfined : EntryConfined second afterFirst both)
    (otherConfined : EntryConfined first afterSecond other)
    (firstEffect : SameEffect first o afterFirst afterSecond other)
    (secondEffect : SameEffect second o afterSecond afterFirst both) :
    SameStores o.children.length both other := by
  have atFirst : both.find? first.1 first.2 =
      afterFirst.find? first.1 first.2 := bothConfined first different
  have atSecond : other.find? second.1 second.2 =
      afterSecond.find? second.1 second.2 :=
    otherConfined second different.symm
  have elsewhere : ∀ key : Key, key ≠ first → key ≠ second →
      both.find? key.1 key.2 = o.find? key.1 key.2 ∧
        other.find? key.1 key.2 = o.find? key.1 key.2 := by
    intro key notFirst notSecond
    constructor
    · rw [bothConfined key notSecond, firstConfined key notFirst]
    · rw [otherConfined key notFirst, secondConfined key notSecond]
  -- the stores agree if they agree in these three places
  have assemble : ∀ number : Equiv.Perm Nat,
      (∀ old < o.children.length, number old = old) →
        other.find? first.1 first.2 =
            (both.find? first.1 first.2).map (StoredObject.rename number) →
          other.find? second.1 second.2 =
              (both.find? second.1 second.2).map
                (StoredObject.rename number) →
            SameStores o.children.length both other := by
    intro number fixed sameFirst sameSecond
    refine ⟨number, fixed, fun m className => ?_⟩
    by_cases isFirst : (m, className) = first
    · subst isFirst
      exact sameFirst
    · by_cases isSecond : (m, className) = second
      · subst isSecond
        exact sameSecond
      · rcases elsewhere (m, className) isFirst isSecond with ⟨left, right⟩
        rw [left, right, rename_known owned placed fixed]
  cases firstEffect with
  | kept firstEntry firstLength firstOther =>
      apply assemble (Equiv.refl Nat) (fun _ _ => rfl)
      · rw [map_rename_refl, firstEntry, atFirst]
      · rw [map_rename_refl, atSecond]
        cases secondEffect with
        | kept secondEntry => rw [secondEntry]
        | launched entry renamed found otherFound =>
            rw [found, otherFound, firstLength]
  | launched firstEntry firstRenamed firstFound firstOther firstLength =>
      cases secondEffect with
      | kept secondEntry secondLength =>
          apply assemble (Equiv.refl Nat) (fun _ _ => rfl)
          · rw [map_rename_refl, firstOther, atFirst, firstFound,
              secondLength]
          · rw [map_rename_refl, atSecond, secondEntry]
      | launched entry renamed found otherFound secondLength =>
          -- the two numbers after the known ones are exchanged
          apply assemble
            (Equiv.swap o.children.length (o.children.length + 1))
          · intro old inside
            apply Equiv.swap_apply_of_ne_of_ne <;> omega
          · rw [firstOther, atFirst, firstFound, secondLength,
              Option.map_some, firstRenamed, Equiv.swap_apply_left]
          · rw [atSecond, found, otherFound, firstLength, Option.map_some,
              renamed, Equiv.swap_apply_right]

end Commute

/-! ## Updates of one class -/

/-- What a handler does for its class. -/
inductive Update where
  | keep
  | put (stored : StoredObject)
  | removeStoredSocket
  | removeStoredProcess
  | launch (callback : Callback) (commandLine : String)
      (pid creation : Json.Integer)

def Update.apply (key : Key) (o : Objects) : Update → Objects
  | .keep => o
  | .put stored => o.put key.1 key.2 stored
  | .removeStoredSocket => o.removeStoredSocket key.1 key.2
  | .removeStoredProcess => o.removeStoredProcess key.1 key.2
  | .launch callback commandLine pid creation =>
      o.launch
        { kind := key.1
          className := key.2
          callback := callback }
        commandLine pid creation

/-- A launch finds no entry. -/
def Update.Allowed (key : Key) (o : Objects) : Update → Prop
  | .launch .. => o.find? key.1 key.2 = none
  | _ => True

section Updates

variable {key : Key} {o other : Objects} {update : Update}

theorem Update.confined (owned : o.TimersOwned)
    (placed : o.supervision.Placed) (allowed : update.Allowed key o) :
    Confined key o (update.apply key o) := by
  cases update with
  | keep => exact .refl key o
  | put stored => exact confined_put key.1 key.2 stored
  | removeStoredSocket =>
      exact confined_removeStoredSocket owned key.1 key.2
  | removeStoredProcess =>
      exact confined_removeStoredProcess owned placed key.1 key.2
  | launch callback commandLine pid creation =>
      rcases key with ⟨m, className⟩
      have absent : o.find? m className = none := allowed
      let request : AddRequest :=
        { kind := m
          className := className
          callback := callback }
      have confined : Confined (home request) o
          (o.launch request commandLine pid creation) :=
        confined_launch owned absent commandLine pid creation
      exact confined

theorem Update.entryConfined (update : Update) (key : Key) (o : Objects) :
    EntryConfined key o (update.apply key o) := by
  intro elsewhere different
  cases update with
  | keep => rfl
  | put stored =>
      rw [Update.apply, find?_put, if_neg different]
  | removeStoredSocket =>
      rw [Update.apply, find?_removeStoredSocket, if_neg different]
  | removeStoredProcess =>
      rw [Update.apply, find?_removeStoredProcess, if_neg different]
  | launch callback commandLine pid creation =>
      rw [Update.apply, find?_launch, if_neg different]

/-- States that agree about a class agree after the same update of it. -/
theorem Update.sameEffect (agree : AgreeAt key o other)
    (allowed : update.Allowed key o) :
    SameEffect key o (update.apply key o) other
      (update.apply key other) := by
  cases update with
  | keep => exact .kept agree.entry rfl rfl
  | put stored =>
      refine .kept ?_ ?_ ?_
      · rw [Update.apply, Update.apply, find?_put, find?_put]
        simp
      · rw [Update.apply, children_put]
      · rw [Update.apply, children_put]
  | removeStoredSocket =>
      refine .kept ?_ ?_ ?_
      · rw [Update.apply, Update.apply, find?_removeStoredSocket,
          find?_removeStoredSocket, if_pos rfl, if_pos rfl, agree.entry]
      · rw [Update.apply, children_removeStoredSocket]
      · rw [Update.apply, children_removeStoredSocket]
  | removeStoredProcess =>
      refine .kept ?_ ?_ ?_
      · rw [Update.apply, Update.apply, find?_removeStoredProcess,
          find?_removeStoredProcess, if_pos rfl, if_pos rfl, agree.entry]
      · rw [Update.apply, children_removeStoredProcess,
          children_length_destroyProcess]
      · rw [Update.apply, children_removeStoredProcess,
          children_length_destroyProcess]
  | launch callback commandLine pid creation =>
      have absent : o.find? key.1 key.2 = none := allowed
      have otherAbsent : other.find? key.1 key.2 = none :=
        agree.entry.trans absent
      refine .launched
        (fun number =>
          { className := key.2
            process := some
              { child := number
                pid := pid
                creation := creation }
            isBeingAdded := true
            onAddTimer := some number })
        (fun _ _ => rfl) ?_ ?_ ?_
      · rw [Update.apply, find?_launch, if_pos rfl, launched, absent]
        rfl
      · rw [Update.apply, find?_launch, if_pos rfl, launched, otherAbsent]
        rfl
      · simp [Update.apply, Objects.launch]

theorem AgreeAt.takeWait (agree : AgreeAt key o other) (timer : Nat) :
    AgreeAt key (o.takeWait timer) (other.takeWait timer) where
  entry := by
    rw [find?_takeWait, find?_takeWait]
    exact agree.entry
  child := agree.child
  wait here := by
    rw [Objects.takeWait, Objects.takeWait, Waits.lookup_erase_eq,
      Waits.lookup_erase_eq]
    split
    · rfl
    · exact agree.wait here

theorem AgreeAt.deliverExit (agree : AgreeAt key o other) (child : Nat) :
    AgreeAt key (o.deliverExit child) (other.deliverExit child) where
  entry := by
    rw [find?_deliverExit, find?_deliverExit]
    exact agree.entry
  child := by
    intro number c here
    simp only [Objects.deliverExit, List.getElem?_modify]
    split
    · constructor
      · intro found
        rcases Option.map_eq_some_iff.mp found with ⟨old, present, rfl⟩
        have owned : childKey old = key := here
        rw [(agree.child owned).mp present]
        rfl
      · intro found
        rcases Option.map_eq_some_iff.mp found with ⟨old, present, rfl⟩
        have owned : childKey old = key := here
        rw [(agree.child owned).mpr present]
        rfl
    · simpa using agree.child here
  wait := agree.wait

/-- What has the event loop do before it runs a handler of a class. -/
inductive Occasion where
  | request
  | wait (timer : Nat)
  | exit (child : Nat)

def Occasion.begin (o : Objects) : Occasion → Objects
  | .request => o
  | .wait timer => o.takeWait timer
  | .exit child => o.deliverExit child

/-- The wait or the child is that of the class. -/
def Occasion.Of (key : Key) (o : Objects) : Occasion → Prop
  | .request => True
  | .wait timer => ∀ wait, o.addWaits.lookup timer = some wait →
      home wait.request = key
  | .exit child => ∀ c, o.children[child]? = some c → childKey c = key

theorem Occasion.confined {occasion : Occasion} (of : occasion.Of key o) :
    Confined key o (occasion.begin o) := by
  cases occasion with
  | request => exact .refl key o
  | wait timer => exact confined_takeWait of
  | exit child => exact confined_deliverExit of

theorem Occasion.find?_begin (occasion : Occasion) (o : Objects)
    (m : MonitorOrScraper) (className : String) :
    (occasion.begin o).find? m className = o.find? m className := by
  cases occasion with
  | request => rfl
  | wait timer => exact find?_takeWait timer o m className
  | exit child => exact find?_deliverExit child o m className

theorem Occasion.children_length (occasion : Occasion) (o : Objects) :
    (occasion.begin o).children.length = o.children.length := by
  cases occasion with
  | request => rfl
  | wait timer => rfl
  | exit child => exact List.length_modify ..

theorem Occasion.agreeAt (occasion : Occasion)
    (agree : AgreeAt key o other) :
    AgreeAt key (occasion.begin o) (occasion.begin other) := by
  cases occasion with
  | request => exact agree
  | wait timer => exact agree.takeWait timer
  | exit child => exact agree.deliverExit child

theorem Occasion.timersOwned (occasion : Occasion)
    (owned : o.TimersOwned) : (occasion.begin o).TimersOwned := by
  cases occasion with
  | request => exact owned
  | wait timer => exact timersOwned_takeWait owned timer
  | exit child => exact timersOwned_change owned (.deliverExit child trivial)

theorem Occasion.placed (occasion : Occasion)
    (placed : o.supervision.Placed) :
    (occasion.begin o).supervision.Placed := by
  cases occasion with
  | request => exact placed
  | wait timer => exact placed_takeWait placed timer
  | exit child => exact placed_change placed (.deliverExit child trivial)

/-- The process of an entry runs alike where the states agree. -/
theorem AgreeAt.running (agree : AgreeAt key o other)
    (placed : o.supervision.Placed) {stored : StoredObject}
    (found : o.find? key.1 key.2 = some stored) {process : Process}
    (held : stored.process = some process) :
    other.running process = o.running process := by
  rcases childKey_of_placed placed found held with ⟨c, there, here⟩
  rw [Objects.running, Objects.running, there, (agree.child here).mpr there]

end Updates

end Objects

end KekMonitors
