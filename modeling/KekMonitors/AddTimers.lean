import KekMonitors.Children

/-!
# Add timers

The add timer of an entry sits in the slot of its class.  It is numbered with
its child, so a timer belongs to one add request, and a wait that finds itself
cancelled has lost its entry.
-/

namespace KekMonitors.Objects

open Timer

/-- The class that an add request is about. -/
abbrev home (request : AddRequest) : Key := (request.kind, request.className)

def timerSlots (o : Objects) (key : Key) : Option Nat :=
  (o.find? key.1 key.2).bind StoredObject.onAddTimer

/-- The add timers are owned by the entries of their requests. -/
def TimersOwned (o : Objects) : Prop :=
  Owned home o.children.length o.timerSlots o.addWaits

theorem timersOwned_empty : ({} : Objects).TimersOwned := by
  have slots : ({} : Objects).timerSlots = fun _ => none := by
    funext key
    simp [timerSlots]
  rw [TimersOwned, slots]
  exact Owned.empty

/-- The slots as they are once the entry of a class is gone. -/
theorem timerSlots_of_erased {o next : Objects} {m : MonitorOrScraper}
    {className : String}
    (find? : ∀ other name, next.find? other name =
      if (other, name) = (m, className) then none
      else o.find? other name) :
    next.timerSlots = Function.update o.timerSlots (m, className) none := by
  funext key
  simp only [timerSlots, find?, Function.update_apply]
  split <;> rfl

/-- An entry that keeps its timer, or is absent, keeps the slots. -/
theorem timerSlots_of_kept {o next : Objects} {m : MonitorOrScraper}
    {className : String} {stored : Option StoredObject}
    (find? : ∀ other name, next.find? other name =
      if (other, name) = (m, className) then stored
      else o.find? other name)
    (same : stored.bind StoredObject.onAddTimer =
      (o.find? m className).bind StoredObject.onAddTimer) :
    next.timerSlots = o.timerSlots := by
  funext key
  simp only [timerSlots, find?]
  split
  · rename_i here
    rcases Prod.mk.inj here with ⟨rfl, rfl⟩
    exact same
  · rfl

theorem timersOwned_put {o : Objects} (owned : o.TimersOwned)
    {m : MonitorOrScraper} {className : String} {old stored : StoredObject}
    (found : o.find? m className = some old)
    (same : stored.onAddTimer = old.onAddTimer) :
    (o.put m className stored).TimersOwned := by
  have slots : (o.put m className stored).timerSlots = o.timerSlots := by
    apply timerSlots_of_kept (find?_put o m · className · stored)
    rw [found]
    exact same
  rw [TimersOwned, slots, children_put, addWaits_put]
  exact owned

/-- The wait of an erased entry is cancelled. -/
theorem timersOwned_erase {o : Objects} (owned : o.TimersOwned)
    (m : MonitorOrScraper) (className : String) :
    (o.erase m className).TimersOwned := by
  have slots := timerSlots_of_erased (find?_erase o m · className ·)
  rw [TimersOwned, slots, addWaits_erase, children_erase,
    children_length_destroyProcess]
  exact owned.clear (m, className)

theorem timersOwned_kill {o : Objects} (owned : o.TimersOwned)
    (child : Nat) : (o.kill child).TimersOwned := by
  have slots : (o.kill child).timerSlots = o.timerSlots := by
    funext key
    simp [timerSlots]
  rw [TimersOwned, slots, children_length_kill, addWaits_kill]
  exact owned

theorem timersOwned_destroyProcess {o : Objects} (owned : o.TimersOwned)
    (process : Option Process) : (o.destroyProcess process).TimersOwned := by
  cases process with
  | none => exact owned
  | some process => exact timersOwned_kill owned process.child

theorem addWaits_launch {o : Objects} {request : AddRequest}
    (absent : o.find? request.kind request.className = none)
    (commandLine : String) (pid creation : Json.Integer) :
    (o.launch request commandLine pid creation).addWaits =
      o.addWaits.start o.children.length request := by
  simp [launch, absent, destroyTimer, Waits.destroy]

/-- A launch puts its timer into the free slot of its class. -/
theorem timersOwned_launch {o : Objects} (owned : o.TimersOwned)
    {request : AddRequest}
    (absent : o.find? request.kind request.className = none)
    (commandLine : String) (pid creation : Json.Integer) :
    (o.launch request commandLine pid creation).TimersOwned := by
  have slots : (o.launch request commandLine pid creation).timerSlots =
      Function.update o.timerSlots (home request)
        (some o.children.length) := by
    funext key
    simp only [timerSlots, find?_launch, Function.update_apply]
    split <;> rfl
  have children :
      (o.launch request commandLine pid creation).children.length =
        o.children.length + 1 := by
    simp [launch]
  rw [TimersOwned, slots, children, addWaits_launch absent]
  apply owned.fill
  · simp [timerSlots, absent]
  · rfl

/-- Every change leaves the timers with their entries. -/
theorem timersOwned_change {o next : Objects} (owned : o.TimersOwned)
    (change : Change o next) : next.TimersOwned := by
  cases change with
  | setEndpoint found path => exact timersOwned_put owned found rfl
  | setFlags found isBeingAdded isBeingStopped confirmAdded notRaised =>
      exact timersOwned_put owned found rfl
  | removeStoredSocket m className =>
      rw [removeStoredSocket]
      cases found : o.find? m className with
      | none => exact owned
      | some stored =>
          have updated : (o.put m className
              { stored with endpoint := none }).TimersOwned :=
            timersOwned_put owned found rfl
          dsimp only
          split
          · exact timersOwned_erase updated m className
          · exact updated
  | removeStoredProcess m className =>
      rw [removeStoredProcess]
      cases found : o.find? m className with
      | none => exact owned
      | some stored =>
          have cleared : (o.put m className
              { stored with process := none }).TimersOwned :=
            timersOwned_put owned found rfl
          have updated := timersOwned_destroyProcess cleared stored.process
          dsimp only
          split
          · exact timersOwned_erase updated m className
          · exact updated
  | kill child => exact timersOwned_kill owned child
  | deliverExit child =>
      have slots : (o.deliverExit child).timerSlots = o.timerSlots := by
        funext key
        simp [timerSlots]
      have children : (o.deliverExit child).children.length =
          o.children.length := List.length_modify ..
      rw [TimersOwned, slots, children]
      exact owned
  | expireTimer timer =>
      have slots : (o.expireTimer timer).timerSlots = o.timerSlots := by
        funext key
        simp [timerSlots]
      rw [TimersOwned, slots]
      exact owned.expire timer

theorem timersOwned_takeWait {o : Objects} (owned : o.TimersOwned)
    (timer : Nat) : (o.takeWait timer).TimersOwned := by
  have slots : (o.takeWait timer).timerSlots = o.timerSlots := by
    funext key
    simp [timerSlots]
  rw [TimersOwned, slots]
  exact owned.take timer

/-! ## Outstanding requests -/

/-- The request that the handler of a timer is still to answer. -/
def awaited (o : Objects) (timer : Nat) : Option AddRequest :=
  (o.addWaits.lookup timer).map Wait.request

theorem awaited_put (o : Objects) (m : MonitorOrScraper)
    (className : String) (stored : StoredObject) (timer : Nat) :
    (o.put m className stored).awaited timer = o.awaited timer := by
  rw [awaited, addWaits_put]
  rfl

/-- The wait of an erased entry is settled, and still outstanding. -/
theorem awaited_erase (o : Objects) (m : MonitorOrScraper)
    (className : String) (timer : Nat) :
    (o.erase m className).awaited timer = o.awaited timer := by
  rw [awaited, addWaits_erase]
  exact Waits.map_request_destroy _ timer o.addWaits

theorem awaited_destroyProcess (o : Objects) (process : Option Process)
    (timer : Nat) :
    (o.destroyProcess process).awaited timer = o.awaited timer := by
  rw [awaited, addWaits_destroyProcess]
  rfl

/-- No change loses a request. -/
theorem awaited_change {o next : Objects} (change : Change o next)
    (timer : Nat) : next.awaited timer = o.awaited timer := by
  cases change with
  | setEndpoint found path => exact awaited_put ..
  | setFlags => exact awaited_put ..
  | removeStoredSocket m className =>
      rw [removeStoredSocket]
      split
      · rfl
      · dsimp only
        split
        · rw [awaited_erase, awaited_put]
        · exact awaited_put ..
  | removeStoredProcess m className =>
      rw [removeStoredProcess]
      split
      · rfl
      · dsimp only
        split
        · rw [awaited_erase, awaited_destroyProcess, awaited_put]
        · rw [awaited_destroyProcess, awaited_put]
  | kill child => rfl
  | deliverExit child => rfl
  | expireTimer other =>
      exact Waits.map_request_settle .expired other timer o.addWaits

theorem awaited_changes {o next : Objects} (changes : Changes o next)
    (timer : Nat) : next.awaited timer = o.awaited timer := by
  induction changes with
  | refl => rfl
  | tail _ last ih => rw [awaited_change last, ih]

theorem awaited_takeWait (o : Objects) (timer other : Nat) :
    (o.takeWait timer).awaited other =
      if other = timer then none else o.awaited other := by
  rw [awaited, takeWait, Waits.lookup_erase_eq]
  split <;> rfl

/-- A launch adds a request under a new number. -/
theorem awaited_launch {o : Objects} {request : AddRequest}
    (absent : o.find? request.kind request.className = none)
    (commandLine : String) (pid creation : Json.Integer) (timer : Nat) :
    (o.launch request commandLine pid creation).awaited timer =
      if timer = o.children.length then some request
      else o.awaited timer := by
  rw [awaited, addWaits_launch absent, Waits.lookup_start]
  split <;> rfl

theorem TimersOwned.awaited_lt {o : Objects} (owned : o.TimersOwned)
    {timer : Nat} {request : AddRequest}
    (waits : o.awaited timer = some request) :
    timer < o.children.length := by
  rcases Option.map_eq_some_iff.mp waits with ⟨wait, found, -⟩
  exact owned.wait_lt found

/-! ## All invariants -/

/-- What holds of the stored objects in every state of the manager. -/
structure Sound (o : Objects) : Prop where
  wellKept : o.WellKept
  held : o.supervision.Held
  timersOwned : o.TimersOwned

theorem sound_empty : ({} : Objects).Sound :=
  ⟨wellKept_empty, held_empty, timersOwned_empty⟩

theorem Sound.progress {o next : Objects} (sound : o.Sound)
    (progress : Progress o next) : next.Sound := by
  cases progress with
  | launch request commandLine pid creation admitted =>
      have absent := sound.wellKept.absent admitted
      constructor
      · exact sound.wellKept.launch admitted commandLine pid creation
      · exact held_launch sound.held absent commandLine pid creation
      · exact timersOwned_launch sound.timersOwned absent commandLine pid
          creation
  | change changed =>
      constructor
      · exact sound.wellKept.change changed
      · exact held_change sound.held changed
      · exact timersOwned_change sound.timersOwned changed
  | takeWait timer =>
      constructor
      · exact sound.wellKept.takeWait timer
      · exact held_takeWait sound.held timer
      · exact timersOwned_takeWait sound.timersOwned timer

theorem Sound.changes {o next : Objects} (sound : o.Sound)
    (changes : Changes o next) : next.Sound := by
  induction changes with
  | refl => exact sound
  | tail _ last ih => exact ih.progress (.change last)

theorem placed_progress {o next : Objects} (sound : o.Sound)
    (placed : o.supervision.Placed) (progress : Progress o next) :
    next.supervision.Placed := by
  cases progress with
  | launch request commandLine pid creation admitted =>
      exact placed_launch placed (sound.wellKept.absent admitted) commandLine
        pid creation
  | change changed => exact placed_change placed changed
  | takeWait timer => exact placed_takeWait placed timer

end KekMonitors.Objects
