import Mathlib.Data.List.AList
import Mathlib.Logic.Function.Basic

/-!
# Waits on one-shot timers

A wait is queued under the number of its timer.  Its handler becomes runnable
when the timer expires, or when the timer is cancelled before that, and knows
which of the two happened.  Running a handler takes its wait out of the queue.
-/

namespace KekMonitors.Timer

inductive WaitStatus where
  | waiting
  | expired
  | cancelled
  deriving DecidableEq, Repr

structure Wait (Request : Type*) where
  request : Request
  status : WaitStatus := .waiting

variable {Request : Type*}

/-- A wait whose handler is queued keeps its outcome. -/
def Wait.settle (status : WaitStatus) (wait : Wait Request) : Wait Request :=
  match wait.status with
  | .waiting => { wait with status := status }
  | _ => wait

@[simp]
theorem Wait.settle_request (status : WaitStatus) (wait : Wait Request) :
    (wait.settle status).request = wait.request := by
  rcases wait with ⟨request, _ | _ | _⟩ <;> rfl

/-- The outcome of a settled wait is old, or the new one of a waiting one. -/
theorem Wait.settle_status (status : WaitStatus) (wait : Wait Request) :
    (wait.settle status).status = wait.status ∧ wait.status ≠ .waiting ∨
      (wait.settle status).status = status ∧ wait.status = .waiting := by
  rcases wait with ⟨request, _ | _ | _⟩
  · exact Or.inr ⟨rfl, rfl⟩
  · exact Or.inl ⟨rfl, by simp⟩
  · exact Or.inl ⟨rfl, by simp⟩

/-- The outstanding waits, at most one for each timer. -/
abbrev Waits (Request : Type*) := AList fun _ : Nat => Wait Request

namespace Waits

def start (waits : Waits Request) (timer : Nat) (request : Request) :
    Waits Request :=
  waits.insert timer { request := request }

def settle (status : WaitStatus) (timer : Nat) (waits : Waits Request) :
    Waits Request :=
  match waits.lookup timer with
  | none => waits
  | some wait => waits.insert timer (wait.settle status)

def cancel (timer : Nat) (waits : Waits Request) : Waits Request :=
  settle .cancelled timer waits

/-- The destruction of a timer, if there is one, cancels it. -/
def destroy (timer : Option Nat) (waits : Waits Request) : Waits Request :=
  match timer with
  | none => waits
  | some timer => waits.cancel timer

/-- The time of the timer has passed. -/
def expire (timer : Nat) (waits : Waits Request) : Waits Request :=
  settle .expired timer waits

theorem lookup_start (waits : Waits Request) (timer other : Nat)
    (request : Request) :
    (waits.start timer request).lookup other =
      if other = timer then some { request := request }
      else waits.lookup other := by
  split
  · rename_i same
    subst same
    exact AList.lookup_insert waits
  · rename_i different
    exact AList.lookup_insert_ne different

theorem lookup_settle (status : WaitStatus) (timer other : Nat)
    (waits : Waits Request) :
    (settle status timer waits).lookup other =
      if other = timer then (waits.lookup other).map (Wait.settle status)
      else waits.lookup other := by
  by_cases same : other = timer
  · subst same
    rw [if_pos rfl, settle]
    cases found : waits.lookup other with
    | none => exact found
    | some wait => exact AList.lookup_insert waits
  · rw [if_neg same, settle]
    cases waits.lookup timer with
    | none => rfl
    | some wait => exact AList.lookup_insert_ne same

theorem lookup_erase_eq (timer other : Nat) (waits : Waits Request) :
    (waits.erase timer).lookup other =
      if other = timer then none else waits.lookup other := by
  split
  · rename_i same
    subst same
    exact AList.lookup_erase _ waits
  · rename_i different
    exact AList.lookup_erase_ne different

/-- Settling changes no request and invents no wait. -/
theorem map_request_settle (status : WaitStatus) (timer other : Nat)
    (waits : Waits Request) :
    ((settle status timer waits).lookup other).map Wait.request =
      (waits.lookup other).map Wait.request := by
  rw [lookup_settle]
  split
  · rw [Option.map_map]
    congr 1
    funext wait
    exact wait.settle_request status
  · rfl

theorem map_request_destroy (timer : Option Nat) (other : Nat)
    (waits : Waits Request) :
    ((waits.destroy timer).lookup other).map Wait.request =
      (waits.lookup other).map Wait.request := by
  cases timer with
  | none => rfl
  | some timer => exact map_request_settle .cancelled timer other waits

/-- A wait after settling comes from one before. -/
theorem of_lookup_settle {status : WaitStatus} {timer other : Nat}
    {waits : Waits Request} {wait : Wait Request}
    (found : (settle status timer waits).lookup other = some wait) :
    ∃ old, waits.lookup other = some old ∧ wait.request = old.request ∧
      (wait.status = old.status ∧
          (other = timer → old.status ≠ .waiting) ∨
        wait.status = status ∧ other = timer ∧ old.status = .waiting) := by
  rw [lookup_settle] at found
  split at found
  · rename_i same
    rcases Option.map_eq_some_iff.mp found with ⟨old, present, rfl⟩
    refine ⟨old, present, old.settle_request status, ?_⟩
    rcases old.settle_status status with ⟨kept, settled⟩ | ⟨now, before⟩
    · exact Or.inl ⟨kept, fun _ => settled⟩
    · exact Or.inr ⟨now, same, before⟩
  · rename_i different
    exact ⟨wait, found, rfl, Or.inl ⟨rfl, fun same => absurd same different⟩⟩

end Waits

/-! ## Timers owned by slots -/

section Owned

variable {Key : Type*}

/--
Timers that live in slots, one slot for each key.  A timer is numbered from a
counter, sits in the slot of the key its wait was started for, and is cancelled
when it leaves the slot, so a waiting handler finds its timer in place and a
cancelled one does not.  A handler finds no timer that is older than its own.
-/
structure Owned (home : Request → Key) (next : Nat)
    (slots : Key → Option Nat) (waits : Waits Request) : Prop where
  wait_lt : ∀ {timer wait}, waits.lookup timer = some wait → timer < next
  slot_lt : ∀ {key timer}, slots key = some timer → timer < next
  slot_unique : ∀ {first second timer}, slots first = some timer →
    slots second = some timer → first = second
  waiting : ∀ {timer wait}, waits.lookup timer = some wait →
    wait.status = .waiting → slots (home wait.request) = some timer
  cancelled : ∀ {timer wait}, waits.lookup timer = some wait →
    wait.status = .cancelled → ∀ key, slots key ≠ some timer
  latest : ∀ {timer wait other}, waits.lookup timer = some wait →
    slots (home wait.request) = some other → timer ≤ other

namespace Owned

variable {home : Request → Key} {next : Nat} {slots : Key → Option Nat}
  {waits : Waits Request}

theorem empty : Owned home next (fun _ => none) ∅ where
  wait_lt found := by simp at found
  slot_lt found := by simp at found
  slot_unique found := by simp at found
  waiting found := by simp at found
  cancelled found := by simp at found
  latest found := by simp at found

/-- Expiry leaves the timer in its slot. -/
theorem expire (owned : Owned home next slots waits) (timer : Nat) :
    Owned home next slots (waits.expire timer) where
  wait_lt found := by
    rcases Waits.of_lookup_settle found with ⟨old, present, -, -⟩
    exact owned.wait_lt present
  slot_lt := owned.slot_lt
  slot_unique := owned.slot_unique
  waiting found status := by
    rcases Waits.of_lookup_settle found with
      ⟨old, present, request, ⟨kept, -⟩ | ⟨now, -, -⟩⟩
    · rw [request]
      exact owned.waiting present (kept ▸ status)
    · rw [now] at status
      simp at status
  cancelled found status := by
    rcases Waits.of_lookup_settle found with
      ⟨old, present, -, ⟨kept, -⟩ | ⟨now, -, -⟩⟩
    · exact owned.cancelled present (kept ▸ status)
    · rw [now] at status
      simp at status
  latest found slot := by
    rcases Waits.of_lookup_settle found with ⟨old, present, request, -⟩
    exact owned.latest present (request ▸ slot)

/-- Taking a handler out of the queue leaves the slots alone. -/
theorem take (owned : Owned home next slots waits) (timer : Nat) :
    Owned home next slots (waits.erase timer) := by
  have present : ∀ {other wait},
      (waits.erase timer).lookup other = some wait →
        waits.lookup other = some wait := by
    intro other wait found
    rw [Waits.lookup_erase_eq] at found
    split at found
    · simp at found
    · exact found
  constructor
  · intro other wait found
    exact owned.wait_lt (present found)
  · exact owned.slot_lt
  · exact owned.slot_unique
  · intro other wait found
    exact owned.waiting (present found)
  · intro other wait found
    exact owned.cancelled (present found)
  · intro other wait later found
    exact owned.latest (present found)

variable [DecidableEq Key]

/-- A cleared slot destroys the timer it held. -/
theorem clear (owned : Owned home next slots waits) (key : Key) :
    Owned home next (Function.update slots key none)
      (waits.destroy (slots key)) := by
  have old : ∀ {other found},
      Function.update slots key none other = some found →
        other ≠ key ∧ slots other = some found := by
    intro other found filled
    rw [Function.update_apply] at filled
    split at filled
    · simp at filled
    · rename_i different
      exact ⟨different, filled⟩
  have wait_cases : ∀ {other wait},
      (waits.destroy (slots key)).lookup other = some wait →
        ∃ before, waits.lookup other = some before ∧
          wait.request = before.request ∧
          (wait.status = before.status ∧
              (before.status = .waiting → slots key ≠ some other) ∨
            wait.status = .cancelled ∧ slots key = some other) := by
    intro other wait found
    cases held : slots key with
    | none =>
        rw [held] at found
        exact ⟨wait, found, rfl, Or.inl ⟨rfl, by simp⟩⟩
    | some timer =>
        rw [held] at found
        rcases Waits.of_lookup_settle found with
          ⟨before, present, request, ⟨kept, settled⟩ | ⟨now, rfl, -⟩⟩
        · refine ⟨before, present, request, Or.inl ⟨kept, ?_⟩⟩
          intro status same
          exact settled (Option.some.inj same).symm status
        · exact ⟨before, present, request, Or.inr ⟨now, rfl⟩⟩
  constructor
  · intro other wait found
    rcases wait_cases found with ⟨before, present, -, -⟩
    exact owned.wait_lt present
  · intro other found filled
    exact owned.slot_lt (old filled).2
  · intro first second found firstFilled secondFilled
    exact owned.slot_unique (old firstFilled).2 (old secondFilled).2
  · intro other wait found status
    rcases wait_cases found with
      ⟨before, present, request, ⟨kept, elsewhere⟩ | ⟨now, -⟩⟩
    · have slot := owned.waiting present (kept ▸ status)
      rw [request, Function.update_of_ne ?_]
      · exact slot
      · intro same
        exact elsewhere (kept ▸ status) (same ▸ slot)
    · rw [now] at status
      simp at status
  · intro other wait found status elsewhere filled
    rcases old filled with ⟨different, slot⟩
    rcases wait_cases found with
      ⟨before, present, -, ⟨kept, -⟩ | ⟨-, here⟩⟩
    · exact owned.cancelled present (kept ▸ status) elsewhere slot
    · exact different (owned.slot_unique slot here)
  · intro other wait later found filled
    rcases wait_cases found with ⟨before, present, request, -⟩
    exact owned.latest present (request ▸ (old filled).2)

/-- A new timer goes into a free slot. -/
theorem fill (owned : Owned home next slots waits) {key : Key}
    (free : slots key = none) {request : Request}
    (here : home request = key) :
    Owned home (next + 1) (Function.update slots key (some next))
      (waits.start next request) := by
  have wait_cases : ∀ {timer wait},
      (waits.start next request).lookup timer = some wait →
        timer = next ∧ wait = { request := request } ∨
          timer < next ∧ waits.lookup timer = some wait := by
    intro timer wait found
    rw [Waits.lookup_start] at found
    split at found
    · rename_i same
      exact Or.inl ⟨same, (Option.some.inj found).symm⟩
    · exact Or.inr ⟨owned.wait_lt found, found⟩
  have slot_cases : ∀ {other timer},
      Function.update slots key (some next) other = some timer →
        other = key ∧ timer = next ∨
          timer < next ∧ slots other = some timer := by
    intro other timer filled
    rw [Function.update_apply] at filled
    split at filled
    · rename_i same
      exact Or.inl ⟨same, (Option.some.inj filled).symm⟩
    · exact Or.inr ⟨owned.slot_lt filled, filled⟩
  constructor
  · intro timer wait found
    rcases wait_cases found with ⟨same, -⟩ | ⟨old, -⟩ <;> omega
  · intro other timer filled
    rcases slot_cases filled with ⟨-, same⟩ | ⟨old, -⟩ <;> omega
  · intro first second timer firstFilled secondFilled
    rcases slot_cases firstFilled with ⟨rfl, rfl⟩ | ⟨lower, firstOld⟩
    · rcases slot_cases secondFilled with ⟨rfl, -⟩ | ⟨lower, -⟩
      · rfl
      · exact absurd lower (lt_irrefl _)
    · rcases slot_cases secondFilled with ⟨-, same⟩ | ⟨-, secondOld⟩
      · exact absurd lower (same ▸ lt_irrefl _)
      · exact owned.slot_unique firstOld secondOld
  · intro timer wait found status
    rcases wait_cases found with ⟨rfl, rfl⟩ | ⟨-, old⟩
    · rw [here]
      exact Function.update_self ..
    · have slot := owned.waiting old status
      rw [Function.update_of_ne ?_]
      · exact slot
      · intro same
        rw [same, free] at slot
        simp at slot
  · intro timer wait found status other filled
    rcases wait_cases found with ⟨-, rfl⟩ | ⟨lower, old⟩
    · simp at status
    · rcases slot_cases filled with ⟨-, same⟩ | ⟨-, slot⟩
      · exact absurd lower (same ▸ lt_irrefl _)
      · exact owned.cancelled old status other slot
  · intro timer wait later found filled
    rcases wait_cases found with ⟨rfl, rfl⟩ | ⟨lower, old⟩
    · rw [here, Function.update_self] at filled
      exact le_of_eq (Option.some.inj filled)
    · rcases slot_cases filled with ⟨-, rfl⟩ | ⟨-, slot⟩
      · exact le_of_lt lower
      · exact owned.latest old slot

end Owned

end Owned

end KekMonitors.Timer
