import Mathlib.Data.List.Basic

/-!
# Records in a buffer

A loop over a buffer handles what lies at a position and goes on behind it: a
header of fixed size and a payload whose size the header tells.  Over records
that lie one behind the other it handles each of them once, in their order,
whatever lies before and behind them.
-/

namespace KekMonitors.Records

variable {Item Record State Failure : Type*}

/--
`while (i < len)`, with `i` advancing by the header and by the payload that
the handler found.
-/
def walk (header : Nat) (positive : 0 < header)
    (handle : Nat → State → Except Failure (State × Nat)) (len i : Nat)
    (state : State) : Except Failure State :=
  if i < len then
    match handle i state with
    | .error failure => .error failure
    | .ok (next, payload) =>
        walk header positive handle len (i + header + payload) next
  else .ok state
termination_by len - i

/-- Handle some records, one after the other. -/
def handleAll (act : Record → State → Except Failure State) :
    List Record → State → Except Failure State
  | [], state => .ok state
  | record :: records, state =>
      match act record state with
      | .error failure => .error failure
      | .ok next => handleAll act records next

/--
Wherever a record lies in a buffer, the handler acts on it and finds its size.
-/
structure HandledAs (header : Nat) (layout : Record → List Item)
    (handle : List Item → Nat → State → Except Failure (State × Nat))
    (act : Record → State → Except Failure State) (record : Record) :
    Prop where
  size : header ≤ (layout record).length
  handled : ∀ before after state,
    handle (before ++ layout record ++ after) before.length state =
      (act record state).map fun next =>
        (next, (layout record).length - header)

/-- The loop over records that lie one behind the other. -/
theorem walk_layout {header : Nat} (positive : 0 < header)
    {layout : Record → List Item}
    {handle : List Item → Nat → State → Except Failure (State × Nat)}
    {act : Record → State → Except Failure State} (records : List Record)
    (handled : ∀ record ∈ records,
      HandledAs header layout handle act record)
    (before after : List Item) (state : State) :
    walk header positive (handle (before ++ records.flatMap layout ++ after))
        (before ++ records.flatMap layout).length before.length state =
      handleAll act records state := by
  induction records generalizing before state with
  | nil =>
      rw [walk, if_neg (by simp), handleAll]
  | cons record records ih =>
      have first := handled record List.mem_cons_self
      have inside : before.length <
          (before ++ (record :: records).flatMap layout).length := by
        have size := first.size
        simp only [List.flatMap_cons, List.length_append]
        omega
      have whole : before ++ (record :: records).flatMap layout ++ after =
          before ++ layout record ++ (records.flatMap layout ++ after) := by
        simp
      rw [walk, if_pos inside, whole, first.handled, handleAll]
      cases act record state with
      | error failure => rfl
      | ok next =>
          have later := ih
            (fun other member => handled other (List.mem_cons_of_mem _ member))
            (before ++ layout record) next
          have position : before.length + header +
              ((layout record).length - header) =
                (before ++ layout record).length := by
            have size := first.size
            simp only [List.length_append]
            omega
          have sameEnd : (before ++ (record :: records).flatMap layout).length =
              (before ++ layout record ++ records.flatMap layout).length := by
            simp
          simp only [Except.map, position, sameEnd]
          rw [← later, List.append_assoc (before ++ layout record)]

/-! ## What fits -/

/-- How many of the records in front fit in a room. -/
def fitting (size : Record → Nat) : Nat → List Record → Nat
  | _, [] => 0
  | room, record :: records =>
      if size record ≤ room then
        fitting size (room - size record) records + 1
      else 0

theorem length_fitting_le (layout : Record → List Item) (room : Nat)
    (records : List Record) :
    ((records.take (fitting (fun record => (layout record).length) room
      records)).flatMap layout).length ≤ room := by
  induction records generalizing room with
  | nil => simp
  | cons record records ih =>
      rw [fitting]
      split
      · rename_i fits
        have rest := ih (room - (layout record).length)
        rw [List.take_succ_cons, List.flatMap_cons, List.length_append]
        omega
      · simp

/-- Something is read of a queue whose first record fits. -/
theorem fitting_pos {size : Record → Nat} {room : Nat} {record : Record}
    {records : List Record} (fits : size record ≤ room) :
    0 < fitting size room (record :: records) := by
  rw [fitting, if_pos fits]
  exact Nat.succ_pos _

end KekMonitors.Records
