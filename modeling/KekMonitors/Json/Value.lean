import KekMonitors.Json.Quoted
import Mathlib.Data.String.Basic

/-!
# JSON values

`Tree` is the raw syntax.  An object of the library this models is an ordered
map, so a tree is a value only when the keys of each object are strictly
increasing; `Json` carries that fact, and the operations below keep it.  An
integer carries its 64-bit range, and a number outside it or with a fraction
or an exponent is kept as its literal, which stands for the finite double it
denotes.
-/

namespace KekMonitors.Json

/-- The integers of the library, signed or unsigned, in 64 bits. -/
abbrev Integer := { i : Int // -2 ^ 63 ≤ i ∧ i < 2 ^ 64 }

def Integer.ofInt? (i : Int) : Option Integer :=
  if range : -2 ^ 63 ≤ i ∧ i < 2 ^ 64 then some ⟨i, range⟩ else none

@[simp]
theorem Integer.ofInt?_val (i : Integer) : Integer.ofInt? i.val = some i :=
  dif_pos i.property

/-- A token that reads as an integer of the library. -/
def readInteger (token : List Byte) : Option Integer :=
  (integerOfToken token).bind Integer.ofInt?

/-- A finite double, represented by a literal that denotes it. -/
structure FloatLiteral where
  token : List Byte
  complete : scanNumber token = some (token, [])
  notInteger : readInteger token = none
  finite : isFinite token = true
  deriving DecidableEq

inductive Tree where
  | null
  | bool (value : Bool)
  | integer (value : Integer)
  | float (value : FloatLiteral)
  | string (value : String)
  | array (items : List Tree)
  | object (members : List (String × Tree))

/-! ## Objects as ordered maps -/

/-- Assign to a key of an ordered association list. -/
def insertMember {α : Type} (key : String) (value : α) :
    List (String × α) → List (String × α)
  | [] => [(key, value)]
  | (other, old) :: rest =>
      if key < other then (key, value) :: (other, old) :: rest
      else if key = other then (key, value) :: rest
      else (other, old) :: insertMember key value rest

def findMember {α : Type} (key : String) :
    List (String × α) → Option α
  | [] => none
  | (other, value) :: rest =>
      if key = other then some value else findMember key rest

/-- Strictly increasing keys. -/
def Ordered {α : Type} (members : List (String × α)) : Prop :=
  members.Pairwise fun left right => left.1 < right.1

section OrderedMaps

variable {α : Type} {key other : String} {value : α}
  {members : List (String × α)}

theorem mem_insertMember {pair : String × α}
    (member : pair ∈ insertMember key value members) :
    pair = (key, value) ∨ pair ∈ members := by
  induction members with
  | nil => simpa [insertMember] using member
  | cons head rest ih =>
      rcases head with ⟨other, old⟩
      simp only [insertMember] at member
      split at member
      · simpa using member
      · split at member
        · rcases List.mem_cons.mp member with same | old
          · exact Or.inl same
          · exact Or.inr (List.mem_cons_of_mem _ old)
        · rcases List.mem_cons.mp member with same | old
          · exact Or.inr (List.mem_cons.mpr (Or.inl same))
          · rcases ih old with new | kept
            · exact Or.inl new
            · exact Or.inr (List.mem_cons_of_mem _ kept)

theorem Ordered.insertMember (ordered : Ordered members)
    (key : String) (value : α) :
    Ordered (insertMember key value members) := by
  induction members with
  | nil => simp [Json.insertMember, Ordered]
  | cons head rest ih =>
      rcases head with ⟨other, old⟩
      have headBelow := (List.pairwise_cons.mp ordered).1
      have restOrdered : Ordered rest := (List.pairwise_cons.mp ordered).2
      simp only [Json.insertMember]
      split
      · rename_i below
        refine List.pairwise_cons.mpr ⟨?_, ordered⟩
        intro pair member
        rcases List.mem_cons.mp member with rfl | later
        · exact below
        · exact lt_trans below (headBelow pair later)
      · rename_i notBelow
        split
        · rename_i same
          subst same
          exact List.pairwise_cons.mpr ⟨headBelow, restOrdered⟩
        · rename_i different
          refine List.pairwise_cons.mpr ⟨?_, ih restOrdered⟩
          intro pair member
          rcases mem_insertMember member with rfl | later
          · exact lt_of_le_of_ne (not_lt.mp notBelow) (Ne.symm different)
          · exact headBelow pair later

/-- A key above all others is appended. -/
theorem insertMember_last
    (above : ∀ pair ∈ members, pair.1 < key) :
    insertMember key value members = members ++ [(key, value)] := by
  induction members with
  | nil => rfl
  | cons head rest ih =>
      rcases head with ⟨other, old⟩
      have headBelow : other < key := above (other, old) List.mem_cons_self
      have tail := ih fun pair member =>
        above pair (List.mem_cons_of_mem _ member)
      simp [insertMember, not_lt_of_gt headBelow, ne_of_gt headBelow, tail]

@[simp]
theorem findMember_insertMember_self :
    findMember key (insertMember key value members) = some value := by
  induction members with
  | nil => simp [insertMember, findMember]
  | cons head rest ih =>
      rcases head with ⟨other, old⟩
      simp only [insertMember]
      split
      · simp [findMember]
      · split
        · simp [findMember]
        · rename_i different
          simp [findMember, different, ih]

theorem findMember_eq_none_iff :
    findMember key members = none ↔ key ∉ members.map Prod.fst := by
  induction members with
  | nil => simp [findMember]
  | cons head rest ih =>
      rcases head with ⟨other, old⟩
      by_cases same : key = other
      · simp [findMember, same]
      · simp [findMember, same, ih]

theorem findMember_insertMember_of_ne (different : other ≠ key) :
    findMember other (insertMember key value members) =
      findMember other members := by
  induction members with
  | nil => simp [insertMember, findMember, different]
  | cons head rest ih =>
      rcases head with ⟨name, old⟩
      simp only [insertMember]
      split
      · simp [findMember, different]
      · split
        · rename_i same
          subst same
          simp [findMember, different]
        · simp [findMember, ih]

end OrderedMaps

/-! ## Well-formed values -/

mutual

/-- Every object below this tree is an ordered map. -/
def Tree.Canonical : Tree → Prop
  | .array items => CanonicalItems items
  | .object members => Ordered members ∧ CanonicalMembers members
  | _ => True

def CanonicalItems : List Tree → Prop
  | [] => True
  | item :: items => item.Canonical ∧ CanonicalItems items

def CanonicalMembers : List (String × Tree) → Prop
  | [] => True
  | (_, value) :: members => value.Canonical ∧ CanonicalMembers members

end

theorem canonicalMembers_iff {members : List (String × Tree)} :
    CanonicalMembers members ↔ ∀ pair ∈ members, pair.2.Canonical := by
  induction members with
  | nil => simp [CanonicalMembers]
  | cons pair members ih =>
      rcases pair with ⟨key, value⟩
      simp [CanonicalMembers, ih]

theorem CanonicalMembers.insertMember (key : String) {value : Tree}
    {members : List (String × Tree)}
    (valueCanonical : value.Canonical)
    (membersCanonical : CanonicalMembers members) :
    CanonicalMembers (Json.insertMember key value members) := by
  rw [canonicalMembers_iff] at membersCanonical ⊢
  intro pair member
  rcases mem_insertMember member with rfl | old
  · exact valueCanonical
  · exact membersCanonical pair old

theorem findMember_canonical {key : String} {value : Tree}
    {members : List (String × Tree)}
    (found : findMember key members = some value)
    (canonical : CanonicalMembers members) : value.Canonical := by
  induction members with
  | nil => simp [findMember] at found
  | cons pair members ih =>
      rcases pair with ⟨other, stored⟩
      simp only [findMember] at found
      split at found
      · exact Option.some.inj found ▸ canonical.1
      · exact ih found canonical.2

end KekMonitors.Json

namespace KekMonitors

/-- A JSON value: a tree whose objects are ordered maps. -/
structure Json where
  tree : Json.Tree
  canonical : tree.Canonical

namespace Json

@[ext]
theorem ext {left right : Json} (same : left.tree = right.tree) :
    left = right := by
  cases left
  cases right
  cases same
  rfl

def null : Json := ⟨.null, trivial⟩

def bool (value : Bool) : Json := ⟨.bool value, trivial⟩

def integer (value : Integer) : Json := ⟨.integer value, trivial⟩

def string (value : String) : Json := ⟨.string value, trivial⟩

/-- The empty object. -/
def emptyObject : Json :=
  ⟨.object [], List.Pairwise.nil, trivial⟩

/-- `null` is also what a default-constructed value holds. -/
instance : Inhabited Json := ⟨null⟩

def isNull (j : Json) : Bool :=
  match j.tree with
  | .null => true
  | _ => false

def isObject (j : Json) : Bool :=
  match j.tree with
  | .object _ => true
  | _ => false

theorem isNull_iff {j : Json} : j.isNull = true ↔ j = null := by
  constructor
  · intro null
    apply Json.ext
    unfold isNull at null
    split at null
    · assumption
    · simp at null
  · rintro rfl
    rfl

/-- The members of an object; any other value has none. -/
def members (j : Json) : List (String × Tree) :=
  match j.tree with
  | .object members => members
  | _ => []

theorem members_ordered (j : Json) : Ordered j.members := by
  rcases j with ⟨tree, canonical⟩
  cases tree with
  | object members => exact canonical.1
  | _ => exact List.Pairwise.nil

theorem members_canonical (j : Json) : CanonicalMembers j.members := by
  rcases j with ⟨tree, canonical⟩
  cases tree with
  | object members => exact canonical.2
  | _ => exact trivial

/-- The value stored under a key. -/
def find? (j : Json) (key : String) : Option Json :=
  match found : findMember key j.members with
  | none => none
  | some value =>
      some ⟨value, findMember_canonical found j.members_canonical⟩

theorem find?_eq_some_iff {j value : Json} {key : String} :
    j.find? key = some value ↔
      findMember key j.members = some value.tree := by
  unfold find?
  split
  · rename_i missing
    simp [missing]
  · rename_i stored found
    simp only [found, Option.some.injEq]
    exact ⟨fun same => same ▸ rfl, fun same => Json.ext same⟩

theorem find?_eq_none_iff {j : Json} {key : String} :
    j.find? key = none ↔ findMember key j.members = none := by
  unfold find?
  split
  · rename_i missing
    simp [missing]
  · rename_i stored found
    simp [found]

/-- The keys of an object in the order of the map. -/
def keys (j : Json) : List String := j.members.map Prod.fst

theorem mem_keys_iff {j : Json} {key : String} :
    key ∈ j.keys ↔ (j.find? key).isSome := by
  rw [← not_iff_not, Option.not_isSome_iff_eq_none, find?_eq_none_iff,
    findMember_eq_none_iff]
  rfl

/-- Assign to a key.  As in the library, `null` becomes an object first. -/
def set (j : Json) (key : String) (value : Json) : Json :=
  ⟨.object (insertMember key value.tree j.members),
    j.members_ordered.insertMember key value.tree,
    CanonicalMembers.insertMember key value.canonical
      j.members_canonical⟩

@[simp]
theorem members_set (j : Json) (key : String) (value : Json) :
    (j.set key value).members =
      insertMember key value.tree j.members :=
  rfl

@[simp]
theorem find?_set_self (j : Json) (key : String) (value : Json) :
    (j.set key value).find? key = some value := by
  rw [find?_eq_some_iff, members_set, findMember_insertMember_self]

theorem find?_set_of_ne {key other : String} (different : other ≠ key)
    (j value : Json) :
    (j.set key value).find? other = j.find? other := by
  cases found : j.find? other with
  | none =>
      rw [find?_eq_none_iff, members_set,
        findMember_insertMember_of_ne different]
      exact find?_eq_none_iff.mp found
  | some stored =>
      rw [find?_eq_some_iff, members_set,
        findMember_insertMember_of_ne different]
      exact find?_eq_some_iff.mp found

@[simp]
theorem find?_null (key : String) : null.find? key = none := rfl

@[simp]
theorem find?_emptyObject (key : String) :
    emptyObject.find? key = none := rfl

/-- The text of a string value. -/
def string? (j : Json) : Option String :=
  match j.tree with
  | .string value => some value
  | _ => none

/-- Numbers and booleans convert to 32 bits by truncation, modulo `2 ^ 32`. -/
def uint32? (j : Json) : Option UInt32 :=
  match j.tree with
  | .bool value => some (if value then 1 else 0)
  | .integer value => some (UInt32.ofInt value.val)
  | .float value => some (UInt32.ofInt (truncate value.token))
  | _ => none

def ofUInt32 (n : UInt32) : Json :=
  integer ⟨n.toNat, by
    have bound := n.toNat_lt
    omega⟩

theorem uint32?_ofUInt32 (n : UInt32) : (ofUInt32 n).uint32? = some n := by
  have small : (n.toNat : Int) % 2 ^ 32 = n.toNat :=
    Int.emod_eq_of_lt (by omega) (by have := n.toNat_lt; omega)
  simp only [ofUInt32, uint32?, integer, UInt32.ofInt, small,
    Int.toNat_natCast, UInt32.ofNat_toNat]

theorem ofUInt32_injective : Function.Injective ofUInt32 := by
  intro n m same
  have read := congrArg uint32? same
  rw [uint32?_ofUInt32, uint32?_ofUInt32] at read
  exact Option.some.inj read

theorem integer_eq_ofUInt32_iff {value : Integer} {n : UInt32} :
    integer value = ofUInt32 n ↔ value.val = n.toNat := by
  constructor
  · intro same
    have trees := congrArg Json.tree same
    rw [ofUInt32, integer, integer, Tree.integer.injEq] at trees
    rw [trees]
  · intro same
    exact congrArg integer (Subtype.ext same)

/-- A number or boolean that converts to 32 bits and is not one of them. -/
def Narrows (j : Json) : Prop :=
  match j.tree with
  | .bool _ | .float _ => True
  | .integer value => ¬ (0 ≤ value.val ∧ value.val < 2 ^ 32)
  | _ => False

/-- What converts is a 32-bit number, unless the conversion narrows it. -/
theorem uint32?_cases (j : Json) :
    (∃ n, j = ofUInt32 n ∧ j.uint32? = some n ∧ ¬ j.Narrows) ∨
      (∀ n, j ≠ ofUInt32 n) ∧ (j.uint32?.isSome ↔ j.Narrows) := by
  rcases j with ⟨tree, canonical⟩
  have other : (∀ value, tree ≠ .integer value) →
      ∀ n, (⟨tree, canonical⟩ : Json) ≠ ofUInt32 n :=
    fun different n same => different _ (congrArg Json.tree same)
  cases tree with
  | integer value =>
      by_cases small : 0 ≤ value.val ∧ value.val < 2 ^ 32
      · left
        have same : integer value =
            ofUInt32 (UInt32.ofNat value.val.toNat) := by
          rw [integer_eq_ofUInt32_iff,
            UInt32.toNat_ofNat_of_lt' (by simp [UInt32.size]; omega)]
          omega
        refine ⟨_, same, ?_, not_not.mpr small⟩
        change (integer value).uint32? = _
        rw [same, uint32?_ofUInt32]
      · right
        refine ⟨?_, iff_of_true rfl small⟩
        intro n same
        have range := integer_eq_ofUInt32_iff.mp same
        have bound := n.toNat_lt
        omega
  | bool value => exact Or.inr ⟨other (by simp), iff_of_true rfl trivial⟩
  | float value => exact Or.inr ⟨other (by simp), iff_of_true rfl trivial⟩
  | null => exact Or.inr ⟨other (by simp), by simp [uint32?, Narrows]⟩
  | string value => exact Or.inr ⟨other (by simp), by simp [uint32?, Narrows]⟩
  | array items => exact Or.inr ⟨other (by simp), by simp [uint32?, Narrows]⟩
  | object members =>
      exact Or.inr ⟨other (by simp), by simp [uint32?, Narrows]⟩

end Json

end KekMonitors
