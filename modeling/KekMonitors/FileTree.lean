import Mathlib.Data.List.Basic
import Mathlib.Data.List.Induction

/-!
# File trees

A directory and everything in it, as entries that name an inode in a parent
directory.  Every inode has one name at most, every directory that has entries
is itself in the tree, and inode numbers are never used again.  Hard and
symbolic links are left out.
-/

namespace KekMonitors

inductive Kind where
  | directory
  | regular
  | special
  deriving DecidableEq, Repr

structure Entry where
  parent : Nat
  name : String
  inode : Nat
  kind : Kind
  deriving DecidableEq, Repr

/-- The inode of the top directory; `0` is left to a directory elsewhere. -/
abbrev rootInode : Nat := 1

/-- The inode is that of a directory of the tree. -/
def IsDirectory (entries : List Entry) (inode : Nat) : Prop :=
  inode = rootInode ∨ ∃ e ∈ entries, e.inode = inode ∧ e.kind = .directory

instance (entries : List Entry) (inode : Nat) :
    Decidable (IsDirectory entries inode) :=
  inferInstanceAs (Decidable (_ ∨ _))

/-- No entry of the directory has the name. -/
def IsFree (entries : List Entry) (parent : Nat) (name : String) : Prop :=
  ∀ e ∈ entries, e.parent = parent → e.name ≠ name

instance (entries : List Entry) (parent : Nat) (name : String) :
    Decidable (IsFree entries parent name) :=
  inferInstanceAs (Decidable (∀ _ ∈ _, _))

/-- Nothing is in the directory. -/
def IsEmpty (entries : List Entry) (inode : Nat) : Prop :=
  ∀ e ∈ entries, e.parent ≠ inode

instance (entries : List Entry) (inode : Nat) :
    Decidable (IsEmpty entries inode) :=
  inferInstanceAs (Decidable (∀ _ ∈ _, _))

/-- The entries of a tree, with inode numbers below the next one. -/
structure IsTree (entries : List Entry) (next : Nat) : Prop where
  named : ∀ e ∈ entries, ∀ other ∈ entries,
    e.parent = other.parent → e.name = other.name → e = other
  linked : ∀ e ∈ entries, ∀ other ∈ entries,
    e.inode = other.inode → e = other
  numbered : ∀ e ∈ entries, rootInode < e.inode ∧ e.inode < next
  housed : ∀ e ∈ entries, IsDirectory entries e.parent
  room : rootInode < next

structure FileTree where
  entries : List Entry
  next : Nat
  isTree : IsTree entries next

section IsTree

variable {entries : List Entry} {next parent : Nat} {name : String}

theorem isTree_nil : IsTree [] (rootInode + 1) where
  named := by simp
  linked := by simp
  numbered := by simp
  housed := by simp
  room := Nat.lt_succ_self _

/-- An entry with a new name and a new inode. -/
theorem IsTree.append (tree : IsTree entries next)
    (house : IsDirectory entries parent)
    (free : IsFree entries parent name) (kind : Kind) :
    IsTree (entries ++ [⟨parent, name, next, kind⟩]) (next + 1) where
  named e first other second parents names := by
    rcases List.mem_append.mp first with old | new <;>
      rcases List.mem_append.mp second with also | too
    · exact tree.named e old other also parents names
    · rcases List.mem_singleton.mp too with rfl
      exact absurd names (free e old parents)
    · rcases List.mem_singleton.mp new with rfl
      exact absurd names.symm (free other also parents.symm)
    · rw [List.mem_singleton.mp new, List.mem_singleton.mp too]
  linked e first other second same := by
    rcases List.mem_append.mp first with old | new <;>
      rcases List.mem_append.mp second with also | too
    · exact tree.linked e old other also same
    · rcases List.mem_singleton.mp too with rfl
      exact absurd same (Nat.ne_of_lt (tree.numbered e old).2)
    · rcases List.mem_singleton.mp new with rfl
      exact absurd same.symm (Nat.ne_of_lt (tree.numbered other also).2)
    · rw [List.mem_singleton.mp new, List.mem_singleton.mp too]
  numbered e member := by
    rcases List.mem_append.mp member with old | new
    · have bounds := tree.numbered e old
      exact ⟨bounds.1, Nat.lt_succ_of_lt bounds.2⟩
    · rw [List.mem_singleton.mp new]
      exact ⟨tree.room, Nat.lt_succ_self _⟩
  housed e member := by
    have old : IsDirectory entries e.parent := by
      rcases List.mem_append.mp member with old | new
      · exact tree.housed e old
      · rw [List.mem_singleton.mp new]
        exact house
    rcases old with top | ⟨owner, present, both⟩
    · exact Or.inl top
    · exact Or.inr ⟨owner, List.mem_append_left _ present, both⟩
  room := Nat.lt_succ_of_lt tree.room

/-- An entry can go when nothing is in it. -/
theorem IsTree.without (tree : IsTree entries next) {victim : Entry}
    (empty : IsEmpty entries victim.inode) :
    IsTree (entries.filter fun e => e ≠ victim) next where
  named e first other second :=
    tree.named e (List.mem_of_mem_filter first) other
      (List.mem_of_mem_filter second)
  linked e first other second :=
    tree.linked e (List.mem_of_mem_filter first) other
      (List.mem_of_mem_filter second)
  numbered e member := tree.numbered e (List.mem_of_mem_filter member)
  housed e member := by
    have old := List.mem_of_mem_filter member
    rcases tree.housed e old with top | ⟨owner, present, inode, kind⟩
    · exact Or.inl top
    · refine Or.inr ⟨owner, List.mem_filter.mpr ⟨present, ?_⟩, inode, kind⟩
      apply decide_eq_true
      rintro rfl
      exact empty e old inode.symm
  room := tree.room

/-- An entry can get another name that is free. -/
theorem IsTree.moved (tree : IsTree entries next) {entry : Entry}
    (member : entry ∈ entries) (house : IsDirectory entries parent)
    (free : IsFree entries parent name) :
    IsTree ((entries.filter fun e => e ≠ entry) ++
      [{ entry with parent := parent, name := name }]) next where
  named e first other second parents names := by
    rcases List.mem_append.mp first with old | new <;>
      rcases List.mem_append.mp second with also | too
    · exact tree.named e (List.mem_of_mem_filter old) other
        (List.mem_of_mem_filter also) parents names
    · rcases List.mem_singleton.mp too with rfl
      exact absurd names (free e (List.mem_of_mem_filter old) parents)
    · rcases List.mem_singleton.mp new with rfl
      exact absurd names.symm
        (free other (List.mem_of_mem_filter also) parents.symm)
    · rw [List.mem_singleton.mp new, List.mem_singleton.mp too]
  linked e first other second same := by
    rcases List.mem_append.mp first with old | new <;>
      rcases List.mem_append.mp second with also | too
    · exact tree.linked e (List.mem_of_mem_filter old) other
        (List.mem_of_mem_filter also) same
    · rcases List.mem_singleton.mp too with rfl
      rcases List.mem_filter.mp old with ⟨present, different⟩
      exact absurd (tree.linked e present entry member same)
        (of_decide_eq_true different)
    · rcases List.mem_singleton.mp new with rfl
      rcases List.mem_filter.mp also with ⟨present, different⟩
      exact absurd (tree.linked other present entry member same.symm)
        (of_decide_eq_true different)
    · rw [List.mem_singleton.mp new, List.mem_singleton.mp too]
  numbered e first := by
    rcases List.mem_append.mp first with old | new
    · exact tree.numbered e (List.mem_of_mem_filter old)
    · rw [List.mem_singleton.mp new]
      exact tree.numbered entry member
  housed e first := by
    have old : IsDirectory entries e.parent := by
      rcases List.mem_append.mp first with old | new
      · exact tree.housed e (List.mem_of_mem_filter old)
      · rw [List.mem_singleton.mp new]
        exact house
    rcases old with top | ⟨owner, present, inode, kind⟩
    · exact Or.inl top
    · by_cases same : owner = entry
      · subst same
        exact Or.inr ⟨_, List.mem_append_right _ List.mem_cons_self,
          inode, kind⟩
      · refine Or.inr ⟨owner, List.mem_append_left _ ?_, inode, kind⟩
        exact List.mem_filter.mpr ⟨present, decide_eq_true same⟩
  room := tree.room

end IsTree

namespace FileTree

def find? (tree : FileTree) (parent : Nat) (name : String) : Option Entry :=
  tree.entries.find? fun e => e.parent = parent ∧ e.name = name

/-- The inode that some names lead to. -/
def walk (tree : FileTree) : Nat → List String → Option Nat
  | inode, [] => some inode
  | inode, name :: names =>
      (tree.find? inode name).bind fun e => tree.walk e.inode names

/-- What some names lead to. -/
def kindAt (tree : FileTree) (names : List String) : Option Kind :=
  (tree.walk rootInode names).bind fun inode =>
    if inode = rootInode then some .directory
    else (tree.entries.find? fun e => e.inode = inode).map Entry.kind

/-- A new entry in a directory that has none of its name. -/
def create (tree : FileTree) (dir : List String) (name : String)
    (kind : Kind) : Option FileTree :=
  (tree.walk rootInode dir).bind fun parent =>
    if allowed : IsDirectory tree.entries parent ∧
        IsFree tree.entries parent name then
      some
        { entries := tree.entries ++ [⟨parent, name, tree.next, kind⟩]
          next := tree.next + 1
          isTree := tree.isTree.append allowed.1 allowed.2 kind }
    else none

/-- The tree without an entry that nothing is in. -/
def without (tree : FileTree) (victim : Entry)
    (empty : IsEmpty tree.entries victim.inode) : FileTree where
  entries := tree.entries.filter fun e => e ≠ victim
  next := tree.next
  isTree := tree.isTree.without empty

/-- Remove the entry of a name, if nothing is in it. -/
def remove (tree : FileTree) (dir : List String) (name : String) :
    Option (Entry × FileTree) :=
  (tree.walk rootInode dir).bind fun parent =>
    (tree.find? parent name).bind fun victim =>
      if empty : IsEmpty tree.entries victim.inode then
        some (victim, tree.without victim empty)
      else none

/-- Give an entry a name that is free. -/
def move (tree : FileTree) (entry : Entry) (parent : Nat) (name : String) :
    Option FileTree :=
  if allowed : entry ∈ tree.entries ∧ IsDirectory tree.entries parent ∧
      IsFree tree.entries parent name then
    some
      { entries := (tree.entries.filter fun e => e ≠ entry) ++
          [{ entry with parent := parent, name := name }]
        next := tree.next
        isTree := tree.isTree.moved allowed.1 allowed.2.1 allowed.2.2 }
  else none

/--
Rename an entry.  A directory does not move into itself, and an entry that has
the new name already is replaced by one of its kind when nothing is in it.
-/
def rename (tree : FileTree) (dir : List String) (name : String)
    (newDir : List String) (newName : String) : Option FileTree :=
  (tree.walk rootInode dir).bind fun parent =>
    (tree.find? parent name).bind fun entry =>
      (tree.walk rootInode newDir).bind fun newParent =>
        if dir ++ [name] <+: newDir then none
        else
          match tree.find? newParent newName with
          | none => tree.move entry newParent newName
          | some target =>
              if target = entry then some tree
              else if target.kind = .directory ↔ entry.kind = .directory then
                if empty : IsEmpty tree.entries target.inode then
                  (tree.without target empty).move entry newParent newName
                else none
              else none

/-! ## Looking up -/

section Lookup

variable {tree next : FileTree} {e entry : Entry} {parent inode : Nat}
  {dir newDir : List String} {name newName : String} {kind : Kind}

theorem find?_eq_some :
    tree.find? parent name = some e ↔
      e ∈ tree.entries ∧ e.parent = parent ∧ e.name = name := by
  constructor
  · intro found
    have same := List.find?_some found
    exact ⟨List.mem_of_find?_eq_some found, of_decide_eq_true same⟩
  · rintro ⟨member, rfl, rfl⟩
    cases found : tree.find? e.parent e.name with
    | none =>
        have absent := List.find?_eq_none.mp found e member
        simp at absent
    | some other =>
        have same := List.find?_some found
        rcases of_decide_eq_true same with ⟨parents, names⟩
        rw [tree.isTree.named other (List.mem_of_find?_eq_some found) e
          member parents names]

theorem find?_eq_none :
    tree.find? parent name = none ↔ IsFree tree.entries parent name := by
  rw [find?, List.find?_eq_none, IsFree]
  simp

theorem walk_append (names : List String) :
    tree.walk inode (names ++ [name]) =
      (tree.walk inode names).bind fun middle =>
        (tree.find? middle name).map Entry.inode := by
  induction names generalizing inode with
  | nil =>
      simp only [List.nil_append, walk, Option.bind_some]
      cases tree.find? inode name with
      | none => rfl
      | some e => rfl
  | cons first names ih =>
      simp only [List.cons_append, walk]
      cases tree.find? inode first with
      | none => rfl
      | some e => exact ih

theorem walk_singleton :
    tree.walk rootInode [name] = some inode ↔
      ∃ e ∈ tree.entries, e.parent = rootInode ∧ e.name = name ∧
        e.inode = inode := by
  have appended : tree.walk rootInode [name] = _ := walk_append []
  rw [appended, walk, Option.bind_some, Option.map_eq_some_iff]
  simp only [find?_eq_some, and_assoc]

/-- What is found leads on to the inode of an entry. -/
theorem walk_append_eq_some {names : List String} :
    tree.walk rootInode (names ++ [name]) = some inode ↔
      ∃ parent, tree.walk rootInode names = some parent ∧
        ∃ e ∈ tree.entries, e.parent = parent ∧ e.name = name ∧
          e.inode = inode := by
  rw [walk_append, Option.bind_eq_some_iff]
  simp only [Option.map_eq_some_iff, find?_eq_some, and_assoc]

/-- What names lead to is numbered as the entries are. -/
theorem walk_numbered {names : List String}
    (walked : tree.walk rootInode names = some inode) :
    rootInode ≤ inode ∧ inode < tree.next := by
  rcases List.eq_nil_or_concat names with rfl | ⟨front, last, rfl⟩
  · rcases Option.some.inj walked with rfl
    exact ⟨Nat.le_refl _, tree.isTree.room⟩
  · rw [List.concat_eq_append] at walked
    rcases walk_append_eq_some.mp walked with
      ⟨parent, -, e, member, -, -, rfl⟩
    have bounds := tree.isTree.numbered e member
    exact ⟨Nat.le_of_lt bounds.1, bounds.2⟩

/-- Every inode has one path at most. -/
theorem walk_inj {names : List String}
    (walked : tree.walk rootInode dir = some inode)
    (also : tree.walk rootInode names = some inode) : dir = names := by
  induction dir using List.reverseRecOn generalizing names inode with
  | nil =>
      rcases Option.some.inj walked with rfl
      rcases List.eq_nil_or_concat names with rfl | ⟨rest, name, rfl⟩
      · rfl
      · rw [List.concat_eq_append, walk_append_eq_some] at also
        rcases also with ⟨parent, -, e, member, -, -, top⟩
        exact absurd top (Nat.ne_of_gt (tree.isTree.numbered e member).1)
  | append_singleton front last ih =>
      rcases walk_append_eq_some.mp walked with
        ⟨parent, above, e, member, parents, rfl, rfl⟩
      rcases List.eq_nil_or_concat names with rfl | ⟨rest, name, rfl⟩
      · rw [walk, Option.some.injEq] at also
        exact absurd also (Nat.ne_of_lt (tree.isTree.numbered e member).1)
      · rw [List.concat_eq_append] at also ⊢
        rcases walk_append_eq_some.mp also with
          ⟨other, elsewhere, twin, present, twins, rfl, same⟩
        rcases tree.isTree.linked twin present e member same with rfl
        rcases parents.symm.trans twins with rfl
        rw [ih above elsewhere]

/-- What a name in a directory leads to. -/
theorem kindAt_append {names : List String} :
    tree.kindAt (names ++ [name]) = some kind ↔
      ∃ parent, tree.walk rootInode names = some parent ∧
        ∃ e ∈ tree.entries, e.parent = parent ∧ e.name = name ∧
          e.kind = kind := by
  have kindOf : ∀ e ∈ tree.entries,
      (if e.inode = rootInode then some Kind.directory
        else (tree.entries.find? fun other => other.inode = e.inode).map
          Entry.kind) = some e.kind := by
    intro e member
    rw [if_neg (Nat.ne_of_gt (tree.isTree.numbered e member).1)]
    cases found : tree.entries.find? fun other => other.inode = e.inode with
    | none =>
        have absent := List.find?_eq_none.mp found e member
        simp at absent
    | some other =>
        have same := List.find?_some found
        rw [tree.isTree.linked other (List.mem_of_find?_eq_some found) e
          member (of_decide_eq_true same)]
        rfl
  rw [kindAt, Option.bind_eq_some_iff]
  constructor
  · rintro ⟨inode, walked, kinds⟩
    rcases walk_append_eq_some.mp walked with
      ⟨parent, above, e, member, parents, names, rfl⟩
    rw [kindOf e member, Option.some.injEq] at kinds
    exact ⟨parent, above, e, member, parents, names, kinds⟩
  · rintro ⟨parent, above, e, member, parents, names, rfl⟩
    exact ⟨e.inode, walk_append_eq_some.mpr
      ⟨parent, above, e, member, parents, names, rfl⟩, kindOf e member⟩

theorem kindAt_singleton :
    tree.kindAt [name] = some kind ↔
      ∃ e ∈ tree.entries, e.parent = rootInode ∧ e.name = name ∧
        e.kind = kind := by
  have appended : tree.kindAt ([] ++ [name]) = some kind ↔ _ := kindAt_append
  rw [List.nil_append] at appended
  rw [appended]
  constructor
  · rintro ⟨parent, top, e, member, parents, rest⟩
    rcases Option.some.inj top with rfl
    exact ⟨e, member, parents, rest⟩
  · rintro ⟨e, member, parents, rest⟩
    exact ⟨rootInode, rfl, e, member, parents, rest⟩

theorem kindAt_nil : tree.kindAt [] = some .directory := rfl

/-- What has entries is a directory. -/
theorem kindAt_above (names : List String)
    (found : tree.kindAt (names ++ [name]) = some kind) :
    tree.kindAt names = some .directory := by
  rcases kindAt_append.mp found with ⟨parent, above, e, member, rfl, -, -⟩
  rcases tree.isTree.housed e member with top | ⟨house, present, same, dir⟩
  · rw [top] at above
    have none : names = [] := walk_inj above rfl
    rw [none]
    rfl
  · rcases List.eq_nil_or_concat names with rfl | ⟨front, last, rfl⟩
    · rfl
    · rw [List.concat_eq_append] at above ⊢
      rcases walk_append_eq_some.mp above with
        ⟨parent, reached, other, there, parents, names, inode⟩
      rcases tree.isTree.linked other there house present
        (inode.trans same.symm) with rfl
      exact kindAt_append.mpr
        ⟨parent, reached, other, there, parents, names, dir⟩

/-- What has entries is not empty. -/
theorem walk_of_kindAt (names : List String)
    (found : tree.kindAt (names ++ [name]) = some kind) :
    ∃ inode, tree.walk rootInode names = some inode ∧
      ¬ IsEmpty tree.entries inode := by
  rcases kindAt_append.mp found with
    ⟨inode, walked, e, member, parents, -, -⟩
  exact ⟨inode, walked, fun empty => empty e member parents⟩

/-- The inode of a directory with entries is below the next one. -/
theorem house_lt (member : e ∈ tree.entries) : e.parent < tree.next := by
  rcases tree.isTree.housed e member with top | ⟨house, present, same, -⟩
  · rw [top]
    exact tree.isTree.room
  · rw [← same]
    exact (tree.isTree.numbered house present).2

/-! ## What changes -/

/-- An entry is new in a directory of the tree. -/
structure Creates (tree next : FileTree) (entry : Entry) : Prop where
  house : IsDirectory tree.entries entry.parent
  free : IsFree tree.entries entry.parent entry.name
  fresh : entry.inode = tree.next
  entries : next.entries = tree.entries ++ [entry]
  later : next.next = tree.next + 1

theorem Creates.walk (creates : Creates tree next entry)
    (walked : tree.walk rootInode dir = some entry.parent)
    {names : List String} :
    next.walk rootInode names = some inode ↔
      names = dir ++ [entry.name] ∧ inode = entry.inode ∨
        tree.walk rootInode names = some inode := by
  have apart : entry.parent ≠ entry.inode := by
    rw [creates.fresh]
    rcases creates.house with top | ⟨house, present, same, -⟩
    · rw [top]
      exact Nat.ne_of_lt tree.isTree.room
    · rw [← same]
      exact Nat.ne_of_lt (tree.isTree.numbered house present).2
  induction names using List.reverseRecOn generalizing inode with
  | nil => simp [FileTree.walk]
  | append_singleton front last ih =>
      rw [walk_append_eq_some, walk_append_eq_some]
      constructor
      · rintro ⟨parent, above, e, member, rfl, rfl, rfl⟩
        rw [creates.entries] at member
        rcases List.mem_append.mp member with old | new
        · rcases ih.mp above with ⟨-, same⟩ | before
          · have lower := house_lt old
            rw [same, creates.fresh] at lower
            exact absurd lower (Nat.lt_irrefl _)
          · exact Or.inr ⟨e.parent, before, e, old, rfl, rfl, rfl⟩
        · rcases List.mem_singleton.mp new with rfl
          rcases ih.mp above with ⟨-, same⟩ | before
          · exact absurd same apart
          · rw [walk_inj before walked]
            exact Or.inl ⟨rfl, rfl⟩
      · rintro (⟨same, rfl⟩ | ⟨parent, before, e, old, parents, names, rfl⟩)
        · rcases List.append_inj' same rfl with ⟨rfl, names⟩
          refine ⟨entry.parent, ih.mpr (Or.inr walked), entry, ?_, rfl,
            (List.singleton_inj.mp names).symm, rfl⟩
          rw [creates.entries]
          exact List.mem_append_right _ List.mem_cons_self
        · refine ⟨parent, ih.mpr (Or.inr before), e, ?_, parents, names, rfl⟩
          rw [creates.entries]
          exact List.mem_append_left _ old

/-- A creation adds one path. -/
theorem Creates.kindAt (creates : Creates tree next entry)
    (walked : tree.walk rootInode dir = some entry.parent)
    {names : List String} :
    next.kindAt names = some kind ↔
      names = dir ++ [entry.name] ∧ kind = entry.kind ∨
        tree.kindAt names = some kind := by
  rcases List.eq_nil_or_concat names with rfl | ⟨front, last, rfl⟩
  · simp [kindAt_nil]
  · rw [List.concat_eq_append, kindAt_append, kindAt_append]
    constructor
    · rintro ⟨parent, above, e, member, rfl, rfl, rfl⟩
      have steps := (creates.walk walked).mp (walk_append_eq_some.mpr
        ⟨e.parent, above, e, member, rfl, rfl, rfl⟩)
      rw [creates.entries] at member
      rcases List.mem_append.mp member with old | new
      · rcases steps with ⟨-, same⟩ | before
        · have lower := (tree.isTree.numbered e old).2
          rw [same, creates.fresh] at lower
          exact absurd lower (Nat.lt_irrefl _)
        · rcases walk_append_eq_some.mp before with
            ⟨parent, reached, other, present, parents, names, same⟩
          rcases tree.isTree.linked other present e old same with rfl
          exact Or.inr ⟨parent, reached, other, present, parents, names, rfl⟩
      · rcases List.mem_singleton.mp new with rfl
        rcases steps with ⟨same, -⟩ | before
        · exact Or.inl ⟨same, rfl⟩
        · rcases walk_append_eq_some.mp before with
            ⟨-, -, other, present, -, -, same⟩
          have lower := (tree.isTree.numbered other present).2
          rw [same, creates.fresh] at lower
          exact absurd lower (Nat.lt_irrefl _)
    · rintro (⟨same, rfl⟩ | ⟨parent, before, e, old, parents, names, kinds⟩)
      · rcases List.append_inj' same rfl with ⟨rfl, names⟩
        refine ⟨entry.parent, (creates.walk walked).mpr (Or.inr walked),
          entry, ?_, rfl, (List.singleton_inj.mp names).symm, rfl⟩
        rw [creates.entries]
        exact List.mem_append_right _ List.mem_cons_self
      · refine ⟨parent, (creates.walk walked).mpr (Or.inr before), e, ?_,
          parents, names, kinds⟩
        rw [creates.entries]
        exact List.mem_append_left _ old

theorem create_eq_some
    (created : tree.create dir name kind = some next) :
    ∃ parent, tree.walk rootInode dir = some parent ∧
      Creates tree next ⟨parent, name, tree.next, kind⟩ := by
  rcases Option.bind_eq_some_iff.mp created with ⟨parent, walked, made⟩
  split at made
  · rename_i allowed
    rcases Option.some.inj made with rfl
    exact ⟨parent, walked, allowed.1, allowed.2, rfl, rfl, rfl⟩
  · simp at made

/-- An entry that nothing is in goes. -/
structure Removes (tree next : FileTree) (entry : Entry) : Prop where
  member : entry ∈ tree.entries
  empty : IsEmpty tree.entries entry.inode
  entries : ∀ e, e ∈ next.entries ↔ e ∈ tree.entries ∧ e ≠ entry
  later : next.next = tree.next

theorem Removes.walk (removes : Removes tree next entry)
    (walked : tree.walk rootInode dir = some entry.parent)
    {names : List String} :
    next.walk rootInode names = some inode ↔
      names ≠ dir ++ [entry.name] ∧
        tree.walk rootInode names = some inode := by
  induction names using List.reverseRecOn generalizing inode with
  | nil => simp [FileTree.walk]
  | append_singleton front last ih =>
      rw [walk_append_eq_some, walk_append_eq_some]
      constructor
      · rintro ⟨parent, above, e, member, rfl, rfl, rfl⟩
        rcases (removes.entries e).mp member with ⟨old, other⟩
        have before := (ih.mp above).2
        refine ⟨?_, e.parent, before, e, old, rfl, rfl, rfl⟩
        intro same
        rcases List.append_inj' same rfl with ⟨rfl, names⟩
        rw [before, Option.some.injEq] at walked
        exact other (tree.isTree.named e old entry removes.member walked
          (List.singleton_inj.mp names))
      · rintro ⟨different, parent, before, e, old, rfl, rfl, rfl⟩
        refine ⟨e.parent, ih.mpr ⟨?_, before⟩, e,
          (removes.entries e).mpr ⟨old, ?_⟩, rfl, rfl, rfl⟩
        · rintro rfl
          rcases walk_append_eq_some.mp before with
            ⟨parent, above, other, present, parents, names, same⟩
          rw [walked, Option.some.injEq] at above
          rcases tree.isTree.named other present entry removes.member
            (parents.trans above.symm) names with rfl
          exact removes.empty e old same.symm
        · rintro rfl
          exact different (by rw [walk_inj before walked])

/-- A removal takes one path away. -/
theorem Removes.kindAt (removes : Removes tree next entry)
    (walked : tree.walk rootInode dir = some entry.parent)
    {names : List String} :
    next.kindAt names = some kind ↔
      names ≠ dir ++ [entry.name] ∧ tree.kindAt names = some kind := by
  rcases List.eq_nil_or_concat names with rfl | ⟨front, last, rfl⟩
  · simp [kindAt_nil]
  · rw [List.concat_eq_append, kindAt_append, kindAt_append]
    constructor
    · rintro ⟨parent, above, e, member, rfl, rfl, rfl⟩
      have steps := (removes.walk walked).mp (walk_append_eq_some.mpr
        ⟨e.parent, above, e, member, rfl, rfl, rfl⟩)
      exact ⟨steps.1, e.parent, ((removes.walk walked).mp above).2, e,
        ((removes.entries e).mp member).1, rfl, rfl, rfl⟩
    · rintro ⟨different, parent, before, e, old, rfl, rfl, rfl⟩
      have steps := (removes.walk walked).mpr
        ⟨different, walk_append_eq_some.mpr
          ⟨e.parent, before, e, old, rfl, rfl, rfl⟩⟩
      rcases walk_append_eq_some.mp steps with
        ⟨parent, above, other, present, parents, names, same⟩
      have there := ((removes.entries other).mp present).1
      rcases tree.isTree.linked other there e old same with rfl
      exact ⟨parent, above, other, present, parents, names, rfl⟩

theorem without_removes (member : entry ∈ tree.entries)
    (empty : IsEmpty tree.entries entry.inode) :
    Removes tree (tree.without entry empty) entry where
  member := member
  empty := empty
  entries e := by simp [without]
  later := rfl

theorem remove_eq_some
    (removed : tree.remove dir name = some (entry, next)) :
    tree.walk rootInode dir = some entry.parent ∧ entry.name = name ∧
      Removes tree next entry := by
  rcases Option.bind_eq_some_iff.mp removed with ⟨parent, walked, rest⟩
  rcases Option.bind_eq_some_iff.mp rest with ⟨victim, found, made⟩
  split at made
  · rename_i empty
    rcases Prod.mk.inj (Option.some.inj made) with ⟨rfl, rfl⟩
    rcases find?_eq_some.mp found with ⟨member, rfl, names⟩
    exact ⟨walked, names, without_removes member empty⟩
  · simp at made

/--
An entry gets another name.  Its old one is free then, and nothing goes but an
entry that nothing is in.
-/
structure Renames (tree next : FileTree) (entry : Entry) : Prop where
  member : entry ∈ tree.entries
  kept : ∀ e ∈ tree.entries, e ≠ entry →
    ¬ IsEmpty tree.entries e.inode → e ∈ next.entries
  origin : ∀ e ∈ next.entries, e ∈ tree.entries ∨
    e.inode = entry.inode ∧ e.kind = entry.kind
  vacated : IsFree next.entries entry.parent entry.name
  later : next.next = tree.next

theorem move_keeps (moved : tree.move entry parent name = some next)
    (member : e ∈ tree.entries) (different : e ≠ entry) :
    e ∈ next.entries := by
  unfold move at moved
  split at moved
  · rcases Option.some.inj moved with rfl
    apply List.mem_append_left
    exact List.mem_filter.mpr ⟨member, decide_eq_true different⟩
  · simp at moved

theorem move_renames (elsewhere : ¬ (parent = entry.parent ∧
      name = entry.name))
    (moved : tree.move entry parent name = some next) :
    Renames tree next entry := by
  have keeps : ∀ e ∈ tree.entries, e ≠ entry → e ∈ next.entries :=
    fun e member different => move_keeps moved member different
  unfold move at moved
  split at moved
  · rename_i allowed
    rcases Option.some.inj moved with rfl
    refine ⟨allowed.1, fun e member other _ => keeps e member other,
      ?_, ?_, rfl⟩
    · intro e member
      rcases List.mem_append.mp member with old | new
      · exact Or.inl (List.mem_of_mem_filter old)
      · rw [List.mem_singleton.mp new]
        exact Or.inr ⟨rfl, rfl⟩
    · intro e member parents names
      rcases List.mem_append.mp member with old | new
      · rcases List.mem_filter.mp old with ⟨present, different⟩
        exact of_decide_eq_true different
          (tree.isTree.named e present entry allowed.1 parents names)
      · rcases List.mem_singleton.mp new with rfl
        exact elsewhere ⟨parents, names⟩
  · simp at moved

theorem rename_eq_some
    (renamed : tree.rename dir name newDir newName = some next) :
    next = tree ∨ ∃ entry, Renames tree next entry := by
  rcases Option.bind_eq_some_iff.mp renamed with ⟨parent, -, rest⟩
  rcases Option.bind_eq_some_iff.mp rest with ⟨entry, found, rest⟩
  rcases Option.bind_eq_some_iff.mp rest with ⟨newParent, -, made⟩
  rcases find?_eq_some.mp found with ⟨member, parents, names⟩
  split at made
  · simp at made
  · split at made
    · rename_i absent
      refine Or.inr ⟨entry, move_renames ?_ made⟩
      rintro ⟨rfl, rfl⟩
      exact find?_eq_none.mp absent entry member rfl rfl
    · rename_i target present
      rcases find?_eq_some.mp present with ⟨there, newParents, newNames⟩
      split at made
      · exact Or.inl (Option.some.inj made).symm
      · rename_i different
        split at made
        · split at made
          · rename_i empty
            have removes := without_removes there empty
            have elsewhere : ¬ (newParent = entry.parent ∧
                newName = entry.name) := by
              rintro ⟨rfl, rfl⟩
              exact different (tree.isTree.named target there entry member
                newParents newNames)
            have renames := move_renames elsewhere made
            refine Or.inr ⟨entry, member, ?_, ?_, renames.vacated,
              renames.later⟩
            · intro e old other full
              refine move_keeps made ((removes.entries e).mpr ⟨old, ?_⟩) other
              rintro rfl
              exact full empty
            · intro e new
              rcases renames.origin e new with old | moved
              · exact Or.inl ((removes.entries e).mp old).1
              · exact Or.inr moved
          · simp at made
        · simp at made

end Lookup

end FileTree

end KekMonitors
