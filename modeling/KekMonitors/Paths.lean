import Mathlib.Data.List.Basic

/-!
# Paths below a directory

A path below a base directory is the base with a separator and a name added for
each component.  Names without separators can be read back from it.
-/

namespace KekMonitors.Paths

/-- A name that is one component of a path. -/
def IsWhole (name : String) : Prop := '/' ∉ name.toList

instance (name : String) : Decidable (IsWhole name) :=
  inferInstanceAs (Decidable (¬ _ ∈ _))

/-- The path that some names make below a base directory. -/
def joined (base : String) (names : List String) : String :=
  names.foldl (fun path name => path ++ "/" ++ name) base

/-- The names that a path has below a base directory. -/
def components (base path : String) : Option (List String) :=
  if path = base then some []
  else if (base ++ "/").toList <+: path.toList then
    some (((path.toList.drop (base ++ "/").toList.length).splitOn '/').map
      String.ofList)
  else none

/-- A path without its last component. -/
def parentPath (path : String) : String :=
  String.ofList (path.toList.reverse.dropWhile (· ≠ '/')).tail.reverse

theorem joined_append (base : String) (names : List String) (name : String) :
    joined base (names ++ [name]) = joined base names ++ "/" ++ name := by
  simp [joined]

theorem parentPath_append (path : String) {name : String}
    (whole : IsWhole name) : parentPath (path ++ "/" ++ name) = path := by
  have reversed : (path ++ "/" ++ name).toList.reverse =
      name.toList.reverse ++ '/' :: path.toList.reverse := by
    simp
  have skipped : (name.toList.reverse ++ '/' :: path.toList.reverse).dropWhile
      (fun c => decide (c ≠ '/')) = '/' :: path.toList.reverse := by
    rw [List.dropWhile_append_of_pos]
    · simp
    · intro c member
      apply decide_eq_true
      rintro rfl
      exact whole (List.mem_reverse.mp member)
  rw [parentPath, reversed, skipped, List.tail_cons, List.reverse_reverse,
    String.ofList_toList]

/-- The characters that names add to a base. -/
theorem joined_toList (base : String) (names : List String) :
    (joined base names).toList =
      base.toList ++ names.flatMap fun name => '/' :: name.toList := by
  induction names generalizing base with
  | nil => simp [joined]
  | cons name names ih =>
      have step : joined base (name :: names) =
          joined (base ++ "/" ++ name) names := rfl
      rw [step, ih]
      simp

/-- Splitting at the separators gives the names back. -/
theorem splitOn_names (name : String) (names : List String)
    (whole : ∀ other ∈ name :: names, IsWhole other) :
    (name.toList ++ names.flatMap fun name => '/' :: name.toList).splitOn
        '/' = (name :: names).map String.toList := by
  induction names generalizing name with
  | nil =>
      rw [List.flatMap_nil, List.append_nil,
        List.splitOn_eq_singleton (whole name List.mem_cons_self)]
      rfl
  | cons next names ih =>
      rw [List.flatMap_cons, List.cons_append,
        List.splitOn_append_cons_self_of_not_mem
          (whole name List.mem_cons_self),
        ih next fun other member => whole other (List.mem_cons_of_mem _ member)]
      rfl

theorem components_joined (base : String) {names : List String}
    (whole : ∀ name ∈ names, IsWhole name) :
    components base (joined base names) = some names := by
  cases names with
  | nil => exact if_pos rfl
  | cons name names =>
      have chars : (joined base (name :: names)).toList =
          (base ++ "/").toList ++ (name.toList ++
            names.flatMap fun name => '/' :: name.toList) := by
        simp [joined_toList]
      have longer : joined base (name :: names) ≠ base := by
        intro same
        have lengths := congrArg (fun path => path.toList.length) same
        simp only [chars, List.length_append, String.toList_append] at lengths
        have slash : "/".toList.length = 1 := rfl
        omega
      rw [components, if_neg longer, chars,
        if_pos (List.prefix_append _ _), List.drop_left,
        splitOn_names name names whole, List.map_map]
      simp

theorem joined_inj (base : String) {names others : List String}
    (whole : ∀ name ∈ names, IsWhole name)
    (also : ∀ name ∈ others, IsWhole name) :
    joined base names = joined base others ↔ names = others := by
  constructor
  · intro same
    have read := components_joined base whole
    rw [same, components_joined base also] at read
    exact (Option.some.inj read).symm
  · rintro rfl
    rfl

end KekMonitors.Paths
