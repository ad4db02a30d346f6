import Ltsm.Library.PathWalk
import Mathlib.Data.List.TakeWhile

/-! Paths as byte strings: names with a slash before each, the pieces of such a path, and the
paths of an ordered map. -/
namespace Ltsm.Library
open FileTree (slash)

/- The name of an entry of a directory. -/
abbrev Name := {bytes : Bytes // bytes ≠ [] ∧ slash ∉ bytes}

def slashed (names : List Name) : Bytes := names.flatMap fun name => slash :: name.val

/- The same, from the root. -/
def rooted (names : List Name) : Bytes := if names = [] then [slash] else slashed names

def components (path : Bytes) : List Bytes := (path.splitOn slash).filter (· ≠ [])

/- The operator that puts a name behind a path. -/
def joined (path name : Bytes) : Bytes :=
  if path = [] ∨ path.getLast? = some slash then path ++ name else path ++ slash :: name

def fileName (path : Bytes) : Bytes := (path.reverse.takeWhile (· ≠ slash)).reverse

/- What stands before the last name, without the slashes between; the root stays the root. -/
def parentPath (path : Bytes) : Bytes :=
  let front := path.reverse.dropWhile (· ≠ slash)
  let base := (front.dropWhile (· = slash)).reverse
  if base = [] ∧ front ≠ [] then [slash] else base

/- The order of the bytes, unsigned. -/
def rank (path : Bytes) : List Nat := path.map UInt8.toNat

theorem slashedAppend (first rest : List Name) : slashed (first ++ rest) = slashed first ++ slashed rest :=
  List.flatMap_append

theorem splitSlashed (name : Name) (names : List Name) :
    (name.val ++ slashed names).splitOn slash = name.val :: names.map Subtype.val := by
  induction names generalizing name with
  | nil => simp [slashed,List.splitOn_eq_singleton name.property.2]
  | cons next names ih =>
    rw [slashed,List.flatMap_cons,List.cons_append,List.splitOn_append_cons_self_of_not_mem name.property.2]
    exact congrArg (name.val :: ·) (ih next)

theorem componentsSlashed (names : List Name) : components (slashed names) = names.map Subtype.val := by
  cases names with
  | nil => rfl
  | cons name names =>
    have split : (slash :: (name.val ++ slashed names)).splitOn slash = [] :: name.val :: names.map Subtype.val := by
      rw [← splitSlashed]
      exact List.splitOn_append_cons_self_of_not_mem List.not_mem_nil _
    have proper : ∀ bytes ∈ name.val :: names.map Subtype.val, bytes ≠ [] := by
      intro bytes inside
      obtain ⟨one,_,rfl⟩ := List.mem_map.mp (List.map_cons ▸ inside : bytes ∈ (name :: names).map Subtype.val)
      exact one.property.1
    have shape : slashed (name :: names) = slash :: (name.val ++ slashed names) := rfl
    rw [components,shape,split,List.filter_cons_of_neg (by simp),List.filter_eq_self.mpr (by simpa using proper)]
    rfl

theorem slashedInjective {first second : List Name} (same : slashed first = slashed second) : first = second := by
  have names : first.map Subtype.val = second.map Subtype.val := by rw [← componentsSlashed,same,componentsSlashed]
  exact List.map_injective_iff.mpr Subtype.val_injective names

/- A path ends in its last name. -/
theorem slashedEnds (names : List Name) : (slashed names).getLast? ≠ some slash := by
  rcases List.eq_nil_or_concat names with rfl | ⟨front,name,rfl⟩
  · simp [slashed]
  · obtain ⟨filled,single⟩ := name.property
    rw [List.concat_eq_append,slashedAppend]
    intro ends
    have last : (slashed front ++ slash :: name.val).getLast? = name.val.getLast? := by
      rw [List.getLast?_append_of_ne_nil _ (List.cons_ne_nil _ _),List.getLast?_cons_of_ne_nil filled]
    have shape : slashed [name] = slash :: name.val := by simp [slashed]
    rw [shape,last] at ends
    exact single (List.mem_of_getLast? ends)

/- A name behind its slash, from the end. -/
theorem nameReversed (base : Bytes) (name : Name) :
    (base ++ slash :: name.val).reverse = name.val.reverse ++ slash :: base.reverse ∧
      ∀ c ∈ name.val.reverse, decide (c ≠ slash) = true := by
  refine ⟨by simp,fun c inside => ?_⟩
  have other : c ≠ slash := by
    rintro rfl
    exact name.property.2 (List.mem_reverse.mp inside)
  simpa using other

theorem fileNameBehind (base : Bytes) (name : Name) : fileName (base ++ slash :: name.val) = name.val := by
  obtain ⟨turned,plain⟩ := nameReversed base name
  rw [fileName,turned,List.takeWhile_append_of_pos plain]
  simp

theorem parentPathBehind (base : Bytes) (name : Name) (proper : base.getLast? ≠ some slash) :
    parentPath (base ++ slash :: name.val) = if base = [] then [slash] else base := by
  obtain ⟨turned,plain⟩ := nameReversed base name
  have whole : base.reverse.dropWhile (· = slash) = base.reverse := by
    cases ends : base.reverse with
    | nil => rfl
    | cons c rest =>
      have last : base.getLast? = some c := by rw [← List.head?_reverse,ends,List.head?_cons]
      have other : c ≠ slash := by
        rintro rfl
        exact proper last
      rw [List.dropWhile_cons_of_neg (by simpa using other)]
  rw [parentPath,turned,List.dropWhile_append_of_pos plain]
  simp [whole]

/- The folder of a path of names, and its last name. -/
theorem parentSlashed (names : List Name) (name : Name) : parentPath (slashed (names ++ [name])) = rooted names := by
  have shape : slashed (names ++ [name]) = slashed names ++ slash :: name.val := by simp [slashed]
  have none : slashed names = [] ↔ names = [] := by cases names <;> simp [slashed]
  rw [shape,parentPathBehind _ _ (slashedEnds names),rooted]
  simp only [none]

theorem fileSlashed (names : List Name) (name : Name) : fileName (slashed (names ++ [name])) = name.val := by
  have shape : slashed (names ++ [name]) = slashed names ++ slash :: name.val := by simp [slashed]
  rw [shape,fileNameBehind]

theorem rankAppend (path : Bytes) {more : Bytes} (any : more ≠ []) : rank path < rank (path ++ more) := by
  obtain ⟨c,rest,rfl⟩ := List.exists_cons_of_ne_nil any
  have first : ([] : List Nat) < c.toNat :: rank rest := List.nil_lt_cons _ _
  have behind := @List.append_left_lt _ _ (rank path) _ _ first
  rw [List.append_nil] at behind
  have whole : rank (path ++ c :: rest) = rank path ++ c.toNat :: rank rest := List.map_append
  rwa [whole]

end Ltsm.Library
