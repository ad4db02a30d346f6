import Mathlib.Data.List.Basic
import Mathlib.Data.String.Basic

/-! Absolute paths as the components below the root, and where the system ends up
when it walks them. An empty component and `.` stay, `..` goes up, and the root
is its own parent. -/
namespace Ltsm.Library

abbrev Path := List String

def enter (folder : Path) (name : String) : Path :=
  if name = "" ∨ name = "." then folder
  else if name = ".." then folder.dropLast
  else folder ++ [name]

def resolve (path : Path) : Path := path.foldl enter []

def StrictlyBelow (path folder : Path) : Prop :=
  ∃ rest, rest ≠ [] ∧ resolve path = resolve folder ++ rest

def ProperName (name : String) : Prop := name ≠ "" ∧ name ≠ "." ∧ name ≠ ".."
instance (name : String) : Decidable (ProperName name) := by unfold ProperName; infer_instance

theorem properOfLong {name : String} (long : 2 < name.length) : ProperName name := by
  refine ⟨?_,?_,?_⟩
  · rintro rfl
    exact absurd long (by decide)
  · rintro rfl
    exact absurd long (by decide)
  · rintro rfl
    exact absurd long (by decide)

theorem resolveJoin (folder : Path) (name : String) :
    resolve (folder ++ [name]) = enter (resolve folder) name := by
  simp [resolve]

theorem enterProper {name : String} (proper : ProperName name) (folder : Path) :
    enter folder name = folder ++ [name] := by
  obtain ⟨nonempty,notDot,notDots⟩ := proper
  simp [enter,nonempty,notDot,notDots]

theorem strictlyBelowJoin {folder : Path} {name : String} :
    StrictlyBelow (folder ++ [name]) folder ↔ ProperName name := by
  rw [StrictlyBelow,resolveJoin]
  constructor
  · rintro ⟨rest,some,same⟩
    have length := congrArg List.length same
    have longer : 0 < rest.length := List.length_pos_of_ne_nil some
    unfold enter at length
    split at length
    · simp only [List.length_append] at length
      omega
    · rename_i stays
      split at length
      · simp only [List.length_append,List.length_dropLast] at length
        omega
      · rename_i down
        exact ⟨fun h => stays (.inl h),fun h => stays (.inr h),down⟩
  · intro proper
    exact ⟨[name],by simp,enterProper proper _⟩

theorem resolveJoinInj {folder : Path} {first second : String} (one : ProperName first)
    (two : ProperName second) :
    resolve (folder ++ [first]) = resolve (folder ++ [second]) ↔ first = second := by
  rw [resolveJoin,resolveJoin,enterProper one,enterProper two]
  simp

end Ltsm.Library
