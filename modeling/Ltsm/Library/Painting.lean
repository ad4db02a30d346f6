import Mathlib.Data.Set.Basic
import Mathlib.Logic.Nontrivial.Basic

/-! Pictures as functions from points to values. Painting a set of points from a
source puts the source there and leaves the rest; whatever is painted from one
source, in any order and however often, shows the source on all that was covered. What
is painted from two shows the later one over the other. -/
namespace Ltsm.Library
variable {P V R : Type*}

open Classical in
noncomputable def paint (source : P → V) (A : Set P) (s : P → V) : P → V :=
  fun p => if p ∈ A then source p else s p

theorem paintInside {source s : P → V} {A : Set P} {p : P} (h : p ∈ A) : paint source A s p = source p :=
  if_pos h

theorem paintOutside {source s : P → V} {A : Set P} {p : P} (h : p ∉ A) : paint source A s p = s p :=
  if_neg h

@[simp] theorem paintNothing (source s : P → V) : paint source ∅ s = s := by
  funext p
  exact paintOutside (Set.notMem_empty p)

theorem paintPaint (source s : P → V) (A B : Set P) :
    paint source B (paint source A s) = paint source (A ∪ B) s := by
  funext p
  by_cases inB : p ∈ B
  · rw [paintInside inB,paintInside (Set.mem_union_right A inB)]
  · rw [paintOutside inB]
    by_cases inA : p ∈ A
    · rw [paintInside inA,paintInside (Set.mem_union_left B inA)]
    · have out : p ∉ A ∪ B := fun h => h.elim inA inB
      rw [paintOutside inA,paintOutside out]

/- A background need not be painted where the source shows through it. -/
theorem paintBackground {source s : P → V} {A B : Set P} {back : V} (inside : A ⊆ B)
    (rest : ∀ p ∈ B, p ∉ A → source p = back) :
    paint source A (paint (fun _ => back) B s) = paint source B s := by
  funext p
  by_cases inA : p ∈ A
  · rw [paintInside inA,paintInside (inside inA)]
  · rw [paintOutside inA]
    by_cases inB : p ∈ B
    · rw [paintInside inB,paintInside inB,rest p inB inA]
    · rw [paintOutside inB,paintOutside inB]

/- What a list of areas covers. -/
def covered (cells : R → Set P) (areas : List R) : Set P := {p | ∃ r ∈ areas, p ∈ cells r}

theorem coveredCons (cells : R → Set P) (r : R) (rest : List R) :
    covered cells (r :: rest) = cells r ∪ covered cells rest := by
  ext p
  simp [covered]

@[simp] theorem coveredNil (cells : R → Set P) : covered cells [] = ∅ := by
  ext p
  simp [covered]

theorem paintCovered (source s : P → V) (cells : R → Set P) (r : R) (rest : List R) :
    paint source (covered cells rest) (paint source (cells r) s) =
      paint source (covered cells (r :: rest)) s := by
  rw [paintPaint,coveredCons]

/- A source painted over what was painted from another. -/
theorem paintOver (one two s : P → V) (A B : Set P) :
    paint two B (paint one A s) = paint (paint two B one) (A ∪ B) s := by
  funext p
  by_cases inB : p ∈ B
  · rw [paintInside inB,paintInside (Set.mem_union_right A inB),paintInside inB]
  · rw [paintOutside inB]
    by_cases inA : p ∈ A
    · rw [paintInside inA,paintInside (Set.mem_union_left B inA),paintOutside inB]
    · have out : p ∉ A ∪ B := fun h => h.elim inA inB
      rw [paintOutside inA,paintOutside out]

/- The pictures differ in the set at most. -/
def KeepsOutside (A : Set P) (s t : P → V) : Prop := ∀ p, p ∉ A → t p = s p

theorem keepsOutsideSelf (A : Set P) (s : P → V) : KeepsOutside A s s := fun _ _ => rfl

theorem keepsOutsideTrans {A : Set P} {s t u : P → V} (one : KeepsOutside A s t) (two : KeepsOutside A t u) :
    KeepsOutside A s u := fun p out => (two p out).trans (one p out)

theorem paintKeeps (source s : P → V) {A B : Set P} (inside : A ⊆ B) : KeepsOutside B s (paint source A s) :=
  fun _ out => paintOutside fun inA => out (inside inA)

/- Some picture always shows where something was painted. -/
theorem paintKeepsIff [Nontrivial V] (source : P → V) {A B : Set P} :
    (∀ s, KeepsOutside B s (paint source A s)) ↔ A ⊆ B := by
  constructor
  · intro keeps p inA
    by_contra out
    obtain ⟨other,differs⟩ := exists_ne (source p)
    have same := keeps (fun _ => other) p out
    rw [paintInside inA] at same
    exact differs same.symm
  · exact fun inside s => paintKeeps source s inside

end Ltsm.Library
