import Mathlib.Data.List.Basic
import Mathlib.Tactic.Ring

/-! Blocks of one length put one after another. -/
namespace Ltsm.Library
variable {A B : Type*} {g : A → List B} {n : Nat}

theorem lengthBlocks (items : List A) (each : ∀ a ∈ items, (g a).length = n) :
    (items.flatMap g).length = items.length * n := by
  induction items with
  | nil => simp
  | cons a rest ih =>
    obtain ⟨first,later⟩ := List.forall_mem_cons.mp each
    rw [List.flatMap_cons,List.length_append,first,ih later,List.length_cons]
    ring

theorem dropBlocks (items : List A) (each : ∀ a ∈ items, (g a).length = n) (i : Nat) :
    (items.flatMap g).drop (i * n) = (items.drop i).flatMap g := by
  induction items generalizing i with
  | nil => simp
  | cons a rest ih =>
    obtain ⟨first,later⟩ := List.forall_mem_cons.mp each
    cases i with
    | zero => simp
    | succ i =>
      have split : (i + 1) * n = (g a).length + i * n := by
        rw [first]
        ring
      rw [List.flatMap_cons,split,← List.drop_drop,List.drop_left,ih later]
      rfl

/- The block at a place, and what is behind it. -/
theorem blockAt (items : List A) (each : ∀ a ∈ items, (g a).length = n) {i : Nat} (inside : i < items.length) :
    (items.flatMap g).drop (i * n) = g items[i] ++ (items.drop (i + 1)).flatMap g := by
  rw [dropBlocks items each,List.drop_eq_getElem_cons inside,List.flatMap_cons]

/- Rows of blocks. -/
theorem blockInRows {C : Type*} (rows : List A) (cols : List C) {g : A → C → List B}
    (each : ∀ a ∈ rows, ∀ c ∈ cols, (g a c).length = n) {i j : Nat} (row : i < rows.length)
    (col : j < cols.length) :
    ((rows.flatMap fun a => cols.flatMap (g a)).drop (i * (cols.length * n) + j * n)).take n =
      g rows[i] cols[j] := by
  have rowLength (a) (listed : a ∈ rows) : (cols.flatMap (g a)).length = cols.length * n :=
    lengthBlocks cols (each a listed)
  have here := each _ (List.getElem_mem row)
  have inside : j * n ≤ (cols.flatMap (g rows[i])).length := by
    rw [rowLength _ (List.getElem_mem row)]
    exact Nat.mul_le_mul_right n (Nat.le_of_lt col)
  rw [← List.drop_drop,blockAt rows rowLength row,List.drop_append_of_le_length inside,
    blockAt cols here col,List.append_assoc,← here _ (List.getElem_mem col),List.take_left]

end Ltsm.Library
