import Mathlib.Algebra.BigOperators.Ring.List
import Mathlib.Tactic.Ring

/-! A stretch of numbers cut into consecutive spans, each a start and a length. -/
namespace Ltsm.Library

inductive Spans : Nat → List (Nat × Nat) → Nat → Prop
  | nil (stop : Nat) : Spans stop [] stop
  | cons {start length rest stop} : 0 < length → Spans (start + length) rest stop →
      Spans start ((start,length) :: rest) stop

theorem spansTotal {start spans stop} (h : Spans start spans stop) :
    start + (spans.map Prod.snd).sum = stop := by
  induction h with
  | nil stop => simp
  | cons _ _ ih => rw [List.map_cons,List.sum_cons,← Nat.add_assoc,ih]

theorem spansInside {start spans stop} (h : Spans start spans stop) {span : Nat × Nat}
    (listed : span ∈ spans) : start ≤ span.1 ∧ 0 < span.2 ∧ span.1 + span.2 ≤ stop := by
  induction h with
  | nil stop => exact absurd listed List.not_mem_nil
  | @cons start length rest stop positive tail ih =>
    have total := spansTotal tail
    obtain rfl | later := List.mem_cons.mp listed
    · exact ⟨le_rfl,positive,by simp only; omega⟩
    · obtain ⟨after,some,before⟩ := ih later
      exact ⟨by omega,some,before⟩

theorem spansCover {start spans stop} (h : Spans start spans stop) {n : Nat} (above : start ≤ n)
    (below : n < stop) : ∃ span ∈ spans, span.1 ≤ n ∧ n < span.1 + span.2 := by
  induction h with
  | nil stop => omega
  | @cons start length rest stop positive tail ih =>
    by_cases here : n < start + length
    · exact ⟨(start,length),List.mem_cons_self,above,here⟩
    · obtain ⟨span,listed,within⟩ := ih (Nat.le_of_not_lt here) below
      exact ⟨span,List.mem_cons_of_mem _ listed,within⟩

/- Each span ends before the next ones start. -/
theorem spansApart {start spans stop} (h : Spans start spans stop) :
    spans.Pairwise fun one other => one.1 + one.2 ≤ other.1 := by
  induction h with
  | nil stop => exact .nil
  | cons _ tail ih =>
    refine List.pairwise_cons.mpr ⟨fun span listed => ?_,ih⟩
    exact (spansInside tail listed).1

theorem spansOne {spans stop} (h : Spans 0 spans stop) (one : spans.length = 1) : spans = [(0,stop)] := by
  match h with
  | .cons _ (.nil _) => simp
  | .cons _ (.cons _ _) => simp at one

theorem spansRange {start spans stop} (h : Spans start spans stop) :
    (spans.flatMap fun span => (List.range span.2).map fun n => span.1 + n) =
      List.range' start (stop - start) := by
  induction h with
  | nil stop => simp
  | @cons start length rest stop positive tail ih =>
    have total := spansTotal tail
    have split : stop - start = length + (stop - (start + length)) := by omega
    have first : List.range' start length = (List.range length).map fun n => start + n :=
      List.range'_eq_map_range
    rw [List.flatMap_cons,ih,split,← List.range'_append_1,first]

/- Every pair of lengths of two stretches, multiplied, gives the area between them. -/
theorem sumProducts (rows cols : List Nat) :
    (rows.flatMap fun row => cols.map fun col => col * row).sum = cols.sum * rows.sum := by
  induction rows with
  | nil => simp
  | cons row rest ih =>
    rw [List.flatMap_cons,List.sum_append,ih,List.sum_map_mul_right,List.sum_cons,List.map_id']
    ring

end Ltsm.Library
