import Mathlib.Data.List.Sort
import Mathlib.Order.Defs.LinearOrder

/-! Ordered linked lists in the manner of the C++ list algorithms: removal of
consecutive repeats and intersection of two sorted ranges. -/
namespace Ltsm.Library
variable {α : Type*} [LinearOrder α]

/- Of each group of consecutive equal elements only the first one stays. -/
def unique : List α → List α
  | [] => []
  | [a] => [a]
  | a :: b :: rest => if a = b then unique (b :: rest) else a :: unique (b :: rest)

@[simp] theorem memUnique {a : α} {l : List α} : a ∈ unique l ↔ a ∈ l := by
  induction l using unique.induct with
  | case1 => simp [unique]
  | case2 b => simp [unique]
  | case3 b rest ih =>
    rw [unique,if_pos rfl,ih]
    simp
  | case4 b c rest different ih =>
    rw [unique,if_neg different,List.mem_cons,ih,List.mem_cons (b := b)]

/- On a sorted list no repeat is left at all. -/
theorem uniqueStrict {l : List α} (sorted : l.Pairwise (· ≤ ·)) :
    (unique l).Pairwise (· < ·) := by
  induction l using unique.induct with
  | case1 => simp [unique]
  | case2 b => simp [unique]
  | case3 b rest ih =>
    rw [unique,if_pos rfl]
    exact ih sorted.tail
  | case4 b c rest different ih =>
    rw [unique,if_neg different,List.pairwise_cons]
    obtain ⟨below,tail⟩ := List.pairwise_cons.mp sorted
    refine ⟨?_,ih tail⟩
    intro x hx
    have first : b < c := lt_of_le_of_ne (below c List.mem_cons_self) different
    rcases List.mem_cons.mp (memUnique.mp hx) with rfl | later
    · exact first
    · exact first.trans_le ((List.pairwise_cons.mp tail).1 x later)

def sortUnique (l : List α) : List α := unique (l.insertionSort (· ≤ ·))

@[simp] theorem memSortUnique {a : α} {l : List α} : a ∈ sortUnique l ↔ a ∈ l := by
  simp [sortUnique]

theorem sortUniqueStrict (l : List α) : (sortUnique l).Pairwise (· < ·) :=
  uniqueStrict (List.pairwise_insertionSort (· ≤ ·) l)

/- Elements of the first range that also stand in the second one; the second
range is only ever read forwards. -/
def setIntersection : List α → List α → List α
  | [], _ => []
  | a :: left, right =>
    match right.dropWhile (· < a) with
    | [] => []
    | b :: rest =>
      if a < b then setIntersection left (b :: rest)
      else a :: setIntersection left rest

/- What `dropWhile` skips lies below `a`, and what it keeps is still sorted. -/
theorem dropBelow {a : α} {right : List α} (strict : right.Pairwise (· < ·)) :
    (right.dropWhile (· < a)).Pairwise (· < ·) ∧ (∀ x ∈ right.dropWhile (· < a), a ≤ x) ∧
      ∀ x, a ≤ x → (x ∈ right.dropWhile (· < a) ↔ x ∈ right) := by
  induction right with
  | nil => simp
  | cons b rest ih =>
    obtain ⟨above,tail⟩ := List.pairwise_cons.mp strict
    by_cases below : b < a
    · rw [List.dropWhile_cons_of_pos (by simpa using below)]
      obtain ⟨sorted,bound,same⟩ := ih tail
      refine ⟨sorted,bound,?_⟩
      intro x hx
      have other : x ≠ b := fun h => absurd (h ▸ hx) (not_le.mpr below)
      simp [same x hx,other]
    · rw [List.dropWhile_cons_of_neg (by simpa using below)]
      refine ⟨strict,?_,fun x _ => Iff.rfl⟩
      intro x hx
      rcases List.mem_cons.mp hx with rfl | later
      · exact not_lt.mp below
      · exact (not_lt.mp below).trans (above x later).le

theorem memSetIntersection {left right : List α} (leftStrict : left.Pairwise (· < ·))
    (rightStrict : right.Pairwise (· < ·)) {x : α} :
    x ∈ setIntersection left right ↔ x ∈ left ∧ x ∈ right := by
  induction left generalizing right with
  | nil => simp [setIntersection]
  | cons a left ih =>
    obtain ⟨above,tail⟩ := List.pairwise_cons.mp leftStrict
    obtain ⟨sorted,bound,same⟩ := dropBelow (a := a) rightStrict
    -- an element of the left range is never below its head
    have reach : ∀ y ∈ a :: left, a ≤ y := by
      intro y hy
      rcases List.mem_cons.mp hy with rfl | later
      · exact le_rfl
      · exact (above y later).le
    have kept : (x ∈ a :: left ∧ x ∈ right) ↔
        (x ∈ a :: left ∧ x ∈ right.dropWhile (· < a)) :=
      and_congr_right fun hx => (same x (reach x hx)).symm
    rw [kept,setIntersection]
    cases dropped : right.dropWhile (· < a) with
    | nil => simp
    | cons b rest =>
      rw [dropped] at sorted bound
      obtain ⟨aboveB,rested⟩ := List.pairwise_cons.mp sorted
      have head : a ≤ b := bound b List.mem_cons_self
      by_cases lower : a < b
      · simp only [if_pos lower,ih tail sorted,List.mem_cons]
        constructor
        · exact fun h => ⟨.inr h.1,h.2⟩
        · rintro ⟨rfl | inside,found⟩
          · rcases found with rfl | later
            · exact absurd lower (lt_irrefl _)
            · exact absurd (lower.trans (aboveB x later)) (lt_irrefl _)
          · exact ⟨inside,found⟩
      · have equal : a = b := le_antisymm head (not_lt.mp lower)
        subst equal
        simp only [if_neg lower,List.mem_cons,ih tail rested]
        constructor
        · rintro (rfl | ⟨inside,found⟩)
          · exact ⟨.inl rfl,.inl rfl⟩
          · exact ⟨.inr inside,.inr found⟩
        · rintro ⟨rfl | inside,found⟩
          · exact .inl rfl
          · rcases found with rfl | later
            · exact absurd (above x inside) (lt_irrefl _)
            · exact .inr ⟨inside,later⟩

end Ltsm.Library
