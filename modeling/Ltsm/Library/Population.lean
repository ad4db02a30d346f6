import Mathlib.Data.Fintype.Card
import Mathlib.Algebra.BigOperators.Group.Finset.Piecewise

/-! Parties that are each in one place at a time: how many are in the places of a kind, and how
that changes when one of them moves. -/
namespace Ltsm.Library
variable {ι P : Type*} [Fintype ι]

def population (kind : P → Bool) (place : ι → P) : Nat := (Finset.univ.filter fun i => kind (place i) = true).card

section
variable {kind other : P → Bool} {place : ι → P}

theorem populationLe (kind : P → Bool) (place : ι → P) : population kind place ≤ Fintype.card ι :=
  Finset.card_le_univ _

theorem populationPos : 0 < population kind place ↔ ∃ i, kind (place i) = true := by
  rw [population,Finset.card_pos]
  simp [Finset.Nonempty]

theorem populationZero : population kind place = 0 ↔ ∀ i, kind (place i) = false := by
  rw [population,Finset.card_eq_zero,Finset.filter_eq_empty_iff]
  simp

theorem populationSingle (few : population kind place ≤ 1) {i j : ι} (first : kind (place i) = true)
    (second : kind (place j) = true) : i = j :=
  Finset.card_le_one.mp few i (by simpa using first) j (by simpa using second)

theorem populationMono (wider : ∀ p, kind p = true → other p = true) (place : ι → P) :
    population kind place ≤ population other place :=
  Finset.card_le_card fun i inside => by
    rw [Finset.mem_filter] at inside ⊢
    exact ⟨inside.1,wider _ inside.2⟩

theorem populationSum (kind : P → Bool) (place : ι → P) : population kind place = ∑ i, (kind (place i)).toNat := by
  rw [population,Finset.card_filter]
  refine Finset.sum_congr rfl fun i _ => ?_
  cases kind (place i) <;> rfl

/- Kinds that have no place in common. -/
theorem populationOr (apart : ∀ p, kind p = true → other p = false) (place : ι → P) :
    population (fun p => kind p || other p) place = population kind place + population other place := by
  rw [populationSum,populationSum,populationSum,← Finset.sum_add_distrib]
  refine Finset.sum_congr rfl fun i _ => ?_
  cases first : kind (place i) with
  | false => simp
  | true => simp [apart _ first]

/- One party moves. -/
theorem populationMoves [DecidableEq ι] (kind : P → Bool) (place : ι → P) (i : ι) (p : P) :
    population kind (Function.update place i p) + (kind (place i)).toNat = population kind place + (kind p).toNat := by
  have before := Finset.add_sum_erase Finset.univ (fun j => (kind (place j)).toNat) (Finset.mem_univ i)
  have after := Finset.add_sum_erase Finset.univ (fun j => (kind (Function.update place i p j)).toNat) (Finset.mem_univ i)
  have others : ∑ j ∈ Finset.univ.erase i, (kind (Function.update place i p j)).toNat =
      ∑ j ∈ Finset.univ.erase i, (kind (place j)).toNat := by
    refine Finset.sum_congr rfl fun j inside => ?_
    rw [Function.update_of_ne (Finset.ne_of_mem_erase inside)]
  rw [others] at after
  rw [Function.update_self] at after
  rw [populationSum,populationSum,← before,← after]
  omega

end
end Ltsm.Library
