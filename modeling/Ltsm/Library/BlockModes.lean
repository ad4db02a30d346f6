import Mathlib.Data.List.Basic

/-! Ways to put a message of several blocks through a block cipher: every block for
itself, or each mixed first with the block that came out before it. -/
namespace Ltsm.Library

/- How a block is mixed with another; only the zero block leaves it as it was. -/
structure Mixing (B : Type*) where
  mix : B → B → B
  zero : B
  mixZero : ∀ block, mix block zero = block
  mixFixed : ∀ block other, mix block other = block → other = zero

section
variable {B : Type*} (m : Mixing B) {enc : B → B}

def independent (enc : B → B) (blocks : List B) : List B := blocks.map enc

/- The chaining mode: `previous` is the block that came out last. -/
def chained (enc : B → B) : B → List B → List B
  | _, [] => []
  | previous, block :: rest => enc (m.mix block previous) :: chained enc (enc (m.mix block previous)) rest

theorem chainedOne (block : B) : chained m enc m.zero [block] = [enc block] := by
  rw [chained,m.mixZero,chained]

theorem chainedFromIff (injective : Function.Injective enc) (previous block : B) (rest : List B) :
    chained m enc previous (block :: rest) = independent enc (block :: rest) ↔
      previous = m.zero ∧ ∀ b ∈ (block :: rest).dropLast, enc b = m.zero := by
  induction rest generalizing previous block with
  | nil =>
    simp only [chained,independent,List.map_cons,List.map_nil,List.cons.injEq,and_true,List.dropLast_singleton,
      List.not_mem_nil,false_implies,implies_true]
    refine ⟨fun same => m.mixFixed block previous (injective same),?_⟩
    rintro rfl
    rw [m.mixZero]
  | cons next rest ih =>
    rw [chained,independent,List.map_cons,List.cons.injEq,← independent,ih,List.dropLast_cons_cons]
    constructor
    · rintro ⟨same,zero,later⟩
      have first : previous = m.zero := m.mixFixed block previous (injective same)
      rw [same] at zero
      exact ⟨first,List.forall_mem_cons.mpr ⟨zero,later⟩⟩
    · rintro ⟨rfl,all⟩
      obtain ⟨zero,later⟩ := List.forall_mem_cons.mp all
      rw [m.mixZero]
      exact ⟨rfl,zero,later⟩

/- The two modes agree on a message exactly when every block of it but the last one comes
out as the zero block. -/
theorem chainedIndependentIff (injective : Function.Injective enc) (blocks : List B) :
    chained m enc m.zero blocks = independent enc blocks ↔ ∀ b ∈ blocks.dropLast, enc b = m.zero := by
  cases blocks with
  | nil => simp [chained,independent]
  | cons block rest => simpa using chainedFromIff m injective m.zero block rest

end

end Ltsm.Library
