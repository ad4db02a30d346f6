import Mathlib.Data.Nat.Basic

/-! Loops that may run for ever: the body goes on with a new state or leaves with a
result. A loop returns what some number of rounds comes to; the rules are those of an
invariant, of an invariant with a measure that goes down, and of one that never leaves. -/
namespace Ltsm.Library
variable {σ α : Type*}

def iterate (body : σ → σ ⊕ α) : Nat → σ → Option α
  | 0, _ => none
  | rounds + 1, s =>
    match body s with
    | .inl next => iterate body rounds next
    | .inr result => some result

def Returns (body : σ → σ ⊕ α) (s : σ) (result : α) : Prop := ∃ rounds, iterate body rounds s = some result

section
variable {body : σ → σ ⊕ α} {s next : σ} {result : α}

theorem returnsGoes (goes : body s = .inl next) : Returns body s result ↔ Returns body next result := by
  constructor
  · rintro ⟨rounds,returns⟩
    cases rounds with
    | zero => cases returns
    | succ rounds =>
      rw [iterate,goes] at returns
      exact ⟨rounds,returns⟩
  · rintro ⟨rounds,returns⟩
    exact ⟨rounds + 1,by rw [iterate,goes]; exact returns⟩

theorem returnsLeaves (leaves : body s = .inr result) : Returns body s result := ⟨1,by rw [iterate,leaves]⟩

theorem iterateMore {rounds more : Nat} (returns : iterate body rounds s = some result) (later : rounds ≤ more) :
    iterate body more s = some result := by
  induction rounds generalizing s more with
  | zero => cases returns
  | succ rounds ih =>
    obtain ⟨more,rfl⟩ := Nat.exists_eq_succ_of_ne_zero (show more ≠ 0 by omega)
    rw [iterate] at returns ⊢
    cases step : body s with
    | inl next =>
      rw [step] at returns
      exact ih returns (Nat.le_of_succ_le_succ later)
    | inr left =>
      rw [step] at returns
      exact returns

theorem returnsOnce {other : α} (one : Returns body s result) (two : Returns body s other) : result = other := by
  obtain ⟨rounds,first⟩ := one
  obtain ⟨more,second⟩ := two
  have last := iterateMore first (Nat.le_max_left rounds more)
  rw [iterateMore second (Nat.le_max_right rounds more)] at last
  exact (Option.some.inj last).symm

/- What an invariant says of the result, if there is one. -/
theorem returnsInvariant {I : σ → Prop} {P : α → Prop} (keeps : ∀ s next, I s → body s = .inl next → I next)
    (ends : ∀ s result, I s → body s = .inr result → P result) (start : I s) (returns : Returns body s result) :
    P result := by
  obtain ⟨rounds,returns⟩ := returns
  induction rounds generalizing s with
  | zero => cases returns
  | succ rounds ih =>
    rw [iterate] at returns
    cases step : body s with
    | inl next =>
      rw [step] at returns
      exact ih (keeps s next start step) returns
    | inr left =>
      rw [step] at returns
      cases returns
      exact ends s result start step

/- A measure that every round lessens. -/
theorem returnsWithin {I : σ → Prop} (rest : σ → Nat)
    (keeps : ∀ s next, I s → body s = .inl next → I next ∧ rest next < rest s) (start : I s) :
    ∃ result, Returns body s result := by
  generalize size : rest s = n
  induction n using Nat.strongRecOn generalizing s with
  | ind n ih =>
    cases step : body s with
    | inl next =>
      obtain ⟨inv,less⟩ := keeps s next start step
      obtain ⟨result,returns⟩ := ih (rest next) (size ▸ less) inv rfl
      exact ⟨result,(returnsGoes step).mpr returns⟩
    | inr result => exact ⟨result,returnsLeaves step⟩

/- An invariant under which every round goes on. -/
theorem returnsNever {I : σ → Prop} (keeps : ∀ s, I s → ∃ next, body s = .inl next ∧ I next) (start : I s)
    (result : α) : ¬Returns body s result := by
  rintro ⟨rounds,returns⟩
  induction rounds generalizing s with
  | zero => cases returns
  | succ rounds ih =>
    obtain ⟨next,step,inv⟩ := keeps s start
    rw [iterate,step] at returns
    exact ih inv returns

end
end Ltsm.Library
