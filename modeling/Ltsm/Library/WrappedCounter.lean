import Mathlib.Data.Int.GCD
import Mathlib.Tactic.Ring

/-! A counter of so many values that is advanced by a step, round and round: which
values it comes to. -/
namespace Ltsm.Library
variable {step modulus length : Nat}

/- It comes past a length exactly if there is a multiple of the common divisor there. -/
theorem counterReaches (positive : 0 < modulus) :
    (∃ i, length ≤ i * step % modulus) ↔ length + Nat.gcd step modulus ≤ modulus := by
  have some : 0 < Nat.gcd step modulus := Nat.gcd_pos_of_pos_right step positive
  have whole : Nat.gcd step modulus ≤ modulus := Nat.gcd_le_right step positive
  constructor
  · rintro ⟨i,past⟩
    have less : i * step % modulus < modulus := Nat.mod_lt _ positive
    have divides : Nat.gcd step modulus ∣ modulus - i * step % modulus :=
      Nat.dvd_sub (Nat.gcd_dvd_right step modulus) ((Nat.dvd_mod_iff (Nat.gcd_dvd_right step modulus)).mpr
        ((Nat.gcd_dvd_left step modulus).mul_left i))
    have least := Nat.le_of_dvd (Nat.sub_pos_of_lt less) divides
    omega
  · intro room
    by_cases none : length = 0
    · exact ⟨0,by omega⟩
    · obtain ⟨m,_,gcd⟩ := Nat.exists_mul_mod_eq_gcd (n := step) (k := modulus) (by omega)
      refine ⟨m * (modulus - 1),?_⟩
      -- one step back from nought is the largest multiple
      have back : (modulus - 1) * Nat.gcd step modulus =
          modulus * (Nat.gcd step modulus - 1) + (modulus - Nat.gcd step modulus) := by
        rw [Nat.mul_sub,Nat.sub_mul,Nat.mul_one,Nat.one_mul]
        have more : modulus ≤ modulus * Nat.gcd step modulus := Nat.le_mul_of_pos_right modulus some
        omega
      have reached : m * (modulus - 1) * step % modulus = modulus - Nat.gcd step modulus := by
        have order : m * (modulus - 1) * step = (modulus - 1) * (step * m) := by ring
        rw [order,Nat.mul_mod,gcd,Nat.mod_mul_mod,back,Nat.mul_add_mod,Nat.mod_eq_of_lt (by omega)]
      omega

end Ltsm.Library
