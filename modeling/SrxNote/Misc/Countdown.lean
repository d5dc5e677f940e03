import Mathlib.Data.Nat.ModEq
import Mathlib.Data.Int.GCD

/-!
# Counting down in modular arithmetic

A counter that is decreased by a fixed amount modulo `m` and tested only for
zero gets there when the greatest common divisor of the amount and the modulus
divides it.
-/

namespace SrxNote

/-- A number that `gcd d m` divides is congruent to a multiple of `d` modulo `m`. -/
theorem exists_mul_modEq_of_gcd_dvd {d m r : Nat} (hm : Nat.gcd d m < m) (h : Nat.gcd d m ∣ r) :
    ∃ k, d * k ≡ r [MOD m] := by
  obtain ⟨t, rfl⟩ := h
  obtain ⟨k, -, hk⟩ := Nat.exists_mul_mod_eq_gcd hm
  refine ⟨k * t, ?_⟩
  have hmod : d * k ≡ Nat.gcd d m [MOD m] := by
    rw [Nat.ModEq, hk, Nat.mod_eq_of_lt hm]
  rw [← Nat.mul_assoc]
  exact hmod.mul_right t

end SrxNote
