import Mathlib.Algebra.Order.Ring.Nat
import Mathlib.Data.Nat.Basic
import Mathlib.Data.Nat.Notation

/-!
# Doubling delays

A delay that doubles with every failure up to a cap.  Programs bound the exponent
as well, so that the shift cannot overflow; where the cap is reached by then, this
changes nothing.
-/

namespace RustAdmin.Support

/-- The delay after `n` doublings. -/
def doublingDelay (base cap n : ℕ) : ℕ := min (base * 2 ^ n) cap

theorem doublingDelay_le (base cap n : ℕ) : doublingDelay base cap n ≤ cap := Nat.min_le_right _ _

theorem doublingDelay_mono (base cap : ℕ) {m n : ℕ} (hmn : m ≤ n) :
    doublingDelay base cap m ≤ doublingDelay base cap n := by
  have hpow : 2 ^ m ≤ 2 ^ n := Nat.pow_le_pow_right (by omega) hmn
  have hmul : base * 2 ^ m ≤ base * 2 ^ n := Nat.mul_le_mul_left base hpow
  unfold doublingDelay
  omega

/-- Bounding the exponent where the cap is reached changes nothing. -/
theorem doublingDelay_min {base cap bound : ℕ} (hbound : cap ≤ base * 2 ^ bound) (n : ℕ) :
    doublingDelay base cap (min n bound) = doublingDelay base cap n := by
  rcases Nat.le_total n bound with hle | hle
  · rw [Nat.min_eq_left hle]
  · rw [Nat.min_eq_right hle]
    have hpow : 2 ^ bound ≤ 2 ^ n := Nat.pow_le_pow_right (by omega) hle
    have hmul : base * 2 ^ bound ≤ base * 2 ^ n := Nat.mul_le_mul_left base hpow
    unfold doublingDelay
    omega

end RustAdmin.Support
