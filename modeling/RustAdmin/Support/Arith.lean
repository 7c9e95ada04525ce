import Mathlib.Algebra.Order.Ring.Int

/-!
# Machine arithmetic

Counters are natural numbers below a machine bound.  Addition that saturates
stops at the bound; a subtraction below zero does not return a value, so it is
partial here: `none` stands for the overflow.  A cast keeps the low bits and
reads them in the range of its target type.
-/

namespace RustAdmin.Support

/-- The largest 64-bit unsigned value. -/
def usizeMax : ℕ := 2 ^ 64 - 1

/-- Addition that stops at the largest value. -/
def saturatingAdd (a b : ℕ) : ℕ := min (a + b) usizeMax

/-- Subtraction that has no value where the result would be negative. -/
def checkedSub (a b : ℕ) : Option ℕ := if b ≤ a then some (a - b) else none

theorem checkedSub_of_le {a b : ℕ} (h : b ≤ a) : checkedSub a b = some (a - b) := if_pos h

theorem checkedSub_add_right (a b : ℕ) : checkedSub (a + b) b = some a := by
  rw [checkedSub_of_le (Nat.le_add_left b a), Nat.add_sub_cancel]

/-- A saturating sum exceeds a limit below the bound exactly when the sum does. -/
theorem lt_saturatingAdd {limit a b : ℕ} (hlimit : limit < usizeMax) :
    limit < saturatingAdd a b ↔ limit < a + b := by
  unfold saturatingAdd
  omega

/-- The largest 64-bit signed value. -/
def i64Max : ℤ := 2 ^ 63 - 1

/-- A signed 64-bit result that stops at the bounds. -/
def saturateI64 (x : ℤ) : ℤ := max (-2 ^ 63) (min x i64Max)

theorem saturateI64_le_max (x : ℤ) : saturateI64 x ≤ i64Max := by
  unfold saturateI64 i64Max
  omega

theorem le_saturateI64 {a x : ℤ} (ha : a ≤ i64Max) (hx : a ≤ x) : a ≤ saturateI64 x := by
  unfold saturateI64
  omega

theorem saturateI64_le {x : ℤ} (hx : 0 ≤ x) : saturateI64 x ≤ x := by
  unfold saturateI64 i64Max
  omega

theorem saturateI64_of_le {x : ℤ} (hx : 0 ≤ x) (hle : x ≤ i64Max) : saturateI64 x = x := by
  unfold saturateI64
  omega

/-! ## Casts -/

/-- The cast to a signed 32-bit integer. -/
def castI32 (x : ℤ) : ℤ := x.bmod (2 ^ 32)

/-- The cast to a signed 64-bit integer. -/
def castI64 (x : ℤ) : ℤ := x.bmod (2 ^ 64)

/-- What fits into 64 bits is kept. -/
theorem castI64_of_lt {x : ℤ} (hle : -2 ^ 63 ≤ x) (hlt : x < 2 ^ 63) : castI64 x = x := by
  unfold castI64
  rw [Int.bmod_def]
  omega

/-- The cast to an unsigned 64-bit integer; a negative number comes out above. -/
def castU64 (x : ℤ) : ℕ := (x % 2 ^ 64).toNat

/-- Casting 32 bits up without a sign bit keeps them. -/
theorem castU64_castI32_of_lt {x : ℤ} (hnonneg : 0 ≤ x) (hlt : x < 2 ^ 31) :
    castU64 (castI32 x) = x.toNat := by
  unfold castU64 castI32
  rw [Int.bmod_def]
  omega

/-- Casting 32 bits up with the sign bit set fills the upper half with ones. -/
theorem le_castU64_castI32 {x : ℤ} (hle : 2 ^ 31 ≤ x) (hlt : x < 2 ^ 32) :
    2 ^ 64 - 2 ^ 32 ≤ castU64 (castI32 x) := by
  unfold castU64 castI32
  rw [Int.bmod_def]
  omega

end RustAdmin.Support
