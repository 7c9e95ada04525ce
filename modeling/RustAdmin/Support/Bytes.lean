import Mathlib.Algebra.Order.Ring.Int
import Mathlib.Data.List.Basic

/-!
# Little-endian byte strings

Writing a number into a field of fixed width keeps its low bytes, and reading
the field gives them back.
-/

namespace RustAdmin.Support

/-- The `width` low bytes of a number, the lowest first. -/
def putLe : ℕ → ℕ → List UInt8
  | 0, _ => []
  | width + 1, value => UInt8.ofNat value :: putLe width (value / 256)

/-- The number behind a string of bytes, the lowest first. -/
def ofLe : List UInt8 → ℕ
  | [] => 0
  | byte :: bytes => byte.toNat + 256 * ofLe bytes

/-- Takes a number off the front of a buffer. -/
def getLe (width : ℕ) (bytes : List UInt8) : ℕ × List UInt8 :=
  (ofLe (bytes.take width), bytes.drop width)

@[simp] theorem length_putLe (width value : ℕ) : (putLe width value).length = width := by
  induction width generalizing value with
  | zero => rfl
  | succ width ih => rw [putLe, List.length_cons, ih]

theorem ofLe_putLe (width value : ℕ) : ofLe (putLe width value) = value % 256 ^ width := by
  induction width generalizing value with
  | zero => simp [putLe, ofLe, Nat.mod_one]
  | succ width ih =>
      have hbyte : (UInt8.ofNat value).toNat = value % 256 := by simp
      calc ofLe (putLe (width + 1) value)
          = value % 256 + 256 * (value / 256 % 256 ^ width) := by rw [putLe, ofLe, ih, hbyte]
        _ = value % (256 * 256 ^ width) := (Nat.mod_mul).symm
        _ = value % 256 ^ (width + 1) := by rw [Nat.pow_succ']

@[simp] theorem getLe_putLe_append (width value : ℕ) (rest : List UInt8) :
    getLe width (putLe width value ++ rest) = (value % 256 ^ width, rest) := by
  have hlength : width = (putLe width value).length := (length_putLe width value).symm
  unfold getLe
  rw [List.take_left' (length_putLe width value), List.drop_left' (length_putLe width value),
    ofLe_putLe]

@[simp] theorem drop_replicate_append {ι : Type*} (n : ℕ) (x : ι) (rest : List ι) :
    (List.replicate n x ++ rest).drop n = rest :=
  List.drop_left' List.length_replicate

end RustAdmin.Support
