import Mathlib.Data.List.Basic
import RustAdmin.Support.Bytes

/-!
# Blocks of bytes

Fields of a message with a fixed number of bytes, and where they end up when a message
that was put together from its fields is cut at their lengths again.
-/

namespace RustAdmin.Support

/-- An array of `n` bytes. -/
@[ext] structure Block (n : ℕ) where
  bytes : List UInt8
  length_bytes : bytes.length = n
deriving DecidableEq, Repr

namespace Block

variable {n : ℕ}

attribute [simp] length_bytes

/-- The bytes as a block, where they have its length. -/
def ofList? (n : ℕ) (bytes : List UInt8) : Option (Block n) :=
  if h : bytes.length = n then some ⟨bytes, h⟩ else none

@[simp] theorem ofList?_bytes (block : Block n) : ofList? n block.bytes = some block := by
  rw [ofList?, dif_pos block.length_bytes]

theorem ofList?_eq_some {bytes : List UInt8} {block : Block n} :
    ofList? n bytes = some block ↔ bytes = block.bytes := by
  constructor
  · intro h
    by_cases hlength : bytes.length = n
    · rw [ofList?, dif_pos hlength] at h
      rw [← Option.some.inj h]
    · rw [ofList?, dif_neg hlength] at h
      cases h
  · rintro rfl
    exact ofList?_bytes block

theorem ofList?_eq_none {bytes : List UInt8} : ofList? n bytes = none ↔ bytes.length ≠ n := by
  by_cases h : bytes.length = n <;> simp [ofList?, h]

/-- A message is read past its first field. -/
@[simp] theorem drop_append (block : Block n) (rest : List UInt8) :
    (block.bytes ++ rest).drop n = rest := List.drop_left' block.length_bytes

@[simp] theorem take_append (block : Block n) (rest : List UInt8) :
    (block.bytes ++ rest).take n = block.bytes := List.take_left' block.length_bytes

/-- A message that is long enough begins with a block. -/
theorem exists_append {bytes : List UInt8} (h : n ≤ bytes.length) :
    ∃ block : Block n, bytes = block.bytes ++ bytes.drop n := by
  refine ⟨⟨bytes.take n, ?_⟩, (List.take_append_drop n bytes).symm⟩
  rw [List.length_take, Nat.min_eq_left h]

/-- Blocks of one length are told apart in front of any rest. -/
theorem append_inj {first second : Block n} {rest rest' : List UInt8}
    (h : first.bytes ++ rest = second.bytes ++ rest') : first = second ∧ rest = rest' := by
  obtain ⟨hbytes, hrest⟩ := List.append_inj h (by simp)
  exact ⟨Block.ext hbytes, hrest⟩

end Block

/-! ## Big-endian numbers -/

/-- `u16::to_be_bytes`. -/
def putBe16 (value : ℕ) : List UInt8 := [UInt8.ofNat (value / 256), UInt8.ofNat value]

/-- `u16::from_be_bytes`. -/
def ofBe16 (high low : UInt8) : ℕ := 256 * high.toNat + low.toNat

theorem ofBe16_putBe16 {value : ℕ} (h : value < 2 ^ 16) :
    ofBe16 (UInt8.ofNat (value / 256)) (UInt8.ofNat value) = value := by
  simp only [ofBe16, UInt8.toNat_ofNat']
  omega

theorem putBe16_ofBe16 (high low : UInt8) : putBe16 (ofBe16 high low) = [high, low] := by
  have hlow : low.toNat < 256 := low.toNat_lt
  have hdiv : (256 * high.toNat + low.toNat) / 256 = high.toNat := by omega
  have hmod : UInt8.ofNat (256 * high.toNat + low.toNat) = low := by
    apply UInt8.toNat_inj.mp
    rw [UInt8.toNat_ofNat']
    omega
  rw [putBe16, ofBe16, hdiv, hmod, UInt8.ofNat_toNat]

theorem ofBe16_lt (high low : UInt8) : ofBe16 high low < 2 ^ 16 := by
  have hhigh : high.toNat < 256 := high.toNat_lt
  have hlow : low.toNat < 256 := low.toNat_lt
  unfold ofBe16
  omega

end RustAdmin.Support
