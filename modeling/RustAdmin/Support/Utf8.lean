import Mathlib.Data.List.Basic
import Mathlib.Data.Nat.Notation

/-!
# UTF-8

The bytes of a text, where its characters begin in them, and which bytes are a
text at all.

What is used of a character is the shape of its bytes (`encodeChar_shape`): one that
is no continuation, and continuations behind it, none of them below 128.  So an ASCII
separator is found only where it was put (`splitOnP_encodeUtf8`), and from any place
the next character is at most three continuations away (`exists_boundary`).
-/

namespace RustAdmin.Support

def encodeUtf8 (text : List Char) : List UInt8 := text.flatMap String.utf8EncodeChar

@[simp] theorem encodeUtf8_nil : encodeUtf8 [] = [] := rfl

@[simp] theorem encodeUtf8_cons (c : Char) (text : List Char) :
    encodeUtf8 (c :: text) = String.utf8EncodeChar c ++ encodeUtf8 text := rfl

@[simp] theorem encodeUtf8_append (first second : List Char) :
    encodeUtf8 (first ++ second) = encodeUtf8 first ++ encodeUtf8 second := by
  simp [encodeUtf8]

theorem utf8Size_eq (c : Char) : c.utf8Size =
    if c.toNat ≤ 0x7f then 1 else if c.toNat ≤ 0x7ff then 2 else
      if c.toNat ≤ 0xffff then 3 else 4 := by
  unfold Char.utf8Size
  simp only [UInt32.le_iff_toNat_le]
  rfl

/-- A byte behind the first byte of its character. -/
def IsContinuation (byte : UInt8) : Prop := byte &&& 0b11000000 = 0b10000000

instance (byte : UInt8) : Decidable (IsContinuation byte) :=
  inferInstanceAs (Decidable (_ = _))

/-! ## One character -/

private theorem forall_byte {p : UInt8 → Prop} (h : ∀ bits : BitVec 8, p ⟨bits⟩) (byte : UInt8) :
    p byte := h byte.toBitVec

private theorem isContinuation_or (byte : UInt8) : IsContinuation (byte &&& 0x3f ||| 0x80) := by
  revert byte
  exact forall_byte (by decide)

private theorem not_isContinuation_of_two (byte : UInt8) :
    ¬ IsContinuation (byte &&& 0x1f ||| 0xc0) ∧ 0x80 ≤ byte &&& 0x1f ||| 0xc0 := by
  revert byte
  exact forall_byte (by decide)

private theorem not_isContinuation_of_three (byte : UInt8) :
    ¬ IsContinuation (byte &&& 0x0f ||| 0xe0) ∧ 0x80 ≤ byte &&& 0x0f ||| 0xe0 := by
  revert byte
  exact forall_byte (by decide)

private theorem not_isContinuation_of_four (byte : UInt8) :
    ¬ IsContinuation (byte &&& 0x07 ||| 0xf0) ∧ 0x80 ≤ byte &&& 0x07 ||| 0xf0 := by
  revert byte
  exact forall_byte (by decide)

private theorem continuation_bytes (byte : UInt8) : IsContinuation byte → 0x80 ≤ byte := by
  revert byte
  exact forall_byte (by decide)

/-- The bytes of a character: one that is no continuation, then at most three
that are; only the ASCII characters have a byte below 128. -/
theorem encodeChar_shape (c : Char) :
    ∃ first tail, String.utf8EncodeChar c = first :: tail ∧ ¬ IsContinuation first ∧
      tail.length ≤ 3 ∧ (∀ byte ∈ tail, IsContinuation byte) ∧
      (first < 0x80 → tail = [] ∧ c.toNat = first.toNat) := by
  have hnot : ∀ byte : UInt8, 0x80 ≤ byte → ¬ byte < 0x80 :=
    fun _ hle hlt => UInt8.not_le.mpr hlt hle
  match hsize : c.utf8Size, c.utf8Size_pos, c.utf8Size_le_four with
  | 1, _, _ =>
      have hle : c.toNat ≤ 127 := by
        simpa [UInt32.le_iff_toNat_le] using Char.utf8Size_eq_one_iff.mp hsize
      have hbyte : c.val.toUInt8.toNat = c.toNat := by
        rw [UInt32.toNat_toUInt8]
        exact Nat.mod_eq_of_lt (show c.toNat < 2 ^ 8 by omega)
      refine ⟨_, [], String.utf8EncodeChar_eq_singleton hsize, ?_, by simp, by simp, ?_⟩
      · intro hcontinuation
        have hge := UInt8.le_iff_toNat_le.mp (continuation_bytes _ hcontinuation)
        rw [hbyte] at hge
        have : (0x80 : UInt8).toNat = 128 := rfl
        omega
      · exact fun _ => ⟨rfl, hbyte.symm⟩
  | 2, _, _ =>
      obtain ⟨hfirst, hge⟩ := not_isContinuation_of_two (c.val >>> 6).toUInt8
      refine ⟨_, _, String.utf8EncodeChar_eq_cons_cons hsize, hfirst, by simp, ?_, ?_⟩
      · simp only [List.forall_mem_cons, isContinuation_or, true_and]
        simp
      · exact fun hlt => absurd hlt (hnot _ hge)
  | 3, _, _ =>
      obtain ⟨hfirst, hge⟩ := not_isContinuation_of_three (c.val >>> 12).toUInt8
      refine ⟨_, _, String.utf8EncodeChar_eq_cons_cons_cons hsize, hfirst, by simp, ?_, ?_⟩
      · simp only [List.forall_mem_cons, isContinuation_or, true_and]
        simp
      · exact fun hlt => absurd hlt (hnot _ hge)
  | 4, _, _ =>
      obtain ⟨hfirst, hge⟩ := not_isContinuation_of_four (c.val >>> 18).toUInt8
      refine ⟨_, _, String.utf8EncodeChar_eq_cons_cons_cons_cons hsize, hfirst, by simp, ?_, ?_⟩
      · simp only [List.forall_mem_cons, isContinuation_or, true_and]
        simp
      · exact fun hlt => absurd hlt (hnot _ hge)

/-- A byte below 128 is an ASCII character of the text. -/
theorem mem_of_mem_encodeUtf8 {text : List Char} {byte : UInt8} (hbyte : byte < 0x80)
    (h : byte ∈ encodeUtf8 text) : ∃ c ∈ text, c.toNat = byte.toNat := by
  obtain ⟨c, hc, hmem⟩ := List.mem_flatMap.mp h
  obtain ⟨first, tail, hshape, -, -, htail, hascii⟩ := encodeChar_shape c
  rw [hshape, List.mem_cons] at hmem
  obtain rfl | hmem := hmem
  · exact ⟨c, hc, (hascii hbyte).2⟩
  · exact absurd (continuation_bytes _ (htail _ hmem)) (UInt8.not_le.mpr hbyte)

theorem encodeChar_ascii {c : Char} (hascii : c.toNat < 128) :
    String.utf8EncodeChar c = [UInt8.ofNat c.toNat] := by
  have hsize : c.utf8Size = 1 := by
    rw [Char.utf8Size_eq_one_iff, UInt32.le_iff_toNat_le]
    exact Nat.le_of_lt_succ hascii
  rw [String.utf8EncodeChar_eq_singleton hsize, List.singleton_inj, ← UInt8.toNat_inj,
    UInt32.toNat_toUInt8, UInt8.toNat_ofNat']
  rfl

/-! ## Separators -/

theorem splitOnP_append_of_forall {α : Type*} {p : α → Bool} {front : List α}
    (hfront : ∀ x ∈ front, p x = false) (back : List α) :
    (front ++ back).splitOnP p = (back.splitOnP p).modifyHead (front ++ ·) := by
  induction front with
  | nil =>
      obtain ⟨head, tail, hsplit⟩ := List.exists_cons_of_ne_nil (List.splitOnP_ne_nil p back)
      simp [hsplit]
  | cons x front ih =>
      obtain ⟨hx, hrest⟩ := List.forall_mem_cons.mp hfront
      rw [List.cons_append, List.splitOnP_cons_eq_if_modifyHead, if_neg (by simp [hx]), ih hrest,
        List.modifyHead_modifyHead]
      rfl

theorem not_mem_of_mem_splitOnP {α : Type*} {p : α → Bool} {values piece : List α}
    (h : piece ∈ values.splitOnP p) : ∀ x ∈ piece, p x = false := by
  induction values generalizing piece with
  | nil =>
      obtain rfl : piece = [] := by simpa using h
      simp
  | cons y values ih =>
      rw [List.splitOnP_cons_eq_if_modifyHead] at h
      split at h
      · obtain rfl | h := List.mem_cons.mp h
        · simp
        · exact ih h
      · next hy =>
          obtain ⟨head, tail, hsplit⟩ := List.exists_cons_of_ne_nil (List.splitOnP_ne_nil p values)
          rw [hsplit, List.modifyHead_cons, List.mem_cons] at h
          obtain rfl | h := h
          · simp only [List.forall_mem_cons]
            exact ⟨by simpa using hy, ih (by simp [hsplit])⟩
          · exact ih (by simp [hsplit, h])

/-- A text is split at an ASCII character where its bytes are split at the byte. -/
theorem splitOnP_encodeUtf8 {separator : Char} (hascii : separator.toNat < 128)
    (text : List Char) :
    (encodeUtf8 text).splitOnP (· == UInt8.ofNat separator.toNat) =
      (text.splitOnP (· == separator)).map encodeUtf8 := by
  have hbyte : (UInt8.ofNat separator.toNat).toNat = separator.toNat := by
    rw [UInt8.toNat_ofNat']
    exact Nat.mod_eq_of_lt (by omega)
  induction text with
  | nil => simp
  | cons c text ih =>
      rw [encodeUtf8_cons, List.splitOnP_cons_eq_if_modifyHead]
      by_cases hc : c = separator
      · subst hc
        rw [encodeChar_ascii hascii, List.singleton_append,
          List.splitOnP_cons_eq_if_modifyHead, if_pos (by simp), if_pos (by simp), ih]
        simp
      · have hnone : ∀ byte ∈ String.utf8EncodeChar c,
            (byte == UInt8.ofNat separator.toNat) = false := by
          intro byte hmem
          by_contra heq
          obtain rfl : byte = UInt8.ofNat separator.toNat := by simpa using heq
          have hlt : UInt8.ofNat separator.toNat < 0x80 := by
            rw [UInt8.lt_iff_toNat_lt, hbyte]
            exact hascii
          have hsingle : UInt8.ofNat separator.toNat ∈ encodeUtf8 [c] := by simpa using hmem
          obtain ⟨c', hc', htoNat⟩ := mem_of_mem_encodeUtf8 hlt hsingle
          obtain rfl : c' = c := by simpa using hc'
          exact hc (Char.toNat_inj.mp (htoNat.trans hbyte))
        rw [if_neg (by simpa using hc), splitOnP_append_of_forall hnone, ih]
        obtain ⟨head, tail, hsplit⟩ :=
          List.exists_cons_of_ne_nil (List.splitOnP_ne_nil (· == separator) text)
        simp [hsplit]

/-! ## Boundaries -/

/-- From every place in a text its next character begins behind at most three
continuation bytes. -/
theorem exists_boundary {text : List Char} {front back : List UInt8}
    (h : encodeUtf8 text = front ++ back) :
    ∃ skipped rest, back = skipped ++ encodeUtf8 rest ∧ rest <:+ text ∧ skipped.length ≤ 3 ∧
      ∀ byte ∈ skipped, IsContinuation byte := by
  induction text generalizing front with
  | nil =>
      obtain ⟨-, rfl⟩ := List.append_eq_nil_iff.mp h.symm
      exact ⟨[], [], rfl, List.suffix_refl _, by simp, by simp⟩
  | cons c text ih =>
      rw [encodeUtf8_cons] at h
      cases front with
      | nil => exact ⟨[], c :: text, h.symm, List.suffix_refl _, by simp, by simp⟩
      | cons byte front =>
          obtain ⟨first, tail, hshape, -, hlength, htail, -⟩ := encodeChar_shape c
          rw [hshape, List.cons_append, List.cons_append, List.cons.injEq] at h
          obtain ⟨more, -, hmore⟩ | ⟨skipped, rfl, hback⟩ := List.append_eq_append_iff.mp h.2
          · obtain ⟨skipped, rest, hback, hrest, hskipped⟩ := ih hmore
            exact ⟨skipped, rest, hback, hrest.trans (List.suffix_cons c text), hskipped⟩
          · refine ⟨skipped, text, hback, List.suffix_cons c text, ?_, ?_⟩
            · rw [List.length_append] at hlength
              omega
            · exact fun byte hbyte => htail byte (List.mem_append_right front hbyte)

/-- The first byte of a text begins a character. -/
theorem head_not_continuation {text : List Char} {byte : UInt8}
    (h : (encodeUtf8 text).head? = some byte) : ¬ IsContinuation byte := by
  cases text with
  | nil => simp at h
  | cons c text =>
      obtain ⟨first, tail, hshape, hfirst, -⟩ := encodeChar_shape c
      rw [encodeUtf8_cons, hshape] at h
      obtain rfl : first = byte := by simpa using h
      exact hfirst

/-! ## Decoding -/

/-- The text of some bytes, if they are one. -/
def decodeUtf8 (bytes : List UInt8) : Option String := String.fromUTF8? bytes.toByteArray

theorem toByteArray_encodeUtf8 (text : String) :
    (encodeUtf8 text.toList).toByteArray = text.toByteArray := by
  rw [← String.utf8Encode_toList]
  rfl

theorem encodeUtf8_of_decodeUtf8 {bytes : List UInt8} {text : String}
    (h : decodeUtf8 bytes = some text) : encodeUtf8 text.toList = bytes := by
  unfold decodeUtf8 String.fromUTF8? at h
  split at h
  · have hbytes : (encodeUtf8 text.toList).toByteArray = bytes.toByteArray := by
      rw [toByteArray_encodeUtf8, ← Option.some.inj h]
      rfl
    simpa using congrArg (·.data.toList) hbytes
  · simp at h

theorem decodeUtf8_encodeUtf8 (text : String) :
    decodeUtf8 (encodeUtf8 text.toList) = some text := by
  unfold decodeUtf8 String.fromUTF8?
  rw [toByteArray_encodeUtf8, dif_pos text.isValidUTF8]
  rfl

end RustAdmin.Support
