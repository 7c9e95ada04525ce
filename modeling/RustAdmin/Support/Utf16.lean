import Mathlib.Data.List.Basic
import RustAdmin.Support.Bytes

/-!
# UTF-16

A scalar value below `0x10000` is one code unit, any other a high and a low
surrogate.  Decoding rejects surrogates that do not come in such pairs.

A text is followed character by character: `encodeUtf16Char_shape` gives the two forms
that a character can take, and decoding takes one of them off
(`decodeUtf16_encodeUtf16Char`).  Units that need not be a text have an induction of
their own, `utf16Induction`: they are empty, begin with a character, or begin with a
surrogate without its other half (`Ragged`).
-/

namespace RustAdmin.Support

/-- The code units of a scalar value. -/
def encodeUtf16Char (c : Char) : List UInt16 :=
  if c.toNat < 0x10000 then [UInt16.ofNat c.toNat]
  else
    let offset := c.toNat - 0x10000
    [UInt16.ofNat (0xd800 + offset / 0x400), UInt16.ofNat (0xdc00 + offset % 0x400)]

def encodeUtf16 (s : List Char) : List UInt16 := s.flatMap encodeUtf16Char

def isHighSurrogate (unit : UInt16) : Bool := decide (0xd800 ≤ unit.toNat ∧ unit.toNat < 0xdc00)

def isLowSurrogate (unit : UInt16) : Bool := decide (0xdc00 ≤ unit.toNat ∧ unit.toNat < 0xe000)

/-- The scalar values of a string of code units, if the surrogates are paired. -/
def decodeUtf16 : List UInt16 → Option (List Char)
  | [] => some []
  | [unit] =>
      if isHighSurrogate unit || isLowSurrogate unit then none else some [Char.ofNat unit.toNat]
  | unit :: next :: rest =>
      if isHighSurrogate unit then
        if isLowSurrogate next then
          (decodeUtf16 rest).map
            (Char.ofNat (0x10000 + (unit.toNat - 0xd800) * 0x400 + (next.toNat - 0xdc00)) :: ·)
        else none
      else if isLowSurrogate unit then none
      else (decodeUtf16 (next :: rest)).map (Char.ofNat unit.toNat :: ·)

/-- A unit that is no surrogate is decoded by itself. -/
theorem decodeUtf16_cons {unit : UInt16} (hhigh : isHighSurrogate unit = false)
    (hlow : isLowSurrogate unit = false) (rest : List UInt16) :
    decodeUtf16 (unit :: rest) = (decodeUtf16 rest).map (Char.ofNat unit.toNat :: ·) := by
  cases rest with
  | nil => simp [decodeUtf16, hhigh, hlow]
  | cons next rest => simp [decodeUtf16, hhigh, hlow]

theorem decodeUtf16_pair {unit next : UInt16} (hhigh : isHighSurrogate unit = true)
    (hlow : isLowSurrogate next = true) (rest : List UInt16) :
    decodeUtf16 (unit :: next :: rest) = (decodeUtf16 rest).map
      (Char.ofNat (0x10000 + (unit.toNat - 0xd800) * 0x400 + (next.toNat - 0xdc00)) :: ·) := by
  simp [decodeUtf16, hhigh, hlow]

/-! ## One character -/

/-- The units of a character: one that is no surrogate, or a pair. -/
theorem encodeUtf16Char_shape (c : Char) :
    (∃ unit, encodeUtf16Char c = [unit] ∧ isHighSurrogate unit = false ∧
      isLowSurrogate unit = false ∧ unit.toNat = c.toNat) ∨
    ∃ high low, encodeUtf16Char c = [high, low] ∧ isHighSurrogate high = true ∧
      isLowSurrogate low = true ∧
      0x10000 + (high.toNat - 0xd800) * 0x400 + (low.toNat - 0xdc00) = c.toNat := by
  have hvalid : c.toNat < 0xd800 ∨ 0xdfff < c.toNat ∧ c.toNat < 0x110000 := c.valid
  unfold encodeUtf16Char
  split
  · next hbmp =>
      have hunit : (UInt16.ofNat c.toNat).toNat = c.toNat := by
        rw [UInt16.toNat_ofNat']
        omega
      refine .inl ⟨_, rfl, ?_, ?_, hunit⟩
      · simp only [isHighSurrogate, hunit, decide_eq_false_iff_not]
        omega
      · simp only [isLowSurrogate, hunit, decide_eq_false_iff_not]
        omega
  · next hastral =>
      dsimp only
      generalize hoffset : c.toNat - 0x10000 = offset
      have hhighUnit : (UInt16.ofNat (0xd800 + offset / 0x400)).toNat =
          0xd800 + offset / 0x400 := by
        rw [UInt16.toNat_ofNat']
        omega
      have hlowUnit : (UInt16.ofNat (0xdc00 + offset % 0x400)).toNat =
          0xdc00 + offset % 0x400 := by
        rw [UInt16.toNat_ofNat']
        omega
      refine .inr ⟨_, _, rfl, ?_, ?_, ?_⟩
      · simp only [isHighSurrogate, hhighUnit, decide_eq_true_eq]
        omega
      · simp only [isLowSurrogate, hlowUnit, decide_eq_true_eq]
        omega
      · rw [hhighUnit, hlowUnit]
        omega

theorem toNat_ofNat_of_isValidChar {n : ℕ} (h : n.isValidChar) : (Char.ofNat n).toNat = n := by
  unfold Char.ofNat
  rw [dif_pos h]
  rfl

/-- A unit that is no surrogate is a character. -/
theorem exists_encodeUtf16Char_of_unit {unit : UInt16} (hhigh : isHighSurrogate unit = false)
    (hlow : isLowSurrogate unit = false) : ∃ c, encodeUtf16Char c = [unit] := by
  have hlt := unit.toNat_lt
  simp only [isHighSurrogate, decide_eq_false_iff_not] at hhigh
  simp only [isLowSurrogate, decide_eq_false_iff_not] at hlow
  have hvalid : unit.toNat.isValidChar := by
    unfold Nat.isValidChar
    omega
  have htoNat := toNat_ofNat_of_isValidChar hvalid
  refine ⟨Char.ofNat unit.toNat, ?_⟩
  unfold encodeUtf16Char
  rw [htoNat, if_pos (by omega), UInt16.ofNat_toNat]

/-- A pair of surrogates is a character. -/
theorem exists_encodeUtf16Char_of_pair {high low : UInt16} (hhigh : isHighSurrogate high = true)
    (hlow : isLowSurrogate low = true) : ∃ c, encodeUtf16Char c = [high, low] := by
  simp only [isHighSurrogate, decide_eq_true_eq] at hhigh
  simp only [isLowSurrogate, decide_eq_true_eq] at hlow
  generalize hscalar : 0x10000 + (high.toNat - 0xd800) * 0x400 + (low.toNat - 0xdc00) = scalar
  have hvalid : scalar.isValidChar := by
    unfold Nat.isValidChar
    omega
  have htoNat := toNat_ofNat_of_isValidChar hvalid
  refine ⟨Char.ofNat scalar, ?_⟩
  unfold encodeUtf16Char
  rw [htoNat, if_neg (by omega)]
  have hhighUnit : 0xd800 + (scalar - 0x10000) / 0x400 = high.toNat := by omega
  have hlowUnit : 0xdc00 + (scalar - 0x10000) % 0x400 = low.toNat := by omega
  dsimp only
  rw [hhighUnit, hlowUnit, UInt16.ofNat_toNat, UInt16.ofNat_toNat]

theorem decodeUtf16_encodeUtf16Char (c : Char) (rest : List UInt16) :
    decodeUtf16 (encodeUtf16Char c ++ rest) = (decodeUtf16 rest).map (c :: ·) := by
  rcases encodeUtf16Char_shape c with
    ⟨unit, hunit, hhigh, hlow, hscalar⟩ | ⟨high, low, hpair, hhigh, hlow, hscalar⟩
  · rw [hunit, List.singleton_append, decodeUtf16_cons hhigh hlow, hscalar, Char.ofNat_toNat]
  · rw [hpair, List.cons_append, List.singleton_append, decodeUtf16_pair hhigh hlow, hscalar,
      Char.ofNat_toNat]

/-! ## Texts -/

/-- Decoding undoes encoding, in front of anything. -/
theorem decodeUtf16_encodeUtf16 (s : List Char) (rest : List UInt16) :
    decodeUtf16 (encodeUtf16 s ++ rest) = (decodeUtf16 rest).map (s ++ ·) := by
  induction s with
  | nil => simp [encodeUtf16]
  | cons c s ih =>
      have hcons : encodeUtf16 (c :: s) = encodeUtf16Char c ++ encodeUtf16 s := rfl
      rw [hcons, List.append_assoc, decodeUtf16_encodeUtf16Char, ih, Option.map_map]
      rfl

theorem decodeUtf16_encode (text : List Char) : decodeUtf16 (encodeUtf16 text) = some text := by
  have hdecode := decodeUtf16_encodeUtf16 text []
  rw [List.append_nil] at hdecode
  rw [hdecode]
  simp [decodeUtf16]

theorem decodeUtf16_replicate_zero (n : ℕ) :
    decodeUtf16 (List.replicate n 0) = some (List.replicate n '\x00') := by
  induction n with
  | zero => rfl
  | succ n ih =>
      rw [List.replicate_succ, decodeUtf16_cons rfl rfl, ih]
      rfl

/-! ## Surrogates -/

/-- The first unit is a surrogate that does not begin a pair. -/
def Ragged (units : List UInt16) : Prop :=
  ∃ unit rest, units = unit :: rest ∧ (isLowSurrogate unit = true ∨
    isHighSurrogate unit = true ∧ ∀ next ∈ rest.head?, isLowSurrogate next = false)

/-- Units are taken off the front character by character, as far as that goes. -/
@[elab_as_elim]
theorem utf16Induction {motive : List UInt16 → Prop} (nil : motive [])
    (char : ∀ (c : Char) (rest : List UInt16), motive rest → motive (encodeUtf16Char c ++ rest))
    (ragged : ∀ units, Ragged units → motive units) (units : List UInt16) : motive units := by
  induction hlength : units.length using Nat.strong_induction_on generalizing units with
  | _ n ih =>
      cases units with
      | nil => exact nil
      | cons unit rest =>
          rw [List.length_cons] at hlength
          cases hhigh : isHighSurrogate unit with
          | false =>
              cases hlow : isLowSurrogate unit with
              | true => exact ragged _ ⟨unit, rest, rfl, .inl hlow⟩
              | false =>
                  obtain ⟨c, hc⟩ := exists_encodeUtf16Char_of_unit hhigh hlow
                  have hrest := char c rest (ih _ (by omega) rest rfl)
                  rwa [hc, List.singleton_append] at hrest
          | true =>
              cases rest with
              | nil => exact ragged _ ⟨unit, [], rfl, .inr ⟨hhigh, by simp⟩⟩
              | cons next rest =>
                  rw [List.length_cons] at hlength
                  cases hlow : isLowSurrogate next with
                  | false => exact ragged _ ⟨unit, next :: rest, rfl, .inr ⟨hhigh, by simp [hlow]⟩⟩
                  | true =>
                      obtain ⟨c, hc⟩ := exists_encodeUtf16Char_of_pair hhigh hlow
                      have hrest := char c rest (ih _ (by omega) rest rfl)
                      rwa [hc, List.cons_append, List.singleton_append] at hrest

theorem not_isLowSurrogate_of_high {unit : UInt16} (h : isHighSurrogate unit = true) :
    isLowSurrogate unit = false := by
  simp only [isHighSurrogate, decide_eq_true_eq] at h
  simp only [isLowSurrogate, decide_eq_false_iff_not]
  omega

theorem not_isHighSurrogate_of_low {unit : UInt16} (h : isLowSurrogate unit = true) :
    isHighSurrogate unit = false := by
  cases hhigh : isHighSurrogate unit with
  | false => rfl
  | true =>
      rw [not_isLowSurrogate_of_high hhigh] at h
      cases h

theorem decodeUtf16_of_ragged {units : List UInt16} (h : Ragged units) :
    decodeUtf16 units = none := by
  obtain ⟨unit, rest, rfl, hlow | ⟨hhigh, hnext⟩⟩ := h
  · have hhigh := not_isHighSurrogate_of_low hlow
    cases rest <;> simp [decodeUtf16, hlow, hhigh]
  · cases rest with
    | nil => simp [decodeUtf16, hhigh]
    | cons next rest => simp [decodeUtf16, hhigh, hnext next rfl]

/-- Every surrogate is part of a pair of a high and a low one. -/
structure SurrogatesPaired (units : List UInt16) : Prop where
  high : ∀ i unit, units[i]? = some unit → isHighSurrogate unit = true →
    ∃ low, units[i + 1]? = some low ∧ isLowSurrogate low = true
  low : ∀ i unit, units[i]? = some unit → isLowSurrogate unit = true →
    ∃ j high, i = j + 1 ∧ units[j]? = some high ∧ isHighSurrogate high = true

theorem surrogatesPaired_nil : SurrogatesPaired [] := ⟨by simp, by simp⟩

theorem not_surrogatesPaired_of_ragged {units : List UInt16} (h : Ragged units) :
    ¬ SurrogatesPaired units := by
  rintro ⟨hhighs, hlows⟩
  obtain ⟨unit, rest, rfl, hlow | ⟨hhigh, hnext⟩⟩ := h
  · obtain ⟨j, high, hj, -⟩ := hlows 0 unit rfl hlow
    omega
  · obtain ⟨low, hget, hlow⟩ := hhighs 0 unit rfl hhigh
    have hfirst : rest.head? = some low := by
      rw [List.head?_eq_getElem?]
      exact hget
    rw [hnext low hfirst] at hlow
    cases hlow

/-- Behind paired surrogates the rest has to be paired by itself. -/
theorem SurrogatesPaired.append_iff {front rest : List UInt16} (h : SurrogatesPaired front) :
    SurrogatesPaired (front ++ rest) ↔ SurrogatesPaired rest := by
  have hright : ∀ i, (front ++ rest)[front.length + i]? = rest[i]? := fun i => by
    rw [List.getElem?_append_right (Nat.le_add_right _ _), Nat.add_sub_cancel_left]
  constructor
  · rintro ⟨hhighs, hlows⟩
    refine ⟨fun i unit hget hhigh => ?_, fun i unit hget hlow => ?_⟩
    · obtain ⟨low, hlow, hislow⟩ := hhighs (front.length + i) unit ((hright i).trans hget) hhigh
      exact ⟨low, (hright (i + 1)).symm.trans hlow, hislow⟩
    · obtain ⟨j, high, hj, hhigh, hishigh⟩ :=
        hlows (front.length + i) unit ((hright i).trans hget) hlow
      by_cases hfront : j < front.length
      · -- the high surrogate at the end of the front would have its low one there
        rw [List.getElem?_append_left hfront] at hhigh
        obtain ⟨low, hlow, -⟩ := h.high j high hhigh hishigh
        have := (List.getElem?_eq_some_iff.mp hlow).1
        omega
      · obtain ⟨k, rfl⟩ := Nat.exists_eq_add_of_le (Nat.le_of_not_lt hfront)
        exact ⟨k, high, by omega, (hright k).symm.trans hhigh, hishigh⟩
  · rintro ⟨hhighs, hlows⟩
    refine ⟨fun i unit hget hhigh => ?_, fun i unit hget hlow => ?_⟩
    · by_cases hfront : i < front.length
      · rw [List.getElem?_append_left hfront] at hget
        obtain ⟨low, hlow, hislow⟩ := h.high i unit hget hhigh
        have hlt := (List.getElem?_eq_some_iff.mp hlow).1
        exact ⟨low, (List.getElem?_append_left hlt).trans hlow, hislow⟩
      · obtain ⟨k, rfl⟩ := Nat.exists_eq_add_of_le (Nat.le_of_not_lt hfront)
        obtain ⟨low, hlow, hislow⟩ := hhighs k unit ((hright k).symm.trans hget) hhigh
        exact ⟨low, (hright (k + 1)).trans hlow, hislow⟩
    · by_cases hfront : i < front.length
      · rw [List.getElem?_append_left hfront] at hget
        obtain ⟨j, high, rfl, hhigh, hishigh⟩ := h.low i unit hget hlow
        exact ⟨j, high, rfl, (List.getElem?_append_left (by omega)).trans hhigh, hishigh⟩
      · obtain ⟨k, rfl⟩ := Nat.exists_eq_add_of_le (Nat.le_of_not_lt hfront)
        obtain ⟨j, high, rfl, hhigh, hishigh⟩ := hlows k unit ((hright k).symm.trans hget) hlow
        exact ⟨front.length + j, high, rfl, (hright j).trans hhigh, hishigh⟩

theorem surrogatesPaired_encodeUtf16Char (c : Char) : SurrogatesPaired (encodeUtf16Char c) := by
  rcases encodeUtf16Char_shape c with
    ⟨unit, hunit, hhigh, hlow, -⟩ | ⟨high, low, hpair, hhigh, hlow, -⟩
  · rw [hunit]
    refine ⟨fun i unit' hget h => ?_, fun i unit' hget h => ?_⟩
    · obtain rfl := List.mem_singleton.mp (List.mem_of_getElem? hget)
      rw [hhigh] at h
      cases h
    · obtain rfl := List.mem_singleton.mp (List.mem_of_getElem? hget)
      rw [hlow] at h
      cases h
  · rw [hpair]
    have hhighLow := not_isLowSurrogate_of_high hhigh
    refine ⟨fun i unit hget h => ?_, fun i unit hget h => ?_⟩
    · match i, hget with
      | 0, _ => exact ⟨low, rfl, hlow⟩
      | 1, hget =>
          obtain rfl : low = unit := Option.some.inj hget
          rw [not_isLowSurrogate_of_high h] at hlow
          cases hlow
    · match i, hget with
      | 0, hget =>
          obtain rfl : high = unit := Option.some.inj hget
          rw [hhighLow] at h
          cases h
      | 1, _ => exact ⟨0, high, rfl, rfl, hhigh⟩

/-- Units with paired surrogates are those of a text. -/
theorem surrogatesPaired_iff {units : List UInt16} :
    SurrogatesPaired units ↔ ∃ text, units = encodeUtf16 text := by
  constructor
  · intro h
    induction units using utf16Induction with
    | nil => exact ⟨[], rfl⟩
    | char c rest ih =>
        obtain ⟨text, rfl⟩ := ih ((surrogatesPaired_encodeUtf16Char c).append_iff.mp h)
        exact ⟨c :: text, rfl⟩
    | ragged units hragged => exact absurd h (not_surrogatesPaired_of_ragged hragged)
  · rintro ⟨text, rfl⟩
    induction text with
    | nil => exact surrogatesPaired_nil
    | cons c text ih => exact (surrogatesPaired_encodeUtf16Char c).append_iff.mpr ih

/-! ## Code units as bytes -/

/-- The little-endian bytes of code units. -/
def utf16Bytes (units : List UInt16) : List UInt8 := units.flatMap fun unit => putLe 2 unit.toNat

/-- The code units of little-endian bytes. -/
def utf16Units : List UInt8 → List UInt16
  | low :: high :: rest => UInt16.ofNat (low.toNat + 256 * high.toNat) :: utf16Units rest
  | _ => []

@[simp] theorem length_utf16Bytes (units : List UInt16) :
    (utf16Bytes units).length = 2 * units.length := by
  induction units with
  | nil => rfl
  | cons unit units ih =>
      have hcons : utf16Bytes (unit :: units) = putLe 2 unit.toNat ++ utf16Bytes units := rfl
      rw [hcons, List.length_append, length_putLe, ih, List.length_cons]
      omega

theorem utf16Units_utf16Bytes (units : List UInt16) (rest : List UInt8) :
    utf16Units (utf16Bytes units ++ rest) = units ++ utf16Units rest := by
  induction units with
  | nil => rfl
  | cons unit units ih =>
      have hvalue : UInt16.ofNat ((UInt8.ofNat unit.toNat).toNat +
          256 * (UInt8.ofNat (unit.toNat / 256)).toNat) = unit := by
        have hlt := unit.toNat_lt
        apply UInt16.toNat_inj.mp
        rw [UInt16.toNat_ofNat', UInt8.toNat_ofNat', UInt8.toNat_ofNat']
        omega
      have hcons : utf16Bytes (unit :: units) ++ rest =
          UInt8.ofNat unit.toNat :: UInt8.ofNat (unit.toNat / 256) ::
            (utf16Bytes units ++ rest) := rfl
      rw [hcons, utf16Units, hvalue, ih, List.cons_append]

theorem utf16Units_replicate_zero (n : ℕ) :
    utf16Units (List.replicate (2 * n) 0) = List.replicate n 0 := by
  induction n with
  | zero => rfl
  | succ n ih =>
      have hdouble : 2 * (n + 1) = 2 * n + 1 + 1 := by omega
      rw [hdouble, List.replicate_succ, List.replicate_succ, utf16Units, ih, List.replicate_succ]
      rfl

end RustAdmin.Support
