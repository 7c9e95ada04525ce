import RustAdmin.Keyboard.TextPolicy
import RustAdmin.Support.Utf8

/-!
# The inspection of a text

`inspect` takes a text off the front character by character.  It ends where a surrogate
lacks its other half, where a character goes over the limit, or with the text.

The induction is on the text as the inspection takes it off: a character
(`inspectFrom_char`) or a surrogate without its other half (`inspectFrom_ragged`).
`Inspects` keeps what was counted and how it ended, so acceptance and refusal are read
off one derivation.
-/

namespace RustAdmin.Keyboard

open RustAdmin.Support

/-! ## The encoder -/

/-- Dart's `utf8.encode`: a surrogate that is not part of a pair becomes U+FFFD. -/
def utf8Encode (text : DartString) : List UInt8 :=
  encodeUtf8 ((runes text).map fun rune =>
    if rune.isValidChar then Char.ofNat rune else Char.ofNat 0xfffd)

theorem runes_encodeUtf16Char (c : Char) (rest : DartString) :
    runes (encodeUtf16Char c ++ rest) = c.toNat :: runes rest := by
  rcases encodeUtf16Char_shape c with
    ⟨unit, hunit, hhigh, -, hscalar⟩ | ⟨high, low, hpair, hhigh, hlow, hscalar⟩
  · rw [hunit, List.singleton_append, ← hscalar]
    cases rest with
    | nil => rfl
    | cons next rest => simp [runes, hhigh]
  · rw [hpair, List.cons_append, List.singleton_append, ← hscalar]
    simp [runes, hhigh, hlow]

/-- A text is encoded as such. -/
theorem utf8Encode_encodeUtf16 (text : List Char) :
    utf8Encode (encodeUtf16 text) = encodeUtf8 text := by
  have hrunes : runes (encodeUtf16 text) = text.map Char.toNat := by
    induction text with
    | nil => rfl
    | cons c text ih =>
        have hcons : encodeUtf16 (c :: text) = encodeUtf16Char c ++ encodeUtf16 text := rfl
        rw [hcons, runes_encodeUtf16Char, ih, List.map_cons]
  have hchars : (fun rune : ℕ => if rune.isValidChar then Char.ofNat rune
      else Char.ofNat 0xfffd) ∘ Char.toNat = id := by
    funext c
    have hvalid : c.toNat.isValidChar := c.valid
    show (if c.toNat.isValidChar then _ else _) = c
    rw [if_pos hvalid, Char.ofNat_toNat]
  unfold utf8Encode
  rw [hrunes, List.map_map, hchars, List.map_id]

namespace KeyboardTextPolicy

/-! ## One character -/

/-- A character is counted with the bytes it has. -/
theorem inspectFrom_char (bytes : ℕ) (c : Char) (rest : DartString) :
    inspectFrom bytes (encodeUtf16Char c ++ rest) =
      if maxOperationBytes < bytes + c.utf8Size then
        ⟨bytes + c.utf8Size, some .textTooLarge⟩
      else inspectFrom (bytes + c.utf8Size) rest := by
  rcases encodeUtf16Char_shape c with
    ⟨unit, hunit, hhigh, hlow, hscalar⟩ | ⟨high, low, hpair, hhigh, hlow, hscalar⟩
  · have hlt := unit.toNat_lt
    have hsize : c.utf8Size = if unit.toNat ≤ 0x7f then 1 else
        if unit.toNat ≤ 0x7ff then 2 else 3 := by
      rw [utf8Size_eq, ← hscalar, if_pos (show unit.toNat ≤ 0xffff by omega)]
    rw [hunit, List.singleton_append, hsize]
    conv_lhs => unfold inspectFrom
    rw [hhigh, hlow]
    rfl
  · have hsize : c.utf8Size = 4 := by
      rw [utf8Size_eq, ← hscalar, if_neg (by omega), if_neg (by omega), if_neg (by omega)]
    rw [hpair, List.cons_append, List.singleton_append, hsize]
    simp [inspectFrom, hhigh, hlow]

theorem inspectFrom_ragged (bytes : ℕ) {units : DartString} (h : Ragged units) :
    inspectFrom bytes units = ⟨bytes, some .invalidText⟩ := by
  obtain ⟨unit, rest, rfl, hlow | ⟨hhigh, hnext⟩⟩ := h
  · unfold inspectFrom
    rw [not_isHighSurrogate_of_low hlow, hlow]
    rfl
  · cases rest with
    | nil => simp [inspectFrom, hhigh]
    | cons next rest => simp [inspectFrom, hhigh, hnext next rfl]

/-! ## The whole text -/

/-- How an inspection ends, before which `bytes` were counted. -/
inductive Inspects (bytes : ℕ) (units : DartString) : Inspection → Prop
  | accepted {text : List Char} (hunits : units = encodeUtf16 text)
      (hfits : bytes + (encodeUtf8 text).length ≤ maxOperationBytes) :
      Inspects bytes units ⟨bytes + (encodeUtf8 text).length, none⟩
  | textTooLarge {front : List Char} {c : Char} {back : DartString}
      (hunits : units = encodeUtf16 (front ++ [c]) ++ back)
      (hfits : bytes + (encodeUtf8 front).length ≤ maxOperationBytes)
      (hover : maxOperationBytes < bytes + (encodeUtf8 (front ++ [c])).length) :
      Inspects bytes units ⟨bytes + (encodeUtf8 (front ++ [c])).length, some .textTooLarge⟩
  | invalidText {front : List Char} {back : DartString}
      (hunits : units = encodeUtf16 front ++ back)
      (hfits : bytes + (encodeUtf8 front).length ≤ maxOperationBytes) (hragged : Ragged back) :
      Inspects bytes units ⟨bytes + (encodeUtf8 front).length, some .invalidText⟩

theorem Inspects.cons {bytes : ℕ} {c : Char} {rest : DartString} {inspection : Inspection}
    (h : Inspects (bytes + c.utf8Size) rest inspection) :
    Inspects bytes (encodeUtf16Char c ++ rest) inspection := by
  have hlength : ∀ text, bytes + c.utf8Size + (encodeUtf8 text).length =
      bytes + (encodeUtf8 (c :: text)).length := by
    intro text
    rw [encodeUtf8_cons, List.length_append, String.length_utf8EncodeChar, Nat.add_assoc]
  have hunits : ∀ text, encodeUtf16Char c ++ encodeUtf16 text = encodeUtf16 (c :: text) :=
    fun _ => rfl
  cases h with
  | accepted hrest hfits =>
      rw [hlength] at hfits ⊢
      exact .accepted (by rw [hrest, hunits]) hfits
  | textTooLarge hrest hfits hover =>
      rw [hlength] at hfits hover ⊢
      exact .textTooLarge (by rw [hrest, ← List.append_assoc, hunits, List.cons_append]) hfits hover
  | invalidText hrest hfits hragged =>
      rw [hlength] at hfits ⊢
      exact .invalidText (by rw [hrest, ← List.append_assoc, hunits]) hfits hragged

theorem inspectFrom_inspects {bytes : ℕ} (hbytes : bytes ≤ maxOperationBytes)
    (units : DartString) : Inspects bytes units (inspectFrom bytes units) := by
  induction units using utf16Induction generalizing bytes with
  | nil => exact @Inspects.accepted bytes [] [] rfl hbytes
  | char c rest ih =>
      rw [inspectFrom_char]
      split
      · next hover =>
          have hlength : (encodeUtf8 ([] ++ [c])).length = c.utf8Size := by simp
          rw [← hlength] at hover ⊢
          have hunits : encodeUtf16Char c ++ rest = encodeUtf16 ([] ++ [c]) ++ rest := by
            simp [encodeUtf16]
          exact .textTooLarge hunits hbytes hover
      · next hfits => exact (ih (Nat.le_of_not_lt hfits)).cons
  | ragged units h =>
      rw [inspectFrom_ragged bytes h]
      exact @Inspects.invalidText bytes units [] units rfl hbytes h

theorem inspect_inspects (units : DartString) : Inspects 0 units (inspect units) :=
  inspectFrom_inspects (Nat.zero_le _) units

/-- The characters in front of a text are those it begins with. -/
theorem exists_eq_append {front text : List Char} {back : DartString}
    (h : encodeUtf16 front ++ back = encodeUtf16 text) :
    ∃ rest, decodeUtf16 back = some rest ∧ text = front ++ rest := by
  have hdecode := decodeUtf16_encodeUtf16 front back
  rw [h, decodeUtf16_encode] at hdecode
  obtain ⟨rest, hrest, heq⟩ := Option.map_eq_some_iff.mp hdecode.symm
  exact ⟨rest, hrest, heq.symm⟩

/-- A text that is accepted is one, it fits, and its bytes are counted. -/
theorem inspect_accepted {units : DartString} (h : (inspect units).rejection = none) :
    SurrogatesPaired units ∧ (utf8Encode units).length ≤ maxOperationBytes ∧
      (inspect units).bytes = (utf8Encode units).length := by
  have hinspects := inspect_inspects units
  generalize inspect units = inspection at h hinspects
  cases hinspects with
  | @accepted text hunits hfits =>
      rw [Nat.zero_add] at hfits ⊢
      rw [hunits, utf8Encode_encodeUtf16]
      exact ⟨surrogatesPaired_iff.mpr ⟨text, rfl⟩, hfits, rfl⟩
  | textTooLarge hunits hfits hover => cases h
  | invalidText hunits hfits hragged => cases h

/-- A text that fits is not refused. -/
theorem inspect_accepts {units : DartString} (hpaired : SurrogatesPaired units)
    (hfits : (utf8Encode units).length ≤ maxOperationBytes) :
    (inspect units).rejection = none := by
  obtain ⟨text, htext⟩ := surrogatesPaired_iff.mp hpaired
  rw [htext, utf8Encode_encodeUtf16] at hfits
  have hinspects := inspect_inspects units
  generalize inspect units = inspection at hinspects
  cases hinspects with
  | accepted hunits hle => rfl
  | textTooLarge hunits hle hover =>
      -- the text begins with the characters that go over the limit
      obtain ⟨rest, -, rfl⟩ := exists_eq_append (hunits.symm.trans htext)
      rw [encodeUtf8_append, List.length_append] at hfits
      omega
  | invalidText hunits hle hragged =>
      obtain ⟨rest, hrest, -⟩ := exists_eq_append (hunits.symm.trans htext)
      rw [decodeUtf16_of_ragged hragged] at hrest
      cases hrest

/-- **A text is accepted exactly when its surrogates are paired and its UTF-8 fits**, and
the count is then that of the encoder. -/
theorem inspect_accepts_iff (units : DartString) :
    ((inspect units).rejection = none ↔
      SurrogatesPaired units ∧ (utf8Encode units).length ≤ 65536) ∧
    ((inspect units).rejection = none →
      (inspect units).bytes = (utf8Encode units).length) := by
  refine ⟨⟨fun h => ?_, fun h => ?_⟩, fun h => ?_⟩
  · obtain ⟨hpaired, hfits, -⟩ := inspect_accepted h
    exact ⟨hpaired, hfits⟩
  · exact inspect_accepts h.1 h.2
  · exact (inspect_accepted h).2.2

example : inspect [0x61, 0xd83d, 0xde42] = ⟨5, none⟩ := by decide

example : inspect [0x61, 0xd83d] = ⟨1, some .invalidText⟩ := by decide

end KeyboardTextPolicy

end RustAdmin.Keyboard
