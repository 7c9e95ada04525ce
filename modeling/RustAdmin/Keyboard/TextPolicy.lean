import RustAdmin.Keyboard.Intent

/-!
# Text limits

`inspect` counts the UTF-8 bytes of a text without encoding it and refuses a
surrogate that is not part of a pair.
-/

namespace RustAdmin.Keyboard

open RustAdmin.Support

inductive KeyboardInputRejection
  | textTooLarge | textQueueFull | invalidText | pressCount
  deriving DecidableEq, Repr

namespace KeyboardTextPolicy

def maxOperationBytes : ℕ := 64 * 1024
def maxPendingBytes : ℕ := 64 * 1024
def maxPendingOperations : ℕ := 64
def maxEditGraphemes : ℕ := 64 * 1024

def isPrintableScalar (scalar : ℤ) : Bool :=
  0x20 ≤ scalar && scalar ≤ 0x10ffff && !(0x7f ≤ scalar && scalar ≤ 0x9f) &&
    !(0xd800 ≤ scalar && scalar ≤ 0xdfff) && scalar != 0x2028 && scalar != 0x2029

/-- The bytes counted so far, with the reason the text is refused. -/
structure Inspection where
  bytes : ℕ
  rejection : Option KeyboardInputRejection
  deriving DecidableEq, Repr

/-- The loop of `inspect` from a code unit on, with the bytes counted before it. -/
def inspectFrom (bytes : ℕ) : DartString → Inspection
  | [] => ⟨bytes, none⟩
  | unit :: rest =>
      if isHighSurrogate unit then
        match rest with
        | [] => ⟨bytes, some .invalidText⟩
        | low :: rest =>
            if !isLowSurrogate low then ⟨bytes, some .invalidText⟩
            else if maxOperationBytes < bytes + 4 then ⟨bytes + 4, some .textTooLarge⟩
            else inspectFrom (bytes + 4) rest
      else if isLowSurrogate unit then ⟨bytes, some .invalidText⟩
      else
        let size := if unit.toNat ≤ 0x7f then 1 else if unit.toNat ≤ 0x7ff then 2 else 3
        if maxOperationBytes < bytes + size then ⟨bytes + size, some .textTooLarge⟩
        else inspectFrom (bytes + size) rest

def inspect (text : DartString) : Inspection := inspectFrom 0 text

end KeyboardTextPolicy

/-- Dart's `String.runes`: a surrogate that is not part of a pair stands for itself. -/
def runes : DartString → List ℕ
  | [] => []
  | [unit] => [unit.toNat]
  | unit :: next :: rest =>
      if isHighSurrogate unit && isLowSurrogate next then
        (0x10000 + (unit.toNat - 0xd800) * 0x400 + (next.toNat - 0xdc00)) :: runes rest
      else unit.toNat :: runes (next :: rest)

/-- Dart's `String.fromCharCode` on a printable scalar. -/
def fromCharCode (scalar : ℤ) : DartString := encodeUtf16Char (Char.ofNat scalar.toNat)

end RustAdmin.Keyboard
