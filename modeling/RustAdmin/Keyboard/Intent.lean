import Mathlib.Order.Fin.Basic
import Mathlib.Data.Prod.Lex
import Mathlib.Data.Finset.Basic
import RustAdmin.Support.Utf16

/-!
# Keyboard intents

What the adapters of the viewer hand to the keyboard state machine: HID keys with
their actions, committed text, modifier taps and resets.  Texts are UTF-16, as
Dart's strings are.
-/

namespace RustAdmin.Keyboard

/-- The UTF-16 code units of a Dart string. -/
abbrev DartString := List UInt16

inductive KeyboardIntentAction
  | down | up | repeat
  deriving DecidableEq, Repr

inductive KeyboardInputOrigin
  | hardware | ime | toolbar | unknown
  deriving DecidableEq, Repr

inductive KeyboardInputSource
  | flutterKeyEvent | flutterRawKeyEvent | androidHardwareKeyboard | androidNativeText
  | mobileToolbar | syntheticModifier | futureIme | unknown
  deriving DecidableEq, Repr

inductive KeyboardResetReason
  | focusLoss | sessionClose | keyboardHide | inputModeChange | applicationBackground
  | permissionRevoked | reconnect | relativeMouseExit | manual
  deriving DecidableEq, Repr

inductive CanonicalModifier
  | control | shift | alt | metaKey
  deriving DecidableEq, Repr

inductive SyntheticModifierAction
  | toggle | lock | release
  deriving DecidableEq, Repr

/-- A USB HID usage. -/
structure HidKey where
  usagePage : ℕ
  usage : ℕ
  deriving DecidableEq, Repr

namespace HidKey

/-- The order of `compareTo`: by page, then by usage. -/
instance : LinearOrder HidKey :=
  LinearOrder.lift' (fun key => toLex (key.usagePage, key.usage)) fun left right heq => by
    have hpair : (left.usagePage, left.usage) = (right.usagePage, right.usage) :=
      toLex.injective heq
    cases left
    cases right
    simpa using hpair

def fromFlutterUsage (value : ℕ) : HidKey := ⟨(value >>> 16) % 0x10000, value % 0x10000⟩

def keyboardUsagePage : ℕ := 0x07

def controlLeft : HidKey := ⟨keyboardUsagePage, 0xe0⟩
def shiftLeft : HidKey := ⟨keyboardUsagePage, 0xe1⟩
def altLeft : HidKey := ⟨keyboardUsagePage, 0xe2⟩
def metaLeft : HidKey := ⟨keyboardUsagePage, 0xe3⟩
def controlRight : HidKey := ⟨keyboardUsagePage, 0xe4⟩
def shiftRight : HidKey := ⟨keyboardUsagePage, 0xe5⟩
def altRight : HidKey := ⟨keyboardUsagePage, 0xe6⟩
def metaRight : HidKey := ⟨keyboardUsagePage, 0xe7⟩

def modifier (key : HidKey) : Option CanonicalModifier :=
  if key.usagePage = keyboardUsagePage then
    match key.usage with
    | 0xe0 | 0xe4 => some .control
    | 0xe1 | 0xe5 => some .shift
    | 0xe2 | 0xe6 => some .alt
    | 0xe3 | 0xe7 => some .metaKey
    | _ => none
  else none

def isModifier (key : HidKey) : Bool := key.modifier.isSome

end HidKey

/-- The origin of an intent whose adapter names none. -/
def defaultOrigin : KeyboardInputSource → KeyboardInputOrigin
  | .mobileToolbar | .syntheticModifier => .toolbar
  | .futureIme => .ime
  | _ => .unknown

structure PhysicalKeyboardIntent where
  key : HidKey
  action : KeyboardIntentAction
  source : KeyboardInputSource
  origin : KeyboardInputOrigin := defaultOrigin source
  textCandidate : Option DartString := none
  deadKeyAccent : Option ℤ := none
  sourceLanguageTag : DartString := []
  sourceLayoutType : DartString := []
  legacyFallbackName : Option DartString := none
  lockMask : ℤ := 0
  reportedModifiers : Finset HidKey := ∅

structure PhysicalKeyPressBatchIntent where
  key : HidKey
  count : ℤ
  source : KeyboardInputSource
  origin : KeyboardInputOrigin := defaultOrigin source
  textCandidate : Option DartString := none
  deadKeyAccent : Option ℤ := none
  sourceLanguageTag : DartString := []
  sourceLayoutType : DartString := []
  lockMask : ℤ := 0
  reportedModifiers : Finset HidKey := ∅

def PhysicalKeyPressBatchIntent.maxCount : ℤ := 64

structure CommittedTextIntent where
  text : DartString
  source : KeyboardInputSource
  origin : KeyboardInputOrigin := defaultOrigin source
  deleteBeforeGraphemes : ℤ := 0
  deleteAfterGraphemes : ℤ := 0
  sourceLanguageTag : DartString := []
  sourceLayoutType : DartString := []
  consumeOneShot : Bool := true
  allowMobileShortcut : Bool := false

structure SyntheticModifierIntent where
  modifier : CanonicalModifier
  action : SyntheticModifierAction

inductive KeyboardIntent
  | physical (intent : PhysicalKeyboardIntent)
  | pressBatch (batch : PhysicalKeyPressBatchIntent)
  | committedText (intent : CommittedTextIntent)
  | reset (reason : KeyboardResetReason)
  | syntheticModifier (intent : SyntheticModifierIntent)

end RustAdmin.Keyboard
