import RustAdmin.Keyboard.Modifiers
import RustAdmin.Keyboard.TextPolicy

/-!
# What the state machine dispatches

The state machine hands physical actions and texts to a dispatcher.  It learns
whether a batch was accepted and nothing else, so the dispatcher is an interface
here: a state that the three calls change.
-/

namespace RustAdmin.Keyboard

inductive KeyboardPhysicalTransport
  | hid | legacy
  deriving DecidableEq, Repr

inductive ControllerKeyboardMode
  | legacy | map | translate
  deriving DecidableEq, Repr

inductive ControllerKeyboardInputMode
  | auto | text | physical
  deriving DecidableEq, Repr

inductive KeyboardClientKind
  | desktop | webDesktop | android | ios | otherMobile
  deriving DecidableEq, Repr

structure KeyboardRoutingContext where
  keyboardMode : ControllerKeyboardMode
  inputMode : ControllerKeyboardInputMode
  clientKind : KeyboardClientKind
  peerIsAndroid : Bool
  ignoreMeta : Bool := false
  deriving DecidableEq, Repr

def shouldUseDesktopMapMode (isDesktop isWebDesktop : Bool)
    (keyboardMode : ControllerKeyboardMode) : Bool :=
  (isDesktop || isWebDesktop) && keyboardMode == .map

/-- A lease object; `id` is its identity. -/
structure KeyboardPhysicalDispatchLease where
  id : ℕ
  key : HidKey
  transport : KeyboardPhysicalTransport
  deriving DecidableEq, Repr

structure PhysicalKeyboardDispatch where
  lease : KeyboardPhysicalDispatchLease
  action : KeyboardIntentAction
  modifiers : KeyboardModifiers
  source : KeyboardInputSource
  lockMask : ℤ := 0
  legacyName : Option DartString := none
  deriving DecidableEq, Repr

def PhysicalKeyboardDispatch.key (dispatch : PhysicalKeyboardDispatch) : HidKey :=
  dispatch.lease.key

structure CommittedTextDispatch where
  text : DartString
  literal : Bool := true
  deadKeyAccent : Option ℤ := none
  source : KeyboardInputSource
  deleteBeforeGraphemes : ℤ := 0
  deleteAfterGraphemes : ℤ := 0
  sourceLanguageTag : DartString := []
  sourceLayoutType : DartString := []
  deriving DecidableEq, Repr

inductive KeyboardDispatchAction
  | physical (dispatch : PhysicalKeyboardDispatch)
  | committedText (dispatch : CommittedTextDispatch)
  deriving DecidableEq, Repr

/-- The key and the action of a physical dispatch. -/
def KeyboardDispatchAction.physicalEntry : KeyboardDispatchAction →
    Option (HidKey × KeyboardIntentAction)
  | .physical dispatch => some (dispatch.key, dispatch.action)
  | .committedText _ => none

/-- The dispatcher as the state machine sees it. -/
structure KeyboardDispatcher (δ : Type*) where
  /-- Whether the batch was accepted, and the dispatcher after the call. -/
  tryDispatchAll : δ → List KeyboardDispatchAction → Bool × δ
  dispatchRecoveryReleases : δ → List PhysicalKeyboardDispatch → δ
  invalidatePending : δ → δ

def selectPhysicalTransport (intent : PhysicalKeyboardIntent) (context : KeyboardRoutingContext) :
    KeyboardPhysicalTransport :=
  if intent.key.usagePage ≠ HidKey.keyboardUsagePage then .legacy
  else if intent.source = .androidHardwareKeyboard then .hid
  else if intent.source = .syntheticModifier then .hid
  else if intent.source = .mobileToolbar then
    if intent.legacyFallbackName.isNone then .hid else .legacy
  else if shouldUseDesktopMapMode (context.clientKind == .desktop)
      (context.clientKind == .webDesktop) context.keyboardMode then .hid
  else if !context.peerIsAndroid && context.clientKind == .ios then .hid
  else if !context.peerIsAndroid && context.clientKind == .android &&
      intent.key.usage != 0x28 && intent.key.usage != 0x2a then .hid
  else .legacy

/-! ## Toolbar edits as key presses -/

/-- The two events of a key press on the toolbar. -/
def modifiedClick (key : HidKey) : List PhysicalKeyboardIntent :=
  [.down, .up].map fun action => { key := key, action := action, source := .mobileToolbar }

/-- The HID key of a code unit that a direct edit may turn into a key press.
Letters are looked up in upper case; other characters are the unshifted ones of
the standard layout. -/
def editKey (code : ℕ) : Option HidKey :=
  if 0x61 ≤ code ∧ code ≤ 0x7a then some (.fromFlutterUsage (0x00070004 + (code - 0x61)))
  else if 0x41 ≤ code ∧ code ≤ 0x5a then some (.fromFlutterUsage (0x00070004 + (code - 0x41)))
  else if 0x31 ≤ code ∧ code ≤ 0x39 then some (.fromFlutterUsage (0x0007001e + (code - 0x31)))
  else match code with
    | 0x30 => some (.fromFlutterUsage 0x00070027)
    | 0x20 => some (.fromFlutterUsage 0x0007002c)
    | 0x2d => some (.fromFlutterUsage 0x0007002d)
    | 0x3d => some (.fromFlutterUsage 0x0007002e)
    | 0x5b => some (.fromFlutterUsage 0x0007002f)
    | 0x5d => some (.fromFlutterUsage 0x00070030)
    | 0x5c => some (.fromFlutterUsage 0x00070031)
    | 0x3b => some (.fromFlutterUsage 0x00070033)
    | 0x27 => some (.fromFlutterUsage 0x00070034)
    | 0x60 => some (.fromFlutterUsage 0x00070035)
    | 0x2c => some (.fromFlutterUsage 0x00070036)
    | 0x2e => some (.fromFlutterUsage 0x00070037)
    | 0x2f => some (.fromFlutterUsage 0x00070038)
    | _ => none

/-- `MobileToolbarKeyboardNormalizer.modifiedTextEdit`. -/
def modifiedTextEdit (edit : CommittedTextIntent) : List PhysicalKeyboardIntent :=
  match edit.text with
  | [] =>
      if edit.deleteBeforeGraphemes = 1 ∧ edit.deleteAfterGraphemes = 0 then
        modifiedClick (.fromFlutterUsage 0x0007002a)
      else if edit.deleteAfterGraphemes = 1 ∧ edit.deleteBeforeGraphemes = 0 then
        modifiedClick (.fromFlutterUsage 0x0007004c)
      else []
  | [unit] =>
      if edit.deleteBeforeGraphemes ≠ 0 ∨ edit.deleteAfterGraphemes ≠ 0 then []
      else if unit.toNat < 0x20 ∨ 0x7e < unit.toNat then []
      else match editKey unit.toNat with
        | some key => modifiedClick key
        | none => []
  | _ => []

end RustAdmin.Keyboard
