import Mathlib.Data.Finset.Erase
import Mathlib.Data.Finset.Insert
import RustAdmin.Connection.KeyboardSequence

/-!
# The keyboard of the controlled side

Key events of both protocols go through `dispatch_key_event` to the input thread.
On the way the connection notes which modifiers are pressed, so that it can release
them when the right to control is revoked or a new input epoch begins.
-/

namespace RustAdmin.Server

open RustAdmin.Connection

/-- The desktop systems. -/
inductive Desktop
  | windows
  | linux
  | macos
  deriving DecidableEq, Repr

/-- The keys for which `is_modifier` holds. -/
inductive ModifierKey
  | shiftLeft
  | shiftRight
  | controlLeft
  | controlRight
  | metaLeft
  | metaRight
  | alt
  | altGr
  deriving DecidableEq, Repr

def ModifierKey.all : List ModifierKey :=
  [shiftLeft, shiftRight, controlLeft, controlRight, metaLeft, metaRight, alt, altGr]

theorem ModifierKey.mem_all (key : ModifierKey) : key ∈ all := by
  cases key <;> decide

/-! ## Key events -/

inductive ControlKey
  | alt
  | shift
  | control
  | metaKey
  | rAlt
  | rShift
  | rControl
  | rWin
  | backspace
  | delete
  | other (value : ℕ)
  deriving DecidableEq, Repr

/-- The modifier that a control key presses, see `map_key_to_control_key`. -/
def ControlKey.modifier : ControlKey → Option ModifierKey
  | alt => some .alt
  | shift => some .shiftLeft
  | control => some .controlLeft
  | metaKey => some .metaLeft
  | rAlt => some .altGr
  | rShift => some .shiftRight
  | rControl => some .controlRight
  | rWin => some .metaRight
  | backspace | delete | other _ => none

inductive KeyboardMode
  | legacy
  | map
  | translate
  | auto
  deriving DecidableEq, Repr

inductive KeyUnion
  | none
  | controlKey (ck : ControlKey)
  | chr (code : ℕ)
  | unicode (code : ℕ)
  | seq (text : String)
  | win2winHotkey (code : ℕ)
  deriving DecidableEq, Repr

structure KeyEvent where
  mode : KeyboardMode
  union : KeyUnion
  down : Bool := false
  press : Bool := false
  deriving DecidableEq, Repr

namespace KeyEvent

variable (me : KeyEvent)

/-- The code of a character event, 0 for others. -/
def chr : ℕ :=
  match me.union with
  | .chr code => code
  | _ => 0

/-- `is_modifier` of an event. -/
def isModifier : Bool :=
  match me.union with
  | .controlKey ck => ck.modifier.isSome
  | _ => false

/-- Text is never sent as a press. -/
def isText : Bool :=
  match me.union with
  | .unicode _ | .seq _ => true
  | _ => false

end KeyEvent

inductive KeyboardInputUnion
  | committedText (deleteBeforeGraphemes deleteAfterGraphemes : ℕ) (text : String)
  | physicalKey (usbHidUsage : ℕ) (down : Bool)
  | other
  deriving DecidableEq, Repr

structure KeyboardInput where
  inputEpoch : ℕ
  sequence : ℕ
  union : KeyboardInputUnion
  deriving DecidableEq, Repr

/-- The key tables of the system and the validation of inputs: `keyOfCode` is
`keycode_to_rdev_key` where that is a modifier, `movedByCode`, `movedByVirtual` and
`movedByScan` the modifier that a raw code, a virtual key or its scan code moves,
`simulatesUnicode` tells where `simulate_key_unicode` succeeds, `codeOfKey` is
`platform_keycode_from_rdev_key` and `codeOfUsbHid` `platform_keycode_from_usb_hid`. -/
structure KeyTables where
  keyOfCode : ℕ → Option ModifierKey
  movedByCode : ℕ → Option ModifierKey
  movedByVirtual : ℕ → Option ModifierKey
  movedByScan : ℕ → Option ModifierKey
  simulatesUnicode : ℕ → Bool
  codeOfKey : ModifierKey → Option ℕ
  codeOfUsbHid : ℕ → Option ℕ
  validates : KeyboardInput → Bool

/-- What the tables are for: a code stands for the key it moves, the codes that come
out of them are small, 0 is no modifier, and a valid input has an epoch. -/
structure KeyTables.Consistent (tables : KeyTables) : Prop where
  moved : ∀ code < 65536, tables.movedByCode code = tables.keyOfCode code
  codeOfKey : ∀ key code, tables.codeOfKey key = some code →
    code < 65536 ∧ tables.keyOfCode code = some key
  codeOfUsbHid : ∀ usage code, tables.codeOfUsbHid usage = some code → code < 65536
  zero : tables.keyOfCode 0 = none
  epoch : ∀ input, tables.validates input = true → input.inputEpoch ≠ 0

/-! ## What the input thread does -/

/-- A message of the input thread, or a release that is simulated at once. -/
inductive KeyInput
  | key (msg : KeyEvent) (press : Bool)
  | release (key : ModifierKey)
  deriving DecidableEq, Repr

variable (desktop : Desktop) (tables : KeyTables)

/-- `simulate_win2win_hotkey`: a character that can be typed stands for the key going
down. -/
def hotkeyMoves (code : ℕ) (down : Bool) : Option ModifierKey :=
  if down && tables.simulatesUnicode (code % 65536) then none
  else tables.movedByScan (code / 65536 % 65536)

/-- The modifier that an event is for, as `handle_key` moves it, down or up: a press goes down
and up.  What typing a text or the legacy mode releases beside it (`release_shift_for_char_input`,
`fix_modifiers`) is no event of that modifier, whose own up is still to come. -/
def movedKey (me : KeyEvent) (down : Bool) : Option ModifierKey :=
  match me.mode with
  | .map => tables.movedByCode me.chr
  | .translate =>
      match me.union with
      | .chr code =>
          if desktop = .windows ∧ code / 65536 ≠ 0 then tables.movedByVirtual (code / 65536)
          else tables.movedByCode code
      | .win2winHotkey code => if desktop = .windows then hotkeyMoves tables code down else none
      | _ => none
  | .legacy | .auto =>
      match me.union with
      | .controlKey ck => ck.modifier
      | _ => none

/-- The modifier that an input moves, and whether it is down after it: a press ends
with the key up. -/
def KeyInput.moves : KeyInput → Option (ModifierKey × Bool)
  | .key msg press =>
      let down := !press && msg.down
      (movedKey desktop tables msg down).map fun key => (key, down)
  | .release modifier => some (modifier, false)

/-- The last input that moved a modifier left it down. -/
def leftDown (sent : List KeyInput) (key : ModifierKey) : Bool :=
  sent.foldl (fun down input =>
    match input.moves desktop tables with
    | some (moved, isDown) => if moved = key then isDown else down
    | none => down) false

/-! ## The connection -/

inductive RemoteInputKind
  | mouse
  | pointer
  | keyboard
  deriving DecidableEq, Repr

inductive RemoteInputDecision
  | deny
  | cursorOnly
  | control
  deriving DecidableEq, Repr

/-- What the gate of remote input depends on. -/
structure InputSurroundings where
  viewCameraSession : Bool := false
  blockedByPermissionPrompt : Bool := false
  keyboardEnabled : Bool := true
  showCursor : Bool := false
  deriving DecidableEq, Repr

/-- The decision of `RemoteInputAuthorizationGate::evaluate`. -/
def InputSurroundings.decide (s : InputSurroundings) (kind : RemoteInputKind) :
    RemoteInputDecision :=
  if s.viewCameraSession || s.blockedByPermissionPrompt then .deny
  else if s.keyboardEnabled then .control
  else if kind = .mouse && s.showCursor then .cursorOnly
  else .deny

/-- The fields of a connection that its keyboard input depends on, and `sent`, what it
has given to the input thread. -/
structure HostKeyboard where
  pressedModifiers : Finset ModifierKey := ∅
  platformStateDirty : Bool := false
  keyboardInputReceiveState : KeyboardInputReceiveState := .default
  sent : List KeyInput := []
  deriving DecidableEq

namespace HostKeyboard

variable (c : HostKeyboard)

/-- The input that releases a modifier. -/
def releaseOf (key : ModifierKey) : KeyInput :=
  match tables.codeOfKey key with
  | some code => .key { mode := .map, union := .chr code } false
  | none => .release key

/-- `release_pressed_modifiers_via_input` -/
def releasePressedModifiers : HostKeyboard :=
  { c with
    pressedModifiers := ∅
    sent := c.sent ++
      (ModifierKey.all.filter (· ∈ c.pressedModifiers)).map (releaseOf tables) }

/-- `revoke_remote_input_authorization` -/
def revokeRemoteInputAuthorization : HostKeyboard :=
  if c.platformStateDirty then
    { c with platformStateDirty := false }.releasePressedModifiers tables
  else c

/-- `authorize_remote_input` -/
def authorizeRemoteInput (s : InputSurroundings) (kind : RemoteInputKind) :
    HostKeyboard × RemoteInputDecision :=
  match s.decide kind with
  | .control => ({ c with platformStateDirty := true }, .control)
  | decision => (c.revokeRemoteInputAuthorization tables, decision)

/-- The modifier that `dispatch_key_event` looks at. -/
def trackedKey (me : KeyEvent) : Option ModifierKey :=
  match me.mode with
  | .map => tables.keyOfCode me.chr
  | .translate =>
      match me.union with
      | .chr code => tables.keyOfCode (code % 65536)
      | _ => none
  | .legacy | .auto => none

/-- `is_press` of `dispatch_key_event` -/
def isPress (me : KeyEvent) : Bool :=
  if desktop = .linux then
    (me.press || me.down) && !(me.isModifier || (trackedKey tables me).isSome)
  else me.press

def dispatchKeyEvent (me : KeyEvent) (statefulPhysicalKey : Bool) : HostKeyboard :=
  let isPress := isPress desktop tables me
  let pressedModifiers :=
    match trackedKey tables me with
    | some key =>
        if (if statefulPhysicalKey then me.down else isPress) then insert key c.pressedModifiers
        else c.pressedModifiers.erase key
    | none => c.pressedModifiers
  { c with
    pressedModifiers := pressedModifiers
    sent := c.sent ++ [.key me (isPress && !me.isText)] }

/-- `accept_keyboard_input` after the validation. -/
def acceptSequence (inputEpoch sequence : ℕ) : HostKeyboard × KeyboardInputSequenceDecision :=
  let previousEpoch := c.keyboardInputReceiveState.epoch
  let update := updateKeyboardInputSequence c.keyboardInputReceiveState inputEpoch sequence
  let c := { c with keyboardInputReceiveState := update.1 }
  match update.2 with
  | .resetEpoch =>
      (if previousEpoch ≠ 0 then c.releasePressedModifiers tables else c, .resetEpoch)
  | decision => (c, decision)

/-- `input_keyboard_v2` -/
def inputKeyboardV2 (input : KeyboardInput) : HostKeyboard :=
  match input.union with
  | .committedText deleteBefore deleteAfter text =>
      let click (ck : ControlKey) : KeyEvent :=
        { mode := .legacy, union := .controlKey ck, press := true }
      let type := if text = "" then [] else [{ mode := .translate, union := .seq text }]
      let events := List.replicate deleteBefore (click .backspace) ++
        List.replicate deleteAfter (click .delete) ++ type
      events.foldl (fun c me => c.dispatchKeyEvent desktop tables me false) c
  | .physicalKey usage down =>
      match tables.codeOfUsbHid usage with
      | some code =>
          c.dispatchKeyEvent desktop tables { mode := .map, union := .chr code, down := down } true
      | none => c
  | .other => c

/-- A keyboard message of the second protocol that the gate lets pass. -/
def handleKeyboardInput (input : KeyboardInput) : HostKeyboard :=
  if tables.validates input = false ∨ input.union = .other then c
  else
    let result := c.acceptSequence tables input.inputEpoch input.sequence
    if result.2.accepts then result.1.inputKeyboardV2 desktop tables input else result.1

end HostKeyboard

/-- What happens to the keyboard of a connection. -/
inductive HostKeyboardInput
  | keyEvent (me : KeyEvent)
  | keyboardInput (input : KeyboardInput)
  | mouse
  | pointer
  | revoke
  deriving DecidableEq, Repr

structure HostKeyboardEvent where
  input : HostKeyboardInput
  surroundings : InputSurroundings := {}
  deriving DecidableEq, Repr

namespace HostKeyboard

variable (c : HostKeyboard)

/-- One message, or a revocation. -/
def next (event : HostKeyboardEvent) : HostKeyboard :=
  match event.input with
  | .keyEvent me =>
      match c.authorizeRemoteInput tables event.surroundings .keyboard with
      | (c, .control) => c.dispatchKeyEvent desktop tables me false
      | (c, _) => c
  | .keyboardInput input =>
      match c.authorizeRemoteInput tables event.surroundings .keyboard with
      | (c, .control) => c.handleKeyboardInput desktop tables input
      | (c, _) => c
  | .mouse => (c.authorizeRemoteInput tables event.surroundings .mouse).1
  | .pointer => (c.authorizeRemoteInput tables event.surroundings .pointer).1
  | .revoke => c.revokeRemoteInputAuthorization tables

end HostKeyboard

end RustAdmin.Server
