import Mathlib.Data.Finset.Image
import RustAdmin.Keyboard.Intent

/-!
# Modifier state

The toolbar's modifiers with their modes, and the modifier keys that are pressed
physically, each side for itself.
-/

namespace RustAdmin.Keyboard

/-! ## `mobile_modifier_state.dart` -/

inductive MobileModifierKey
  | ctrl | alt | shift | command
  deriving DecidableEq, Repr

/-- `MobileModifierKey.values`, in declaration order. -/
def MobileModifierKey.values : List MobileModifierKey := [.ctrl, .alt, .shift, .command]

inductive MobileModifierMode
  | off | oneShot | locked
  deriving DecidableEq, Repr

def MobileModifierMode.active (mode : MobileModifierMode) : Bool := mode != .off

structure MobileModifierState where
  modes : MobileModifierKey → MobileModifierMode

namespace MobileModifierState

def initial : MobileModifierState := ⟨fun _ => .off⟩

def isActive (state : MobileModifierState) (key : MobileModifierKey) : Bool :=
  (state.modes key).active

def hasActive (state : MobileModifierState) : Bool :=
  MobileModifierKey.values.any state.isActive

/-- The new state, if the listeners are notified. -/
def setMode (state : MobileModifierState) (key : MobileModifierKey) (mode : MobileModifierMode) :
    Option MobileModifierState :=
  if state.modes key = mode then none else some ⟨Function.update state.modes key mode⟩

def tap (state : MobileModifierState) (key : MobileModifierKey) : Option MobileModifierState :=
  state.setMode key (if state.modes key = .off then .oneShot else .off)

def lock (state : MobileModifierState) (key : MobileModifierKey) : Option MobileModifierState :=
  state.setMode key .locked

def consumeOneShot (state : MobileModifierState) : Option MobileModifierState :=
  if MobileModifierKey.values.any fun key => state.modes key == .oneShot then
    some ⟨fun key => if state.modes key = .oneShot then .off else state.modes key⟩
  else none

def reset (state : MobileModifierState) : Option MobileModifierState :=
  if state.hasActive then some initial else none

end MobileModifierState

/-! ## `keyboard_modifier_controller.dart` -/

structure KeyboardModifiers where
  alt : Bool := false
  ctrl : Bool := false
  shift : Bool := false
  command : Bool := false
  deriving DecidableEq, Repr

namespace KeyboardModifiers

def isActive (modifiers : KeyboardModifiers) : MobileModifierKey → Bool
  | .ctrl => modifiers.ctrl
  | .alt => modifiers.alt
  | .shift => modifiers.shift
  | .command => modifiers.command

def merge (modifiers other : KeyboardModifiers) : KeyboardModifiers where
  alt := modifiers.alt || other.alt
  ctrl := modifiers.ctrl || other.ctrl
  shift := modifiers.shift || other.shift
  command := modifiers.command || other.command

def fromState (state : MobileModifierState) : KeyboardModifiers where
  alt := state.isActive .alt
  ctrl := state.isActive .ctrl
  shift := state.isActive .shift
  command := state.isActive .command

end KeyboardModifiers

def mobileModifier : CanonicalModifier → MobileModifierKey
  | .control => .ctrl
  | .shift => .shift
  | .alt => .alt
  | .metaKey => .command

def leftModifierKey : MobileModifierKey → HidKey
  | .ctrl => HidKey.controlLeft
  | .shift => HidKey.shiftLeft
  | .alt => HidKey.altLeft
  | .command => HidKey.metaLeft

@[simp] theorem isModifier_leftModifierKey (modifier : MobileModifierKey) :
    (leftModifierKey modifier).isModifier = true := by
  cases modifier <;> rfl

/-- The physically pressed modifier keys. -/
structure SideSpecificModifierState where
  pressed : Finset HidKey

namespace SideSpecificModifierState

def initial : SideSpecificModifierState := ⟨∅⟩

/-- Some pressed key stands for the modifier. -/
def isActive (state : SideSpecificModifierState) (modifier : CanonicalModifier) : Bool :=
  decide (∃ key ∈ state.pressed, key.modifier = some modifier)

def snapshot (state : SideSpecificModifierState) : KeyboardModifiers where
  alt := state.isActive .alt
  ctrl := state.isActive .control
  shift := state.isActive .shift
  command := state.isActive .metaKey

def setPressed (state : SideSpecificModifierState) (key : HidKey) (pressed : Bool) :
    SideSpecificModifierState :=
  if !key.isModifier then state
  else if pressed then ⟨insert key state.pressed⟩
  else ⟨state.pressed.erase key⟩

def setAggregate (state : SideSpecificModifierState) (modifier : MobileModifierKey)
    (pressed : Bool) : SideSpecificModifierState :=
  state.setPressed (leftModifierKey modifier) pressed

end SideSpecificModifierState

/-- A modifier the toolbar has let go of, with the modifiers that remain. -/
structure MobileModifierRelease where
  key : MobileModifierKey
  remaining : KeyboardModifiers

structure MobileKeyboardModifierController where
  state : MobileModifierState
  snapshot : KeyboardModifiers

namespace MobileKeyboardModifierController

def initial : MobileKeyboardModifierController := ⟨.initial, {}⟩

/-- The listener of the modifier state: the calls of `onRelease` it makes, in
their order. -/
def sync (controller : MobileKeyboardModifierController) (suppressReleases : Bool) :
    List MobileModifierRelease × MobileKeyboardModifierController :=
  let previous := controller.snapshot
  let next := KeyboardModifiers.fromState controller.state
  let controller := { controller with snapshot := next }
  if suppressReleases then ([], controller)
  else
    ((MobileModifierKey.values.filter fun key => previous.isActive key && !next.isActive key).map
      fun key => ⟨key, next⟩, controller)

/-- Runs the listener after a change of the modifier state that notifies it. -/
def notify (controller : MobileKeyboardModifierController) (suppressReleases : Bool)
    (change : Option MobileModifierState) :
    List MobileModifierRelease × MobileKeyboardModifierController :=
  match change with
  | none => ([], controller)
  | some state => sync { controller with state := state } suppressReleases

def tap (controller : MobileKeyboardModifierController) (key : MobileModifierKey) :=
  controller.notify false (controller.state.tap key)

def lock (controller : MobileKeyboardModifierController) (key : MobileModifierKey) :=
  controller.notify false (controller.state.lock key)

def consumeOneShot (controller : MobileKeyboardModifierController) :=
  controller.notify false controller.state.consumeOneShot

def reset (controller : MobileKeyboardModifierController) (notifyReleases : Bool) :
    List MobileModifierRelease × MobileKeyboardModifierController :=
  controller.notify (!notifyReleases) controller.state.reset

/-- A reset that does not notify calls nothing. -/
@[simp] theorem reset_false_releases (controller : MobileKeyboardModifierController) :
    (controller.reset false).1 = [] := by
  unfold reset notify
  split
  · rfl
  · simp [sync]

end MobileKeyboardModifierController

end RustAdmin.Keyboard
