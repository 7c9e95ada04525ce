import RustAdmin.Keyboard.Dispatch
import RustAdmin.Support.Run

/-!
# Changing the input mode

A request to change the input mode resets the keyboard and stores the mode, with
an await at each of the two.  Requests queue behind each other, and after every
await the controller asks whether the request is still current: the session is
the one it was made in and no later request was made.  Here a step runs from one
await to the next, so the calls and completions of a run may come in any order.

Observers notified by `_publish` may call the controller back.  Such a call is a
step of its own, after the step that published.
-/

namespace RustAdmin.Keyboard

open RustAdmin.Support

/-! ## The state of the controller -/

structure KeyboardInputModeSnapshot where
  mode : ControllerKeyboardInputMode := .auto
  changing : Bool := false
  failed : Bool := false
  deriving DecidableEq, Repr

def kKeyboardInputModeAuto : String := "auto"
def kKeyboardInputModeText : String := "text"
def kKeyboardInputModePhysical : String := "physical"

/-- The text the mode is stored as. -/
def KeyboardInputModeSnapshot.storedMode (value : KeyboardInputModeSnapshot) : String :=
  match value.mode with
  | .auto => kKeyboardInputModeAuto
  | .text => kKeyboardInputModeText
  | .physical => kKeyboardInputModePhysical

/-- The mode a stored text stands for; every other text is `auto`. -/
def modeOfStored (mode : String) : ControllerKeyboardInputMode :=
  let lower := mode.toList.map Char.toLower
  if lower = kKeyboardInputModeText.toList then .text
  else if lower = kKeyboardInputModePhysical.toList then .physical
  else .auto

/-- Where a queued `apply` is: not started, or in one of its two awaits. -/
inductive ApplyPhase
  | queued | resetting | writing
  deriving DecidableEq, Repr

/-- A change that `setMode` put on the tail. -/
structure ModeChange where
  epoch : ℕ
  request : ℕ
  next : ControllerKeyboardInputMode
  needsReset : Bool
  persist : Bool
  phase : ApplyPhase := .queued
  deriving DecidableEq, Repr

/-- A `refresh` in its await. -/
structure ModeRead where
  epoch : ℕ
  request : ℕ
  read : ℕ
  deriving DecidableEq, Repr

/-- The controller, with the changes chained on `_tail` (the first one runs) and
the reads that are out. `sessionIsActive` is the answer of the callback. -/
structure KeyboardInputModeController where
  value : KeyboardInputModeSnapshot := {}
  tail : List ModeChange := []
  reads : List ModeRead := []
  epoch : ℕ := 0
  request : ℕ := 0
  read : ℕ := 0
  active : Bool := true
  sessionIsActive : Bool
  deriving DecidableEq, Repr

/-- What a step did that others can see. -/
inductive ModeEffect
  | accepted (request : ℕ) (next : ControllerKeyboardInputMode)
  | published (value : KeyboardInputModeSnapshot)
  | readIssued (read : ℕ)
  | resetIssued (request : ℕ)
  | writeIssued (request : ℕ) (storedMode : String)
  | succeeded (request : ℕ) (next : ControllerKeyboardInputMode)
  | dropped (request : ℕ)
  | failed (request : ℕ)
  deriving DecidableEq, Repr

/-- A call, a completion or a change of the session the callback reports. -/
inductive ModeInput
  | setMode (mode : String) (persist : Bool)
  | refresh
  | beginSession
  | endSession
  | sessionIsActive (active : Bool)
  | start (request : ℕ)
  | resetDone (request : ℕ) (ok : Bool)
  | writeDone (request : ℕ) (ok : Bool)
  | readDone (read : ℕ) (mode : Option String)
  deriving DecidableEq, Repr

namespace KeyboardInputModeController

variable (s : KeyboardInputModeController)

def accepts (epoch : ℕ) : Bool :=
  s.active && epoch == s.epoch && s.sessionIsActive

def canDispatch : Bool :=
  s.accepts s.epoch && !s.value.changing && !s.value.failed

/-- `isCurrent` of a change. -/
def isCurrent (change : ModeChange) : Bool :=
  s.accepts change.epoch && change.request == s.request

def publish (value : KeyboardInputModeSnapshot) : KeyboardInputModeController :=
  { s with value := value }

/-! ## The calls -/

def beginSession : KeyboardInputModeController × List ModeEffect :=
  ({ s with
      epoch := s.epoch + 1
      request := s.request + 1
      read := s.read + 1
      active := true
      value := {} }, [.published {}])

def endSession : KeyboardInputModeController × List ModeEffect :=
  ({ s with
      active := false
      epoch := s.epoch + 1
      request := s.request + 1
      read := s.read + 1
      value := { mode := s.value.mode } }, [.published { mode := s.value.mode }])

/-- `setMode` up to its first await: an accepted call takes a number even when
nothing is left to do. -/
def setMode (mode : String) (persist : Bool) : KeyboardInputModeController × List ModeEffect :=
  if !s.accepts s.epoch then (s, [])
  else
    let next := modeOfStored mode
    let request := s.request + 1
    let needsReset := s.value.mode != next || s.value.changing || s.value.failed
    let reserved := { s with request := request, read := s.read + 1 }
    if !needsReset && !persist then
      (reserved, [.accepted request next, .succeeded request next])
    else
      let change : ModeChange := { epoch := s.epoch, request, next, needsReset, persist }
      let value : KeyboardInputModeSnapshot := { mode := s.value.mode, changing := true }
      ({ reserved with tail := s.tail ++ [change], value := value },
        [.accepted request next, .published value])

def refresh : KeyboardInputModeController × List ModeEffect :=
  if !s.accepts s.epoch || s.value.changing then (s, [])
  else
    let read := s.read + 1
    let out : ModeRead := { epoch := s.epoch, request := s.request, read }
    ({ s with read := read, reads := s.reads ++ [out] }, [.readIssued read])

/-- `refresh` after its await; a read that failed changes nothing. -/
def readDone (out : ModeRead) (mode : Option String) :
    KeyboardInputModeController × List ModeEffect :=
  let rest := { s with reads := s.reads.erase out }
  match mode with
  | none => (rest, [])
  | some mode =>
      if !rest.accepts out.epoch || out.request != rest.request || out.read != rest.read then
        (rest, [])
      else
        rest.setMode mode false

/-! ## `apply`, between its awaits -/

/-- The change is over and the next one of the tail may start. -/
def drained : KeyboardInputModeController :=
  { s with tail := s.tail.tail }

/-- The change waits in its next await. -/
def await (change : ModeChange) (phase : ApplyPhase) : KeyboardInputModeController :=
  { s with tail := { change with phase := phase } :: s.tail.tail }

/-- After the write: publish the new mode. -/
def applyAfterWrite (change : ModeChange) : KeyboardInputModeController × List ModeEffect :=
  if !s.isCurrent change then (s.drained, [.dropped change.request])
  else
    let value : KeyboardInputModeSnapshot := { mode := change.next }
    ((s.publish value).drained, [.published value, .succeeded change.request change.next])

/-- After the reset: store the mode, if asked. -/
def applyAfterReset (change : ModeChange) : KeyboardInputModeController × List ModeEffect :=
  if !s.isCurrent change then (s.drained, [.dropped change.request])
  else if change.persist then
    (s.await change .writing,
      [.writeIssued change.request
        (KeyboardInputModeSnapshot.storedMode { mode := change.next })])
  else s.applyAfterWrite change

/-- The change starts: reset the keyboard, if needed. -/
def applyStart (change : ModeChange) : KeyboardInputModeController × List ModeEffect :=
  if !s.isCurrent change then (s.drained, [.dropped change.request])
  else if change.needsReset then
    (s.await change .resetting, [.resetIssued change.request])
  else s.applyAfterReset change

/-- The reset or the write failed. -/
def applyFailed (change : ModeChange) : KeyboardInputModeController × List ModeEffect :=
  if s.isCurrent change then
    let value : KeyboardInputModeSnapshot := { mode := s.value.mode, failed := true }
    ((s.publish value).drained, [.published value, .failed change.request])
  else (s.drained, [.failed change.request])

/-- The change that runs, if it is this request in this phase. -/
def running (request : ℕ) (phase : ApplyPhase) : Option ModeChange :=
  s.tail.head?.filter fun change => change.request == request && change.phase == phase

/-- One step, where the input can happen. -/
def step : ModeInput → Option (KeyboardInputModeController × List ModeEffect)
  | .setMode mode persist => some (s.setMode mode persist)
  | .refresh => some s.refresh
  | .beginSession => some s.beginSession
  | .endSession => some s.endSession
  | .sessionIsActive active => some ({ s with sessionIsActive := active }, [])
  | .start request => (s.running request .queued).map s.applyStart
  | .resetDone request ok =>
      (s.running request .resetting).map fun change =>
        if ok then s.applyAfterReset change else s.applyFailed change
  | .writeDone request ok =>
      (s.running request .writing).map fun change =>
        if ok then s.applyAfterWrite change else s.applyFailed change
  | .readDone read mode =>
      (s.reads.find? fun out => out.read == read).map fun out => s.readDone out mode

end KeyboardInputModeController

end RustAdmin.Keyboard
