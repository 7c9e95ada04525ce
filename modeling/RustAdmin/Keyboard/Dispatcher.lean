import Mathlib.Data.Finset.Erase
import RustAdmin.Keyboard.CommandQueue
import RustAdmin.Keyboard.Dispatch
import RustAdmin.Keyboard.LegacyNames
import RustAdmin.Support.Arith

/-!
# The dispatcher

Actions become commands of the queue, texts after a reservation against the text
budgets.  A command gives its action to the sink of its transport.  The down of a
lease that was given to a sink is remembered until its up is.

Dart's integers have 64 bits, so sums of them are cast.
-/

namespace RustAdmin.Keyboard

open RustAdmin.Support

/-- What is reserved for texts. -/
structure TextReservation where
  bytes : ℤ := 0
  operations : ℤ := 0
  edits : ℤ := 0
  deriving DecidableEq, Repr

namespace TextReservation

def add (reserved more : TextReservation) : TextReservation where
  bytes := castI64 (reserved.bytes + more.bytes)
  operations := castI64 (reserved.operations + more.operations)
  edits := castI64 (reserved.edits + more.edits)

def sub (reserved less : TextReservation) : TextReservation where
  bytes := castI64 (reserved.bytes - less.bytes)
  operations := castI64 (reserved.operations - less.operations)
  edits := castI64 (reserved.edits - less.edits)

/-- A budget is exceeded. -/
def exceeds (reserved : TextReservation) : Prop :=
  KeyboardTextPolicy.maxPendingBytes < reserved.bytes ∨
    KeyboardTextPolicy.maxEditGraphemes < reserved.edits ∨
      KeyboardTextPolicy.maxPendingOperations < reserved.operations

instance (reserved : TextReservation) : Decidable reserved.exceeds :=
  inferInstanceAs (Decidable (_ ∨ _ ∨ _))

end TextReservation

/-- A command with the bytes that are reserved for its text. -/
structure DispatchCommand where
  action : KeyboardDispatchAction
  cost : ℤ
  deriving DecidableEq, Repr

def KeyboardDispatchAction.isRelease : KeyboardDispatchAction → Bool
  | .physical dispatch => dispatch.action == .up
  | .committedText _ => false

/-! ## Admission -/

namespace CommittedTextDispatch

variable (action : CommittedTextDispatch)

def editCost : ℤ := castI64 (action.deleteBeforeGraphemes + action.deleteAfterGraphemes)

/-- The bytes to reserve for a text, or the reason to refuse it. -/
def byteCost : Except KeyboardInputRejection ℤ :=
  let checked := KeyboardTextPolicy.inspect action.text
  match checked.rejection with
  | some rejection => .error rejection
  | none =>
      if action.deadKeyAccent.any fun accent =>
          !action.literal || !KeyboardTextPolicy.isPrintableScalar accent then
        .error .invalidText
      else
        -- the accent is sent before the text if they do not compose
        let byteCost := checked.bytes + if action.deadKeyAccent.isSome then 4 else 0
        if KeyboardTextPolicy.maxOperationBytes < byteCost then .error .textTooLarge
        else if action.deleteBeforeGraphemes < 0 ∨ action.deleteAfterGraphemes < 0 ∨
            KeyboardTextPolicy.maxEditGraphemes < action.editCost then
          .error .invalidText
        else .ok byteCost

end CommittedTextDispatch

/-- The reservation of a batch and its commands, after those of its first actions. -/
def reserveFrom (reserved : TextReservation) (commands : List DispatchCommand) :
    List KeyboardDispatchAction →
      Except KeyboardInputRejection (TextReservation × List DispatchCommand)
  | [] => .ok (reserved, commands)
  | .physical dispatch :: rest =>
      reserveFrom reserved (commands ++ [⟨.physical dispatch, 0⟩]) rest
  | .committedText dispatch :: rest =>
      match dispatch.byteCost with
      | .error rejection => .error rejection
      | .ok cost =>
          reserveFrom (reserved.add ⟨cost, 1, dispatch.editCost⟩)
            (commands ++ [⟨.committedText dispatch, cost⟩]) rest

/-! ## The sinks -/

/-- A call of a sink with the action it is for: `sendHid` gets its key, action and lock
mask, `sendLegacy` the name of the key, whether it is no up, and the modifiers. -/
inductive SinkCall
  | hid (dispatch : PhysicalKeyboardDispatch)
  | legacy (name : DartString) (dispatch : PhysicalKeyboardDispatch)
  | text (text : DartString) (dispatch : CommittedTextDispatch)
  deriving DecidableEq, Repr

/-- The key action that a sink is called for. -/
def SinkCall.physical? : SinkCall → Option PhysicalKeyboardDispatch
  | hid dispatch => some dispatch
  | legacy _ dispatch => some dispatch
  | text _ _ => none

/-- The sink of a key action; there is none for a legacy key without a name. -/
def PhysicalKeyboardDispatch.sinkCall (dispatch : PhysicalKeyboardDispatch) : Option SinkCall :=
  match dispatch.lease.transport with
  | .hid => some (.hid dispatch)
  | .legacy => (legacyNameOf dispatch.key dispatch.legacyName).map fun name =>
      .legacy name dispatch

structure KeyboardDispatchDiagnostics where
  ignoredLegacyKeys : ℕ := 0
  retiredCommands : ℕ := 0
  rejectedTextOperations : ℕ := 0
  deadKeyFallbacks : ℕ := 0
  deriving DecidableEq, Repr

/-- A text whose accent is being composed with it. -/
structure ComposingText where
  accent : ℤ
  action : CommittedTextDispatch
  generation : ℕ
  deriving DecidableEq, Repr

/-- `sent` is the list of all calls of the sinks and `rejections` that of the
rejections; nothing reads them. -/
structure KeyboardDispatcherState where
  canDispatch : Bool := true
  composesDeadKeys : Bool := true
  queue : KeyboardCommandQueue DispatchCommand := {}
  /-- The running command waits for the composer. -/
  composing : Option ComposingText := none
  pendingText : TextReservation := {}
  /-- The leases with `_downStarted`. -/
  downStarted : Finset KeyboardPhysicalDispatchLease := ∅
  diagnostics : KeyboardDispatchDiagnostics := {}
  sent : List SinkCall := []
  rejections : List KeyboardInputRejection := []
  deriving DecidableEq

namespace KeyboardDispatcherState

variable (d : KeyboardDispatcherState)

def send (call : SinkCall) : KeyboardDispatcherState := { d with sent := d.sent ++ [call] }

/-- The state in which a sink may be called for the action. -/
def beginPhysicalAttempt (action : PhysicalKeyboardDispatch) : Option KeyboardDispatcherState :=
  if action.action = .up then
    if action.lease ∈ d.downStarted then
      some { d with downStarted := d.downStarted.erase action.lease }
    else none
  else
    -- a call that fails may still have delivered its down
    some { d with downStarted := insert action.lease d.downStarted }

def dispatchPhysical (action : PhysicalKeyboardDispatch) : KeyboardDispatcherState :=
  match action.sinkCall with
  | none => { d with diagnostics.ignoredLegacyKeys := d.diagnostics.ignoredLegacyKeys + 1 }
  | some call =>
      match d.beginPhysicalAttempt action with
      | none => d
      | some d => d.send call

/-- Sends a text as it was composed with its accent, or after the accent. -/
def sendComposed (accent : ℤ) (composed : Option ℤ) (action : CommittedTextDispatch) :
    KeyboardDispatcherState :=
  match composed.filter KeyboardTextPolicy.isPrintableScalar with
  | some composed => d.send (.text (fromCharCode composed) action)
  | none =>
      let d := { d with diagnostics.deadKeyFallbacks := d.diagnostics.deadKeyFallbacks + 1 }
      d.send (.text (fromCharCode accent ++ action.text) action)

def dispatchText (action : CommittedTextDispatch) : KeyboardDispatcherState :=
  if action.text = [] ∧ action.deleteBeforeGraphemes = 0 ∧ action.deleteAfterGraphemes = 0 then d
  else match action.deadKeyAccent with
    | none => d.send (.text action.text action)
    | some accent =>
        if d.composesDeadKeys ∧ (runes action.text).length = 1 then
          { d with composing := some ⟨accent, action, d.queue.generation⟩ }
        else d.sendComposed accent none action

/-- The release of a key whose down went out. -/
def ownedRelease : KeyboardDispatchAction → Bool
  | .physical dispatch => dispatch.action == .up && decide (dispatch.lease ∈ d.downStarted)
  | .committedText _ => false

/-- `_dispatch` until it waits. -/
def dispatch (action : KeyboardDispatchAction) : KeyboardDispatcherState :=
  if d.canDispatch = false ∧ d.ownedRelease action = false then d
  else match action with
    | .physical dispatch => d.dispatchPhysical dispatch
    | .committedText dispatch => d.dispatchText dispatch

/-! ## The queue -/

/-- A command completes and gives back what was reserved for its text. -/
def release (command : DispatchCommand) : KeyboardDispatcherState :=
  match command.action with
  | .physical _ => d
  | .committedText dispatch =>
      { d with pendingText := d.pendingText.sub ⟨command.cost, 1, dispatch.editCost⟩ }

/-- `_drain` until a command waits or the queue is empty. -/
def drain : KeyboardDispatcherState :=
  let queue := d.queue.next
  let d := d.queue.skipped.foldl (fun d queued => d.release queued.command)
    { d with queue := queue }
  match queue.running with
  | none => d
  | some queued => d.dispatch queued.command.action

def enqueue (command : DispatchCommand) (keepOnCancel : Bool) : KeyboardDispatcherState :=
  let d := { d with queue := d.queue.add command keepOnCancel }
  if d.queue.running.isSome then d else d.drain

/-- What the running command waits for: its sink, or nothing any more, or the composer,
which answers with a scalar or fails. -/
inductive Settlement
  | command (failed : Bool)
  | composer (composed : Option ℤ)
  deriving DecidableEq, Repr

/-- The command goes on after the composer's answer. -/
def resume (composing : ComposingText) (composed : Option ℤ) : KeyboardDispatcherState :=
  let d := { d with composing := none }
  if composing.generation ≠ d.queue.generation ∨ d.canDispatch = false then d
  else d.sendComposed composing.accent composed composing.action

/-- The running command goes on, or it completes and the queue goes on. -/
def settle (settlement : Settlement) : KeyboardDispatcherState :=
  match d.composing, settlement with
  | some composing, .composer composed => d.resume composing composed
  | none, .command _ =>
      match d.queue.running with
      | none => d
      | some queued => (d.release queued.command).drain
  | _, _ => d

/-! ## The calls of the state machine -/

def rejectText (reason : KeyboardInputRejection) : KeyboardDispatcherState :=
  { d with
    diagnostics.rejectedTextOperations := d.diagnostics.rejectedTextOperations + 1
    rejections := d.rejections ++ [reason] }

def enqueueAll (commands : List DispatchCommand) : KeyboardDispatcherState :=
  commands.foldl (fun d command => d.enqueue command command.action.isRelease) d

def tryDispatchAll (actions : List KeyboardDispatchAction) : Bool × KeyboardDispatcherState :=
  match reserveFrom {} [] actions with
  | .error reason => (false, d.rejectText reason)
  | .ok (batch, commands) =>
      let reserved := d.pendingText.add batch
      if reserved.exceeds then (false, d.rejectText .textQueueFull)
      else (true, { d with pendingText := reserved }.enqueueAll commands)

def invalidatePending : KeyboardDispatcherState :=
  { d with
    queue := d.queue.cancelPending
    diagnostics.retiredCommands := d.diagnostics.retiredCommands + 1 }

def dispatchRecoveryReleases (releases : List PhysicalKeyboardDispatch) : KeyboardDispatcherState :=
  releases.foldl (fun d release =>
    if release.action = .up then d.enqueue ⟨.physical release, 0⟩ true else d) d

end KeyboardDispatcherState

/-- The dispatcher for the state machine. -/
def keyboardDispatcher : KeyboardDispatcher KeyboardDispatcherState where
  tryDispatchAll := KeyboardDispatcherState.tryDispatchAll
  dispatchRecoveryReleases := KeyboardDispatcherState.dispatchRecoveryReleases
  invalidatePending := KeyboardDispatcherState.invalidatePending

end RustAdmin.Keyboard
