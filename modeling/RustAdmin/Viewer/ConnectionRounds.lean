import Mathlib.Algebra.Order.Ring.Nat
import RustAdmin.Support.Run

/-!
# Connection attempts of a session

`src/src/ui_session_interface.rs`: a session makes one connection attempt after
the other.  The worker of an attempt that was closed or replaced runs on until
it notices.  All attempts share one round state, one slot for the channel of the
current worker, and one slot for each kind of prompt to the user.  Every step
here is atomic under the lock of the round state or of a slot.
-/

namespace RustAdmin.Viewer.ConnectionRounds

open RustAdmin.Support

/-! ## The round state -/

inductive ConnectionState
  | connecting
  | awaitingUserApproval
  | connected
  | disconnected
deriving DecidableEq, Repr

structure ConnectionRoundState where
  round : ℕ := 0
  state : ConnectionState := .disconnected
deriving DecidableEq, Repr

/-- The rounds are 32-bit numbers that wrap. -/
def roundOf (attempt : ℕ) : ℕ := attempt % 2 ^ 32

/-- `try_start`, or `none` where the running attempt is kept. -/
def ConnectionRoundState.tryStart (s : ConnectionRoundState) (reconnect : Bool) :
    Option ConnectionRoundState :=
  match s.state with
  | .connecting | .awaitingUserApproval => none
  | .connected => if reconnect then some ⟨roundOf (s.round + 1), .connecting⟩ else none
  | .disconnected => some ⟨roundOf (s.round + 1), .connecting⟩

/-- `set_connected`, or `none` where it answers `false`. -/
def ConnectionRoundState.setConnected (s : ConnectionRoundState) (round : ℕ) :
    Option ConnectionRoundState :=
  if s.round ≠ round ∨ s.state ≠ .connecting then none else some { s with state := .connected }

/-- `set_disconnected`, or `none` where it answers `false`. -/
def ConnectionRoundState.setDisconnected (s : ConnectionRoundState) (round : ℕ) :
    Option ConnectionRoundState :=
  if s.round ≠ round then none else some { s with state := .disconnected }

/-- `UserApprovalGuard::begin`, or `none` where it fails; the guard keeps the round it finds. -/
def ConnectionRoundState.beginApproval (s : ConnectionRoundState) : Option ConnectionRoundState :=
  if s.state ≠ .connecting then none else some { s with state := .awaitingUserApproval }

/-- The test of `UserApprovalGuard::with_current`. -/
def ConnectionRoundState.withCurrent (s : ConnectionRoundState) (guardRound : ℕ) : Bool :=
  s.round == guardRound && s.state == .awaitingUserApproval

/-- `UserApprovalGuard::drop`. -/
def ConnectionRoundState.dropApproval (s : ConnectionRoundState) (guardRound : ℕ) :
    ConnectionRoundState :=
  if s.withCurrent guardRound then { s with state := .connecting } else s

/-! ## Prompts -/

inductive PromptKind
  | trust
  | passphrase
deriving DecidableEq, Repr

/-- What is sent to the worker that waits for a prompt. -/
inductive Answer
  | trust (approved : Bool)
  | passphrase (passphrase : Option String)
deriving DecidableEq, Repr

def Answer.kind : Answer → PromptKind
  | trust _ => .trust
  | passphrase _ => .passphrase

/-- The answer to a prompt that is replaced or closed. -/
def PromptKind.cancelled : PromptKind → Answer
  | trust => .trust false
  | passphrase => .passphrase none

@[simp] theorem kind_cancelled (kind : PromptKind) : kind.cancelled.kind = kind := by
  cases kind <;> rfl

/-- How far a call of `confirm_peer_trust` or `request_pairing_passphrase` is. -/
inductive Stage
  | begun
  | waiting
  | leaving
  | ended
deriving DecidableEq, Repr

/-- A call of `confirm_peer_trust` or `request_pairing_passphrase` by the worker
of an attempt, with its guard. -/
structure Prompt where
  attempt : ℕ
  kind : PromptKind
  guardRound : ℕ
  stage : Stage := .begun
  shown : Bool := false
  answer : Option Answer := none
deriving DecidableEq, Repr

/-! ## The session -/

/-- What the session does to the rest of the program. -/
inductive Effect
  | endConnectionRuntime (round : ℕ)
  | beginConnectionRuntime (round : ℕ)
  /-- `Data::Close` into the channel of an attempt. -/
  | close (attempt : ℕ)
  /-- The peer info is dropped and the reconnect counted. -/
  | reconnecting (forceRelay : Bool)
deriving DecidableEq, Repr

/-- The attempts are numbered from 1 on; `sender` is the one whose channel is published. -/
structure Session where
  roundState : ConnectionRoundState := {}
  sender : Option ℕ := none
  slots : PromptKind → Option ℕ := fun _ => none
  prompts : ℕ → Option Prompt := fun _ => none
  attempts : ℕ := 0
  effects : List Effect := []

namespace Session

def prepareConnectionAttempt (s : Session) (reconnect forceRelay : Bool) : Session :=
  match s.roundState.tryStart reconnect with
  | none => s
  | some next =>
      { s with
        roundState := next
        sender := some (s.attempts + 1)
        attempts := s.attempts + 1
        effects := s.effects ++ [.endConnectionRuntime s.roundState.round] ++
          (if s.roundState.state = .connected then s.sender.toList.map .close else []) ++
          (if reconnect || s.roundState.round != 0 then [.reconnecting forceRelay] else []) ++
          [.beginConnectionRuntime next.round] }

def setConnected (s : Session) (attempt : ℕ) : Session :=
  match s.roundState.setConnected (roundOf attempt) with
  | none => s
  | some next => { s with roundState := next }

def finishConnectionAttempt (s : Session) (attempt : ℕ) : Session :=
  match s.roundState.setDisconnected (roundOf attempt) with
  | none => s
  | some next =>
      { s with
        roundState := next
        sender := none
        effects := s.effects ++ [.endConnectionRuntime (roundOf attempt)] }

/-- An answer goes into the channel of a prompt. -/
def tell (s : Session) (id : ℕ) (answer : Answer) : Session :=
  let told := (s.prompts id).map fun prompt => { prompt with answer := some answer }
  { s with prompts := Function.update s.prompts id told }

/-- `confirm_direct_trust_response` and `submit_direct_pairing_passphrase_response`. -/
def respond (s : Session) (answer : Answer) : Session :=
  match s.slots answer.kind with
  | none => s
  | some id => { s.tell id answer with slots := Function.update s.slots answer.kind none }

def close (s : Session) : Session :=
  let closed : Session :=
    { s with
      roundState := { s.roundState with state := .disconnected }
      sender := none
      effects := s.effects ++ [.endConnectionRuntime s.roundState.round] ++
        s.sender.toList.map .close }
  (closed.respond (.trust false)).respond (.passphrase none)

/-- The worker of an attempt begins to prompt the user. -/
def beginPrompt (s : Session) (attempt id : ℕ) (kind : PromptKind) : Session :=
  match s.roundState.beginApproval with
  | none => s
  | some next =>
      let prompt : Prompt := { attempt := attempt, kind := kind, guardRound := s.roundState.round }
      { s with roundState := next, prompts := Function.update s.prompts id (some prompt) }

/-- The prompt moves on to another stage. -/
def setStage (s : Session) (id : ℕ) (prompt : Prompt) (stage : Stage) : Session :=
  { s with prompts := Function.update s.prompts id (some { prompt with stage := stage }) }

/-- The prompt puts its response into the slot and is shown; what waited there is cancelled. -/
def installPrompt (s : Session) (id : ℕ) (prompt : Prompt) : Session :=
  if s.roundState.withCurrent prompt.guardRound then
    let told := match s.slots prompt.kind with
      | some previous => s.tell previous prompt.kind.cancelled
      | none => s
    { told.setStage id { prompt with shown := true } .waiting with
      slots := Function.update s.slots prompt.kind (some id) }
  else s.setStage id prompt .leaving

/-- The response came or timed out: the slot is emptied. -/
def cleanUpPrompt (s : Session) (id : ℕ) (prompt : Prompt) : Session :=
  if s.roundState.withCurrent prompt.guardRound then
    { s.setStage id prompt .leaving with slots := Function.update s.slots prompt.kind none }
  else s.setStage id prompt .leaving

def dropPrompt (s : Session) (id : ℕ) (prompt : Prompt) : Session :=
  { s.setStage id prompt .ended with
    roundState := s.roundState.dropApproval prompt.guardRound }

end Session

/-! ## Interleavings -/

/-- A step of the UI, of the user, or of the worker of an attempt. -/
inductive Event
  | prepare (reconnect forceRelay : Bool)
  | close
  /-- The user answers the prompt `id`. -/
  | answer (id : ℕ) (answer : Answer)
  | setConnected (attempt : ℕ)
  | finish (attempt : ℕ)
  | begin (attempt id : ℕ) (kind : PromptKind)
  | install (id : ℕ)
  | cleanUp (id : ℕ)
  | drop (id : ℕ)
deriving DecidableEq, Repr

/-- The attempt was prepared, so it has a worker. -/
def Session.Issued (s : Session) (attempt : ℕ) : Prop := 0 < attempt ∧ attempt ≤ s.attempts

/-- One step.  A future that is cancelled drops its guard at any stage. -/
inductive Step : Session → Event → Session → Prop
  | prepare {s : Session} {reconnect forceRelay : Bool} :
      Step s (.prepare reconnect forceRelay) (s.prepareConnectionAttempt reconnect forceRelay)
  | close {s : Session} : Step s .close s.close
  | answer {s : Session} {id : ℕ} {prompt : Prompt} {answer : Answer}
      (hprompt : s.prompts id = some prompt) (hshown : prompt.shown = true)
      (hkind : prompt.kind = answer.kind) : Step s (.answer id answer) (s.respond answer)
  | setConnected {s : Session} {attempt : ℕ} (hissued : s.Issued attempt) :
      Step s (.setConnected attempt) (s.setConnected attempt)
  | finish {s : Session} {attempt : ℕ} (hissued : s.Issued attempt) :
      Step s (.finish attempt) (s.finishConnectionAttempt attempt)
  | begin {s : Session} {attempt id : ℕ} {kind : PromptKind} (hissued : s.Issued attempt)
      (hfresh : s.prompts id = none) :
      Step s (.begin attempt id kind) (s.beginPrompt attempt id kind)
  | install {s : Session} {id : ℕ} {prompt : Prompt} (hprompt : s.prompts id = some prompt)
      (hstage : prompt.stage = .begun) : Step s (.install id) (s.installPrompt id prompt)
  | cleanUp {s : Session} {id : ℕ} {prompt : Prompt} (hprompt : s.prompts id = some prompt)
      (hstage : prompt.stage = .waiting) : Step s (.cleanUp id) (s.cleanUpPrompt id prompt)
  | drop {s : Session} {id : ℕ} {prompt : Prompt} (hprompt : s.prompts id = some prompt)
      (hstage : prompt.stage ≠ .ended) : Step s (.drop id) (s.dropPrompt id prompt)

/-! ## What is asked of the attempts -/

/-- `is_current_connection_attempt`. -/
def Session.Current (s : Session) (attempt : ℕ) : Prop :=
  s.Issued attempt ∧ s.roundState.round = roundOf attempt ∧ s.roundState.state ≠ .disconnected

/-- The attempt whose worker makes the step. -/
def Session.worker (s : Session) : Event → Option ℕ
  | .setConnected attempt | .finish attempt | .begin attempt _ _ => some attempt
  | .install id | .cleanUp id | .drop id => (s.prompts id).map Prompt.attempt
  | .prepare _ _ | .close | .answer _ _ => none

/-- The published channel is there exactly while an attempt runs, and belongs to it. -/
structure Session.Published (s : Session) : Prop where
  present : s.sender ≠ none ↔ s.roundState.state ≠ .disconnected
  current : ∀ attempt ∈ s.sender, s.Current attempt

/-- A worker whose attempt is not current changes neither the connection nor a
slot, and gets no answer to a prompt of the current attempt. -/
structure Fenced (s : Session) (event : Event) (s' : Session) : Prop where
  roundState : ∀ attempt ∈ s.worker event, ¬ s.Current attempt → s'.roundState = s.roundState
  sender : ∀ attempt ∈ s.worker event, ¬ s.Current attempt → s'.sender = s.sender
  slots : ∀ attempt ∈ s.worker event, ¬ s.Current attempt → s'.slots = s.slots
  answers : ∀ id answer, event = .answer id answer → ∀ prompt ∈ s.prompts id,
    s.Current prompt.attempt → ∀ receiver ∈ s.slots answer.kind,
      ∃ other ∈ s.prompts receiver, s.Current other.attempt

/-- A step after which at most one attempt is current, its channel published, and
none that was closed or replaced before. -/
structure SoundStep (s : Session) (event : Event) (s' : Session) : Prop where
  step : Step s event s'
  single : ∀ attempt other, s'.Current attempt → s'.Current other → attempt = other
  published : s'.Published
  retired : ∀ attempt, s.Issued attempt → ¬ s.Current attempt → ¬ s'.Current attempt
  fenced : Fenced s event s'

/-- A worker whose attempt is not current begins to prompt the user while the
current attempt is connecting: the guard takes its round for the worker's own. -/
def Session.Borrowed (s : Session) (event : Event) : Prop :=
  ∃ attempt id kind, event = .begin attempt id kind ∧ ¬ s.Current attempt ∧
    s.roundState.state = .connecting

/-- A step in which no worker prompts in the round of another. -/
structure OwnStep (s : Session) (event : Event) (s' : Session) : Prop where
  step : Step s event s'
  own : ¬ s.Borrowed event

end RustAdmin.Viewer.ConnectionRounds
