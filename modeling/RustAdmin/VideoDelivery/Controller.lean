import RustAdmin.Support.Arith
import RustAdmin.Support.LinkedMap

/-!
# The delivery controller of the host

For each display the host tracks what it sent and what the viewer decoded, and
asks for a recovery frame when the decoder falls behind.  Instants and durations
are nanoseconds; an `Instant` does not run over.
-/

namespace RustAdmin.VideoDelivery

open RustAdmin.Support

/-! ## Constants -/

def millis (n : ℕ) : ℕ := n * 1000000
def secs (n : ℕ) : ℕ := n * 1000000000

theorem secs_pos {n : ℕ} (h : 0 < n) : 0 < secs n := by
  unfold secs
  omega

theorem secs_le_secs {m n : ℕ} (h : m ≤ n) : secs m ≤ secs n :=
  Nat.mul_le_mul_right _ h

def maxVideoFeedbackDisplays : ℕ := 32
def videoDeliveryDefaultNetworkDelayMs : ℕ := 250
def videoDeliveryMinProgressTimeout : ℕ := millis 500
def videoDeliveryMaxProgressTimeout : ℕ := secs 4
def videoDeliveryMinRefreshCooldown : ℕ := secs 1
def videoDeliveryMaxRecoveryReissues : ℕ := 2
def videoDeliveryReissueCooldownMultiplier : ℕ := 3
def videoDeliveryRecoveryCycleCooldown : ℕ := secs 10
def videoDeliveryPipelineSlackFrames : ℕ := 2

/-! ## Messages -/

/-- The stamp of a video frame. -/
structure VideoFrame where
  display : ℤ
  streamId : ℕ
  frameId : ℕ
  deriving DecidableEq, Repr

structure VideoFeedback where
  display : ℤ
  streamId : ℕ
  receivedFrameId : ℕ
  decodedFrameId : ℕ
  renderSubmittedFrameId : ℕ
  droppedFrames : ℕ := 0
  deriving DecidableEq, Repr

structure VideoReferenceRefresh where
  display : ℤ
  streamId : ℕ
  receivedFrameId : ℕ
  droppedFrames : ℕ := 0
  strictRecovery : Bool := false
  deriving DecidableEq, Repr

def validVideoFeedback (feedback : VideoFeedback) : Bool :=
  feedback.streamId ≠ 0 && decide (0 ≤ feedback.display) && feedback.receivedFrameId ≠ 0 &&
    decide (feedback.decodedFrameId ≤ feedback.receivedFrameId) &&
    decide (feedback.renderSubmittedFrameId ≤ feedback.decodedFrameId)

def validVideoReferenceRefresh (request : VideoReferenceRefresh) : Bool :=
  request.streamId ≠ 0 && decide (0 ≤ request.display) && request.receivedFrameId ≠ 0

def videoFeedbackRegressed (previous next : VideoFeedback) : Bool :=
  decide (next.streamId < previous.streamId) ||
    (previous.streamId == next.streamId &&
      (decide (next.receivedFrameId < previous.receivedFrameId) ||
        decide (next.decodedFrameId < previous.decodedFrameId) ||
        decide (next.renderSubmittedFrameId < previous.renderSubmittedFrameId) ||
        decide (next.droppedFrames < previous.droppedFrames)))

/-! ## The state of one display -/

inductive VideoDeliveryPhase
  | starting | healthy | recovering
  deriving DecidableEq, Repr

structure VideoDeliveryState where
  streamId : ℕ
  hostHighestSentFrameId : ℕ
  highestSentFrameId : ℕ
  highestDecodedFrameId : ℕ := 0
  highestRenderSubmittedFrameId : ℕ := 0
  firstSentAt : ℕ
  decodePendingSince : Option ℕ
  lastRefreshAt : Option ℕ := none
  feedbackObserved : Bool := false
  recoveryTargetFrameId : Option ℕ := none
  recoveryGeneration : ℕ := 0
  recoveryReissues : ℕ := 0
  recoveryProgressAt : Option ℕ := none
  lastSentAdvanceAt : ℕ
  recoveryCycleCooldownUntil : Option ℕ := none
  phase : VideoDeliveryPhase := .starting
  recoveryCount : ℕ := 0
  latestStallMs : ℕ := 0
  deriving DecidableEq, Repr

/-- `VideoDeliveryState::new`. -/
def VideoDeliveryState.new (streamId hostHighestSentFrameId now : ℕ) : VideoDeliveryState where
  streamId := streamId
  hostHighestSentFrameId := hostHighestSentFrameId
  highestSentFrameId := hostHighestSentFrameId
  firstSentAt := now
  decodePendingSince := some now
  lastSentAdvanceAt := now

structure VideoRecoveryAction where
  display : ℤ
  streamId : ℕ
  highestSentFrameId : ℕ
  highestDecodedFrameId : ℕ
  highestRenderSubmittedFrameId : ℕ
  stalledMs : ℕ
  previousPhase : VideoDeliveryPhase
  recoveryGeneration : ℕ
  recoveryReissue : ℕ
  deriving DecidableEq, Repr

inductive VideoReferenceRefreshError
  | invalidRequest | unknownDisplay | staleStream | staleRequest
  deriving DecidableEq, Repr

/-! ## Timeouts -/

def progressTimeout (networkDelayMs : ℕ) : ℕ :=
  let networkDelayMs :=
    if networkDelayMs = 0 then videoDeliveryDefaultNetworkDelayMs else networkDelayMs
  min (max (millis (max networkDelayMs 50 * 3)) videoDeliveryMinProgressTimeout)
    videoDeliveryMaxProgressTimeout

def refreshCooldown (networkDelayMs : ℕ) : ℕ :=
  max (progressTimeout networkDelayMs) videoDeliveryMinRefreshCooldown

def recoveryReissueTimeout (networkDelayMs : ℕ) : ℕ :=
  refreshCooldown networkDelayMs * videoDeliveryReissueCooldownMultiplier

theorem refreshCooldown_ge (networkDelayMs : ℕ) : secs 1 ≤ refreshCooldown networkDelayMs :=
  Nat.le_max_right _ _

theorem recoveryReissueTimeout_ge (networkDelayMs : ℕ) :
    secs 3 ≤ recoveryReissueTimeout networkDelayMs :=
  Nat.mul_le_mul_right 3 (refreshCooldown_ge networkDelayMs)

/-! ## Recovery of one display -/

namespace VideoDeliveryState

variable (state : VideoDeliveryState)

/-- `clear_recovery_cycle`. -/
def clearRecoveryCycle : VideoDeliveryState :=
  { state with recoveryTargetFrameId := none, recoveryReissues := 0, recoveryProgressAt := none }

/-- The later of the last progress and the last refresh, or the first frame. -/
def progressAt : ℕ :=
  match state.recoveryProgressAt, state.lastRefreshAt with
  | some progress, some refresh => max progress refresh
  | some progress, none => progress
  | none, some refresh => refresh
  | none, none => state.firstSentAt

/-- The last refresh is closer than this. -/
def refreshedWithin (now duration : ℕ) : Bool :=
  state.lastRefreshAt.any fun last => decide (now - last < duration)

/-- The end of `issue_recovery`: the action and the state that remembers it. -/
def recover (display : ℤ) (now stalled : ℕ) (previousPhase : VideoDeliveryPhase)
    (recoveryReissue : ℕ) : VideoDeliveryState × Option VideoRecoveryAction :=
  ({ state with
      phase := .recovering
      lastRefreshAt := some now
      recoveryCount := saturatingAdd state.recoveryCount 1
      latestStallMs := min (stalled / millis 1) usizeMax },
    some {
      display := display
      streamId := state.streamId
      highestSentFrameId := state.hostHighestSentFrameId
      highestDecodedFrameId := state.highestDecodedFrameId
      highestRenderSubmittedFrameId := state.highestRenderSubmittedFrameId
      stalledMs := stalled / millis 1
      previousPhase := previousPhase
      recoveryGeneration := state.recoveryGeneration
      recoveryReissue := recoveryReissue })

/-- `issue_recovery`. -/
def issueRecovery (display : ℤ) (now networkDelayMs stalled : ℕ) :
    VideoDeliveryState × Option VideoRecoveryAction :=
  if !state.feedbackObserved then
    if state.refreshedWithin now (refreshCooldown networkDelayMs) then (state, none)
    else
      let opened := { state.clearRecoveryCycle with
        recoveryGeneration := saturatingAdd state.recoveryGeneration 1 }
      opened.recover display now stalled state.phase 0
  else if state.recoveryTargetFrameId.any fun target =>
      decide (state.highestDecodedFrameId ≤ target) then
    if now - state.progressAt < recoveryReissueTimeout networkDelayMs then (state, none)
    else if videoDeliveryMaxRecoveryReissues ≤ state.recoveryReissues then
      ({ state.clearRecoveryCycle with
          recoveryCycleCooldownUntil := some (now + videoDeliveryRecoveryCycleCooldown)
          phase := .healthy }, none)
    else
      let reissued := { state with recoveryReissues := state.recoveryReissues + 1 }
      reissued.recover display now stalled state.phase reissued.recoveryReissues
  else
    let cleared := { state.clearRecoveryCycle with phase := .healthy }
    if (cleared.recoveryCycleCooldownUntil.any fun deadline => decide (now < deadline)) ||
        cleared.hostHighestSentFrameId == 0 ||
        cleared.refreshedWithin now (refreshCooldown networkDelayMs) then
      (cleared, none)
    else
      let opened := { cleared with
        recoveryCycleCooldownUntil := none
        recoveryGeneration := saturatingAdd state.recoveryGeneration 1
        recoveryTargetFrameId := some state.hostHighestSentFrameId
        recoveryReissues := 0
        recoveryProgressAt := some now }
      opened.recover display now stalled state.phase 0

/-- `on_frame_sent` on the state of the frame's display. -/
def frameSent (frame : VideoFrame) (now : ℕ) : VideoDeliveryState :=
  if state.streamId ≠ frame.streamId then .new frame.streamId frame.frameId now
  else
    let previousHostFrontier := state.hostHighestSentFrameId
    let advanced := if previousHostFrontier < frame.frameId then
      { state with hostHighestSentFrameId := frame.frameId, lastSentAdvanceAt := now } else state
    let pending := if previousHostFrontier < frame.frameId ∧
        previousHostFrontier ≤ advanced.highestDecodedFrameId then
      { advanced with decodePendingSince := some now } else advanced
    { pending with highestSentFrameId := max pending.highestSentFrameId frame.frameId }

/-- `on_feedback` on a state of the same stream: what the viewer received. -/
def feedbackReceived (feedback : VideoFeedback) (now : ℕ) : VideoDeliveryState :=
  let observed := { state with feedbackObserved := true }
  let pending := if observed.highestSentFrameId < feedback.receivedFrameId ∧
      observed.highestSentFrameId ≤ observed.highestDecodedFrameId then
    { observed with decodePendingSince := some now } else observed
  { pending with highestSentFrameId := max pending.highestSentFrameId feedback.receivedFrameId }

/-- The clocks of `on_feedback` when the decoder moved on. -/
def decodedTo (decodedFrameId now : ℕ) : VideoDeliveryState :=
  { state with
    highestDecodedFrameId := decodedFrameId
    recoveryCycleCooldownUntil := none
    recoveryProgressAt :=
      if state.recoveryTargetFrameId.isSome then some now else state.recoveryProgressAt
    decodePendingSince :=
      if state.hostHighestSentFrameId ≤ decodedFrameId then none else some now }

@[simp] theorem decodedTo_recoveryTargetFrameId (decodedFrameId now : ℕ) :
    (state.decodedTo decodedFrameId now).recoveryTargetFrameId = state.recoveryTargetFrameId := rfl

@[simp] theorem decodedTo_highestDecodedFrameId (decodedFrameId now : ℕ) :
    (state.decodedTo decodedFrameId now).highestDecodedFrameId = decodedFrameId := rfl

/-- `on_feedback`, where the decoder may have moved on. -/
def feedbackDecoded (feedback : VideoFeedback) (now : ℕ) : VideoDeliveryState :=
  if state.highestDecodedFrameId < feedback.decodedFrameId then
    let decoded := state.decodedTo feedback.decodedFrameId now
    if decoded.recoveryTargetFrameId.any fun target =>
        decide (target < decoded.highestDecodedFrameId) then
      { decoded.clearRecoveryCycle with phase := .healthy }
    else if decoded.recoveryTargetFrameId.isNone then { decoded with phase := .healthy }
    else decoded
  else state

/-- `on_feedback` on the state of the feedback's display. -/
def feedback (feedback : VideoFeedback) (now : ℕ) : VideoDeliveryState :=
  let current :=
    if state.streamId ≠ feedback.streamId then .new feedback.streamId 0 now else state
  let decoded := (current.feedbackReceived feedback now).feedbackDecoded feedback now
  { decoded with
    highestRenderSubmittedFrameId :=
      max decoded.highestRenderSubmittedFrameId feedback.renderSubmittedFrameId }

/-- One display of `poll_recovery`. -/
def poll (display : ℤ) (now networkDelayMs : ℕ) :
    VideoDeliveryState × Option VideoRecoveryAction :=
  if state.recoveryTargetFrameId.isSome then
    state.issueRecovery display now networkDelayMs (now - state.progressAt)
  else if state.hostHighestSentFrameId ≤ state.highestDecodedFrameId then (state, none)
  else
    let undecodedFrames := state.hostHighestSentFrameId - state.highestDecodedFrameId
    if state.phase ≠ .starting ∧ undecodedFrames ≤ videoDeliveryPipelineSlackFrames then
      (state, none)
    else
      let stalled := now - state.decodePendingSince.getD state.firstSentAt
      if stalled < progressTimeout networkDelayMs then (state, none)
      else if state.feedbackObserved ∧
          progressTimeout networkDelayMs ≤ now - state.lastSentAdvanceAt then (state, none)
      else state.issueRecovery display now networkDelayMs stalled

/-- `on_reference_refresh_request` on the state of the request's display. -/
def referenceRefresh (request : VideoReferenceRefresh) (now networkDelayMs : ℕ) :
    Except VideoReferenceRefreshError (VideoDeliveryState × Option VideoRecoveryAction) :=
  if state.streamId ≠ request.streamId then .error .staleStream
  else if state.feedbackObserved ∧ request.receivedFrameId ≤ state.highestDecodedFrameId then
    .error .staleRequest
  else
    let progressAt :=
      if state.recoveryTargetFrameId.isSome then state.progressAt
      else state.decodePendingSince.getD state.firstSentAt
    .ok (state.issueRecovery request.display now networkDelayMs (now - progressAt))

end VideoDeliveryState

/-! ## All displays -/

structure VideoDeliveryController where
  byDisplay : LinkedMap ℤ VideoDeliveryState := ∅

namespace VideoDeliveryController

variable (c : VideoDeliveryController)

/-- A display that is not tracked while as many as allowed are. -/
def excess (display : ℤ) : Bool :=
  !c.byDisplay.contains display && decide (maxVideoFeedbackDisplays ≤ c.byDisplay.keys.length)

/-- `on_frame_sent`. -/
def onFrameSent (frame : VideoFrame) (now : ℕ) : VideoDeliveryController :=
  if frame.streamId = 0 ∨ frame.frameId = 0 ∨ frame.display < 0 then c
  else if c.excess frame.display then c
  else
    let state := (c.byDisplay.get? frame.display).getD (.new frame.streamId frame.frameId now)
    ⟨c.byDisplay.set frame.display (state.frameSent frame now)⟩

/-- `on_feedback`; the flag says that this is the first render. -/
def onFeedback (feedback : VideoFeedback) (now : ℕ) : VideoDeliveryController × Bool :=
  if c.excess feedback.display then (c, false)
  else
    let state := (c.byDisplay.get? feedback.display).getD (.new feedback.streamId 0 now)
    let known := if state.streamId ≠ feedback.streamId then
      .new feedback.streamId 0 now else state
    (⟨c.byDisplay.set feedback.display (state.feedback feedback now)⟩,
      known.highestRenderSubmittedFrameId == 0 && decide (0 < feedback.renderSubmittedFrameId))

/-- `poll_recovery`. -/
def pollRecovery (now networkDelayMs : ℕ) :
    VideoDeliveryController × List VideoRecoveryAction :=
  (⟨c.byDisplay.mapValues fun display state => (state.poll display now networkDelayMs).1⟩,
    c.byDisplay.entries.filterMap fun entry => (entry.2.poll entry.1 now networkDelayMs).2)

/-- `on_reference_refresh_request`. -/
def onReferenceRefreshRequest (request : VideoReferenceRefresh) (now networkDelayMs : ℕ) :
    VideoDeliveryController ×
      Except VideoReferenceRefreshError (Option VideoRecoveryAction) :=
  if !validVideoReferenceRefresh request then (c, .error .invalidRequest)
  else
    match c.byDisplay.get? request.display with
    | none => (c, .error .unknownDisplay)
    | some state =>
        match state.referenceRefresh request now networkDelayMs with
        | .error reason => (c, .error reason)
        | .ok (state', action) => (⟨c.byDisplay.set request.display state'⟩, .ok action)

/-- `snapshot_display`. -/
def snapshotDisplay (display : ℤ) : Option VideoDeliveryState :=
  c.byDisplay.get? display

/-- `restore_display`. -/
def restoreDisplay (display : ℤ) (state : Option VideoDeliveryState) :
    VideoDeliveryController :=
  match state with
  | some state => ⟨c.byDisplay.set display state⟩
  | none => ⟨c.byDisplay.remove display⟩

end VideoDeliveryController

end RustAdmin.VideoDelivery
