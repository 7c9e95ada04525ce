import Mathlib.Data.Prod.Lex
import RustAdmin.VideoDelivery.Streams

/-!
# The feedback of the viewer

Each display that the viewer wants is an activation.  A worker decodes the frames of
one stream in one activation; it is replaced when either changes, and the old worker
goes on with the frames it was given.  Every worker counts in a tracker of its own, and
the host compares what it is sent with the last report of the display.
-/

namespace RustAdmin.Viewer.Feedback

open RustAdmin.Support RustAdmin.VideoDelivery

/-- `VIDEO_FEEDBACK_INTERVAL` -/
def videoFeedbackInterval : ℕ := millis 50

/-- A frame from the peer; `keyframe` is what its payload statistics say, if it has any. -/
structure VideoFrame where
  display : ℤ
  streamId : ℕ
  frameId : ℕ
  keyframe : Option Bool
  deriving DecidableEq, Repr

/-! ## The tracker of a worker -/

structure VideoFeedbackTracker where
  streamId : ℕ := 0
  display : ℤ := 0
  receivedFrameId : ℕ := 0
  decodedFrameId : ℕ := 0
  renderSubmittedFrameId : ℕ := 0
  droppedFrames : ℕ := 0
  lastSent : Option ℕ := none
  lastSentDecodedFrameId : ℕ := 0
  lastSentRenderSubmittedFrameId : ℕ := 0
  deriving DecidableEq, Repr

namespace VideoFeedbackTracker

variable (t : VideoFeedbackTracker)

/-- `record_received`; the flag says that the stream is new to the tracker. -/
def recordReceived (vf : VideoFrame) : VideoFeedbackTracker × Bool :=
  if vf.streamId = 0 ∨ vf.frameId = 0 then (t, false)
  else
    let newStream := t.streamId != vf.streamId || t.display != vf.display
    let current := if newStream then { streamId := vf.streamId, display := vf.display } else t
    ({ current with receivedFrameId := max current.receivedFrameId vf.frameId }, newStream)

/-- `record_drops`. -/
def recordDrops (count : ℕ) : VideoFeedbackTracker :=
  { t with droppedFrames := saturatingAdd t.droppedFrames count }

/-- `record_decoded`. -/
def recordDecoded (streamId frameId : ℕ) : VideoFeedbackTracker :=
  if t.streamId = streamId ∧ frameId ≠ 0 then
    { t with decodedFrameId := max t.decodedFrameId frameId }
  else t

/-- `record_render_submitted`. -/
def recordRenderSubmitted (streamId frameId : ℕ) : VideoFeedbackTracker :=
  if t.streamId = streamId ∧ frameId ≠ 0 then
    { t with renderSubmittedFrameId := max t.renderSubmittedFrameId frameId }
  else t

/-- What the tracker says, as a message. -/
def feedback : VideoFeedback where
  display := t.display
  streamId := t.streamId
  receivedFrameId := t.receivedFrameId
  decodedFrameId := t.decodedFrameId
  renderSubmittedFrameId := t.renderSubmittedFrameId
  droppedFrames := t.droppedFrames

/-- `take_due_at`. -/
def takeDueAt (now : ℕ) (force : Bool) : VideoFeedbackTracker × Option VideoFeedback :=
  if t.streamId = 0 ∨ t.receivedFrameId = 0 then (t, none)
  else
    -- The first decoded and the first rendered frame do not wait for the interval.
    let firstDecode := t.decodedFrameId != 0 && t.lastSentDecodedFrameId == 0
    let firstRenderSubmit :=
      t.renderSubmittedFrameId != 0 && t.lastSentRenderSubmittedFrameId == 0
    let intervalElapsed := t.lastSent.all fun last => decide (videoFeedbackInterval ≤ now - last)
    if !force && !firstDecode && !firstRenderSubmit && !intervalElapsed then (t, none)
    else
      ({ t with
          lastSent := some now
          lastSentDecodedFrameId := t.decodedFrameId
          lastSentRenderSubmittedFrameId := t.renderSubmittedFrameId }, some t.feedback)

end VideoFeedbackTracker

/-! ## The activations -/

/-- What the startup controller reads of an intent: its generations, and by display the
generation of the activation. -/
structure DisplayMediaIntent where
  logicalSessionGeneration : ℕ
  aggregateGeneration : ℕ
  displays : LinkedMap ℕ ℕ

/-- `renderStreamId` is the place of the shared atomic among those of the controller. -/
structure DisplayStartupState where
  activationGeneration : ℕ
  streamId : ℕ := 0
  renderStreamId : ℕ
  firstFrameReceived : Bool := false
  receivedFrameId : ℕ := 0
  deriving DecidableEq, Repr

/-- `begin_stream`: the stream that was expected instead, or whether it changed. -/
def DisplayStartupState.beginStream (state : DisplayStartupState) (streamId : ℕ) :
    Except ℕ (DisplayStartupState × Bool) :=
  if state.streamId = streamId then .ok (state, false)
  else if state.streamId ≠ 0 ∧ (streamId = 0 ∨ streamId < state.streamId) then
    .error state.streamId
  else
    .ok ({ state with
      streamId := streamId, firstFrameReceived := false, receivedFrameId := 0 }, true)

inductive DisplayStartupFrameAction
  | rejectUndesired
  | rejectStaleStream (expectedStreamId : ℕ)
  | waitForKeyframe
  | accept (firstForDisplay streamChanged : Bool) (activationGeneration : ℕ)
  deriving DecidableEq, Repr

structure DisplayStartupController where
  logicalSessionGeneration : ℕ := 0
  aggregateGeneration : ℕ := 0
  displays : LinkedMap ℕ DisplayStartupState := ∅
  /-- The values of the atomics that were made for the states. -/
  renderStreamIds : List ℕ := []

def shouldWaitForStartupKeyframe (frameId : ℕ) (keyframe : Option Bool) : Bool :=
  frameId != 0 && keyframe == some false

namespace DisplayStartupController

variable (c : DisplayStartupController)

/-- A new `DisplayStartupState`, where the display has none. -/
def ensure (display activationGeneration : ℕ) : DisplayStartupController :=
  if c.displays.contains display then c
  else
    { c with
      displays := c.displays.set display
        { activationGeneration := activationGeneration
          renderStreamId := c.renderStreamIds.length }
      renderStreamIds := c.renderStreamIds ++ [0] }

/-- A display is retired: its atomic becomes 0. -/
def retire (display : ℕ) : DisplayStartupController :=
  match c.displays.get? display with
  | some state =>
      { c with
        displays := c.displays.remove display
        renderStreamIds := c.renderStreamIds.set state.renderStreamId 0 }
  | none => c

/-- `reconcile`, with the displays it retires. -/
def reconcile (intent : DisplayMediaIntent) : DisplayStartupController × List ℕ :=
  let retired := (c.displays.entries.filter fun entry =>
    intent.displays.get? entry.1 != some entry.2.activationGeneration).map Prod.fst
  let activated := intent.displays.entries.foldl (fun c entry => c.ensure entry.1 entry.2)
    (retired.foldl retire c)
  ({ activated with
      logicalSessionGeneration := intent.logicalSessionGeneration
      aggregateGeneration := intent.aggregateGeneration }, retired)

/-- `ensure_legacy_display`. -/
def ensureLegacyDisplay (display : ℕ) : DisplayStartupController := c.ensure display 1

/-- `observe_frame`, without the timers of the recovery. -/
def observeFrame (display streamId frameId : ℕ) (keyframe : Option Bool) :
    DisplayStartupController × DisplayStartupFrameAction :=
  match c.displays.get? display with
  | none => (c, .rejectUndesired)
  | some state =>
      match state.beginStream streamId with
      | .error expectedStreamId => (c, .rejectStaleStream expectedStreamId)
      | .ok (begun, streamChanged) =>
          -- A delta before the first keyframe counts as received but is not handed on.
          let received := { begun with receivedFrameId := max begun.receivedFrameId frameId }
          let droppedDelta :=
            !received.firstFrameReceived && shouldWaitForStartupKeyframe frameId keyframe
          let observed :=
            if droppedDelta then received else { received with firstFrameReceived := true }
          ({ c with
              displays := c.displays.set display observed
              renderStreamIds :=
                if streamChanged then c.renderStreamIds.set state.renderStreamId streamId
                else c.renderStreamIds },
            if droppedDelta then .waitForKeyframe
            else .accept (!received.firstFrameReceived) streamChanged
              received.activationGeneration)

end DisplayStartupController

/-! ## The workers -/

/-- Where a worker is between the decoding of a frame and its report. -/
inductive Stage
  | receiving
  | decoded (frameId : ℕ)
  /-- The frame was submitted, and `record_render_submitted` is next. -/
  | submitted (frameId : ℕ)
  deriving DecidableEq, Repr

/-- A video thread: the fields of its `VideoThread`, and where it is.  `waiting` are the
frames it was sent and has not dropped. -/
structure Worker where
  display : ℕ
  activationGeneration : ℕ
  streamId : ℕ
  renderStreamId : ℕ
  tracker : VideoFeedbackTracker := {}
  waiting : List ℕ := []
  stage : Stage := .receiving
  deriving DecidableEq, Repr

namespace Worker

variable (w : Worker)

/-- A frame is counted and sent to the worker. -/
def receive (vf : VideoFrame) : Worker :=
  { w with tracker := (w.tracker.recordReceived vf).1, waiting := w.waiting ++ [vf.frameId] }

/-- Frames are dropped from the queue, by the I/O loop or by the worker. -/
def drop (frames : List ℕ) : Worker :=
  if frames.isSublist w.waiting then
    { w with tracker := w.tracker.recordDrops frames.length, waiting := w.waiting.diff frames }
  else w

/-- The decoder returns a frame it was given. -/
def decode (frameId : ℕ) : Worker :=
  if w.stage = .receiving ∧ frameId ∈ w.waiting then
    { w with tracker := w.tracker.recordDecoded w.streamId frameId, stage := .decoded frameId }
  else w

/-- The video callback: a frame is submitted only while the atomic names its stream. -/
def render (renderStreamId : Option ℕ) (submitted : Bool) : Worker :=
  match w.stage with
  | .decoded frameId =>
      if renderStreamId = some w.streamId ∧ submitted = true then
        { w with stage := .submitted frameId }
      else { w with stage := .receiving }
  | _ => w

def record : Worker :=
  match w.stage with
  | .submitted frameId =>
      { w with
        tracker := w.tracker.recordRenderSubmitted w.streamId frameId
        stage := .receiving }
  | _ => w

end Worker

/-! ## Viewer and host -/

/-- The viewer and the feedback state of the host.  `workers` are all that were started,
`videoThreads` the current one of each display; `taken` is feedback that a thread has
taken from the tracker of a worker and is about to send.  `sent` and `reporter` are history:
all that was sent, and the worker whose report the host keeps for a display. -/
structure State where
  displayStartup : DisplayStartupController := {}
  videoThreads : LinkedMap ℕ ℕ := ∅
  workers : List Worker := []
  taken : List (ℕ × VideoFeedback) := []
  sent : List VideoFeedback := []
  host : DeliveryConnection := {}
  reporter : LinkedMap ℤ ℕ := ∅

inductive Event
  /-- `reconcile_display_intent` outside the handling of a frame. -/
  | reconciled (intent : DisplayMediaIntent)
  | legacyDisplay (display : ℕ)
  /-- A frame arrives; the intent is that of the user interface then. -/
  | frame (intent : Option DisplayMediaIntent) (vf : VideoFrame)
  | dropped (worker : ℕ) (frames : List ℕ)
  | decoded (worker frameId : ℕ)
  | rendered (worker : ℕ) (submitted : Bool)
  | recorded (worker : ℕ)
  /-- The first half of `send_video_feedback`. -/
  | taken (worker now : ℕ) (force : Bool)
  /-- A thread sends what it has taken.  The host handles feedback in the order in which
  it was sent, so it is handled here. -/
  | sent (position now : ℕ)

namespace State

variable (s : State)

def modifyWorker (i : ℕ) (f : Worker → Worker) : State :=
  { s with workers := s.workers.modify i f }

/-- `reconcile_display_intent`. -/
def reconcileDisplayIntent (intent : DisplayMediaIntent) : State :=
  if toLex (intent.logicalSessionGeneration, intent.aggregateGeneration) ≤
      toLex (s.displayStartup.logicalSessionGeneration, s.displayStartup.aggregateGeneration) then
    s
  else
    let result := s.displayStartup.reconcile intent
    { s with
      displayStartup := result.1
      videoThreads := result.2.foldl LinkedMap.remove s.videoThreads }

/-- The current thread of a display. -/
def videoThread (display : ℕ) : Option Worker :=
  (s.videoThreads.get? display).bind (s.workers[·]?)

/-- A thread of another activation or stream is removed. -/
def removeStaleThread (display activationGeneration streamId : ℕ) : State :=
  if (s.videoThread display).any fun thread =>
      thread.activationGeneration != activationGeneration || thread.streamId != streamId then
    { s with videoThreads := s.videoThreads.remove display }
  else s

/-- `new_video_thread`. -/
def newVideoThread (display activationGeneration streamId renderStreamId : ℕ) : State :=
  { s with
    videoThreads := s.videoThreads.set display s.workers.length
    workers := s.workers ++ [{
      display := display
      activationGeneration := activationGeneration
      streamId := streamId
      renderStreamId := renderStreamId }] }

/-- An accepted frame goes to the thread of its display. -/
def deliver (display activationGeneration : ℕ) (vf : VideoFrame) : State :=
  let kept := s.removeStaleThread display activationGeneration vf.streamId
  match kept.videoThreads.get? display with
  | some i => kept.modifyWorker i (·.receive vf)
  | none =>
      match kept.displayStartup.displays.get? display with
      | none => kept
      | some state =>
          (kept.newVideoThread display activationGeneration vf.streamId
            state.renderStreamId).modifyWorker kept.workers.length (·.receive vf)

/-- The intent that is known when a frame arrives is taken over. -/
def followIntent (intent : Option DisplayMediaIntent) (display : ℕ) : State :=
  match intent with
  | some intent =>
      if intent.aggregateGeneration ≠ s.displayStartup.aggregateGeneration then
        s.reconcileDisplayIntent intent
      else s
  | none => { s with displayStartup := s.displayStartup.ensureLegacyDisplay display }

/-- A video frame in `handle_msg_from_peer`. -/
def handleVideoFrame (intent : Option DisplayMediaIntent) (vf : VideoFrame) : State :=
  if vf.display < 0 then s
  else
    let display := vf.display.toNat
    let followed := s.followIntent intent display
    if intent.any fun intent => !intent.displays.contains display then followed
    else
      let result :=
        followed.displayStartup.observeFrame display vf.streamId vf.frameId vf.keyframe
      let observed := { followed with displayStartup := result.1 }
      match result.2 with
      | .accept _ _ activationGeneration => observed.deliver display activationGeneration vf
      | _ => observed

/-- `take_due` on the tracker of a worker. -/
def takeDue (i now : ℕ) (force : Bool) : State :=
  match s.workers[i]? with
  | none => s
  | some w =>
      let result := w.tracker.takeDueAt now force
      { s.modifyWorker i fun w => { w with tracker := result.1 } with
        taken := s.taken ++ (result.2.map fun f => (i, f)).toList }

/-- Feedback that was taken reaches the host. -/
def send (position now : ℕ) : State :=
  match s.taken[position]? with
  | none => s
  | some (i, f) =>
      { s with
        taken := s.taken.eraseIdx position
        sent := s.sent ++ [f]
        host := s.host.handleVideoFeedback f now
        reporter :=
          if s.host.acceptsFeedback f then s.reporter.set f.display i else s.reporter }

def step (s : State) : Event → State
  | .reconciled intent => s.reconcileDisplayIntent intent
  | .legacyDisplay display =>
      { s with displayStartup := s.displayStartup.ensureLegacyDisplay display }
  | .frame intent vf => s.handleVideoFrame intent vf
  | .dropped i frames => s.modifyWorker i (·.drop frames)
  | .decoded i frameId => s.modifyWorker i (·.decode frameId)
  | .rendered i submitted =>
      s.modifyWorker i fun w =>
        w.render (s.displayStartup.renderStreamIds[w.renderStreamId]?) submitted
  | .recorded i => s.modifyWorker i Worker.record
  | .taken i now force => s.takeDue i now force
  | .sent position now => s.send position now

/-- The state after a run. -/
def after (events : List Event) : State := events.foldl step {}

/-- The feedback an event sends, and the worker it was taken from. -/
def sends (s : State) : Event → Option (ℕ × VideoFeedback)
  | .sent position _ => s.taken[position]?
  | _ => none

end State

/-! ## Frames in order and acceptable feedback -/

/-- The frames the host sends on a display have streams that do not decrease, and
increasing numbers in each. -/
def FramesIncrease (events : List Event) : Prop :=
  events.Pairwise fun earlier later =>
    match earlier, later with
    | .frame _ first, .frame _ second =>
        first.display = second.display →
          first.streamId < second.streamId ∨
            first.streamId = second.streamId ∧ first.frameId < second.frameId
    | _, _ => True

/-- The feedback reports a decoded and rendered frame newer than any that was reported so
on its display. -/
def State.Newest (s : State) (f : VideoFeedback) : Prop :=
  f.renderSubmittedFrameId ≠ 0 ∧
    ∀ g ∈ s.sent, g.display = f.display →
      g.streamId < f.streamId ∨
        g.streamId = f.streamId ∧ g.renderSubmittedFrameId < f.renderSubmittedFrameId

/-- Feedback that is sent is valid, and where it reports a newer frame, it does not go
behind what the host keeps. -/
def Acceptable (events : List Event) (event : Event) : Prop :=
  ∀ i f, (State.after events).sends event = some (i, f) →
    validVideoFeedback f = true ∧
      ((State.after events).Newest f → ∀ previous,
        (State.after events).host.videoFeedbackByDisplay.get? f.display = some previous →
        videoFeedbackRegressed previous f = false)

/-- The worker that sends feedback of a newer frame is the one that made the report the
host keeps of the stream, or a later one that has counted as many drops. -/
def Continues (events : List Event) (event : Event) : Prop :=
  ∀ i f, (State.after events).sends event = some (i, f) → (State.after events).Newest f →
    ∀ j previous, (State.after events).reporter.get? f.display = some j →
      (State.after events).host.videoFeedbackByDisplay.get? f.display = some previous →
      previous.streamId = f.streamId →
      j = i ∨ j < i ∧ previous.droppedFrames ≤ f.droppedFrames

end RustAdmin.Viewer.Feedback
