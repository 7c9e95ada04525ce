import RustAdmin.Support.Run
import RustAdmin.Support.Tickets
import RustAdmin.Viewer.FrameOrder

/-!
# The delta queue in movie mode

In movie mode the queue of deltas is kept short: the I/O loop drops the oldest deltas
when a new one finds eight of them, and the worker skips those that are too old.  The
deltas behind a dropped one refer to it; whoever drops one sets `discard_queue`, and
the worker hands over no delta until it receives a keyframe.
-/

namespace RustAdmin.Viewer.Movie

open RustAdmin.Support

/-- `MOVIE_VIDEO_QUEUE_MAX_FRAMES` -/
def movieVideoQueueMaxFrames : ℕ := 8

/-- `MOVIE_VIDEO_QUEUE_MAX_AGE_MS` -/
def movieVideoQueueMaxAgeMs : ℕ := 100

/-- A frame of the one stream; `number` counts the arrivals and is not in the code. -/
structure Frame where
  number : ℕ
  frameId : ℕ
  captureTimeMs : ℕ
  key : Bool
  deriving DecidableEq, Repr

def movieVideoFrameObsolete (frame : Frame) (newestCaptureTimeMs : ℕ) : Bool :=
  decide (0 < frame.captureTimeMs) && decide (frame.captureTimeMs < newestCaptureTimeMs) &&
    decide (movieVideoQueueMaxAgeMs < newestCaptureTimeMs - frame.captureTimeMs)

def movieSourceClockRegressed (previousReceivedFrameId : ℕ) (frame : Frame)
    (previousCaptureTimeMs : ℕ) : Bool :=
  decide (previousReceivedFrameId < frame.frameId) && decide (0 < frame.captureTimeMs) &&
    decide (frame.captureTimeMs < previousCaptureTimeMs) &&
    decide (movieVideoQueueMaxAgeMs < previousCaptureTimeMs - frame.captureTimeMs)

/-- Where the I/O loop is with a frame.  `dropped` are the deltas it has dropped for it,
for which `discard_queue` has not been set yet. -/
inductive Network
  | idle
  /-- The clock of the source has gone back; `discard_queue` is about to be set. -/
  | regressing (frame : Frame)
  | routing (frame : Frame)
  | checking (frame : Frame) (dropped : List ℕ)
  /-- The queue was seen full; a delta is about to be popped. -/
  | evicting (frame : Frame) (dropped : List ℕ)
  | pushing (frame : Frame) (dropped : List ℕ)
  | sending (dropped : List ℕ)
  | flagging (dropped : List ℕ)
  deriving DecidableEq, Repr

/-- Where the worker is.  `stale` are the deltas it has skipped for this token, for which
`discard_queue` has not been set yet. -/
inductive Worker
  | receiving
  | popping (stale : List ℕ)
  | judging (frame : Frame) (stale : List ℕ)
  | selected (frame : Option Frame) (stale : List ℕ)
  | deciding (frame : Option Frame)
  deriving DecidableEq, Repr

/-- One display in movie mode.  A message of the channel is a keyframe or a token. -/
structure Pipeline where
  channel : List (Option Frame) := []
  videoQueue : List Frame := []
  discardQueue : Bool := false
  newestCaptureTimeMs : ℕ := 0
  receivedFrameId : ℕ := 0
  network : Network := .idle
  worker : Worker := .receiving
  arrived : ℕ := 0
  handed : List Frame := []
  deriving DecidableEq, Repr

inductive Event
  | arrives (frameId captureTimeMs : ℕ) (key : Bool)
  /-- The next step of the I/O loop. -/
  | network
  /-- The next step of the worker. -/
  | worker
  /-- A refresh that the viewer asked for sets `discard_queue`. -/
  | discardSet
  deriving DecidableEq, Repr

namespace Pipeline

variable (s : Pipeline)

/-- A frame is received and the newest capture time is brought up to date. -/
def arrive (frame : Frame) : Pipeline :=
  let newStream := decide (frame.frameId ≠ 0) && decide (s.receivedFrameId = 0)
  let later := decide (s.receivedFrameId < frame.frameId)
  let regressed := !newStream && later &&
    movieSourceClockRegressed s.receivedFrameId frame s.newestCaptureTimeMs
  { s with
    receivedFrameId := max s.receivedFrameId frame.frameId
    newestCaptureTimeMs :=
      if newStream || regressed then frame.captureTimeMs
      else if later then max s.newestCaptureTimeMs frame.captureTimeMs
      else s.newestCaptureTimeMs
    network := if regressed then .regressing frame else .routing frame
    arrived := s.arrived + 1 }

def networkStep : Option Pipeline :=
  match s.network with
  | .idle => none
  | .regressing frame => some { s with discardQueue := true, network := .routing frame }
  | .routing frame =>
      if frame.key then some { s with channel := s.channel ++ [some frame], network := .idle }
      else some { s with network := .checking frame [] }
  | .checking frame dropped =>
      if movieVideoQueueMaxFrames ≤ s.videoQueue.length then
        some { s with network := .evicting frame dropped }
      else some { s with network := .pushing frame dropped }
  | .evicting frame dropped =>
      match s.videoQueue with
      | [] => some { s with network := .pushing frame dropped }
      | first :: rest =>
          some { s with videoQueue := rest, network := .checking frame (dropped ++ [first.number]) }
  | .pushing frame dropped =>
      -- `force_push` evicts the oldest delta of a queue that is full to its capacity.
      if s.videoQueue.length < videoQueueSize then
        some { s with videoQueue := s.videoQueue ++ [frame], network := .sending dropped }
      else
        some { s with
          videoQueue := s.videoQueue.tail ++ [frame]
          network := .flagging (dropped ++ (s.videoQueue.take 1).map (·.number)) }
  | .sending dropped => some { s with channel := s.channel ++ [none], network := .flagging dropped }
  | .flagging dropped =>
      some { s with discardQueue := s.discardQueue || !dropped.isEmpty, network := .idle }

def workerStep : Option Pipeline :=
  match s.worker with
  | .receiving =>
      match s.channel with
      | [] => none
      | some frame :: channel =>
          -- `finish_movie_keyframe_wait`, and the keyframe goes to the decoder.
          some { s with channel := channel, discardQueue := false, handed := s.handed ++ [frame] }
      | none :: channel => some { s with channel := channel, worker := .popping [] }
  | .popping stale =>
      match s.videoQueue with
      | [] => some { s with worker := .selected none stale }
      | first :: rest => some { s with videoQueue := rest, worker := .judging first stale }
  | .judging frame stale =>
      if movieVideoFrameObsolete frame s.newestCaptureTimeMs then
        some { s with worker := .popping (stale ++ [frame.number]) }
      else some { s with worker := .selected (some frame) stale }
  | .selected frame stale =>
      some { s with discardQueue := s.discardQueue || !stale.isEmpty, worker := .deciding frame }
  | .deciding frame =>
      -- The flag is read here, after the frame was popped.
      if s.discardQueue then some { s with worker := .receiving }
      else some { s with worker := .receiving, handed := s.handed ++ frame.toList }

def step : Event → Option Pipeline
  | .arrives frameId captureTimeMs key =>
      if s.network = .idle then some (s.arrive ⟨s.arrived, frameId, captureTimeMs, key⟩) else none
  | .network => s.networkStep
  | .worker => s.workerStep
  | .discardSet => some { s with discardQueue := true }

end Pipeline

def Step (s : Pipeline) (event : Event) (s' : Pipeline) : Prop := s.step event = some s'

/-- The frames handed over since the last keyframe are those that arrived between it and
the delta, in the order of their arrival. -/
def Chained (handed : List Frame) : Prop :=
  ∀ before delta after, handed = before ++ delta :: after → delta.key = false →
    ∀ earlier keyframe deltas, before = earlier ++ keyframe :: deltas → keyframe.key = true →
      (∀ frame ∈ deltas, frame.key = false) →
      keyframe.number < delta.number ∧
        deltas.map (·.number) =
          List.range' (keyframe.number + 1) (delta.number - (keyframe.number + 1))

/-! ## Where the frames are -/

namespace Pipeline

variable (s : Pipeline)

/-- The keyframes in the channel. -/
def keys : List ℕ := s.channel.filterMap (Option.map (·.number))

/-- The delta in the hand of the worker. -/
def inHand : List Frame :=
  match s.worker with
  | .judging frame _ => [frame]
  | .selected frame _ => frame.toList
  | .deciding frame => frame.toList
  | _ => []

/-- The frame in the hand of the I/O loop. -/
def coming : List Frame :=
  match s.network with
  | .regressing frame => [frame]
  | .routing frame => [frame]
  | .checking frame _ => [frame]
  | .evicting frame _ => [frame]
  | .pushing frame _ => [frame]
  | _ => []

/-- The deltas dropped by the I/O loop for which `discard_queue` is still to be set. -/
def dropped : List ℕ :=
  match s.network with
  | .checking _ dropped => dropped
  | .evicting _ dropped => dropped
  | .pushing _ dropped => dropped
  | .sending dropped => dropped
  | .flagging dropped => dropped
  | _ => []

/-- The same for the deltas skipped by the worker. -/
def stale : List ℕ :=
  match s.worker with
  | .popping stale => stale
  | .judging _ stale => stale
  | .selected _ stale => stale
  | _ => []

end Pipeline

/-- The last frame the decoder was given, once it has been given a keyframe. -/
def reference (handed : List Frame) : Option ℕ :=
  if handed.any (·.key) then handed.getLast?.map (·.number) else none

/-- No delta passes a keyframe: neither the worker nor the I/O loop pops a delta while a
keyframe that arrived before it waits in the channel.  And between the drop of a delta
and the setting of `discard_queue` the worker hands over no delta that arrived later. -/
def Keeps (s : Pipeline) : Event → Prop
  | .worker =>
      (∀ stale, s.worker = .popping stale →
        ∀ delta ∈ s.videoQueue.head?, ∀ k ∈ s.keys, delta.number < k) ∧
      (∀ delta, s.worker = .deciding (some delta) → s.discardQueue = false →
        ∀ n ∈ s.dropped, ∀ last ∈ reference s.handed, ¬ (last < n ∧ n < delta.number))
  | .network => ∀ frame dropped, s.network = .evicting frame dropped →
      ∀ delta ∈ s.videoQueue.head?, ∀ k ∈ s.keys, delta.number < k
  | _ => True

def KeptStep (s : Pipeline) (event : Event) (s' : Pipeline) : Prop :=
  Step s event s' ∧ Keeps s event

end RustAdmin.Viewer.Movie
