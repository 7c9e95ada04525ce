import Mathlib.Data.Fin.Basic
import Mathlib.Logic.Function.Basic
import RustAdmin.Support.Arith

/-!
# The encoded-video queue

`src/src/server/video_queue.rs`: the queue between the video services and the
writer of one connection.  Frames of up to `DISPLAYS` displays and non-video
messages (ordering barriers) wait in one deque; `push` admits or refuses them,
`pop` serves the displays by deficit round robin without overtaking a barrier,
`loss` puts a track into recovery until a newer keyframe arrives.

Every function is partial: `none` is a subtraction of the byte counter below
zero, where the source stops.
-/

namespace RustAdmin.VideoQueue

open RustAdmin.Support

/-! ## Constants -/

def displays : ℕ := 64
def controlReserve : ℕ := 8
def trackFrames : ℕ := 4
def maxTracks : ℕ := 16
def capacity : ℕ := maxTracks * trackFrames + controlReserve
def maxFrameBytes : ℕ := 16 * 1024 * 1024
def maxBytes : ℕ := 64 * 1024 * 1024
def quantum : ℕ := 64 * 1024

/-- `REFRESH_INTERVAL`, in nanoseconds. -/
def refreshInterval : ℕ := 1000000000
def maxRefreshes : ℕ := 5

/-- `STALE_DELTA`, in nanoseconds. -/
def staleDeltaAge : ℕ := 3000000000

/-- A display number that passed the range check of `push`. -/
abbrev Display := Fin displays

instance : NeZero displays := ⟨by decide⟩

/-- A point in time, in nanoseconds. -/
abbrev Instant := ℕ

/-! ## Messages -/

structure EncodedVideoFrame where
  data : List UInt8
  key : Bool
deriving DecidableEq, Repr

/-- `video_frame::Union`.  The queue only tells the encoded codecs from the rest. -/
inductive FrameUnion
  | vp8s (frames : List EncodedVideoFrame)
  | vp9s (frames : List EncodedVideoFrame)
  | av1s (frames : List EncodedVideoFrame)
  | h264s (frames : List EncodedVideoFrame)
  | h265s (frames : List EncodedVideoFrame)
  | other
deriving DecidableEq, Repr

structure VideoFrame where
  display : ℤ
  streamId : ℕ
  frameId : ℕ
  union : Option FrameUnion
deriving DecidableEq, Repr

/-- `message::Union`: a video frame or any other message. -/
inductive MessageUnion
  | videoFrame (frame : VideoFrame)
  | other
deriving DecidableEq, Repr

/-- A message as the queue sees it: its union, its encoded size, and a rest of
type `α` that the queue carries and never reads. -/
structure Message (α : Type) where
  union : Option MessageUnion
  computeSize : ℕ
  rest : α
deriving DecidableEq, Repr

/-- `Queued`: a message with the time it was handed over. -/
structure Queued (α : Type) where
  time : Instant
  message : Message α
deriving DecidableEq, Repr

def leadingKeyframe (frame : VideoFrame) : Bool :=
  match frame.union with
  | some (.vp8s f) | some (.vp9s f) | some (.av1s f) | some (.h264s f) | some (.h265s f) =>
      match f.head? with
      | some first => first.key && !first.data.isEmpty
      | none => false
  | _ => false

/-- `usize::try_from(frame.display)` followed by the comparison with `DISPLAYS`. -/
def VideoFrame.display? (frame : VideoFrame) : Option Display :=
  if h : 0 ≤ frame.display ∧ frame.display < (displays : ℤ) then
    some ⟨frame.display.toNat, by omega⟩
  else none

/-- The frame a message carries, if it carries one. -/
def Queued.frame? {α : Type} (item : Queued α) : Option VideoFrame :=
  match item.message.union with
  | some (.videoFrame frame) => some frame
  | _ => none

/-! ## State -/

structure Track where
  stream : Option ℕ := none
  enabled : Bool := false
  recovering : Bool := false
  lostThrough : ℕ := 0
  refreshes : ℕ := 0
  lastRefresh : Option Instant := none
  deficit : ℕ := 0
  lossEvents : ℕ := 0
deriving DecidableEq, Repr

structure Entry (α : Type) where
  item : Queued α
  display : Option Display
  bytes : ℕ
  key : Bool
  frame : ℕ
deriving DecidableEq, Repr

/-- The time of the newest frame dropped of each display. -/
structure Drops where
  times : Display → Option Instant := fun _ => none

def Drops.record {α : Type} (drops : Drops) (entry : Entry α) : Drops :=
  match entry.display with
  | some display => ⟨Function.update drops.times display (some entry.item.time)⟩
  | none => drops

structure State (α : Type) where
  messages : List (Entry α)
  tracks : Display → Track
  bytes : ℕ
  cursor : Display
  continuing : Bool
  fatal : Bool

variable {α : Type}

/-- `State::new`. -/
def State.new : State α where
  messages := []
  tracks := fun _ => { enabled := true }
  bytes := 0
  cursor := 0
  continuing := false
  fatal := false

def State.setTrack (s : State α) (display : Display) (track : Track) : State α :=
  { s with tracks := Function.update s.tracks display track }

/-! ## Removing entries -/

def State.remove (s : State α) (index : ℕ) : Option (Option (Entry α) × State α) :=
  match s.messages[index]? with
  | none => some (none, s)
  | some entry => do
      let bytes ← checkedSub s.bytes entry.bytes
      some (some entry, { s with messages := s.messages.eraseIdx index, bytes := bytes })

/-- Is `entry` one that `purge` removes? -/
def Entry.purged (entry : Entry α) (display : Display) (deltasOnly : Bool) : Bool :=
  entry.display == some display && (!deltasOnly || !entry.key)

/-- The loop of `purge`; every round removes an entry or moves past it, so the
number of entries bounds the rounds. -/
def State.purgeLoop (display : Display) (deltasOnly : Bool) :
    ℕ → ℕ → State α → Drops → Option (State α × Drops)
  | 0, _, s, drops => some (s, drops)
  | rounds + 1, i, s, drops =>
      match s.messages[i]? with
      | none => some (s, drops)
      | some entry =>
          if entry.purged display deltasOnly then do
            let (removed, s) ← s.remove i
            let drops := match removed with
              | some entry => drops.record entry
              | none => drops
            State.purgeLoop display deltasOnly rounds i s drops
          else State.purgeLoop display deltasOnly rounds (i + 1) s drops

def State.purge (s : State α) (display : Display) (deltasOnly : Bool) (drops : Drops) :
    Option (State α × Drops) :=
  s.purgeLoop display deltasOnly s.messages.length 0 drops

/-- The newest frame of `display` that is `frame` or a queued delta. -/
def State.lossFloor (s : State α) (display : Display) (frame : ℕ) : ℕ :=
  (s.messages.filter fun e => e.display == some display && !e.key).foldl
    (fun floor e => max floor e.frame) frame

/-- The track of a display after a loss up to `frame`. -/
def Track.lose (track : Track) (frame : ℕ) : Track :=
  let track := if !track.recovering then { track with refreshes := 0, lastRefresh := none }
    else track
  { track with
    recovering := true
    lostThrough := max track.lostThrough frame
    lossEvents := saturatingAdd track.lossEvents 1 }

def State.loss (s : State α) (display : Display) (frame : ℕ) (drops : Drops) :
    Option (State α × Drops) :=
  -- every queued delta can depend on the lost reference, a pending keyframe cannot
  (s.setTrack display ((s.tracks display).lose (s.lossFloor display frame))).purge
    display true drops

/-! ## Push -/

/-- What the limits of `push` look at: the displays with a queued frame, and the
frames and bytes queued for one display. -/
structure Occupancy where
  pending : Display → Bool := fun _ => false
  ownFrames : ℕ := 0
  ownBytes : ℕ := 0

def Occupancy.count (display : Display) (o : Occupancy) (e : Entry α) : Occupancy :=
  match e.display with
  | none => o
  | some d =>
      let o := { o with pending := Function.update o.pending d true }
      if d = display then
        { o with ownFrames := o.ownFrames + 1, ownBytes := o.ownBytes + e.bytes }
      else o

def State.occupancy (s : State α) (display : Display) : Occupancy :=
  s.messages.foldl (Occupancy.count display) {}

/-- The number of displays with a queued frame. -/
def Occupancy.tracks (o : Occupancy) : ℕ := (List.finRange displays).countP o.pending

/-- The limits of `push` refuse a frame of `bytes` bytes for `display`. -/
def State.full (s : State α) (display : Display) (bytes : ℕ) : Bool :=
  let o := s.occupancy display
  let trackFull := !o.pending display && decide (maxTracks ≤ o.tracks)
  decide (maxFrameBytes < bytes)
    || decide (maxBytes < saturatingAdd s.bytes bytes)
    || decide (capacity - controlReserve ≤ s.messages.length)
    || decide (maxFrameBytes < saturatingAdd o.ownBytes bytes)
    || decide (trackFrames ≤ o.ownFrames)
    || trackFull

/-- `push` of a message without a frame: never evicted, so a queue of nothing
but these becomes `fatal` instead of losing one. -/
def State.pushControl (s : State α) (item : Queued α) : State α :=
  let bytes := item.message.computeSize
  if s.messages.length = capacity || decide (maxFrameBytes < bytes)
      || decide (maxBytes < saturatingAdd s.bytes bytes) then
    { s with fatal := true }
  else
    { s with
      bytes := s.bytes + bytes
      messages := s.messages ++
        [{ item := item, display := none, bytes := bytes, key := false, frame := 0 }] }

/-- A frame of a newer stream retires everything queued for the display. -/
def State.enterStream (s : State α) (display : Display) (stream : ℕ) (key : Bool)
    (drops : Drops) : Option (State α × Drops) :=
  if (s.tracks display).stream ≠ some stream then do
    let (s, drops) ← s.purge display false drops
    some (s.setTrack display { stream := some stream, enabled := true, recovering := !key }, drops)
  else some (s, drops)

/-- The track after its frame was admitted: a keyframe newer than everything
lost, or without a number, ends the recovery. -/
def Track.accept (track : Track) (key : Bool) (frame : ℕ) : Track :=
  if key && (frame == 0 || decide (track.lostThrough < frame)) then
    { track with recovering := false, refreshes := 0 }
  else track

def State.pushFrame (s : State α) (item : Queued α) (display : Display) (frame : VideoFrame) :
    Option (State α × Drops) :=
  let key := leadingKeyframe frame
  let bytes := item.message.computeSize
  let entry : Entry α :=
    { item := item, display := some display, bytes := bytes, key := key, frame := frame.frameId }
  let track := s.tracks display
  if !track.enabled || track.stream.any (fun old => decide (frame.streamId < old)) then
    some (s, ({} : Drops).record entry)
  else do
    let (s, drops) ← s.enterStream display frame.streamId key {}
    if !key && (s.tracks display).recovering then
      let (s, drops) ← s.loss display frame.frameId drops
      some (s, drops.record entry)
    else
      -- a complete independent reference supersedes its own track only
      let (s, drops) ← if key then s.purge display false drops else some (s, drops)
      if s.full display bytes then
        let (s, drops) ← s.loss display frame.frameId drops
        some (s, drops.record entry)
      else
        let s := s.setTrack display ((s.tracks display).accept key frame.frameId)
        some ({ s with bytes := s.bytes + bytes, messages := s.messages ++ [entry] }, drops)

def State.push (s : State α) (item : Queued α) : Option (State α × Drops) :=
  match item.frame? with
  | some frame =>
      match frame.display? with
      | some display => s.pushFrame item display frame
      | none => some (s, {})
  | none => some (s.pushControl item, {})

/-! ## Pop -/

/-- The credit of the track under the cursor at a visit: a track that goes on
after a served frame gets none on top. -/
def State.credit (s : State α) : ℕ :=
  let deficit := (s.tracks s.cursor).deficit
  if s.continuing then deficit
  else min (saturatingAdd deficit quantum) (maxFrameBytes + quantum)

/-- One visit of the round robin to the display under the cursor: the entry to
remove, if its track can pay for it, and the state after the visit. -/
def State.visit (s : State α) (barrier : ℕ) : Option ℕ × State α :=
  let display := s.cursor
  let track := s.tracks display
  let next := { s with cursor := s.cursor + 1, continuing := false }
  match (s.messages.take barrier).findIdx? (fun e => e.display == some display) with
  | none => (none, next.setTrack display { track with deficit := 0 })
  | some index =>
      let credit := s.credit
      let cost := (s.messages[index]?.map Entry.bytes).getD 0
      if cost ≤ credit then
        -- the track keeps the turn while its credit lasts
        (some index, { next.setTrack display { track with deficit := credit - cost } with
          cursor := display, continuing := true })
      else (none, next.setTrack display { track with deficit := credit })

/-- The rounds of `pop`. -/
def State.popLoop (barrier : ℕ) : ℕ → State α → Option (Option (Queued α) × State α)
  | 0, s => some (none, s)
  | rounds + 1, s =>
      match s.visit barrier with
      | (some index, s) => do
          let (entry, s) ← s.remove index
          some (entry.map Entry.item, s)
      | (none, s) => State.popLoop barrier rounds s

/-- The position of the first barrier, or the length of the queue. -/
def State.barrier (s : State α) : ℕ :=
  (s.messages.findIdx? fun e => e.display.isNone).getD s.messages.length

def popRounds : ℕ := displays * (maxFrameBytes / quantum + 1)

def State.pop (s : State α) : Option (Option (Queued α) × State α) :=
  if s.messages.head?.any (fun entry => entry.display.isNone) then do
    let (entry, s) ← s.remove 0
    some (entry.map Entry.item, s)
  else if s.barrier = 0 then some (none, s)
  else s.popLoop s.barrier popRounds

/-! ## The sender's and the receiver's calls -/

/-- `VideoQueueSender::lose`. -/
def State.lose (s : State α) (item : Queued α) : Option (State α × Drops) :=
  match item.frame? with
  | none => some (s, {})
  | some frame =>
      match frame.display? with
      | none => some (s, {})
      | some display => do
          let (s, drops) ←
            if (s.tracks display).stream = some frame.streamId then
              s.loss display frame.frameId {}
            else some (s, {})
          some (s, ⟨Function.update drops.times display (some item.time)⟩)

/-- The body of the loop of `set_displays`. -/
def State.setDisplay (subscribed : List ℕ) (acc : State α × Drops) (display : Display) :
    Option (State α × Drops) := do
  let enabled := subscribed.contains display.val
  let (s, drops) ←
    if (acc.1.tracks display).enabled && !enabled then do
      let (s, drops) ← acc.1.purge display false acc.2
      some (s.setTrack display { s.tracks display with recovering := false }, drops)
    else some acc
  let s := if !(s.tracks display).enabled && enabled then
      s.setTrack display
        { s.tracks display with recovering := true, refreshes := 0, lastRefresh := none }
    else s
  some (s.setTrack display { s.tracks display with enabled := enabled }, drops)

/-- `VideoQueueSender::set_displays`. -/
def State.setDisplays (s : State α) (subscribed : List ℕ) : Option (State α × Drops) :=
  (List.finRange displays).foldlM (State.setDisplay subscribed) (s, {})

/-- Whether `recovery_due` asks for a refresh of a track, and the track after it. -/
def Track.recoveryDue (t : Track) (now : Instant) : Option (ℕ × ℕ) × Track :=
  if !t.enabled || !t.recovering || decide (maxRefreshes ≤ t.refreshes)
      || t.lastRefresh.any (fun last => decide (now - last < refreshInterval)) then (none, t)
  else
    (some (t.stream.getD 0, t.lossEvents),
      { t with lastRefresh := some now, refreshes := t.refreshes + 1 })

/-- `VideoQueueSender::recovery_due`. -/
def State.recoveryDue (s : State α) (now : Instant) :
    (Display → Option (ℕ × ℕ)) × State α :=
  (fun display => ((s.tracks display).recoveryDue now).1,
    { s with tracks := fun display => ((s.tracks display).recoveryDue now).2 })

/-- `VideoQueueSender::stale_delta`, at time `now`. -/
def staleDelta (now : Instant) (item : Queued α) : Bool :=
  match item.frame? with
  | some frame => !leadingKeyframe frame && decide (staleDeltaAge ≤ now - item.time)
  | none => false

/-- One attempt of `VideoQueueReceiver::recv`: an error once the queue is fatal,
otherwise what `pop` returns. -/
def State.recv (s : State α) : Option (Except String (Option (Queued α)) × State α) :=
  if s.fatal then some (.error "video ordering queue capacity exceeded", s)
  else do
    let (item, s) ← s.pop
    some (.ok item, s)

end RustAdmin.VideoQueue
