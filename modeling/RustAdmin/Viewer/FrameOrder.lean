import RustAdmin.Support.Run
import RustAdmin.Support.Tickets

/-!
# The frames of one display on their way to the decoder

The I/O loop sends a keyframe through the worker's channel.  A delta frame goes
to a bounded queue, and the channel gets an anonymous `VideoQueue` token for it.
A delta that arrives at a full queue evicts the oldest one, and no token is sent:
the tokens then stand for younger frames than before.

## Strategy

The order is a statement about what is still to come.  `Pipeline.planned` lists the
frames that the worker will hand over if nothing else happens: what is in its hand,
then the channel with each token replaced by the delta it will find.  `Paired` says
that what was handed over, followed by the plan, is a sublist of the arrivals.  Every
move but one takes a frame from the front of the plan, drops some, or adds the frame
that arrives at its end.  The exception is the eviction at a full queue, which shifts
the deltas under the tokens: there `KeepsPairing` is needed (`Paired.arrive_full`).  A
sublist of increasing frames never meets a watermark that refuses one
(`Watermark.hand`).
-/

namespace RustAdmin.Viewer

open RustAdmin.Support

structure VideoFrame where
  streamId : ℕ
  frameId : ℕ
  key : Bool
  deriving DecidableEq, Repr

/-- What the I/O loop sends to the worker. -/
inductive MediaData
  | videoFrame (frame : VideoFrame)
  | videoQueue
  deriving DecidableEq, Repr

/-- The watermark of the decoder. -/
structure VideoHandler where
  streamId : ℕ := 0
  lastFrameId : ℕ := 0
  deriving DecidableEq, Repr

/-- `VIDEO_QUEUE_SIZE` -/
def videoQueueSize : ℕ := 120

/-- `frame_is_current`. -/
def frameIsCurrent (currentStream previousFrame stream frame : ℕ) : Bool :=
  if currentStream ≠ 0 ∧ (stream = 0 ∨ stream < currentStream) then false
  else stream == 0 || stream != currentStream || frame == 0 || decide (previousFrame < frame)

/-- The watermark check of `VideoHandler::handle_frame`: the handler afterwards,
and whether the frame was taken. -/
def VideoHandler.handleFrame (handler : VideoHandler) (frame : VideoFrame) :
    VideoHandler × Bool :=
  if frameIsCurrent handler.streamId handler.lastFrameId frame.streamId frame.frameId then
    (⟨frame.streamId, frame.frameId⟩, true)
  else (handler, false)

/-- Where the worker is in the handling of a token. -/
inductive Worker
  | receiving
  | popping
  | selected (frame : Option VideoFrame)
  deriving DecidableEq, Repr

/-- The channel, the delta queue and the worker of one display. `sending` is the
I/O loop between a `force_push` and the token for it. -/
structure Pipeline where
  channel : List MediaData := []
  videoQueue : List VideoFrame := []
  sending : Bool := false
  discardQueue : Bool := false
  worker : Worker := .receiving
  handler : VideoHandler := {}
  handed : List (VideoFrame × Bool) := []
  deriving DecidableEq, Repr

inductive PipelineEvent
  | arrives (frame : VideoFrame)
  | tokenSent
  | discardSet
  | received
  | popped
  | decided
  deriving DecidableEq, Repr

/-- The worker gives a frame to `handle_frame`. -/
def Pipeline.hand (s : Pipeline) (frame : VideoFrame) : Pipeline :=
  let result := s.handler.handleFrame frame
  { s with
      worker := .receiving
      handler := result.1
      handed := s.handed ++ [(frame, result.2)] }

/-- A frame arrives from the peer, outside movie mode. -/
def Pipeline.arrive (s : Pipeline) (frame : VideoFrame) : Pipeline :=
  if frame.key then { s with channel := s.channel ++ [.videoFrame frame] }
  else if s.videoQueue.length < videoQueueSize then
    { s with videoQueue := s.videoQueue ++ [frame], sending := true }
  else
    -- `force_push` returns the evicted frame, so no token is sent.
    { s with videoQueue := s.videoQueue.tail ++ [frame] }

/-- The worker takes the next message of the channel. -/
def Pipeline.receive (s : Pipeline) : Option Pipeline :=
  match s.channel with
  | [] => none
  | .videoFrame frame :: channel =>
      some (({ s with channel := channel, discardQueue := false }).hand frame)
  | .videoQueue :: channel => some { s with channel := channel, worker := .popping }

/-- One step, where it can happen. -/
def Pipeline.step (s : Pipeline) : PipelineEvent → Option Pipeline
  | .arrives frame => if s.sending then none else some (s.arrive frame)
  | .tokenSent =>
      if s.sending then
        some { s with channel := s.channel ++ [.videoQueue], sending := false }
      else none
  | .discardSet => some { s with discardQueue := true }
  | .received => if s.worker = .receiving then s.receive else none
  | .popped =>
      if s.worker = .popping then
        some { s with worker := .selected s.videoQueue.head?, videoQueue := s.videoQueue.tail }
      else none
  | .decided =>
      match s.worker with
      | .selected frame =>
          if s.discardQueue then some { s with worker := .receiving }
          else
            match frame with
            | none => some { s with worker := .receiving }
            | some frame => some (s.hand frame)
      | _ => none

def PipelineStep (s : Pipeline) (event : PipelineEvent) (s' : Pipeline) : Prop :=
  s.step event = some s'

/-- The frames that arrived, in order. -/
def arrivals (events : List PipelineEvent) : List VideoFrame :=
  events.filterMap fun event =>
    match event with
    | .arrives frame => some frame
    | _ => none

/-- The frames come to the decoder in the order of their arrival, and none of
them is refused as not current. -/
def InOrder (events : List PipelineEvent) (s : Pipeline) : Prop :=
  (s.handed.map Prod.fst).Sublist (arrivals events) ∧ ∀ entry ∈ s.handed, entry.2 = true

/-! ## What is still to come -/

/-- A message of the channel as an item or a ticket of the queue of deltas. -/
def MediaData.entry : MediaData → Option VideoFrame
  | .videoFrame frame => some frame
  | .videoQueue => none

/-- The messages in front of the worker: a token in its hand, the channel, and
the token that is about to be sent. -/
def Pipeline.pending (s : Pipeline) : List (Option VideoFrame) :=
  (if s.worker = .popping then [none] else []) ++ s.channel.map MediaData.entry ++
    (if s.sending then [none] else [])

/-- The frame the worker has popped, where it will hand it over. -/
def Pipeline.inHand (s : Pipeline) : List VideoFrame :=
  match s.worker with
  | .selected (some frame) => if s.discardQueue then [] else [frame]
  | _ => []

/-- The frames that the worker will hand over if nothing more happens. -/
def Pipeline.planned (s : Pipeline) : List VideoFrame :=
  s.inHand ++ redeemLive s.discardQueue s.pending s.videoQueue

/-- A delta that arrives at a full queue finds no keyframe behind a token that is
not going to be discarded. -/
def KeepsPairing (s : Pipeline) : PipelineEvent → Prop
  | .arrives frame =>
      frame.key = false → videoQueueSize ≤ s.videoQueue.length →
        LiveTicketsLast s.discardQueue s.pending
  | _ => True

/-- A step that keeps the tokens with their frames. -/
def PairedStep (s : Pipeline) (event : PipelineEvent) (s' : Pipeline) : Prop :=
  PipelineStep s event s' ∧ KeepsPairing s event

/-- Every token has a frame, and what was handed over and is still planned is a
part of what arrived. -/
structure Paired (events : List PipelineEvent) (s : Pipeline) : Prop where
  tokens : tickets s.pending = s.videoQueue.length
  ordered : (s.handed.map Prod.fst ++ s.planned).Sublist (arrivals events)

theorem paired_initial : Paired [] {} where
  tokens := rfl
  ordered := List.Sublist.refl _

theorem arrivals_concat (events : List PipelineEvent) (event : PipelineEvent) :
    arrivals (events ++ [event]) = arrivals events ++ arrivals [event] := by
  simp [arrivals]

/-! ## One step -/

/-- What one step does. -/
inductive PipelineMove (s : Pipeline) : PipelineEvent → Pipeline → Prop
  | arrives (frame : VideoFrame) (hsending : s.sending = false) :
      PipelineMove s (.arrives frame) (s.arrive frame)
  | tokenSent (hsending : s.sending = true) :
      PipelineMove s .tokenSent { s with channel := s.channel ++ [.videoQueue], sending := false }
  | discardSet : PipelineMove s .discardSet { s with discardQueue := true }
  | receivedKey {frame : VideoFrame} {channel : List MediaData} (hworker : s.worker = .receiving)
      (hchannel : s.channel = .videoFrame frame :: channel) :
      PipelineMove s .received (({ s with channel := channel, discardQueue := false }).hand frame)
  | receivedToken {channel : List MediaData} (hworker : s.worker = .receiving)
      (hchannel : s.channel = .videoQueue :: channel) :
      PipelineMove s .received { s with channel := channel, worker := .popping }
  | popped (hworker : s.worker = .popping) :
      PipelineMove s .popped
        { s with worker := .selected s.videoQueue.head?, videoQueue := s.videoQueue.tail }
  | dropped {frame : Option VideoFrame} (hworker : s.worker = .selected frame)
      (hdrops : s.discardQueue = true ∨ frame = none) :
      PipelineMove s .decided { s with worker := .receiving }
  | handed {frame : VideoFrame} (hworker : s.worker = .selected (some frame))
      (hkept : s.discardQueue = false) : PipelineMove s .decided (s.hand frame)

theorem PipelineStep.move {s s' : Pipeline} {event : PipelineEvent}
    (hstep : PipelineStep s event s') : PipelineMove s event s' := by
  unfold PipelineStep Pipeline.step at hstep
  cases event with
  | arrives frame =>
      dsimp only at hstep
      split_ifs at hstep with hsending
      obtain rfl := Option.some.inj hstep
      exact .arrives frame (Bool.eq_false_iff.mpr hsending)
  | tokenSent =>
      dsimp only at hstep
      split_ifs at hstep with hsending
      obtain rfl := Option.some.inj hstep
      exact .tokenSent hsending
  | discardSet =>
      obtain rfl := Option.some.inj hstep
      exact .discardSet
  | received =>
      dsimp only at hstep
      split_ifs at hstep with hworker
      unfold Pipeline.receive at hstep
      split at hstep
      case h_1 => cases hstep
      case h_2 frame channel hchannel =>
          obtain rfl := Option.some.inj hstep
          exact .receivedKey hworker hchannel
      case h_3 channel hchannel =>
          obtain rfl := Option.some.inj hstep
          exact .receivedToken hworker hchannel
  | popped =>
      dsimp only at hstep
      split_ifs at hstep with hworker
      obtain rfl := Option.some.inj hstep
      exact .popped hworker
  | decided =>
      dsimp only at hstep
      cases hworker : s.worker with
      | receiving => simp [hworker] at hstep
      | popping => simp [hworker] at hstep
      | selected frame =>
          rw [hworker] at hstep
          dsimp only at hstep
          split_ifs at hstep with hdiscard
          · obtain rfl := Option.some.inj hstep
            exact .dropped hworker (Or.inl hdiscard)
          · cases frame with
            | none =>
                obtain rfl := Option.some.inj hstep
                exact .dropped hworker (Or.inr rfl)
            | some frame =>
                obtain rfl := Option.some.inj hstep
                exact .handed hworker (Bool.eq_false_iff.mpr hdiscard)

section Steps

variable {events : List PipelineEvent} {s : Pipeline}

/-- An arriving keyframe goes behind everything that is planned. -/
theorem Paired.arrive_key (h : Paired events s) (hsending : s.sending = false)
    {frame : VideoFrame} (hkey : frame.key = true) :
    Paired (events ++ [.arrives frame]) (s.arrive frame) := by
  have harrive : s.arrive frame =
      { s with channel := s.channel ++ [.videoFrame frame] } := by
    simp [Pipeline.arrive, hkey]
  have hpending : (s.arrive frame).pending = s.pending ++ [some frame] := by
    simp [harrive, Pipeline.pending, hsending, MediaData.entry]
  have hplanned : (s.arrive frame).planned = s.planned ++ [frame] := by
    rw [Pipeline.planned, hpending, harrive]
    simp only [redeemLive_concat_some, Pipeline.planned, List.append_assoc]
    rfl
  refine ⟨?_, ?_⟩
  · rw [hpending, harrive]
    simpa using h.tokens
  · rw [hplanned, arrivals_concat, ← List.append_assoc, harrive]
    exact h.ordered.append (List.Sublist.refl [frame])

/-- A delta that finds room goes behind everything that is planned. -/
theorem Paired.arrive_room (h : Paired events s) (hsending : s.sending = false)
    {frame : VideoFrame} (hkey : frame.key = false)
    (hroom : s.videoQueue.length < videoQueueSize) :
    Paired (events ++ [.arrives frame]) (s.arrive frame) := by
  have harrive : s.arrive frame =
      { s with videoQueue := s.videoQueue ++ [frame], sending := true } := by
    simp [Pipeline.arrive, hkey, hroom]
  have hpending : (s.arrive frame).pending = s.pending ++ [none] := by
    simp [harrive, Pipeline.pending, hsending]
  have hlive := redeemLive_concat_none s.discardQueue s.pending s.videoQueue frame h.tokens
  have hplanned : (s.arrive frame).planned.Sublist (s.planned ++ [frame]) := by
    rw [Pipeline.planned, hpending, harrive, Pipeline.planned, List.append_assoc]
    exact (List.Sublist.refl _).append hlive
  refine ⟨?_, ?_⟩
  · rw [hpending, harrive]
    simpa using h.tokens
  · rw [arrivals_concat]
    refine ((List.Sublist.refl _).append hplanned).trans ?_
    rw [← List.append_assoc, harrive]
    exact h.ordered.append (List.Sublist.refl [frame])

/-- A delta that evicts the oldest one goes behind what is planned, where no
keyframe is passed. -/
theorem Paired.arrive_full (h : Paired events s) {frame : VideoFrame}
    (hkey : frame.key = false) (hfull : videoQueueSize ≤ s.videoQueue.length)
    (hlast : LiveTicketsLast s.discardQueue s.pending) :
    Paired (events ++ [.arrives frame]) (s.arrive frame) := by
  have harrive : s.arrive frame = { s with videoQueue := s.videoQueue.tail ++ [frame] } := by
    simp [Pipeline.arrive, hkey, Nat.not_lt.mpr hfull]
  have hlive := redeemLive_evict hlast h.tokens frame
  have hplanned : (s.arrive frame).planned.Sublist (s.planned ++ [frame]) := by
    rw [harrive, Pipeline.planned, Pipeline.planned, List.append_assoc]
    exact (List.Sublist.refl _).append hlive
  have hsize : 0 < s.videoQueue.length := Nat.lt_of_lt_of_le (by decide) hfull
  refine ⟨?_, ?_⟩
  · rw [harrive]
    show tickets s.pending = (s.videoQueue.tail ++ [frame]).length
    have := h.tokens
    simp only [List.length_append, List.length_tail, List.length_singleton]
    omega
  · rw [arrivals_concat]
    refine ((List.Sublist.refl _).append hplanned).trans ?_
    rw [← List.append_assoc, harrive]
    exact h.ordered.append (List.Sublist.refl [frame])

theorem Paired.tokenSent (h : Paired events s) (hsending : s.sending = true) :
    Paired (events ++ [.tokenSent])
      { s with channel := s.channel ++ [.videoQueue], sending := false } := by
  have hpending : Pipeline.pending
      { s with channel := s.channel ++ [.videoQueue], sending := false } = s.pending := by
    simp [Pipeline.pending, hsending, MediaData.entry]
  have hplanned : Pipeline.planned
      { s with channel := s.channel ++ [.videoQueue], sending := false } = s.planned := by
    rw [Pipeline.planned, hpending]
    rfl
  refine ⟨?_, ?_⟩
  · rw [hpending]
    exact h.tokens
  · rw [hplanned, arrivals_concat]
    simpa [arrivals] using h.ordered

/-- Discarding takes frames out of the plan. -/
theorem Paired.discardSet (h : Paired events s) :
    Paired (events ++ [.discardSet]) { s with discardQueue := true } := by
  have hplanned : (Pipeline.planned { s with discardQueue := true }).Sublist s.planned := by
    apply List.Sublist.append
    · show (Pipeline.inHand { s with discardQueue := true }).Sublist s.inHand
      rcases hworker : s.worker with _ | _ | _ | frame <;> simp [Pipeline.inHand, hworker]
    · show (redeemLive true s.pending s.videoQueue).Sublist _
      cases hdiscard : s.discardQueue with
      | true => exact List.Sublist.refl _
      | false => exact redeemLive_sublist true _ _
  refine ⟨h.tokens, ?_⟩
  rw [arrivals_concat]
  refine ((List.Sublist.refl _).append hplanned).trans ?_
  simpa [arrivals] using h.ordered

/-- The worker takes a keyframe: the first frame of the plan. -/
theorem Paired.receive_key (h : Paired events s) (hworker : s.worker = .receiving)
    {frame : VideoFrame} {channel : List MediaData}
    (hchannel : s.channel = .videoFrame frame :: channel) :
    Paired (events ++ [.received])
      (({ s with channel := channel, discardQueue := false }).hand frame) := by
  let next : Pipeline := ({ s with channel := channel, discardQueue := false }).hand frame
  have hpending : s.pending = some frame :: next.pending := by
    simp [next, Pipeline.pending, Pipeline.hand, hworker, hchannel, MediaData.entry]
  have hplanned : s.planned = frame :: next.planned := by
    rw [Pipeline.planned, hpending]
    cases hdiscard : s.discardQueue <;>
      simp [Pipeline.planned, Pipeline.inHand, hworker, next, Pipeline.hand, redeemLive, redeem,
        redeemDiscarding]
  refine ⟨?_, ?_⟩
  · have htokens := h.tokens
    rw [hpending, tickets_some] at htokens
    exact htokens
  · have hordered := h.ordered
    rw [hplanned] at hordered
    rw [arrivals_concat]
    simpa [arrivals, Pipeline.hand, next] using hordered

theorem Paired.receive_token (h : Paired events s) (hworker : s.worker = .receiving)
    {channel : List MediaData} (hchannel : s.channel = .videoQueue :: channel) :
    Paired (events ++ [.received]) { s with channel := channel, worker := .popping } := by
  have hpending :
      Pipeline.pending { s with channel := channel, worker := .popping } = s.pending := by
    simp [Pipeline.pending, hworker, hchannel, MediaData.entry]
  refine ⟨?_, ?_⟩
  · rw [hpending]
    exact h.tokens
  · rw [Pipeline.planned, hpending, arrivals_concat]
    simpa [arrivals, Pipeline.planned, Pipeline.inHand, hworker] using h.ordered

/-- The worker redeems its token: the first frame of the plan comes into its hand. -/
theorem Paired.popped (h : Paired events s) (hworker : s.worker = .popping) :
    Paired (events ++ [.popped])
      { s with worker := .selected s.videoQueue.head?, videoQueue := s.videoQueue.tail } := by
  let next : Pipeline :=
    { s with worker := .selected s.videoQueue.head?, videoQueue := s.videoQueue.tail }
  have hpending : s.pending = none :: next.pending := by
    simp [next, Pipeline.pending, hworker]
  have htokens := h.tokens
  rw [hpending, tickets_none] at htokens
  obtain ⟨first, rest, hqueue⟩ : ∃ first rest, s.videoQueue = first :: rest := by
    cases hqueue : s.videoQueue with
    | nil => simp [hqueue] at htokens
    | cons first rest => exact ⟨first, rest, rfl⟩
  have hplanned : s.planned = next.planned := by
    rw [Pipeline.planned, hpending]
    cases hdiscard : s.discardQueue <;>
      simp [Pipeline.planned, Pipeline.inHand, hworker, next, hqueue, hdiscard, redeemLive, redeem,
        redeemDiscarding]
  refine ⟨?_, ?_⟩
  · show tickets next.pending = s.videoQueue.tail.length
    rw [hqueue] at htokens ⊢
    simpa using htokens
  · show ((s.handed.map Prod.fst) ++ next.planned).Sublist _
    rw [← hplanned, arrivals_concat]
    simpa [arrivals] using h.ordered

/-- The worker has nothing in its hand that it will hand over. -/
theorem Paired.dropped (h : Paired events s) {frame : Option VideoFrame}
    (hworker : s.worker = .selected frame) (hdrops : s.discardQueue = true ∨ frame = none) :
    Paired (events ++ [.decided]) { s with worker := .receiving } := by
  have hhand : s.inHand = [] := by
    rcases hdrops with hdiscard | rfl
    · cases frame <;> simp [Pipeline.inHand, hworker, hdiscard]
    · simp [Pipeline.inHand, hworker]
  refine ⟨by simpa [Pipeline.pending, hworker] using h.tokens, ?_⟩
  have hordered := h.ordered
  rw [Pipeline.planned, hhand] at hordered
  rw [arrivals_concat]
  simpa [arrivals, Pipeline.planned, Pipeline.inHand, Pipeline.pending, hworker] using hordered

/-- The worker hands the frame in its hand over: the first frame of the plan. -/
theorem Paired.handed (h : Paired events s) {frame : VideoFrame}
    (hworker : s.worker = .selected (some frame)) (hkept : s.discardQueue = false) :
    Paired (events ++ [.decided]) (s.hand frame) := by
  have hpending : (s.hand frame).pending = s.pending := by
    show [] ++ s.channel.map MediaData.entry ++ (if s.sending then [none] else []) = _
    simp [Pipeline.pending, hworker]
  have hplanned : s.planned = frame :: (s.hand frame).planned := by
    rw [Pipeline.planned, Pipeline.planned, hpending]
    simp [Pipeline.inHand, hworker, hkept, Pipeline.hand]
  refine ⟨?_, ?_⟩
  · rw [hpending]
    exact h.tokens
  · have hordered := h.ordered
    rw [hplanned] at hordered
    rw [arrivals_concat]
    simpa [arrivals, Pipeline.hand] using hordered

end Steps

theorem paired_step {events : List PipelineEvent} {s s' : Pipeline} {event : PipelineEvent}
    (h : Paired events s) (hstep : PairedStep s event s') : Paired (events ++ [event]) s' := by
  obtain ⟨hstep, hkeeps⟩ := hstep
  cases hstep.move with
  | arrives frame hsending =>
      cases hkey : frame.key with
      | true => exact h.arrive_key hsending hkey
      | false =>
          rcases Nat.lt_or_ge s.videoQueue.length videoQueueSize with hroom | hfull
          · exact h.arrive_room hsending hkey hroom
          · exact h.arrive_full hkey hfull (hkeeps hkey hfull)
  | tokenSent hsending => exact h.tokenSent hsending
  | discardSet => exact h.discardSet
  | receivedKey hworker hchannel => exact h.receive_key hworker hchannel
  | receivedToken hworker hchannel => exact h.receive_token hworker hchannel
  | popped hworker => exact h.popped hworker
  | dropped hworker hdrops => exact h.dropped hworker hdrops
  | handed hworker hkept => exact h.handed hworker hkept

theorem paired_run {events : List PipelineEvent} {s : Pipeline}
    (run : Run PairedStep {} events s) : Paired events s :=
  run.invariant Paired paired_initial fun _ _ _ _ => paired_step

/-! ## The watermark of the decoder -/

/-- The watermark is that of the frame handed over last, and none was refused. -/
structure Watermark (s : Pipeline) : Prop where
  taken : ∀ entry ∈ s.handed, entry.2 = true
  last : (s.handed = [] ∧ s.handler = {}) ∨
    ∃ earlier frame, s.handed = earlier ++ [(frame, true)] ∧
      s.handler = ⟨frame.streamId, frame.frameId⟩

theorem frameIsCurrent_of_lt {stream previous frame : ℕ} (h : previous < frame) :
    frameIsCurrent stream previous stream frame = true := by
  unfold frameIsCurrent
  rw [if_neg]
  · simp [h]
  · rintro ⟨hne, heq | hlt⟩
    · exact hne heq
    · exact Nat.lt_irrefl _ hlt

theorem frameIsCurrent_first (stream frame : ℕ) : frameIsCurrent 0 0 stream frame = true := by
  unfold frameIsCurrent
  rw [if_neg (by simp)]
  by_cases hstream : stream = 0 <;> simp [hstream]

/-- Handing over a frame that came after all the others moves the watermark. -/
theorem Watermark.hand {s : Pipeline} (h : Watermark s) {stream : ℕ} {frame : VideoFrame}
    (hstream : ∀ other ∈ s.handed.map Prod.fst ++ [frame], other.streamId = stream)
    (hids : (s.handed.map Prod.fst ++ [frame]).Pairwise fun f g => f.frameId < g.frameId) :
    Watermark (s.hand frame) := by
  have hcurrent : frameIsCurrent s.handler.streamId s.handler.lastFrameId frame.streamId
      frame.frameId = true := by
    rcases h.last with ⟨-, hhandler⟩ | ⟨earlier, previous, hhanded, hhandler⟩
    · rw [hhandler]
      exact frameIsCurrent_first _ _
    · have hmem : previous ∈ s.handed.map Prod.fst := by simp [hhanded]
      have hlt : previous.frameId < frame.frameId :=
        (List.pairwise_append.mp hids).2.2 previous hmem frame (by simp)
      have hsame : previous.streamId = frame.streamId :=
        (hstream previous (List.mem_append_left _ hmem)).trans
          (hstream frame (by simp)).symm
      rw [hhandler, hsame]
      exact frameIsCurrent_of_lt hlt
  have hresult : s.handler.handleFrame frame = (⟨frame.streamId, frame.frameId⟩, true) := by
    simp [VideoHandler.handleFrame, hcurrent]
  refine ⟨?_, Or.inr ⟨s.handed, frame, ?_, ?_⟩⟩
  · intro entry hentry
    simp only [Pipeline.hand, hresult] at hentry
    rcases List.mem_append.mp hentry with hold | hnew
    · exact h.taken entry hold
    · obtain rfl : entry = (frame, true) := by simpa using hnew
      rfl
  · simp [Pipeline.hand, hresult]
  · simp [Pipeline.hand, hresult]

/-- A step hands one frame over or leaves the decoder alone. -/
theorem handed_cases {s s' : Pipeline} {event : PipelineEvent} (hstep : PipelineStep s event s') :
    (s'.handed = s.handed ∧ s'.handler = s.handler) ∨
      ∃ t frame, s' = Pipeline.hand t frame ∧ t.handed = s.handed ∧ t.handler = s.handler := by
  cases hstep.move with
  | arrives frame hsending =>
      left
      unfold Pipeline.arrive
      split_ifs <;> exact ⟨rfl, rfl⟩
  | @receivedKey frame channel hworker hchannel =>
      exact Or.inr ⟨{ s with channel := channel, discardQueue := false }, frame, rfl, rfl, rfl⟩
  | @handed frame hworker hkept => exact Or.inr ⟨s, frame, rfl, rfl, rfl⟩
  | _ => exact Or.inl ⟨rfl, rfl⟩

/-- Frames of one stream with increasing ids. -/
structure OneStream (stream : ℕ) (frames : List VideoFrame) : Prop where
  stream_eq : ∀ frame ∈ frames, frame.streamId = stream
  ids : frames.Pairwise fun f g => f.frameId < g.frameId

theorem OneStream.sublist {stream : ℕ} {frames fewer : List VideoFrame}
    (h : OneStream stream frames) (hsub : fewer.Sublist frames) : OneStream stream fewer :=
  ⟨fun frame hframe => h.stream_eq frame (hsub.subset hframe), h.ids.sublist hsub⟩

theorem watermark_run {events : List PipelineEvent} {s : Pipeline}
    (run : Run PairedStep {} events s) {stream : ℕ} (hstream : OneStream stream (arrivals events)) :
    Watermark s := by
  have hinv : Paired events s ∧ (OneStream stream (arrivals events) → Watermark s) := by
    refine run.invariant
      (fun events s => Paired events s ∧ (OneStream stream (arrivals events) → Watermark s))
      ⟨paired_initial, fun _ => ⟨nofun, Or.inl ⟨rfl, rfl⟩⟩⟩ ?_
    rintro events s event s' ⟨hpaired, hwatermark⟩ hstep
    have hnext := paired_step hpaired hstep
    refine ⟨hnext, fun hone => ?_⟩
    have hbefore : Watermark s := by
      apply hwatermark
      rw [arrivals_concat] at hone
      exact hone.sublist (List.sublist_append_left _ _)
    have hhanded : OneStream stream (s'.handed.map Prod.fst) :=
      hone.sublist ((List.sublist_append_left _ _).trans hnext.ordered)
    rcases handed_cases hstep.1 with ⟨hsame, hhandler⟩ | ⟨t, frame, rfl, hsame, hhandler⟩
    · exact ⟨by rw [hsame]; exact hbefore.taken, by rw [hsame, hhandler]; exact hbefore.last⟩
    · have ht : Watermark t :=
        ⟨by rw [hsame]; exact hbefore.taken, by rw [hsame, hhandler]; exact hbefore.last⟩
      have hlist : (t.hand frame).handed.map Prod.fst = t.handed.map Prod.fst ++ [frame] := by
        simp [Pipeline.hand]
      rw [hlist] at hhanded
      exact ht.hand hhanded.stream_eq hhanded.ids
  exact hinv.2 hstream

/-- Where no evicted delta lets a token pass a keyframe, the frames of a stream
reach the decoder in the order of their arrival and none of them is refused. -/
theorem frames_inOrder {events : List PipelineEvent} {s : Pipeline}
    (run : Run PairedStep {} events s) {stream : ℕ} (hstream : OneStream stream (arrivals events)) :
    InOrder events s :=
  ⟨(List.sublist_append_left _ _).trans (paired_run run).ordered,
    (watermark_run run hstream).taken⟩

instance (s : Pipeline) : (event : PipelineEvent) → Decidable (KeepsPairing s event)
  | .arrives frame => inferInstanceAs (Decidable (frame.key = false →
      videoQueueSize ≤ s.videoQueue.length →
        List.Pairwise (fun entry later => entry = none → later = none)
          (if s.discardQueue then s.pending.dropWhile Option.isNone else s.pending)))
  | .tokenSent | .discardSet | .received | .popped | .decided => .isTrue trivial

/-- One step, where it can happen and keeps the tokens with their frames. -/
def Pipeline.pairedStep (s : Pipeline) (event : PipelineEvent) : Option Pipeline :=
  if KeepsPairing s event then s.step event else none

theorem pairedStep_of_eq_some {s s' : Pipeline} {event : PipelineEvent}
    (h : s.pairedStep event = some s') : PairedStep s event s' := by
  unfold Pipeline.pairedStep at h
  split_ifs at h with hkeeps
  exact ⟨h, hkeeps⟩

def delta (frameId : ℕ) : VideoFrame := ⟨1, frameId, false⟩

/-- One more delta arrives than the queue holds, and a keyframe after it; then the worker takes
everything. -/
def evictedEvents : List PipelineEvent :=
  (List.range videoQueueSize).flatMap (fun i => [.arrives (delta (i + 1)), .tokenSent]) ++
    [.arrives (delta 121), .arrives ⟨1, 122, true⟩] ++
    (List.range videoQueueSize).flatMap (fun _ => [.received, .popped, .decided]) ++
    [.received]

/-- `frames_inOrder` at a full queue: the oldest delta is lost, and the others come out in their
order, the keyframe last. -/
theorem frames_inOrder_evicted : ∃ s, Run PairedStep {} evictedEvents s ∧
    OneStream 1 (arrivals evictedEvents) ∧
    s.handed.length = videoQueueSize + 1 ∧ s.handed.getLast? = some (⟨1, 122, true⟩, true) ∧
    InOrder evictedEvents s := by
  have hruns : (evictedEvents.foldlM Pipeline.pairedStep {}).map (fun s =>
      (s.handed.length, s.handed.getLast?)) = some (121, some (⟨1, 122, true⟩, true)) := by
    decide +kernel
  obtain ⟨s, hs, hhanded⟩ := Option.map_eq_some_iff.mp hruns
  obtain ⟨hlength, hlast⟩ := Prod.mk.inj hhanded
  have hrun : Run PairedStep {} evictedEvents s :=
    (run_of_foldlM hs).mono fun _ _ _ => pairedStep_of_eq_some
  have hstream : OneStream 1 (arrivals evictedEvents) := ⟨by decide +kernel, by decide +kernel⟩
  exact ⟨s, hrun, hstream, hlength, hlast, frames_inOrder hrun hstream⟩

/-! ## A delta that passes a keyframe -/

/-- The delta queue fills, a keyframe and one more delta arrive, and the worker
takes everything. -/
def overflowEvents : List PipelineEvent :=
  (List.range videoQueueSize).flatMap (fun i => [.arrives (delta (i + 1)), .tokenSent]) ++
    [.arrives ⟨1, 121, true⟩, .arrives (delta 122)] ++
    (List.range videoQueueSize).flatMap (fun _ => [.received, .popped, .decided]) ++
    [.received]

/-- The last token hands over the delta that arrived after the keyframe, and the
keyframe behind it is refused. -/
theorem not_inOrder_overflow :
    ¬ ∀ (events : List PipelineEvent) (s : Pipeline), Run PipelineStep {} events s →
      ∀ stream, OneStream stream (arrivals events) → InOrder events s := by
  intro h
  have hlast : (overflowEvents.foldlM Pipeline.step {}).map (fun s => s.handed.getLast?) =
      some (some (⟨1, 121, true⟩, false)) := by
    decide +kernel
  obtain ⟨s, hs, hhanded⟩ := Option.map_eq_some_iff.mp hlast
  have hstream : OneStream 1 (arrivals overflowEvents) :=
    ⟨by decide +kernel, by decide +kernel⟩
  have horder := h overflowEvents s (run_of_foldlM hs) 1 hstream
  have hrefused := horder.2 _ (List.mem_of_getLast? hhanded)
  cases hrefused

end RustAdmin.Viewer
