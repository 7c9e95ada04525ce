import RustAdmin.Viewer.DecoderRecovery
import RustAdmin.Viewer.FrameOrder

/-!
# Fresh decoders

`VideoHandler` of `src/src/client.rs` gives the frames of a display to its decoder, which
it makes anew when the codec or the stream changes, when it is told to, and when decoding
fails.  A decoder that is fresh needs a keyframe before any delta.

`handleFrame_decoder` says what becomes of the decoder with one frame, and
`starts_handleFrame_iff` when that spoils it: a stamped delta is let through to a
decoder that is fresh.  A decoder that was made anew has been given nothing, so all
other steps keep a good start.  The first step that does not is where the run fails,
which gives the equivalence for runs.
-/

namespace RustAdmin.Viewer.FreshDecoder

open RustAdmin.Support

/-! ## Frames -/

inductive CodecFormat
  | vp8
  | vp9
  | av1
  | h264
  | h265
  | unknown
deriving DecidableEq, Repr

/-- The payload of a frame, with the keyframe flags of its encoded parts. -/
inductive FrameUnion
  | vp8s (frames : List Bool)
  | vp9s (frames : List Bool)
  | av1s (frames : List Bool)
  | h264s (frames : List Bool)
  | h265s (frames : List Bool)
  /-- Raw pixels. -/
  | raw
deriving DecidableEq, Repr

structure VideoFrame where
  streamId : ℕ
  frameId : ℕ
  union : Option FrameUnion
deriving DecidableEq, Repr

namespace VideoFrame

variable (vf : VideoFrame)

/-- `CodecFormat::from` -/
def format : CodecFormat :=
  match vf.union with
  | some (.vp8s _) => .vp8
  | some (.vp9s _) => .vp9
  | some (.av1s _) => .av1
  | some (.h264s _) => .h264
  | some (.h265s _) => .h265
  | _ => .unknown

/-- The frame has a keyframe among its parts. -/
def containsKeyframe : Bool :=
  match vf.union with
  | some (.vp8s frames) | some (.vp9s frames) | some (.av1s frames) | some (.h264s frames)
  | some (.h265s frames) => frames.any id
  | _ => false

/-- The keyframe of `video_frame_payload_stats`; H.264 and H.265 are looked into only where
the build has a codec for them. -/
def hasKeyframe (hwcodec : Bool) : Bool :=
  match vf.union with
  | some (.vp8s frames) | some (.vp9s frames) | some (.av1s frames) => frames.any id
  | some (.h264s frames) | some (.h265s frames) => hwcodec && frames.any id
  | _ => false

/-- No delta is taken for a keyframe. -/
theorem hasKeyframe_eq_false (hwcodec : Bool) (h : vf.containsKeyframe = false) :
    vf.hasKeyframe hwcodec = false := by
  unfold containsKeyframe at h
  unfold hasKeyframe
  split at h <;> simp_all

end VideoFrame

/-! ## The handler -/

/-- A frame that a decoder was given. -/
structure GivenFrame where
  stamped : Bool
  keyframe : Bool
deriving DecidableEq, Repr

/-- A decoder and the frames that it was given since it was made. -/
structure Decoder where
  format : CodecFormat
  given : List GivenFrame := []
deriving DecidableEq, Repr

inductive DecodeOutcome
  | frameReady
  | outputPending
  | inputBackpressure
  | needsKeyframe
  /-- An error. -/
  | failed
deriving DecidableEq, Repr

structure VideoHandler where
  decoder : Decoder
  recovery : DecoderRecovery := {}
  decoderFallback : ℕ := 0
  streamId : ℕ := 0
  lastFrameId : ℕ := 0
deriving DecidableEq, Repr

namespace VideoHandler

variable (handler : VideoHandler)

/-- `new_with_preference` -/
def new (format : CodecFormat) : VideoHandler := { decoder := ⟨format, []⟩ }

def reset (format : Option CodecFormat) : VideoHandler :=
  let format := format.getD handler.decoder.format
  let handler :=
    if format ≠ handler.decoder.format then { handler with recovery := {}, decoderFallback := 0 }
    else handler
  { handler with decoder := ⟨format, []⟩ }

def recoverDecoderIfDue (now : ℕ) : Option ℕ × VideoHandler :=
  let (requested, recovery) := handler.recovery.takeRefreshRequest
  let handler := { handler with recovery := recovery }
  if requested then (some 0, handler)
  else
    match handler.recovery.takeDue now with
    | (none, recovery) => (none, { handler with recovery := recovery })
    | (some attempt, recovery) =>
        let decoderFallback :=
          if 1 < attempt then saturatingAdd handler.decoderFallback 1 else handler.decoderFallback
        (some attempt, reset { handler with
          recovery := recovery
          decoderFallback := decoderFallback } none)

def streamChanged (vf : VideoFrame) : Bool :=
  decide (vf.streamId ≠ 0 ∧ handler.streamId ≠ 0 ∧ vf.streamId ≠ handler.streamId)

/-- The handler when it comes to `accepts_frame`. -/
def prepare (vf : VideoFrame) : VideoHandler :=
  let handler :=
    if vf.format ≠ handler.decoder.format ∨ handler.streamChanged vf then
      handler.reset (some vf.format)
    else handler
  { handler with streamId := vf.streamId, lastFrameId := vf.frameId }

/-- What the outcome of the decoder does to the recovery. -/
def settle (outcome : DecodeOutcome) (now : ℕ) : VideoHandler :=
  { handler with
    recovery := match outcome with
      | .frameReady => handler.recovery.succeeded
      | .needsKeyframe => handler.recovery.backendSwitched now
      | .outputPending | .inputBackpressure => handler.recovery.pending now
      | .failed => handler.recovery.failed now }

/-- `handle_frame`, with the outcome of the decoder if it is given the frame. -/
def handleFrame (hwcodec : Bool) (vf : VideoFrame) (outcome : DecodeOutcome) (now : ℕ) :
    DecodeOutcome × VideoHandler :=
  if !frameIsCurrent handler.streamId handler.lastFrameId vf.streamId vf.frameId then
    (.outputPending, handler)
  else
    let handler := handler.prepare vf
    let (accepted, recovery) :=
      handler.recovery.acceptsFrame (vf.frameId != 0) (vf.hasKeyframe hwcodec)
    let handler := { handler with recovery := recovery }
    if !accepted then (.outputPending, handler)
    else if vf.union.isSome then
      let given := handler.decoder.given ++ [⟨vf.frameId != 0, vf.containsKeyframe⟩]
      (outcome, settle { handler with decoder := { handler.decoder with given := given } }
        outcome now)
    else (.outputPending, handler)

end VideoHandler

/-! ## The worker -/

/-- What the worker receives; a token of the queue may find no frame there. -/
inductive MediaData
  | videoFrame (vf : VideoFrame) (outcome : DecodeOutcome) (now : ℕ)
  | emptyQueue
  | reset
  | recordScreen
deriving DecidableEq, Repr

/-- One turn of the worker's loop: it looks at the recovery, and receives something or
waits in vain. -/
structure Iteration where
  recoverAt : ℕ
  data : Option MediaData
deriving DecidableEq, Repr

/-- The handler after the look at the recovery. -/
def recovered (videoHandler : Option VideoHandler) (now : ℕ) : Option VideoHandler :=
  videoHandler.map fun handler => (handler.recoverDecoderIfDue now).2

def receive (hwcodec : Bool) (videoHandler : Option VideoHandler) :
    Option MediaData → Option VideoHandler
  | some (.videoFrame vf outcome now) =>
      some ((videoHandler.getD (.new vf.format)).handleFrame hwcodec vf outcome now).2
  | some .reset => videoHandler.map fun handler =>
      VideoHandler.reset { handler with decoderFallback := 0 } none
  | _ => videoHandler

def iterate (hwcodec : Bool) (videoHandler : Option VideoHandler) (i : Iteration) :
    Option VideoHandler :=
  receive hwcodec (recovered videoHandler i.recoverAt) i.data

def after (hwcodec : Bool) (iterations : List Iteration) : Option VideoHandler :=
  iterations.foldl (iterate hwcodec) none

theorem after_concat (hwcodec : Bool) (iterations : List Iteration) (i : Iteration) :
    after hwcodec (iterations ++ [i]) = iterate hwcodec (after hwcodec iterations) i := by
  simp [after]

/-! ## Starting at a keyframe -/

/-- The first stamped frame that a decoder was given contains a keyframe. -/
def StartsAtKeyframe (decoder : Decoder) : Prop :=
  ∀ frame, decoder.given.find? (·.stamped) = some frame → frame.keyframe = true

def HandlerStarts (videoHandler : Option VideoHandler) : Prop :=
  ∀ handler ∈ videoHandler, StartsAtKeyframe handler.decoder

/-- Every decoder starts at a keyframe. -/
def DecodersStart (hwcodec : Bool) : List Iteration → Prop :=
  Always fun before i => HandlerStarts (after hwcodec (before ++ [i]))

/-- A stamped delta comes, the decoder for it has had no stamped frame, and the recovery of
that decoder waits for no keyframe. -/
structure DeltaReaches (handler : VideoHandler) (vf : VideoFrame) : Prop where
  current : frameIsCurrent handler.streamId handler.lastFrameId vf.streamId vf.frameId = true
  stamped : vf.frameId ≠ 0
  payload : vf.union.isSome = true
  delta : vf.containsKeyframe = false
  fresh : vf.format ≠ handler.decoder.format ∨ handler.streamChanged vf = true ∨
    ∀ frame ∈ handler.decoder.given, frame.stamped = false
  unarmed : vf.format ≠ handler.decoder.format ∨
    handler.recovery.waitingForKeyframe = false ∧ handler.recovery.needsReset = false

/-- No delta reaches a fresh decoder. -/
def DeltasWait (hwcodec : Bool) : List Iteration → Prop :=
  Always fun before i => ∀ vf outcome now, i.data = some (.videoFrame vf outcome now) →
    ¬ DeltaReaches ((recovered (after hwcodec before) i.recoverAt).getD (.new vf.format)) vf

/-! ## One frame -/

/-- A decoder has had no stamped frame. -/
def Fresh (decoder : Decoder) : Prop := ∀ frame ∈ decoder.given, frame.stamped = false

theorem startsAtKeyframe_nil (format : CodecFormat) : StartsAtKeyframe ⟨format, []⟩ := nofun

/-- Only the first stamped frame of a decoder matters. -/
theorem startsAtKeyframe_append {decoder : Decoder} (h : StartsAtKeyframe decoder)
    (frame : GivenFrame) :
    StartsAtKeyframe { decoder with given := decoder.given ++ [frame] } ↔
      (Fresh decoder → frame.stamped = true → frame.keyframe = true) := by
  unfold StartsAtKeyframe
  dsimp only
  cases hfirst : decoder.given.find? (·.stamped) with
  | some first =>
      have hstarts := h first hfirst
      have hnot : ¬ Fresh decoder := by
        intro hfresh
        have hstamped := List.find?_some hfirst
        rw [hfresh first (List.mem_of_find?_eq_some hfirst)] at hstamped
        cases hstamped
      refine iff_of_true (fun other hother => ?_) (fun hfresh => absurd hfresh hnot)
      rw [List.find?_append, hfirst] at hother
      obtain rfl : first = other := Option.some.inj hother
      exact hstarts
  | none =>
      have hfresh : Fresh decoder := by
        intro other hother
        simpa using List.find?_eq_none.mp hfirst other hother
      rw [List.find?_append, hfirst, Option.none_or]
      cases hstamped : frame.stamped with
      | true => simp [hstamped, hfresh]
      | false => simp [hstamped]

section Frame

variable {handler : VideoHandler} {vf : VideoFrame}

theorem starts_recover (h : StartsAtKeyframe handler.decoder) (now : ℕ) :
    StartsAtKeyframe (handler.recoverDecoderIfDue now).2.decoder := by
  unfold VideoHandler.recoverDecoderIfDue
  dsimp only
  split
  · exact h
  · split
    · exact h
    · exact startsAtKeyframe_nil _

/-- The decoder of a handler is kept, or made anew. -/
theorem prepare_cases (handler : VideoHandler) (vf : VideoFrame) :
    (vf.format = handler.decoder.format ∧ handler.streamChanged vf = false ∧
      (handler.prepare vf).decoder = handler.decoder ∧
      (handler.prepare vf).recovery = handler.recovery) ∨
    (vf.format = handler.decoder.format ∧ handler.streamChanged vf = true ∧
      (handler.prepare vf).decoder = ⟨vf.format, []⟩ ∧
      (handler.prepare vf).recovery = handler.recovery) ∨
    (vf.format ≠ handler.decoder.format ∧ (handler.prepare vf).decoder = ⟨vf.format, []⟩ ∧
      (handler.prepare vf).recovery = {}) := by
  unfold VideoHandler.prepare VideoHandler.reset
  by_cases hformat : vf.format = handler.decoder.format
  · cases hchanged : handler.streamChanged vf with
    | false => simp [hformat]
    | true => simp [hformat]
  · simp [hformat]

theorem starts_prepare (h : StartsAtKeyframe handler.decoder) (vf : VideoFrame) :
    StartsAtKeyframe (handler.prepare vf).decoder := by
  rcases prepare_cases handler vf with ⟨-, -, heq, -⟩ | ⟨-, -, heq, -⟩ | ⟨-, heq, -⟩
  · exact heq ▸ h
  · exact heq ▸ startsAtKeyframe_nil _
  · exact heq ▸ startsAtKeyframe_nil _

theorem fresh_prepare_iff : Fresh (handler.prepare vf).decoder ↔
    vf.format ≠ handler.decoder.format ∨ handler.streamChanged vf = true ∨
      Fresh handler.decoder := by
  rcases prepare_cases handler vf with
    ⟨hformat, hsame, heq, -⟩ | ⟨-, hchanged, heq, -⟩ | ⟨hformat, heq, -⟩
  · rw [heq]
    simp [hformat, hsame]
  · rw [heq]
    simp [Fresh, hchanged]
  · rw [heq]
    simp [Fresh, hformat]

/-- A frame without a keyframe is accepted where nothing waits for one. -/
theorem accepts_prepare_iff (hwcodec : Bool) (hstamped : vf.frameId ≠ 0)
    (hdelta : vf.containsKeyframe = false) :
    ((handler.prepare vf).recovery.acceptsFrame (vf.frameId != 0) (vf.hasKeyframe hwcodec)).1 =
        true ↔
      vf.format ≠ handler.decoder.format ∨
        handler.recovery.waitingForKeyframe = false ∧ handler.recovery.needsReset = false := by
  have haccepts : ∀ r : DecoderRecovery,
      (r.acceptsFrame (vf.frameId != 0) (vf.hasKeyframe hwcodec)).1 = true ↔
        r.waitingForKeyframe = false ∧ r.needsReset = false := by
    intro r
    rw [vf.hasKeyframe_eq_false hwcodec hdelta]
    unfold DecoderRecovery.acceptsFrame
    cases r.needsReset <;> cases r.waitingForKeyframe <;> simp [hstamped]
  rw [haccepts]
  rcases prepare_cases handler vf with
    ⟨hformat, -, -, heq⟩ | ⟨hformat, -, -, heq⟩ | ⟨hformat, -, heq⟩
  · rw [heq]
    simp [hformat]
  · rw [heq]
    simp [hformat]
  · rw [heq]
    simp [hformat]

/-- What becomes of the decoder of a handler with a frame. -/
theorem handleFrame_decoder (handler : VideoHandler) (hwcodec : Bool) (vf : VideoFrame)
    (outcome : DecodeOutcome) (now : ℕ) :
    (handler.handleFrame hwcodec vf outcome now).2.decoder =
      if !frameIsCurrent handler.streamId handler.lastFrameId vf.streamId vf.frameId then
        handler.decoder
      else if ((handler.prepare vf).recovery.acceptsFrame (vf.frameId != 0)
          (vf.hasKeyframe hwcodec)).1 && vf.union.isSome then
        { (handler.prepare vf).decoder with
          given := (handler.prepare vf).decoder.given ++
            [⟨vf.frameId != 0, vf.containsKeyframe⟩] }
      else (handler.prepare vf).decoder := by
  unfold VideoHandler.handleFrame
  split
  · rfl
  · dsimp only
    cases ((handler.prepare vf).recovery.acceptsFrame (vf.frameId != 0)
      (vf.hasKeyframe hwcodec)).1 with
    | false => rfl
    | true => cases vf.union.isSome <;> rfl

/-- A decoder that has started well is spoilt exactly by a delta that reaches it fresh. -/
theorem starts_handleFrame_iff (h : StartsAtKeyframe handler.decoder) (hwcodec : Bool)
    (vf : VideoFrame) (outcome : DecodeOutcome) (now : ℕ) :
    StartsAtKeyframe (handler.handleFrame hwcodec vf outcome now).2.decoder ↔
      ¬ DeltaReaches handler vf := by
  rw [handleFrame_decoder]
  cases hcurrent : frameIsCurrent handler.streamId handler.lastFrameId vf.streamId vf.frameId with
  | false =>
      refine iff_of_true h fun hreaches => ?_
      rw [hreaches.current] at hcurrent
      cases hcurrent
  | true =>
      have hprepared := starts_prepare h vf
      rw [if_neg (by simp)]
      cases haccepted : ((handler.prepare vf).recovery.acceptsFrame (vf.frameId != 0)
          (vf.hasKeyframe hwcodec)).1 && vf.union.isSome with
      | false =>
          rw [if_neg Bool.false_ne_true]
          refine iff_of_true hprepared fun hreaches => ?_
          rw [hreaches.payload, Bool.and_true] at haccepted
          have haccepts := (accepts_prepare_iff hwcodec hreaches.stamped hreaches.delta).mpr
            hreaches.unarmed
          rw [haccepts] at haccepted
          cases haccepted
      | true =>
          obtain ⟨haccepts, hpayload⟩ := Bool.and_eq_true_iff.mp haccepted
          rw [if_pos rfl, startsAtKeyframe_append hprepared, fresh_prepare_iff]
          dsimp only
          constructor
          · intro hstarts hreaches
            have hkeyframe := hstarts hreaches.fresh (bne_iff_ne.mpr hreaches.stamped)
            rw [hreaches.delta] at hkeyframe
            cases hkeyframe
          · intro hnot hfresh hstamped
            have hstamped := bne_iff_ne.mp hstamped
            by_contra hdelta
            have hdelta : vf.containsKeyframe = false := by simpa using hdelta
            exact hnot ⟨hcurrent, hstamped, hpayload, hdelta, hfresh,
              (accepts_prepare_iff hwcodec hstamped hdelta).mp haccepts⟩

end Frame

/-! ## Every run -/

theorem handlerStarts_recovered {videoHandler : Option VideoHandler}
    (h : HandlerStarts videoHandler) (now : ℕ) : HandlerStarts (recovered videoHandler now) := by
  intro handler hmem
  obtain ⟨old, hold, rfl⟩ := Option.map_eq_some_iff.mp hmem
  exact starts_recover (h old hold) now

/-- The handler that a frame finds, or gets. -/
theorem starts_getD {videoHandler : Option VideoHandler} (h : HandlerStarts videoHandler)
    (format : CodecFormat) : StartsAtKeyframe (videoHandler.getD (.new format)).decoder := by
  cases videoHandler with
  | none => exact startsAtKeyframe_nil format
  | some handler => exact h handler rfl

theorem handlerStarts_iterate_iff {hwcodec : Bool} {videoHandler : Option VideoHandler}
    (h : HandlerStarts videoHandler) (i : Iteration) :
    HandlerStarts (iterate hwcodec videoHandler i) ↔
      ∀ vf outcome now, i.data = some (.videoFrame vf outcome now) →
        ¬ DeltaReaches ((recovered videoHandler i.recoverAt).getD (.new vf.format)) vf := by
  obtain ⟨recoverAt, data⟩ := i
  have hrecovered := handlerStarts_recovered h recoverAt
  unfold iterate
  dsimp only
  cases data with
  | none => exact iff_of_true hrecovered nofun
  | some data =>
      cases data with
      | emptyQueue => exact iff_of_true hrecovered nofun
      | recordScreen => exact iff_of_true hrecovered nofun
      | reset =>
          refine iff_of_true (fun handler hmem => ?_) nofun
          obtain ⟨old, -, rfl⟩ := Option.map_eq_some_iff.mp hmem
          exact startsAtKeyframe_nil _
      | videoFrame vf outcome now =>
          have hiff := starts_handleFrame_iff (starts_getD hrecovered vf.format) hwcodec vf outcome
            now
          constructor
          · intro hstarts other outcome' now' hdata
            obtain ⟨rfl, -, -⟩ := MediaData.videoFrame.inj (Option.some.inj hdata)
            exact hiff.mp (hstarts _ rfl)
          · intro hnot handler hmem
            obtain rfl := Option.some.inj hmem
            exact hiff.mpr (hnot vf outcome now rfl)

theorem DecodersStart.handlerStarts {hwcodec : Bool} {iterations : List Iteration}
    (h : DecodersStart hwcodec iterations) : HandlerStarts (after hwcodec iterations) := by
  induction iterations using List.reverseRecOn with
  | nil => exact nofun
  | append_singleton iterations i _ => exact (always_concat.mp h).2

/-- Every decoder starts at a keyframe exactly in the runs where no delta reaches a fresh one. -/
theorem decodersStart_iff_deltasWait (hwcodec : Bool) (iterations : List Iteration) :
    DecodersStart hwcodec iterations ↔ DeltasWait hwcodec iterations := by
  induction iterations using List.reverseRecOn with
  | nil => exact iff_of_true always_nil always_nil
  | append_singleton iterations i ih =>
      unfold DecodersStart DeltasWait at ih ⊢
      rw [always_concat, always_concat, after_concat]
      constructor
      · rintro ⟨hbefore, hstarts⟩
        have hhandler : HandlerStarts (after hwcodec iterations) :=
          DecodersStart.handlerStarts hbefore
        exact ⟨ih.mp hbefore, (handlerStarts_iterate_iff hhandler i).mp hstarts⟩
      · rintro ⟨hbefore, hwaits⟩
        have hbefore := ih.mpr hbefore
        have hhandler : HandlerStarts (after hwcodec iterations) :=
          DecodersStart.handlerStarts hbefore
        exact ⟨hbefore, (handlerStarts_iterate_iff hhandler i).mpr hwaits⟩

/-- A keyframe is decoded, the worker is told to reset its decoder, and the next delta
comes. -/
def resetBetween : List Iteration :=
  [⟨0, some (.videoFrame ⟨5, 1, some (.vp9s [true])⟩ .frameReady 0)⟩, ⟨1, some .reset⟩,
    ⟨2, some (.videoFrame ⟨5, 2, some (.vp9s [false])⟩ .failed 2)⟩]

/-- The new decoder is given the delta. -/
theorem resetBetween_not_start : ¬ DecodersStart true resetBetween := by
  intro h
  have hstarts := h.handlerStarts
  have hafter : (after true resetBetween).map VideoHandler.decoder =
      some ⟨.vp9, [⟨true, false⟩]⟩ := by decide
  obtain ⟨handler, hhandler, hdecoder⟩ := Option.map_eq_some_iff.mp hafter
  have hfirst := hstarts handler hhandler ⟨true, false⟩
  rw [hdecoder] at hfirst
  exact absurd (hfirst rfl) (by decide)

end RustAdmin.Viewer.FreshDecoder
