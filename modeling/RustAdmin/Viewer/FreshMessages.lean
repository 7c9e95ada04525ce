import RustAdmin.Viewer.FreshDecoder

/-!
# The messages that keep fresh decoders from deltas

Of the messages of a worker only the frames and the resets reach its handler, and it does not
choose what comes with them: how decoding ends, how long things take and when it wakes.  Here
the messages are held to all of that at once.

## Strategy

The messages fall into stretches.  A new one begins with the first frame, with a reset, with a
change of the codec or of the stream, and with every unstamped frame, which ends the wait of the
recovery.  The stretch is led once a stamped frame with a payload has come in it.

* **Enough.**  In a stretch that is led the decoder has had a stamped frame, or its recovery
  waits for a keyframe (`Guarded`): whatever makes the decoder anew within a stretch is the
  recovery, which arms the wait first.
* **Needed.**  `quiet` lets the messages come so that every frame is pending and time passes at
  the unstamped ones only, just enough for a retry.  In a stretch that is not led its decoder is
  fresh and waits for nothing (`Quiet`), so the first stamped frame must contain a keyframe.
-/

namespace RustAdmin.Viewer.FreshDecoder

open RustAdmin.Support RustAdmin.VideoDelivery

/-! ## Messages -/

/-- What reaches the handler. -/
inductive Message
  | frame (vf : VideoFrame)
  | reset
deriving DecidableEq, Repr

def Iteration.message (i : Iteration) : Option Message :=
  match i.data with
  | some (.videoFrame vf _ _) => some (.frame vf)
  | some .reset => some .reset
  | _ => none

/-- When the worker looks at the recovery, and when its decoder returns. -/
def Iteration.times (i : Iteration) : List ℕ :=
  match i.data with
  | some (.videoFrame _ _ now) => [i.recoverAt, now]
  | _ => [i.recoverAt]

/-- The clock of the worker does not go back. -/
def Clocked (iterations : List Iteration) : Prop :=
  (iterations.flatMap Iteration.times).Pairwise (· ≤ ·)

/-! ## Stretches -/

/-- The last current frame, and whether a stamped frame with a payload has come in the present
stretch. -/
structure Stretch where
  latest : Option VideoFrame := none
  led : Bool := false
deriving DecidableEq, Repr

namespace Stretch

variable (stretch : Stretch) (vf : VideoFrame)

def current : Bool :=
  match stretch.latest with
  | none => true
  | some latest => frameIsCurrent latest.streamId latest.frameId vf.streamId vf.frameId

/-- A current frame begins a new stretch. -/
def breaks : Bool :=
  match stretch.latest with
  | none => true
  | some latest => decide (vf.frameId = 0 ∨ vf.format ≠ latest.format ∨
      vf.streamId ≠ 0 ∧ latest.streamId ≠ 0 ∧ vf.streamId ≠ latest.streamId)

/-- A current frame is the first stamped one with a payload in its stretch. -/
def leads : Bool :=
  vf.frameId != 0 && vf.union.isSome && (stretch.breaks vf || !stretch.led)

def next : Message → Stretch
  | .frame vf =>
      if stretch.current vf then
        { latest := some vf
          led := (vf.frameId != 0 && vf.union.isSome) || (stretch.led && !stretch.breaks vf) }
      else stretch
  | .reset => { stretch with led := false }

end Stretch

def stretch (messages : List Message) : Stretch := messages.foldl Stretch.next {}

theorem stretch_concat (messages : List Message) (m : Message) :
    stretch (messages ++ [m]) = (stretch messages).next m := by
  simp [stretch]

/-- The first stamped frame with a payload in every stretch contains a keyframe. -/
def KeyframesLead : List Message → Prop :=
  Always fun before m => ∀ vf, m = .frame vf → (stretch before).current vf = true →
    (stretch before).leads vf = true → vf.containsKeyframe = true

/-- The stretch that the messages of the iterations leave. -/
def reached (iterations : List Iteration) : Stretch :=
  stretch (iterations.filterMap Iteration.message)

theorem reached_concat (iterations : List Iteration) (i : Iteration) :
    reached (iterations ++ [i]) =
      i.message.elim (reached iterations) (reached iterations).next := by
  unfold reached
  rw [List.filterMap_append]
  cases hmessage : i.message with
  | none => simp [hmessage]
  | some m => simp [hmessage, stretch_concat]

/-! ## One turn of the worker -/

section Turn

variable {handler : VideoHandler} {vf : VideoFrame}

@[simp] theorem reset_none (handler : VideoHandler) :
    handler.reset none = { handler with decoder := ⟨handler.decoder.format, []⟩ } := by
  simp [VideoHandler.reset]

/-- The recovery when a retry is handed out. -/
def retried (r : DecoderRecovery) (now : ℕ) : DecoderRecovery :=
  { r with
    attempt := saturatingAdd r.attempt 1
    nextRetry := some (now + retryDelay (saturatingAdd r.attempt 1))
    waitingForKeyframe := true
    needsReset := false }

/-- The look at the recovery hands out a retry and makes the decoder anew, or at most takes a
request for a keyframe. -/
theorem recover_cases (handler : VideoHandler) (now : ℕ) :
    ((handler.recovery.refreshRequested = true ∨
        ∀ next ∈ handler.recovery.nextRetry, now < next) ∧
      (handler.recoverDecoderIfDue now).2 =
        { handler with recovery := handler.recovery.takeRefreshRequest.2 }) ∨
      (∃ next decoderFallback, handler.recovery.nextRetry = some next ∧ next ≤ now ∧
        (handler.recoverDecoderIfDue now).2 = { handler with
          decoder := ⟨handler.decoder.format, []⟩
          recovery := retried handler.recovery.takeRefreshRequest.2 now
          decoderFallback := decoderFallback }) := by
  unfold VideoHandler.recoverDecoderIfDue DecoderRecovery.takeRefreshRequest DecoderRecovery.takeDue
  dsimp only
  cases handler.recovery.refreshRequested with
  | true => exact .inl ⟨.inl rfl, rfl⟩
  | false =>
      rw [if_neg Bool.false_ne_true]
      cases hnext : handler.recovery.nextRetry with
      | none => exact .inl ⟨.inr nofun, rfl⟩
      | some next =>
          dsimp only
          by_cases hlt : now < next
          · rw [if_pos hlt]
            refine .inl ⟨.inr fun other hother => ?_, rfl⟩
            obtain rfl := Option.some.inj hother
            exact hlt
          · rw [if_neg hlt]
            exact .inr ⟨next, _, rfl, not_lt.mp hlt, reset_none _⟩

/-- A retry that is not yet due is not handed out. -/
theorem recover_of_lt {now : ℕ} (h : ∀ next ∈ handler.recovery.nextRetry, now < next) :
    (handler.recoverDecoderIfDue now).2 =
      { handler with recovery := handler.recovery.takeRefreshRequest.2 } := by
  rcases recover_cases handler now with ⟨-, heq⟩ | ⟨next, -, hnext, hle, -⟩
  · exact heq
  · exact absurd hle (not_le.mpr (h next hnext))

/-- A pending frame sets the timer where none is set. -/
theorem pending_eq (r : DecoderRecovery) (now : ℕ) :
    r.pending now = { r with nextRetry := some (r.nextRetry.getD (now + outputStallTimeout)) } := by
  obtain ⟨nextRetry, attempt, waiting, reset, requested⟩ := r
  cases nextRetry <;> rfl

/-- The frame is held back: the decoder is to be reset, or waits for a keyframe. -/
def heldBack (r : DecoderRecovery) (hwcodec : Bool) (vf : VideoFrame) : Bool :=
  r.needsReset || (r.waitingForKeyframe && (vf.frameId != 0) && !vf.hasKeyframe hwcodec)

/-- The handler once it has accepted the frame for the decoder. -/
def accept (handler : VideoHandler) (vf : VideoFrame) : VideoHandler :=
  { handler.prepare vf with
    recovery := { (handler.prepare vf).recovery with waitingForKeyframe := false } }

/-- The handler once its decoder was given the frame. -/
def give (handler : VideoHandler) (vf : VideoFrame) : VideoHandler :=
  { accept handler vf with
    decoder := { (handler.prepare vf).decoder with
      given := (handler.prepare vf).decoder.given ++ [⟨vf.frameId != 0, vf.containsKeyframe⟩] } }

/-- The handler after a current frame. -/
def take (handler : VideoHandler) (hwcodec : Bool) (vf : VideoFrame) (outcome : DecodeOutcome)
    (now : ℕ) : VideoHandler :=
  if heldBack (handler.prepare vf).recovery hwcodec vf then handler.prepare vf
  else if vf.union.isSome then (give handler vf).settle outcome now
  else accept handler vf

theorem handleFrame_snd (handler : VideoHandler) (hwcodec : Bool) (vf : VideoFrame)
    (outcome : DecodeOutcome) (now : ℕ) :
    (handler.handleFrame hwcodec vf outcome now).2 =
      if frameIsCurrent handler.streamId handler.lastFrameId vf.streamId vf.frameId then
        take handler hwcodec vf outcome now
      else handler := by
  unfold VideoHandler.handleFrame
  cases frameIsCurrent handler.streamId handler.lastFrameId vf.streamId vf.frameId with
  | false => rfl
  | true =>
      unfold take DecoderRecovery.acceptsFrame heldBack
      dsimp only
      rw [if_neg (by decide), if_pos rfl]
      cases (handler.prepare vf).recovery.needsReset ||
        ((handler.prepare vf).recovery.waitingForKeyframe && (vf.frameId != 0) &&
          !vf.hasKeyframe hwcodec) with
      | true => rfl
      | false => cases vf.union.isSome <;> rfl

end Turn

/-! ## The handler and the latest frame -/

/-- The handler knows the last current frame. -/
structure Knows (handler : VideoHandler) (latest : VideoFrame) : Prop where
  stream : handler.streamId = latest.streamId
  frame : handler.lastFrameId = latest.frameId
  format : handler.decoder.format = latest.format

/-- There is a handler once a frame has come. -/
def Follows : Option VideoHandler → Option VideoFrame → Prop
  | none, none => True
  | some handler, some latest => Knows handler latest
  | _, _ => False

section Knows

variable {handler : VideoHandler} {latest vf : VideoFrame} {videoHandler : Option VideoHandler}
  {s : Stretch}

theorem Knows.recover (h : Knows handler latest) (now : ℕ) :
    Knows (handler.recoverDecoderIfDue now).2 latest := by
  rcases recover_cases handler now with ⟨-, heq⟩ | ⟨_, _, -, -, heq⟩
  · rw [heq]
    exact ⟨h.stream, h.frame, h.format⟩
  · rw [heq]
    exact ⟨h.stream, h.frame, h.format⟩

theorem knows_prepare (handler : VideoHandler) (vf : VideoFrame) :
    Knows (handler.prepare vf) vf := by
  refine ⟨rfl, rfl, ?_⟩
  rcases prepare_cases handler vf with ⟨hformat, -, heq, -⟩ | ⟨-, -, heq, -⟩ | ⟨-, heq, -⟩
  · rw [heq, hformat]
  · rw [heq]
  · rw [heq]

theorem Follows.look (h : Follows videoHandler s.latest) (now : ℕ) :
    Follows (recovered videoHandler now) s.latest := by
  cases videoHandler with
  | none => exact h
  | some handler =>
      cases hlatest : s.latest with
      | none =>
          rw [hlatest] at h
          exact h
      | some latest =>
          rw [hlatest] at h
          exact Knows.recover h now

/-- The handler takes exactly the frames that are current after the messages. -/
theorem Follows.current_eq (h : Follows videoHandler s.latest) (vf : VideoFrame) :
    let handler := videoHandler.getD (.new vf.format)
    frameIsCurrent handler.streamId handler.lastFrameId vf.streamId vf.frameId = s.current vf := by
  unfold Stretch.current
  cases hlatest : s.latest with
  | none =>
      rw [hlatest] at h
      cases videoHandler with
      | some => exact h.elim
      | none => exact frameIsCurrent_first _ _
  | some latest =>
      rw [hlatest] at h
      cases videoHandler with
      | none => exact h.elim
      | some handler =>
          dsimp only [Option.getD_some]
          rw [h.stream, h.frame]

/-- A frame that breaks nothing is for the decoder that is there. -/
theorem Follows.same (h : Follows videoHandler s.latest) (hbreaks : s.breaks vf = false) :
    ∃ handler, videoHandler = some handler ∧ vf.frameId ≠ 0 ∧
      vf.format = handler.decoder.format ∧ handler.streamChanged vf = false := by
  unfold Stretch.breaks at hbreaks
  cases hlatest : s.latest with
  | none =>
      rw [hlatest] at hbreaks
      cases hbreaks
  | some latest =>
      rw [hlatest] at h hbreaks
      cases videoHandler with
      | none => exact h.elim
      | some handler =>
          have hnot := of_decide_eq_false hbreaks
          push Not at hnot
          obtain ⟨hstamped, hformat, hstream⟩ := hnot
          refine ⟨handler, rfl, hstamped, hformat.trans h.format.symm, ?_⟩
          refine decide_eq_false fun hchanged => ?_
          rw [h.stream] at hchanged
          exact hchanged.2.2 (hstream hchanged.1 hchanged.2.1)

/-- A stamped frame that breaks something gets a fresh decoder. -/
theorem Follows.renewed (h : Follows videoHandler s.latest) (hstamped : vf.frameId ≠ 0)
    (hbreaks : s.breaks vf = true) :
    let handler := videoHandler.getD (.new vf.format)
    vf.format ≠ handler.decoder.format ∨ handler.streamChanged vf = true ∨
      Fresh handler.decoder := by
  unfold Stretch.breaks at hbreaks
  cases hlatest : s.latest with
  | none =>
      rw [hlatest] at h
      cases videoHandler with
      | some => exact h.elim
      | none => exact .inr (.inr nofun)
  | some latest =>
      rw [hlatest] at h hbreaks
      cases videoHandler with
      | none => exact h.elim
      | some handler =>
          rcases of_decide_eq_true hbreaks with hzero | hformat | hstream
          · exact absurd hzero hstamped
          · exact .inl (h.format ▸ hformat)
          · refine .inr (.inl (decide_eq_true ?_))
            dsimp only [Option.getD_some]
            rw [h.stream]
            exact hstream

theorem knows_take (handler : VideoHandler) (hwcodec : Bool) (vf : VideoFrame)
    (outcome : DecodeOutcome) (now : ℕ) : Knows (take handler hwcodec vf outcome now) vf := by
  have hknows := knows_prepare handler vf
  unfold take
  split
  · exact hknows
  · split
    · exact ⟨hknows.stream, hknows.frame, hknows.format⟩
    · exact ⟨hknows.stream, hknows.frame, hknows.format⟩

/-- A frame is taken, or it is not current and changes nothing. -/
theorem Follows.frame_cases (h : Follows videoHandler s.latest) (hwcodec : Bool)
    (vf : VideoFrame) (outcome : DecodeOutcome) (now : ℕ) :
    (s.current vf = true ∧ receive hwcodec videoHandler (some (.videoFrame vf outcome now)) =
        some (take (videoHandler.getD (.new vf.format)) hwcodec vf outcome now)) ∨
      (s.current vf = false ∧
        receive hwcodec videoHandler (some (.videoFrame vf outcome now)) = videoHandler) := by
  unfold receive
  dsimp only
  rw [handleFrame_snd, h.current_eq vf]
  cases hcurrent : s.current vf with
  | true => exact .inl ⟨rfl, rfl⟩
  | false =>
      refine .inr ⟨rfl, ?_⟩
      unfold Stretch.current at hcurrent
      cases hlatest : s.latest with
      | none =>
          rw [hlatest] at hcurrent
          cases hcurrent
      | some latest =>
          rw [hlatest] at h
          cases videoHandler with
          | none => exact h.elim
          | some handler => rfl

theorem Follows.taken (h : Follows videoHandler s.latest) (hcurrent : s.current vf = true)
    (hwcodec : Bool) (outcome : DecodeOutcome) (now : ℕ) :
    receive hwcodec videoHandler (some (.videoFrame vf outcome now)) =
      some (take (videoHandler.getD (.new vf.format)) hwcodec vf outcome now) := by
  rcases h.frame_cases hwcodec vf outcome now with ⟨-, heq⟩ | ⟨hother, -⟩
  · exact heq
  · cases hcurrent.symm.trans hother

/-- The handler keeps to the messages. -/
theorem Follows.turn (h : Follows videoHandler s.latest) (hwcodec : Bool) (i : Iteration) :
    Follows (iterate hwcodec videoHandler i) (i.message.elim s s.next).latest := by
  obtain ⟨recoverAt, data⟩ := i
  have hlook := h.look recoverAt
  unfold iterate
  rcases data with - | ⟨vf, outcome, now⟩ | - | - | -
  · exact hlook
  · show Follows (receive _ _ _) (s.next (.frame vf)).latest
    dsimp only [Stretch.next]
    rcases hlook.frame_cases hwcodec vf outcome now with ⟨hcurrent, heq⟩ | ⟨hcurrent, heq⟩
    · rw [heq, if_pos hcurrent]
      exact knows_take _ hwcodec vf outcome now
    · rw [heq, if_neg (by simp [hcurrent])]
      exact hlook
  · exact hlook
  · show Follows ((recovered videoHandler recoverAt).map _) s.latest
    revert hlook
    cases recovered videoHandler recoverAt with
    | none => exact id
    | some handler =>
        cases s.latest with
        | none => exact id
        | some latest =>
            intro hknows
            show Knows (VideoHandler.reset _ none) latest
            rw [reset_none]
            exact ⟨hknows.stream, hknows.frame, hknows.format⟩
  · exact hlook

/-- Every run keeps to its messages. -/
theorem follows_after (hwcodec : Bool) (iterations : List Iteration) :
    Follows (after hwcodec iterations) (reached iterations).latest := by
  induction iterations using List.reverseRecOn with
  | nil => trivial
  | append_singleton iterations i ih =>
      rw [after_concat, reached_concat]
      exact ih.turn hwcodec i

end Knows

/-! ## Enough -/

/-- The decoder of a stretch that is led has had a stamped frame, or its recovery waits. -/
def Guarded (s : Stretch) (videoHandler : Option VideoHandler) : Prop :=
  s.led = true → ∀ handler ∈ videoHandler, ¬ Fresh handler.decoder ∨
    handler.recovery.waitingForKeyframe = true ∨ handler.recovery.needsReset = true

section Guarded

variable {videoHandler : Option VideoHandler} {s : Stretch}

/-- In a stretch that is led, a decoder whose recovery does not wait is not fresh. -/
theorem Guarded.not_fresh {handler : VideoHandler} (h : Guarded s (some handler))
    (hled : s.led = true) (hwaits : handler.recovery.waitingForKeyframe = false)
    (hreset : handler.recovery.needsReset = false) : ¬ Fresh handler.decoder := by
  rcases h hled handler rfl with hfresh | harmed | harmed
  · exact hfresh
  · cases hwaits.symm.trans harmed
  · cases hreset.symm.trans harmed

/-- The recovery arms the wait before it makes the decoder anew. -/
theorem Guarded.look (h : Guarded s videoHandler) (now : ℕ) :
    Guarded s (recovered videoHandler now) := by
  intro hled handler hmem
  obtain ⟨old, hold, rfl⟩ := Option.map_eq_some_iff.mp hmem
  rcases recover_cases old now with ⟨-, heq⟩ | ⟨_, _, -, -, heq⟩
  · rw [heq]
    exact h hled old hold
  · rw [heq]
    exact .inr (.inl rfl)

/-- A frame that was held back has found the wait armed. -/
theorem armed_of_heldBack {r : DecoderRecovery} {hwcodec : Bool} {vf : VideoFrame}
    (h : heldBack r hwcodec vf = true) : r.waitingForKeyframe = true ∨ r.needsReset = true := by
  unfold heldBack at h
  rcases Bool.or_eq_true_iff.mp h with hreset | hwaits
  · exact .inr hreset
  · simp only [Bool.and_eq_true] at hwaits
    exact .inl hwaits.1.1

theorem not_fresh_settle {handler : VideoHandler} {vf : VideoFrame} (hstamped : vf.frameId ≠ 0)
    (outcome : DecodeOutcome) (now : ℕ) :
    ¬ Fresh ((give handler vf).settle outcome now).decoder := by
  intro hfresh
  have hlast := hfresh ⟨vf.frameId != 0, vf.containsKeyframe⟩ (List.mem_append_right _ (by simp))
  exact hstamped (by simpa using hlast)

/-- A frame for the decoder that is there leaves the handler alone. -/
theorem prepare_same {handler : VideoHandler} {vf : VideoFrame}
    (hformat : vf.format = handler.decoder.format) (hstream : handler.streamChanged vf = false) :
    (handler.prepare vf).decoder = handler.decoder ∧
      (handler.prepare vf).recovery = handler.recovery := by
  rcases prepare_cases handler vf with ⟨-, -, heq⟩ | ⟨-, hother, -⟩ | ⟨hother, -⟩
  · exact heq
  · exact absurd (hstream.symm.trans hother) Bool.false_ne_true
  · exact absurd hformat hother

/-- A stamped frame without a payload contains no keyframe, so it passes only where nothing
waits. -/
theorem unarmed_of_empty {r : DecoderRecovery} {hwcodec : Bool} {vf : VideoFrame}
    (hstamped : vf.frameId ≠ 0) (hpayload : vf.union.isSome = false)
    (h : heldBack r hwcodec vf = false) :
    r.waitingForKeyframe = false ∧ r.needsReset = false := by
  have hkeyframe : vf.hasKeyframe hwcodec = false := by
    rw [VideoFrame.hasKeyframe, show vf.union = none by simpa using hpayload]
  unfold heldBack at h
  rw [hkeyframe, bne_iff_ne.mpr hstamped] at h
  simpa [and_comm] using h

/-- A current frame leaves the decoder of a stretch that is led guarded. -/
theorem Guarded.take (h : Guarded s videoHandler) (hfollows : Follows videoHandler s.latest)
    {vf : VideoFrame} (hcurrent : s.current vf = true) (hwcodec : Bool) (outcome : DecodeOutcome)
    (now : ℕ) :
    Guarded (s.next (.frame vf))
      (some (take (videoHandler.getD (.new vf.format)) hwcodec vf outcome now)) := by
  intro hled handler hmem
  obtain rfl := Option.some.inj hmem
  dsimp only [Stretch.next] at hled
  rw [if_pos hcurrent] at hled
  unfold FreshDecoder.take
  cases hheld : heldBack ((videoHandler.getD (.new vf.format)).prepare vf).recovery hwcodec vf with
  | true =>
      rw [if_pos rfl]
      exact .inr (armed_of_heldBack hheld)
  | false =>
      rw [if_neg Bool.false_ne_true]
      rcases Bool.or_eq_true_iff.mp hled with hfirst | hsame
      · obtain ⟨hstamped, hpayload⟩ := Bool.and_eq_true_iff.mp hfirst
        rw [if_pos hpayload]
        exact .inl (not_fresh_settle (by simpa using hstamped) outcome now)
      · obtain ⟨hled, hbreaks⟩ := Bool.and_eq_true_iff.mp hsame
        obtain ⟨handler, rfl, hstamped, hformat, hstream⟩ := hfollows.same (by simpa using hbreaks)
        cases hpayload : vf.union.isSome with
        | true =>
            rw [if_pos rfl]
            exact .inl (not_fresh_settle hstamped outcome now)
        | false =>
            -- a stamped frame without a payload passes only where nothing waits
            rw [if_neg Bool.false_ne_true]
            obtain ⟨hdecoder, hrecovery⟩ := prepare_same hformat hstream
            obtain ⟨hwaits, hreset⟩ := unarmed_of_empty hstamped hpayload hheld
            dsimp only [Option.getD_some] at hwaits hreset
            rw [hrecovery] at hwaits hreset
            refine .inl ?_
            show ¬ Fresh (handler.prepare vf).decoder
            rw [hdecoder]
            exact h.not_fresh hled hwaits hreset

theorem Guarded.turn (h : Guarded s videoHandler) (hfollows : Follows videoHandler s.latest)
    (hwcodec : Bool) (i : Iteration) :
    Guarded (i.message.elim s s.next) (iterate hwcodec videoHandler i) := by
  obtain ⟨recoverAt, data⟩ := i
  have hguarded := h.look recoverAt
  have hlook := hfollows.look recoverAt
  unfold iterate
  rcases data with - | ⟨vf, outcome, now⟩ | - | - | -
  · exact hguarded
  · show Guarded (s.next (.frame vf)) (receive _ _ _)
    rcases hlook.frame_cases hwcodec vf outcome now with ⟨hcurrent, heq⟩ | ⟨hcurrent, heq⟩
    · rw [heq]
      exact hguarded.take hlook hcurrent hwcodec outcome now
    · rw [heq, Stretch.next, if_neg (by simp [hcurrent])]
      exact hguarded
  · exact hguarded
  · exact nofun
  · exact hguarded

theorem guarded_after (hwcodec : Bool) (iterations : List Iteration) :
    Guarded (reached iterations) (after hwcodec iterations) := by
  induction iterations using List.reverseRecOn with
  | nil => exact nofun
  | append_singleton iterations i ih =>
      rw [after_concat, reached_concat]
      exact ih.turn (follows_after hwcodec iterations) hwcodec i

/-- A delta that reaches a fresh decoder is the first stamped frame of its stretch. -/
theorem leads_of_reaches (h : Guarded s videoHandler) (hfollows : Follows videoHandler s.latest)
    {vf : VideoFrame} (hreaches : DeltaReaches (videoHandler.getD (.new vf.format)) vf) :
    s.current vf = true ∧ s.leads vf = true := by
  refine ⟨hfollows.current_eq vf ▸ hreaches.current, ?_⟩
  unfold Stretch.leads
  rw [hreaches.payload, bne_iff_ne.mpr hreaches.stamped]
  cases hbreaks : s.breaks vf with
  | true => rfl
  | false =>
      cases hled : s.led with
      | false => rfl
      | true =>
          exfalso
          obtain ⟨handler, rfl, -, hformat, hstream⟩ := hfollows.same hbreaks
          have hfresh : Fresh handler.decoder := by
            rcases hreaches.fresh with hother | hother | hfresh
            · exact absurd hformat hother
            · exact absurd (hstream.symm.trans hother) Bool.false_ne_true
            · exact hfresh
          obtain ⟨hwaits, hreset⟩ := hreaches.unarmed.resolve_left (fun hother => hother hformat)
          dsimp only [Option.getD_some] at hwaits hreset
          exact h.not_fresh hled hwaits hreset hfresh

/-- **Enough**: where keyframes lead, no delta reaches a fresh decoder. -/
theorem deltasWait_of_keyframesLead (hwcodec : Bool) {iterations : List Iteration}
    (h : KeyframesLead (iterations.filterMap Iteration.message)) :
    DeltasWait hwcodec iterations := by
  induction iterations using List.reverseRecOn with
  | nil => exact always_nil
  | append_singleton iterations i ih =>
      rw [List.filterMap_append] at h
      refine always_concat.mpr ⟨ih ?_, ?_⟩
      · cases hmessage : i.message with
        | none => simpa [hmessage] using h
        | some m =>
            rw [List.filterMap_cons_some hmessage, List.filterMap_nil] at h
            exact (always_concat.mp h).1
      · intro vf outcome now hdata hreaches
        have hmessage : i.message = some (.frame vf) := by
          rw [Iteration.message, hdata]
        obtain ⟨hcurrent, hleads⟩ := leads_of_reaches
          ((guarded_after hwcodec iterations).look i.recoverAt)
          ((follows_after hwcodec iterations).look i.recoverAt) hreaches
        rw [List.filterMap_cons_some hmessage, List.filterMap_nil] at h
        have hkeyframe := (always_concat.mp h).2 vf rfl hcurrent hleads
        exact absurd (hreaches.delta.symm.trans hkeyframe) Bool.false_ne_true

end Guarded

/-! ## Needed -/

/-- What comes at the time `now`: a frame, of which the decoder makes nothing yet, or a reset. -/
def Message.data (now : ℕ) : Message → MediaData
  | .frame vf => .videoFrame vf .outputPending now
  | .reset => .reset

/-- The time before a message: an unstamped frame comes when a retry is due. -/
def Stretch.wait (s : Stretch) : Message → ℕ
  | .frame vf => if s.current vf && vf.frameId == 0 then secs 10 else 0
  | .reset => 0

/-- The messages, with the times from `start` and the stretch `s` on. -/
def quietFrom (start : ℕ) (s : Stretch) : List Message → List Iteration
  | [] => []
  | m :: messages =>
      ⟨start + s.wait m, some (m.data (start + s.wait m))⟩ ::
        quietFrom (start + s.wait m) (s.next m) messages

def quiet (messages : List Message) : List Iteration := quietFrom 0 {} messages

/-- The time when the messages have come. -/
def clockFrom (start : ℕ) (s : Stretch) : List Message → ℕ
  | [] => start
  | m :: messages => clockFrom (start + s.wait m) (s.next m) messages

def clock (messages : List Message) : ℕ := clockFrom 0 {} messages

theorem quietFrom_concat (start : ℕ) (s : Stretch) (messages : List Message) (m : Message) :
    quietFrom start s (messages ++ [m]) = quietFrom start s messages ++
      [⟨clockFrom start s (messages ++ [m]),
        some (m.data (clockFrom start s (messages ++ [m])))⟩] := by
  induction messages generalizing start s with
  | nil => rfl
  | cons first messages ih => simp [quietFrom, clockFrom, ih]

theorem clockFrom_concat (start : ℕ) (s : Stretch) (messages : List Message) (m : Message) :
    clockFrom start s (messages ++ [m]) =
      clockFrom start s messages + (messages.foldl Stretch.next s).wait m := by
  induction messages generalizing start s with
  | nil => rfl
  | cons first messages ih => exact ih _ _

theorem message_data (now later : ℕ) (m : Message) :
    Iteration.message ⟨now, some (m.data later)⟩ = some m := by
  cases m <;> rfl

theorem filterMap_quietFrom (start : ℕ) (s : Stretch) (messages : List Message) :
    (quietFrom start s messages).filterMap Iteration.message = messages := by
  induction messages generalizing start s with
  | nil => rfl
  | cons m messages ih => rw [quietFrom, List.filterMap_cons_some (message_data _ _ m), ih]

/-- The times are in order, and none is before the start. -/
theorem clocked_quietFrom (start : ℕ) (s : Stretch) (messages : List Message) :
    Clocked (quietFrom start s messages) ∧
      ∀ time ∈ (quietFrom start s messages).flatMap Iteration.times, start ≤ time := by
  induction messages generalizing start s with
  | nil => exact ⟨List.Pairwise.nil, nofun⟩
  | cons m messages ih =>
      obtain ⟨hclocked, hlater⟩ := ih (start + s.wait m) (s.next m)
      have htimes : ∀ time ∈ Iteration.times
          ⟨start + s.wait m, some (m.data (start + s.wait m))⟩, time = start + s.wait m := by
        cases m <;> simp [Iteration.times, Message.data]
      have hfirst : (Iteration.times
          ⟨start + s.wait m, some (m.data (start + s.wait m))⟩).Pairwise (· ≤ ·) := by
        cases m <;> simp [Iteration.times, Message.data]
      constructor
      · refine List.pairwise_append.mpr ⟨hfirst, hclocked, fun time htime other hother => ?_⟩
        exact (htimes time htime).trans_le (hlater other hother)
      · intro time hmem
        rcases List.mem_append.mp hmem with htime | htime
        · rw [htimes time htime]
          exact Nat.le_add_right start _
        · exact (Nat.le_add_right start _).trans (hlater time htime)

/-- A handler that is not to be reset and has asked for nothing; its next retry is at most five
seconds away, and set once its decoder was given a frame. -/
structure Calm (now : ℕ) (handler : VideoHandler) : Prop where
  reset : handler.recovery.needsReset = false
  requested : handler.recovery.refreshRequested = false
  timer : ∀ next ∈ handler.recovery.nextRetry, now < next ∧ next ≤ now + secs 5
  given : handler.recovery.nextRetry = none → handler.decoder.given = []

/-- A calm handler that does not wait for a keyframe. -/
structure Quiet (now : ℕ) (handler : VideoHandler) : Prop extends Calm now handler where
  waits : handler.recovery.waitingForKeyframe = false

section Quiet

variable {handler : VideoHandler} {vf : VideoFrame} {now : ℕ}

theorem quiet_new (now : ℕ) (format : CodecFormat) : Quiet now (.new format) :=
  ⟨⟨rfl, rfl, nofun, fun _ => rfl⟩, rfl⟩

/-- Before the retry is due the look at the recovery changes nothing. -/
theorem Calm.look (h : Calm now handler) : (handler.recoverDecoderIfDue now).2 = handler := by
  rw [recover_of_lt fun next hnext => (h.timer next hnext).1]
  have hsame : handler.recovery.takeRefreshRequest.2 = handler.recovery := by
    rw [DecoderRecovery.takeRefreshRequest, ← h.requested]
  rw [hsame]

/-- A retry sets the next one at most five seconds later. -/
theorem retryDelay_bounds (attempt : ℕ) : 0 < retryDelay attempt ∧ retryDelay attempt ≤ secs 5 := by
  refine ⟨?_, doublingDelay_le _ _ _⟩
  have hpow : 0 < 2 ^ min (attempt - 1) 4 := Nat.two_pow_pos _
  unfold retryDelay doublingDelay
  exact lt_min (Nat.mul_pos (by decide) hpow) (by decide)

/-- Ten seconds later the retry is due, and the decoder is made anew. -/
theorem Calm.lookLater (h : Calm now handler) :
    let looked := (handler.recoverDecoderIfDue (now + secs 10)).2
    Calm (now + secs 10) looked ∧ looked.decoder.given = [] := by
  dsimp only
  rcases recover_cases handler (now + secs 10) with ⟨hwhy, heq⟩ | ⟨next, _, -, -, heq⟩
  · -- nothing was due, as there was no timer: so the decoder had nothing
    have hnone : handler.recovery.nextRetry = none := by
      by_contra hsome
      obtain ⟨next, hnext⟩ := Option.ne_none_iff_exists'.mp hsome
      have hle := (h.timer next hnext).2
      have hfive : secs 5 ≤ secs 10 := by decide
      rcases hwhy with hrequested | hlt
      · exact absurd (h.requested.symm.trans hrequested) Bool.false_ne_true
      · have hlt := hlt next hnext
        omega
    rw [heq]
    refine ⟨⟨h.reset, rfl, fun next hnext => ?_, fun _ => h.given hnone⟩, h.given hnone⟩
    cases hnone.symm.trans hnext
  · rw [heq]
    obtain ⟨hpos, hle⟩ := retryDelay_bounds (saturatingAdd handler.recovery.attempt 1)
    refine ⟨⟨rfl, rfl, fun other hother => ?_, fun _ => rfl⟩, rfl⟩
    obtain rfl := Option.some.inj hother
    exact ⟨Nat.lt_add_of_pos_right hpos, Nat.add_le_add_left hle _⟩

/-- The decoder is kept, or it is made anew and has had nothing. -/
theorem Calm.prepare (h : Calm now handler) (vf : VideoFrame) : Calm now (handler.prepare vf) := by
  rcases prepare_cases handler vf with
    ⟨-, -, hdecoder, hrecovery⟩ | ⟨-, -, hdecoder, hrecovery⟩ | ⟨-, hdecoder, hrecovery⟩
  · constructor
    all_goals rw [hrecovery]
    · exact h.reset
    · exact h.requested
    · exact h.timer
    · exact fun hnone => hdecoder ▸ h.given hnone
  · constructor
    all_goals rw [hrecovery]
    · exact h.reset
    · exact h.requested
    · exact h.timer
    · exact fun _ => by rw [hdecoder]
  · constructor
    all_goals rw [hrecovery]
    · exact nofun
    · exact fun _ => by rw [hdecoder]

/-- A frame that is not held back ends the wait, and sets the timer if the decoder gets it. -/
theorem Calm.take (h : Calm now handler) {hwcodec : Bool}
    (hheld : heldBack (handler.prepare vf).recovery hwcodec vf = false) :
    Quiet now (take handler hwcodec vf .outputPending now) := by
  have hprepared := h.prepare vf
  unfold FreshDecoder.take
  rw [hheld, if_neg Bool.false_ne_true]
  cases vf.union.isSome with
  | false =>
      rw [if_neg Bool.false_ne_true]
      exact ⟨⟨hprepared.reset, hprepared.requested, hprepared.timer, hprepared.given⟩, rfl⟩
  | true =>
      rw [if_pos rfl]
      unfold VideoHandler.settle
      dsimp only
      rw [pending_eq]
      refine ⟨⟨hprepared.reset, hprepared.requested, fun next hnext => ?_, nofun⟩, rfl⟩
      obtain rfl := Option.some.inj hnext
      show now < (handler.prepare vf).recovery.nextRetry.getD _ ∧
        (handler.prepare vf).recovery.nextRetry.getD _ ≤ _
      cases hold : (handler.prepare vf).recovery.nextRetry with
      | none => exact ⟨Nat.lt_add_of_pos_right (by decide), Nat.add_le_add_left (by decide) _⟩
      | some next => exact hprepared.timer next hold

/-- An unstamped frame leaves a decoder fresh that has had nothing. -/
theorem fresh_take (hgiven : handler.decoder.given = []) (hunstamped : vf.frameId = 0)
    (hwcodec : Bool) (outcome : DecodeOutcome) :
    Fresh (take handler hwcodec vf outcome now).decoder := by
  have hprepared : (handler.prepare vf).decoder.given = [] := by
    rcases prepare_cases handler vf with ⟨-, -, heq, -⟩ | ⟨-, -, heq, -⟩ | ⟨-, heq, -⟩
    · rw [heq, hgiven]
    · rw [heq]
    · rw [heq]
  have hfresh : Fresh (handler.prepare vf).decoder := by
    unfold Fresh
    rw [hprepared]
    exact nofun
  unfold take
  split
  · exact hfresh
  · split
    · unfold VideoHandler.settle give Fresh
      simp [hprepared, hunstamped]
    · exact hfresh

/-- A stamped frame is accepted. -/
theorem Quiet.accepts (h : Quiet now handler) (hwcodec : Bool) (vf : VideoFrame) :
    heldBack (handler.prepare vf).recovery hwcodec vf = false := by
  have hreset := (h.toCalm.prepare vf).reset
  have hwaits : (handler.prepare vf).recovery.waitingForKeyframe = false := by
    rcases prepare_cases handler vf with ⟨-, -, -, heq⟩ | ⟨-, -, -, heq⟩ | ⟨-, -, heq⟩
    · exact heq ▸ h.waits
    · exact heq ▸ h.waits
    · rw [heq]
  unfold heldBack
  rw [hreset, hwaits]
  rfl

/-- An unstamped frame is accepted whatever the recovery waits for. -/
theorem Calm.accepts (h : Calm now handler) (hwcodec : Bool) (hunstamped : vf.frameId = 0) :
    heldBack (handler.prepare vf).recovery hwcodec vf = false := by
  unfold heldBack
  rw [(h.prepare vf).reset, hunstamped]
  simp

end Quiet

/-! ## The quiet run -/

/-- In a stretch that is not led the decoder is fresh. -/
structure QuietRun (now : ℕ) (s : Stretch) (videoHandler : Option VideoHandler) : Prop where
  quiet : ∀ format, Quiet now (videoHandler.getD (.new format))
  fresh : s.led = false → ∀ format, Fresh (videoHandler.getD (.new format)).decoder

section QuietRun

variable {now : ℕ} {s : Stretch} {videoHandler : Option VideoHandler}

theorem QuietRun.look (h : QuietRun now s videoHandler) :
    recovered videoHandler now = videoHandler := by
  cases videoHandler with
  | none => rfl
  | some handler => exact congrArg some (h.quiet .unknown).look

/-- A stamped frame. -/
theorem QuietRun.stamped (h : QuietRun now s videoHandler)
    (hfollows : Follows videoHandler s.latest) {vf : VideoFrame} (hcurrent : s.current vf = true)
    (hstamped : vf.frameId ≠ 0) (hwcodec : Bool) :
    QuietRun now (s.next (.frame vf))
      (some (take (videoHandler.getD (.new vf.format)) hwcodec vf .outputPending now)) := by
  have hquiet := h.quiet vf.format
  have haccepts := hquiet.accepts hwcodec vf
  refine ⟨fun _ => hquiet.toCalm.take haccepts, fun hled _ => ?_⟩
  dsimp only [Stretch.next] at hled
  rw [if_pos hcurrent] at hled
  obtain ⟨hempty, hold⟩ := Bool.or_eq_false_iff.mp hled
  rw [bne_iff_ne.mpr hstamped, Bool.true_and] at hempty
  dsimp only [Option.getD_some]
  rw [take, haccepts, if_neg Bool.false_ne_true, hempty, if_neg Bool.false_ne_true]
  show Fresh ((videoHandler.getD (.new vf.format)).prepare vf).decoder
  refine fresh_prepare_iff.mpr ?_
  cases hbreaks : s.breaks vf with
  | true => exact hfollows.renewed hstamped hbreaks
  | false =>
      rw [hbreaks] at hold
      exact .inr (.inr (h.fresh (by simpa using hold) vf.format))

/-- An unstamped frame finds a decoder that has had nothing. -/
theorem QuietRun.unstamped (h : QuietRun now s videoHandler) {vf : VideoFrame}
    (hunstamped : vf.frameId = 0) (hwcodec : Bool) (after : Stretch) :
    let later := now + secs 10
    QuietRun later after (some (take ((recovered videoHandler later).getD (.new vf.format))
      hwcodec vf .outputPending later)) := by
  intro later
  have hlooked : Calm later ((recovered videoHandler later).getD (.new vf.format)) ∧
      ((recovered videoHandler later).getD (.new vf.format)).decoder.given = [] := by
    cases videoHandler with
    | none => exact ⟨(quiet_new later vf.format).toCalm, rfl⟩
    | some handler => exact (h.quiet .unknown).toCalm.lookLater
  obtain ⟨hcalm, hgiven⟩ := hlooked
  have haccepts := hcalm.accepts hwcodec hunstamped
  exact ⟨fun _ => hcalm.take haccepts, fun _ _ => fresh_take hgiven hunstamped hwcodec _⟩

theorem QuietRun.turn (h : QuietRun now s videoHandler) (hfollows : Follows videoHandler s.latest)
    (hwcodec : Bool) (m : Message) :
    QuietRun (now + s.wait m) (s.next m)
      (iterate hwcodec videoHandler ⟨now + s.wait m, some (m.data (now + s.wait m))⟩) := by
  unfold iterate
  cases m with
  | reset =>
      show QuietRun now { s with led := false } ((recovered videoHandler now).map _)
      rw [h.look]
      cases videoHandler with
      | none => exact ⟨h.quiet, fun _ _ => nofun⟩
      | some handler =>
          have hquiet := h.quiet .unknown
          refine ⟨fun _ => ?_, fun _ _ => ?_⟩
          · show Quiet now (VideoHandler.reset _ none)
            rw [reset_none]
            exact ⟨⟨hquiet.reset, hquiet.requested, hquiet.timer, fun _ => rfl⟩, hquiet.waits⟩
          · show Fresh (VideoHandler.reset _ none).decoder
            rw [reset_none]
            exact nofun
  | frame vf =>
      dsimp only [Message.data, Stretch.wait]
      cases hcurrent : s.current vf with
      | false =>
          rw [Bool.false_and, if_neg Bool.false_ne_true, Nat.add_zero, h.look, Stretch.next,
            if_neg (by simp [hcurrent])]
          rcases hfollows.frame_cases hwcodec vf .outputPending now with ⟨hother, -⟩ | ⟨-, heq⟩
          · exact absurd (hcurrent.symm.trans hother) Bool.false_ne_true
          · rw [heq]
            exact h
      | true =>
          rw [Bool.true_and]
          by_cases hunstamped : vf.frameId = 0
          · rw [if_pos (by simp [hunstamped]), (hfollows.look (now + secs 10)).taken hcurrent]
            exact h.unstamped hunstamped hwcodec _
          · rw [if_neg (by simp [hunstamped]), Nat.add_zero, h.look, hfollows.taken hcurrent]
            exact h.stamped hfollows hcurrent hunstamped hwcodec

end QuietRun

theorem reached_quiet (messages : List Message) : reached (quiet messages) = stretch messages := by
  unfold reached quiet
  rw [filterMap_quietFrom]

theorem clock_concat (messages : List Message) (m : Message) :
    clock (messages ++ [m]) = clock messages + (stretch messages).wait m :=
  clockFrom_concat 0 {} messages m

theorem quiet_concat (messages : List Message) (m : Message) :
    quiet (messages ++ [m]) = quiet messages ++
      [⟨clock messages + (stretch messages).wait m,
        some (m.data (clock messages + (stretch messages).wait m))⟩] := by
  rw [← clock_concat]
  exact quietFrom_concat 0 {} messages m

theorem follows_quiet (hwcodec : Bool) (messages : List Message) :
    Follows (after hwcodec (quiet messages)) (stretch messages).latest := by
  rw [← reached_quiet]
  exact follows_after hwcodec (quiet messages)

theorem quietRun_quiet (hwcodec : Bool) (messages : List Message) :
    QuietRun (clock messages) (stretch messages) (after hwcodec (quiet messages)) := by
  induction messages using List.reverseRecOn with
  | nil => exact ⟨quiet_new 0, fun _ _ => nofun⟩
  | append_singleton messages m ih =>
      rw [quiet_concat, after_concat, clock_concat, stretch_concat]
      exact ih.turn (follows_quiet hwcodec messages) hwcodec m

/-- **Needed**: where no delta reaches a fresh decoder in the quiet run, keyframes lead. -/
theorem keyframesLead_of_deltasWait {hwcodec : Bool} {messages : List Message}
    (h : DeltasWait hwcodec (quiet messages)) : KeyframesLead messages := by
  induction messages using List.reverseRecOn with
  | nil => exact always_nil
  | append_singleton messages m ih =>
      rw [quiet_concat] at h
      obtain ⟨hbefore, hwaits⟩ := always_concat.mp h
      refine always_concat.mpr ⟨ih hbefore, ?_⟩
      rintro vf rfl hcurrent hleads
      have hrun := quietRun_quiet hwcodec messages
      have hfollows := follows_quiet hwcodec messages
      unfold Stretch.leads at hleads
      simp only [Bool.and_eq_true, bne_iff_ne, Bool.or_eq_true, Bool.not_eq_true'] at hleads
      obtain ⟨⟨hstamped, hpayload⟩, hfirst⟩ := hleads
      have hwait : (stretch messages).wait (.frame vf) = 0 := by
        simp [Stretch.wait, hstamped]
      rw [hwait, Nat.add_zero] at hwaits
      by_contra hdelta
      refine hwaits vf .outputPending (clock messages) rfl ?_
      dsimp only
      rw [hrun.look]
      refine ⟨(hfollows.current_eq vf).trans hcurrent, hstamped, hpayload, by simpa using hdelta,
        ?_, .inr ⟨(hrun.quiet vf.format).waits, (hrun.quiet vf.format).reset⟩⟩
      rcases hfirst with hbreaks | hled
      · exact hfollows.renewed hstamped hbreaks
      · exact .inr (.inr (hrun.fresh hled vf.format))

/-- Every decoder starts at a keyframe, however decoding ends and whatever the clock shows,
exactly where the first stamped frame with a payload in every stretch of the messages contains
one. -/
theorem decodersStart_iff (hwcodec : Bool) (messages : List Message) :
    (∀ iterations, Clocked iterations → iterations.filterMap Iteration.message = messages →
      DecodersStart hwcodec iterations) ↔ KeyframesLead messages := by
  constructor
  · intro hstart
    have hmessages : (quiet messages).filterMap Iteration.message = messages :=
      filterMap_quietFrom 0 {} messages
    have hquiet := hstart (quiet messages) (clocked_quietFrom 0 {} messages).1 hmessages
    exact keyframesLead_of_deltasWait ((decodersStart_iff_deltasWait hwcodec _).mp hquiet)
  · rintro hlead iterations - rfl
    exact (decodersStart_iff_deltasWait hwcodec _).mpr (deltasWait_of_keyframesLead hwcodec hlead)

end RustAdmin.Viewer.FreshDecoder
