import RustAdmin.Viewer.Feedback

/-!
# The counters of the workers

Within one worker the counters only grow, whatever it does next.  The workers of one
stream follow each other: only the last one is sent frames, and what it knows of is
newer than all that the earlier ones received.

A step of a worker either receives no frame (`Advances`) or receives one (`Receives`);
in both its counters do not fall (`Moves`).  `Consistent` says what the tracker of one
worker knows.  `Activations` orders the workers of a stream, and a `Shift` of one of
them keeps the order, since only the last one receives.
-/

namespace RustAdmin.Viewer.Feedback

open RustAdmin.Support RustAdmin.VideoDelivery

/-! ## The counters of a report -/

/-- Received, decoded, rendered and dropped, ordered in each component. -/
def counters (f : VideoFeedback) : ℕ × ℕ × ℕ × ℕ :=
  (f.receivedFrameId, f.decodedFrameId, f.renderSubmittedFrameId, f.droppedFrames)

theorem counters_le_iff {f g : VideoFeedback} :
    counters f ≤ counters g ↔
      f.receivedFrameId ≤ g.receivedFrameId ∧ f.decodedFrameId ≤ g.decodedFrameId ∧
        f.renderSubmittedFrameId ≤ g.renderSubmittedFrameId ∧
        f.droppedFrames ≤ g.droppedFrames :=
  Iff.rfl

theorem videoFeedbackRegressed_of_lt {previous next : VideoFeedback}
    (h : previous.streamId < next.streamId) : videoFeedbackRegressed previous next = false := by
  have hne : (previous.streamId == next.streamId) = false := by simp; omega
  simp [videoFeedbackRegressed, hne]
  omega

/-- On one stream feedback is not behind another exactly when no counter is. -/
theorem videoFeedbackRegressed_eq_false_iff {previous next : VideoFeedback}
    (h : previous.streamId = next.streamId) :
    videoFeedbackRegressed previous next = false ↔ counters previous ≤ counters next := by
  rw [counters_le_iff]
  simp [videoFeedbackRegressed, h, and_assoc]

/-! ## One worker -/

def Stage.ids : Stage → List ℕ
  | .receiving => []
  | .decoded frameId => [frameId]
  | .submitted frameId => [frameId]

namespace Worker

variable {w w' : Worker}

/-- The frames a worker knows of. -/
def ids (w : Worker) : List ℕ :=
  w.tracker.receivedFrameId :: w.tracker.decodedFrameId :: w.tracker.renderSubmittedFrameId ::
    (w.stage.ids ++ w.waiting)

theorem mem_ids {n : ℕ} :
    n ∈ w.ids ↔ n = w.tracker.receivedFrameId ∨ n = w.tracker.decodedFrameId ∨
      n = w.tracker.renderSubmittedFrameId ∨ n ∈ w.stage.ids ∨ n ∈ w.waiting := by
  simp [ids]

theorem decoded_mem_ids (w : Worker) : w.tracker.decodedFrameId ∈ w.ids := mem_ids.mpr (by tauto)

theorem renderSubmitted_mem_ids (w : Worker) : w.tracker.renderSubmittedFrameId ∈ w.ids :=
  mem_ids.mpr (by tauto)

theorem stage_subset_ids (w : Worker) : w.stage.ids ⊆ w.ids := fun _ hn => mem_ids.mpr (by tauto)

theorem waiting_subset_ids (w : Worker) : w.waiting ⊆ w.ids := fun _ hn => mem_ids.mpr (by tauto)

/-- What the tracker of a worker says about its frames. -/
structure Consistent (w : Worker) : Prop where
  idle : w.tracker.streamId = 0 → w.tracker.receivedFrameId = 0
  own : w.tracker.streamId ≠ 0 →
    w.tracker.streamId = w.streamId ∧ w.tracker.display = w.display ∧
      w.tracker.receivedFrameId ≠ 0
  received : w.streamId ≠ 0 → ∀ n ∈ w.ids, n ≤ w.tracker.receivedFrameId
  decoded : w.streamId ≠ 0 →
    ∀ n ∈ w.tracker.renderSubmittedFrameId :: w.stage.ids, n ≤ w.tracker.decodedFrameId
  dropped : w.tracker.droppedFrames ≤ usizeMax

/-- What every step of a worker does to it.  Its counters grow once there is something to
report; before, the first frame clears them. -/
structure Moves (w w' : Worker) : Prop where
  display : w'.display = w.display
  streamId : w'.streamId = w.streamId
  consistent : w'.Consistent
  grows : w.tracker.receivedFrameId ≠ 0 →
    counters w.tracker.feedback ≤ counters w'.tracker.feedback

/-- A step between two frames: the worker learns of no frame. -/
structure Advances (w w' : Worker) : Prop extends Moves w w' where
  ids : w'.ids ⊆ w.ids
  received : w'.tracker.receivedFrameId = w.tracker.receivedFrameId

/-- A step with a frame that the worker receives. -/
structure Receives (frameId : ℕ) (w w' : Worker) : Prop extends Moves w w' where
  ids : ∀ n ∈ w'.ids, n = 0 ∨ n ∈ w.ids ∨ n = frameId
  received : w'.tracker.receivedFrameId = w.tracker.receivedFrameId ∨
    w'.tracker.receivedFrameId = frameId

/-- What does not change between two frames. -/
def fixed (w : Worker) : (ℕ × ℕ) × ℕ × ℤ × ℕ :=
  ((w.display, w.streamId),
    w.tracker.streamId, w.tracker.display, w.tracker.receivedFrameId)

theorem Consistent.advances_refl (h : w.Consistent) : w.Advances w :=
  ⟨⟨rfl, rfl, h, fun _ => le_rfl⟩, List.Subset.refl _, rfl⟩

/-- A step that keeps the stream, with the frames it moves from one place to another. -/
theorem Consistent.advances (h : w.Consistent) (hfixed : w'.fixed = w.fixed)
    (hdecoded : w'.tracker.decodedFrameId ∈ w.ids)
    (hrendered : w'.tracker.renderSubmittedFrameId ∈ w.ids)
    (hstage : w'.stage.ids ⊆ w.ids) (hwaiting : w'.waiting ⊆ w.ids)
    (hbehind : w.streamId ≠ 0 →
      ∀ n ∈ w'.tracker.renderSubmittedFrameId :: w'.stage.ids, n ≤ w'.tracker.decodedFrameId)
    (hdropped : w'.tracker.droppedFrames ≤ usizeMax)
    (hgrows : counters w.tracker.feedback ≤ counters w'.tracker.feedback) : w.Advances w' := by
  obtain ⟨⟨hdisplay, hstream⟩, htracker, hshown, hreceived⟩ :
      (w'.display = w.display ∧ w'.streamId = w.streamId) ∧
        w'.tracker.streamId = w.tracker.streamId ∧ w'.tracker.display = w.tracker.display ∧
        w'.tracker.receivedFrameId = w.tracker.receivedFrameId := by
    simpa [fixed] using hfixed
  have hids : w'.ids ⊆ w.ids := by
    intro n hn
    obtain rfl | rfl | rfl | hn | hn := mem_ids.mp hn
    · exact hreceived ▸ List.mem_cons_self
    · exact hdecoded
    · exact hrendered
    · exact hstage hn
    · exact hwaiting hn
  refine ⟨⟨hdisplay, hstream, ⟨?_, ?_, ?_, ?_, hdropped⟩, fun _ => hgrows⟩, hids, hreceived⟩
  · rw [htracker, hreceived]
    exact h.idle
  · rw [htracker, hshown, hreceived, hstream, hdisplay]
    exact h.own
  · intro hne n hn
    rw [hreceived]
    exact h.received (hstream ▸ hne) n (hids hn)
  · exact fun hne => hbehind (hstream ▸ hne)

/-- A frame the worker knows of was counted by its tracker, where it has a number. -/
theorem Consistent.eq_zero_or_own (h : w.Consistent) (hne : w.streamId ≠ 0) {n : ℕ}
    (hn : n ∈ w.ids) : n = 0 ∨ w.tracker.streamId = w.streamId := by
  by_cases hstream : w.tracker.streamId = 0
  · left
    have hle := h.received hne n hn
    rw [h.idle hstream] at hle
    omega
  · exact .inr (h.own hstream).1

theorem Consistent.drop (h : w.Consistent) (frames : List ℕ) : w.Advances (w.drop frames) := by
  unfold Worker.drop
  split_ifs
  · have hcount := h.dropped
    refine h.advances rfl w.decoded_mem_ids w.renderSubmitted_mem_ids w.stage_subset_ids ?_
      h.decoded (Nat.min_le_right _ _) ?_
    · exact fun n hn => w.waiting_subset_ids (List.diff_subset _ _ hn)
    · refine counters_le_iff.mpr ⟨le_rfl, le_rfl, le_rfl, ?_⟩
      show w.tracker.droppedFrames ≤ saturatingAdd w.tracker.droppedFrames frames.length
      unfold saturatingAdd
      omega
  · exact h.advances_refl

theorem Consistent.decode (h : w.Consistent) (frameId : ℕ) : w.Advances (w.decode frameId) := by
  unfold Worker.decode
  split_ifs with hcond
  · have hold : frameId ∈ w.ids := w.waiting_subset_ids hcond.2
    have hstage : Stage.ids (.decoded frameId) ⊆ w.ids := by simpa [Stage.ids] using hold
    unfold VideoFeedbackTracker.recordDecoded
    split_ifs with hrecorded
    · refine h.advances rfl ?_ w.renderSubmitted_mem_ids hstage w.waiting_subset_ids ?_ h.dropped ?_
      · exact max_rec' (· ∈ w.ids) w.decoded_mem_ids hold
      · intro hne n hn
        show n ≤ max w.tracker.decodedFrameId frameId
        simp only [Stage.ids, List.mem_cons, List.not_mem_nil, or_false] at hn
        obtain rfl | rfl := hn
        · exact (h.decoded hne _ List.mem_cons_self).trans (le_max_left _ _)
        · exact le_max_right _ _
      · exact counters_le_iff.mpr ⟨le_rfl, le_max_left _ _, le_rfl, le_rfl⟩
    · refine h.advances rfl w.decoded_mem_ids w.renderSubmitted_mem_ids hstage
        w.waiting_subset_ids ?_ h.dropped le_rfl
      intro hne n hn
      simp only [Stage.ids, List.mem_cons, List.not_mem_nil, or_false] at hn
      obtain rfl | rfl := hn
      · exact h.decoded hne _ List.mem_cons_self
      · -- The tracker does not count it, so it has no number.
        rcases h.eq_zero_or_own hne hold with rfl | hown
        · exact Nat.zero_le _
        · have hzero : n = 0 := by tauto
          omega
  · exact h.advances_refl

theorem Consistent.render (h : w.Consistent) (renderStreamId : Option ℕ) (submitted : Bool) :
    w.Advances (w.render renderStreamId submitted) := by
  unfold Worker.render
  cases hstage : w.stage with
  | decoded frameId =>
      have hold : Stage.ids (.decoded frameId) ⊆ w.ids := hstage ▸ w.stage_subset_ids
      dsimp only
      split_ifs
      · refine h.advances rfl w.decoded_mem_ids w.renderSubmitted_mem_ids hold
          w.waiting_subset_ids ?_ h.dropped le_rfl
        have hbehind := h.decoded
        rw [hstage] at hbehind
        exact hbehind
      · refine h.advances rfl w.decoded_mem_ids w.renderSubmitted_mem_ids (List.nil_subset _)
          w.waiting_subset_ids ?_ h.dropped le_rfl
        intro hne n hn
        simp only [Stage.ids, List.mem_singleton] at hn
        exact hn ▸ h.decoded hne _ List.mem_cons_self
  | receiving => exact h.advances_refl
  | submitted => exact h.advances_refl

theorem Consistent.record (h : w.Consistent) : w.Advances w.record := by
  unfold Worker.record
  cases hstage : w.stage with
  | submitted frameId =>
      have hold : frameId ∈ w.ids := w.stage_subset_ids (by simp [hstage, Stage.ids])
      have hbehind : w.streamId ≠ 0 → frameId ≤ w.tracker.decodedFrameId := by
        intro hne
        exact h.decoded hne _ (by simp [hstage, Stage.ids])
      dsimp only
      unfold VideoFeedbackTracker.recordRenderSubmitted
      split_ifs
      · refine h.advances rfl w.decoded_mem_ids ?_ (List.nil_subset _) w.waiting_subset_ids ?_
          h.dropped ?_
        · exact max_rec' (· ∈ w.ids) w.renderSubmitted_mem_ids hold
        · intro hne n hn
          simp only [Stage.ids, List.mem_singleton] at hn
          exact hn ▸ max_le (h.decoded hne _ List.mem_cons_self) (hbehind hne)
        · exact counters_le_iff.mpr ⟨le_rfl, le_rfl, le_max_left _ _, le_rfl⟩
      · refine h.advances rfl w.decoded_mem_ids w.renderSubmitted_mem_ids (List.nil_subset _)
          w.waiting_subset_ids ?_ h.dropped le_rfl
        intro hne n hn
        simp only [Stage.ids, List.mem_singleton] at hn
        exact hn ▸ h.decoded hne _ List.mem_cons_self
  | receiving => exact h.advances_refl
  | decoded => exact h.advances_refl

/-- Taking feedback changes only what the tracker remembers of it. -/
theorem Consistent.take (h : w.Consistent) (now : ℕ) (force : Bool) :
    w.Advances { w with tracker := (w.tracker.takeDueAt now force).1 } := by
  unfold VideoFeedbackTracker.takeDueAt
  split_ifs
  · exact h.advances_refl
  · dsimp only
    split_ifs
    · exact h.advances_refl
    · exact h.advances rfl w.decoded_mem_ids w.renderSubmitted_mem_ids w.stage_subset_ids
        w.waiting_subset_ids h.decoded h.dropped le_rfl

/-- Feedback is the tracker's, and there is a frame to report. -/
theorem takeDueAt_eq_some {t : VideoFeedbackTracker} {now : ℕ} {force : Bool}
    {f : VideoFeedback} (h : (t.takeDueAt now force).2 = some f) :
    t.streamId ≠ 0 ∧ t.receivedFrameId ≠ 0 ∧ f = t.feedback := by
  unfold VideoFeedbackTracker.takeDueAt at h
  split_ifs at h with hidle
  dsimp only at h
  split_ifs at h
  · exact ⟨fun h0 => hidle (.inl h0), fun h0 => hidle (.inr h0), (Option.some.inj h).symm⟩

/-- A frame of the worker's stream is ignored, or the first to be counted, or counted
with the ones before. -/
theorem Consistent.recordReceived_cases (h : w.Consistent) {vf : VideoFrame}
    (hstream : vf.streamId = w.streamId) (hdisplay : vf.display = w.display) :
    (vf.streamId = 0 ∨ vf.frameId = 0) ∧ (w.tracker.recordReceived vf).1 = w.tracker ∨
      w.tracker.streamId = 0 ∧ vf.streamId ≠ 0 ∧ vf.frameId ≠ 0 ∧
        (w.tracker.recordReceived vf).1 =
          { streamId := vf.streamId, display := vf.display, receivedFrameId := vf.frameId } ∨
      w.tracker.streamId ≠ 0 ∧ (w.tracker.recordReceived vf).1 =
        { w.tracker with receivedFrameId := max w.tracker.receivedFrameId vf.frameId } := by
  unfold VideoFeedbackTracker.recordReceived
  by_cases hignored : vf.streamId = 0 ∨ vf.frameId = 0
  · exact .inl ⟨hignored, by rw [if_pos hignored]⟩
  · rw [if_neg hignored]
    obtain ⟨hs, hf⟩ := not_or.mp hignored
    by_cases hidle : w.tracker.streamId = 0
    · refine .inr (.inl ⟨hidle, hs, hf, ?_⟩)
      have hnew : (w.tracker.streamId != vf.streamId) = true := by
        rw [hidle]
        simpa using Ne.symm hs
      simp [hnew]
    · refine .inr (.inr ⟨hidle, ?_⟩)
      obtain ⟨hown, hshown, -⟩ := h.own hidle
      simp [hown, hshown, hstream, hdisplay]

theorem mem_ids_receive {vf : VideoFrame} {n : ℕ} (hn : n ∈ (w.receive vf).ids) :
    n ∈ [(w.receive vf).tracker.receivedFrameId, (w.receive vf).tracker.decodedFrameId,
      (w.receive vf).tracker.renderSubmittedFrameId] ∨
      n ∈ w.stage.ids ++ w.waiting ∨ n = vf.frameId := by
  have hcases := mem_ids.mp hn
  simp only [Worker.receive, List.mem_append, List.mem_singleton] at hcases
  simp only [Worker.receive, List.mem_cons, List.mem_append, List.not_mem_nil, or_false]
  tauto

theorem mem_ids_of_mem_append {n : ℕ} (hn : n ∈ w.stage.ids ++ w.waiting) : n ∈ w.ids := by
  rcases List.mem_append.mp hn with hn | hn
  · exact w.stage_subset_ids hn
  · exact w.waiting_subset_ids hn

theorem Consistent.receive_ignored (h : w.Consistent) {vf : VideoFrame}
    (hstream : vf.streamId = w.streamId) (hignored : vf.streamId = 0 ∨ vf.frameId = 0)
    (htracker : (w.tracker.recordReceived vf).1 = w.tracker) :
    w.Receives vf.frameId (w.receive vf) := by
  have hreceive : w.receive vf = { w with waiting := w.waiting ++ [vf.frameId] } := by
    unfold Worker.receive
    rw [htracker]
  have hids : ∀ n ∈ (w.receive vf).ids, n ∈ w.ids ∨ n = vf.frameId := by
    intro n hn
    rcases mem_ids_receive hn with hn | hn | hn
    · rw [hreceive] at hn
      left
      simp only [List.mem_cons, List.not_mem_nil, or_false] at hn
      exact mem_ids.mpr (by tauto)
    · exact .inl (mem_ids_of_mem_append hn)
    · exact .inr hn
  refine ⟨⟨rfl, rfl, ⟨?_, ?_, ?_, ?_, ?_⟩, ?_⟩, fun n hn => .inr (hids n hn), ?_⟩
  · rw [hreceive]
    exact h.idle
  · rw [hreceive]
    exact h.own
  · intro hne n hn
    have hle : n ≤ w.tracker.receivedFrameId := by
      rcases hids n hn with hold | rfl
      · exact h.received hne n hold
      · have hzero : vf.frameId = 0 := hignored.resolve_left (hstream ▸ hne)
        omega
    rw [hreceive]
    exact hle
  · rw [hreceive]
    exact h.decoded
  · rw [hreceive]
    exact h.dropped
  · rw [hreceive]
    exact fun _ => le_rfl
  · rw [hreceive]
    exact .inl rfl

theorem Consistent.receive_first (h : w.Consistent) {vf : VideoFrame}
    (hstream : vf.streamId = w.streamId) (hdisplay : vf.display = w.display)
    (hidle : w.tracker.streamId = 0) (hne : vf.streamId ≠ 0) (hnumber : vf.frameId ≠ 0)
    (htracker : (w.tracker.recordReceived vf).1 =
      { streamId := vf.streamId, display := vf.display, receivedFrameId := vf.frameId }) :
    w.Receives vf.frameId (w.receive vf) := by
  have hreceive : w.receive vf =
      { w with
        tracker :=
          { streamId := vf.streamId, display := vf.display, receivedFrameId := vf.frameId }
        waiting := w.waiting ++ [vf.frameId] } := by
    unfold Worker.receive
    rw [htracker]
  -- An idle tracker has received nothing, so the worker knows of no frame.
  have hnone : ∀ n ∈ w.ids, n = 0 := by
    intro n hn
    have hle := h.received (hstream ▸ hne) n hn
    rw [h.idle hidle] at hle
    omega
  have hids : ∀ n ∈ (w.receive vf).ids, n = 0 ∨ n = vf.frameId := by
    intro n hn
    rcases mem_ids_receive hn with hn | hn | hn
    · rw [hreceive] at hn
      simp only [List.mem_cons, List.not_mem_nil, or_false] at hn
      tauto
    · exact .inl (hnone n (mem_ids_of_mem_append hn))
    · exact .inr hn
  refine ⟨⟨rfl, rfl, ⟨?_, ?_, ?_, ?_, ?_⟩, ?_⟩, ?_, ?_⟩
  · rw [hreceive]
    exact fun h0 => absurd h0 hne
  · rw [hreceive]
    exact fun _ => ⟨hstream, hdisplay, hnumber⟩
  · intro _ n hn
    have hle : n ≤ vf.frameId := by
      rcases hids n hn with rfl | rfl <;> omega
    rw [hreceive]
    exact hle
  · rw [hreceive]
    intro _ n hn
    show n ≤ 0
    rcases List.mem_cons.mp hn with rfl | hn
    · exact le_rfl
    · exact (hnone n (w.stage_subset_ids hn)).le
  · rw [hreceive]
    exact Nat.zero_le _
  · exact fun hreceived => absurd (h.idle hidle) hreceived
  · intro n hn
    rcases hids n hn with rfl | rfl
    · exact .inl rfl
    · exact .inr (.inr rfl)
  · rw [hreceive]
    exact .inr rfl

theorem Consistent.receive_counted (h : w.Consistent) {vf : VideoFrame}
    (hidle : w.tracker.streamId ≠ 0)
    (htracker : (w.tracker.recordReceived vf).1 =
      { w.tracker with receivedFrameId := max w.tracker.receivedFrameId vf.frameId }) :
    w.Receives vf.frameId (w.receive vf) := by
  have hreceive : w.receive vf =
      { w with
        tracker :=
          { w.tracker with receivedFrameId := max w.tracker.receivedFrameId vf.frameId }
        waiting := w.waiting ++ [vf.frameId] } := by
    unfold Worker.receive
    rw [htracker]
  have hids : ∀ n ∈ (w.receive vf).ids, n ∈ w.ids ∨ n = vf.frameId := by
    intro n hn
    rcases mem_ids_receive hn with hn | hn | hn
    · rw [hreceive] at hn
      simp only [List.mem_cons, List.not_mem_nil, or_false] at hn
      obtain hn | hn | hn := hn
      · rcases max_choice w.tracker.receivedFrameId vf.frameId with hmax | hmax
        · exact .inl (mem_ids.mpr (.inl (hn.trans hmax)))
        · exact .inr (hn.trans hmax)
      · exact .inl (hn ▸ w.decoded_mem_ids)
      · exact .inl (hn ▸ w.renderSubmitted_mem_ids)
    · exact .inl (mem_ids_of_mem_append hn)
    · exact .inr hn
  obtain ⟨hown, hshown, hsome⟩ := h.own hidle
  refine ⟨⟨rfl, rfl, ⟨?_, ?_, ?_, ?_, ?_⟩, ?_⟩, fun n hn => .inr (hids n hn), ?_⟩
  · rw [hreceive]
    exact fun h0 => absurd h0 hidle
  · rw [hreceive]
    refine fun _ => ⟨hown, hshown, ?_⟩
    show max w.tracker.receivedFrameId vf.frameId ≠ 0
    omega
  · intro hne n hn
    have hle : n ≤ max w.tracker.receivedFrameId vf.frameId := by
      rcases hids n hn with hold | rfl
      · exact (h.received hne n hold).trans (le_max_left _ _)
      · exact le_max_right _ _
    rw [hreceive]
    exact hle
  · rw [hreceive]
    exact h.decoded
  · rw [hreceive]
    exact h.dropped
  · rw [hreceive]
    exact fun _ => counters_le_iff.mpr ⟨le_max_left _ _, le_rfl, le_rfl, le_rfl⟩
  · rw [hreceive]
    exact max_choice _ _

/-- A frame of its stream and display reaches the worker. -/
theorem Consistent.receive (h : w.Consistent) {vf : VideoFrame}
    (hstream : vf.streamId = w.streamId) (hdisplay : vf.display = w.display) :
    w.Receives vf.frameId (w.receive vf) := by
  rcases h.recordReceived_cases hstream hdisplay with ⟨hignored, htracker⟩ |
      ⟨hidle, hne, hnumber, htracker⟩ | ⟨hidle, htracker⟩
  · exact h.receive_ignored hstream hignored htracker
  · exact h.receive_first hstream hdisplay hidle hne hnumber htracker
  · exact h.receive_counted hidle htracker

end Worker

/-! ## All workers -/

/-- The number a worker received last is that of a frame. -/
def Arrived (events : List Event) (w : Worker) : Prop :=
  ∃ intent vf, Event.frame intent vf ∈ events ∧ vf.display = w.display ∧
    vf.streamId = w.streamId ∧ vf.frameId = w.tracker.receivedFrameId

def Worker.SameStream (v w : Worker) : Prop := v.display = w.display ∧ v.streamId = w.streamId

/-- The workers of a stream follow each other: what a later one knows of is newer than
all that an earlier one received. -/
structure Activations (events : List Event) (workers : List Worker) : Prop where
  consistent : ∀ (i : ℕ) (w : Worker), workers[i]? = some w → w.Consistent
  arrived : ∀ (i : ℕ) (w : Worker), workers[i]? = some w → w.tracker.receivedFrameId ≠ 0 →
    Arrived events w
  newer : ∀ (i j : ℕ) (v w : Worker), i < j → workers[i]? = some v → workers[j]? = some w →
    v.SameStream w → ∀ n ∈ w.ids, n = 0 ∨ v.tracker.receivedFrameId < n

/-- Feedback that was taken from a worker, then or before. -/
structure Reported (workers : List Worker) (i : ℕ) (f : VideoFeedback) : Prop where
  source : ∃ w, workers[i]? = some w ∧ f.display = w.display ∧ f.streamId = w.streamId ∧
    counters f ≤ counters w.tracker.feedback
  stream : f.streamId ≠ 0
  received : f.receivedFrameId ≠ 0
  decoded : f.decodedFrameId ≤ f.receivedFrameId
  rendered : f.renderSubmittedFrameId ≤ f.decodedFrameId
  newer : ∀ k v, k < i → workers[k]? = some v → (v.display : ℤ) = f.display →
    v.streamId = f.streamId →
    ∀ n ∈ [f.receivedFrameId, f.decodedFrameId, f.renderSubmittedFrameId],
      n = 0 ∨ v.tracker.receivedFrameId < n

/-- One worker makes a step among the others. -/
structure Shift (events : List Event) (workers : List Worker) (i : ℕ) (w w' : Worker) : Prop
    extends w.Moves w' where
  ids : ∀ n ∈ w'.ids, n = 0 ∨ n ∈ w.ids ∨
    ∀ k v, k < i → workers[k]? = some v → v.SameStream w → v.tracker.receivedFrameId < n
  last : w'.tracker.receivedFrameId = w.tracker.receivedFrameId ∨
    ∀ k v, i < k → workers[k]? = some v → v.display ≠ w.display
  arrived : w'.tracker.receivedFrameId ≠ 0 → Arrived events w'

section Workers

variable {events : List Event} {workers : List Worker} {i : ℕ} {f : Worker → Worker}

theorem getElem?_modify_cases {j : ℕ} {v : Worker} (h : (workers.modify i f)[j]? = some v) :
    (∃ u, workers[i]? = some u ∧ j = i ∧ v = f u) ∨ j ≠ i ∧ workers[j]? = some v := by
  rw [List.getElem?_modify] at h
  obtain ⟨u, hu, rfl⟩ := Option.map_eq_some_iff.mp h
  by_cases hij : i = j
  · subst hij
    exact .inl ⟨u, hu, rfl, by simp⟩
  · exact .inr ⟨Ne.symm hij, by simpa [hij] using hu⟩

theorem Worker.Advances.shift (h : Activations events workers) {w w' : Worker}
    (hi : workers[i]? = some w) (hw : w.Advances w') : Shift events workers i w w' where
  toMoves := hw.toMoves
  ids := fun n hn => .inr (.inl (hw.ids hn))
  last := .inl hw.received
  arrived := by
    intro hne
    rw [hw.received] at hne
    obtain ⟨intent, vf, hmem, hdisplay, hstream, hnumber⟩ := h.arrived i w hi hne
    refine ⟨intent, vf, hmem, ?_, ?_, ?_⟩
    · rw [hw.display, hdisplay]
    · rw [hw.streamId, hstream]
    · rw [hw.received, hnumber]

theorem Activations.modify (h : Activations events workers)
    (hshift : ∀ w, workers[i]? = some w → Shift events workers i w (f w)) :
    Activations events (workers.modify i f) where
  consistent := by
    intro j v hv
    rcases getElem?_modify_cases hv with ⟨u, hu, -, rfl⟩ | ⟨-, hv⟩
    · exact (hshift u hu).consistent
    · exact h.consistent j v hv
  arrived := by
    intro j v hv hne
    rcases getElem?_modify_cases hv with ⟨u, hu, -, rfl⟩ | ⟨-, hv⟩
    · exact (hshift u hu).arrived hne
    · exact h.arrived j v hv hne
  newer := by
    intro k j v w hkj hv hw hsame n hn
    rcases getElem?_modify_cases hw with ⟨u, hu, rfl, rfl⟩ | ⟨-, hother⟩
    -- The later worker makes the step.
    · have hs := hshift u hu
      rcases getElem?_modify_cases hv with ⟨_, -, rfl, -⟩ | ⟨-, hv⟩
      · exact absurd hkj (lt_irrefl _)
      · have hsame' : v.SameStream u :=
          ⟨hsame.1.trans hs.display, hsame.2.trans hs.streamId⟩
        rcases hs.ids n hn with h0 | hold | hnew
        · exact .inl h0
        · exact h.newer k j v u hkj hv hu hsame' n hold
        · exact .inr (hnew k v hkj hv hsame')
    · rcases getElem?_modify_cases hv with ⟨u, hu, rfl, rfl⟩ | ⟨-, hv⟩
      -- The earlier one does: it receives no frame, for it is not the last of its display.
      · have hs := hshift u hu
        have hsame' : u.SameStream w :=
          ⟨hs.display.symm.trans hsame.1, hs.streamId.symm.trans hsame.2⟩
        rcases hs.last with hreceived | hlast
        · rw [hreceived]
          exact h.newer k j u w hkj hu hother hsame' n hn
        · exact absurd hsame'.1.symm (hlast j w hkj hother)
      · exact h.newer k j v w hkj hv hother hsame n hn

theorem Reported.modify {j : ℕ} {g : VideoFeedback} (h : Reported workers j g)
    (hshift : ∀ w, workers[i]? = some w → Shift events workers i w (f w)) :
    Reported (workers.modify i f) j g where
  source := by
    obtain ⟨w, hw, hdisplay, hstream, hle⟩ := h.source
    by_cases hij : i = j
    · subst hij
      have hs := hshift w hw
      refine ⟨f w, by simp [hw], ?_, ?_, hle.trans (hs.grows ?_)⟩
      · rw [hs.display, hdisplay]
      · rw [hs.streamId, hstream]
      · have hreceived : g.receivedFrameId ≤ w.tracker.receivedFrameId := (counters_le_iff.mp hle).1
        have hsome := h.received
        omega
    · exact ⟨w, by simp [hij, hw], hdisplay, hstream, hle⟩
  stream := h.stream
  received := h.received
  decoded := h.decoded
  rendered := h.rendered
  newer := by
    intro k v hkj hv hdisplay hstream n hn
    rcases getElem?_modify_cases hv with ⟨u, hu, rfl, rfl⟩ | ⟨-, hv⟩
    · have hs := hshift u hu
      rw [hs.display] at hdisplay
      rw [hs.streamId] at hstream
      rcases hs.last with hreceived | hlast
      · rw [hreceived]
        exact h.newer k u hkj hu hdisplay hstream n hn
      · obtain ⟨w, hw, hsource, -⟩ := h.source
        have hsame : w.display = u.display := by
          rw [hsource] at hdisplay
          exact_mod_cast hdisplay.symm
        exact absurd hsame (hlast j w hkj hw)
    · exact h.newer k v hkj hv hdisplay hstream n hn

theorem getElem?_concat_cases {w : Worker} {j : ℕ} {v : Worker}
    (h : (workers ++ [w])[j]? = some v) :
    workers[j]? = some v ∨ j = workers.length ∧ v = w := by
  rcases Nat.lt_or_ge j workers.length with hlt | hge
  · rw [List.getElem?_append_left hlt] at h
    exact .inl h
  · rw [List.getElem?_append_right hge] at h
    obtain ⟨hj, hv⟩ := List.getElem?_eq_some_iff.mp h
    have hlength : j = workers.length := by
      simp at hj
      omega
    subst hlength
    exact .inr ⟨rfl, by simpa using hv.symm⟩

/-- A worker that knows of no frame is started. -/
theorem Activations.concat (h : Activations events workers) {w : Worker}
    (hw : w.Consistent) (hfresh : ∀ n ∈ w.ids, n = 0) :
    Activations events (workers ++ [w]) where
  consistent := by
    intro j v hv
    rcases getElem?_concat_cases hv with hv | ⟨-, rfl⟩
    · exact h.consistent j v hv
    · exact hw
  arrived := by
    intro j v hv hne
    rcases getElem?_concat_cases hv with hv | ⟨-, rfl⟩
    · exact h.arrived j v hv hne
    · exact absurd (hfresh _ List.mem_cons_self) hne
  newer := by
    intro k j u v hkj hu hv hsame n hn
    rcases getElem?_concat_cases hv with hv | ⟨rfl, rfl⟩
    · rcases getElem?_concat_cases hu with hu | ⟨rfl, -⟩
      · exact h.newer k j u v hkj hu hv hsame n hn
      · have hlt := (List.getElem?_eq_some_iff.mp hv).1
        omega
    · exact .inl (hfresh n hn)

theorem Reported.concat {j : ℕ} {g : VideoFeedback} (h : Reported workers j g) (w : Worker) :
    Reported (workers ++ [w]) j g where
  source := by
    obtain ⟨v, hv, hsource⟩ := h.source
    have hlt := (List.getElem?_eq_some_iff.mp hv).1
    exact ⟨v, by rw [List.getElem?_append_left hlt, hv], hsource⟩
  stream := h.stream
  received := h.received
  decoded := h.decoded
  rendered := h.rendered
  newer := by
    intro k v hkj hv
    obtain ⟨u, hu, -⟩ := h.source
    have hlt := (List.getElem?_eq_some_iff.mp hu).1
    rw [List.getElem?_append_left (by omega)] at hv
    exact h.newer k v hkj hv

/-- What a tracker says is a report of its worker. -/
theorem Activations.reported (h : Activations events workers) {w : Worker}
    (hi : workers[i]? = some w) (hstream : w.tracker.streamId ≠ 0)
    (hreceived : w.tracker.receivedFrameId ≠ 0) : Reported workers i w.tracker.feedback := by
  have hw := h.consistent i w hi
  obtain ⟨hown, hshown, -⟩ := hw.own hstream
  have hne : w.streamId ≠ 0 := hown ▸ hstream
  refine ⟨⟨w, hi, hshown, hown, le_rfl⟩, hstream, hreceived, ?_, ?_, ?_⟩
  · exact hw.received hne _ w.decoded_mem_ids
  · exact hw.decoded hne _ List.mem_cons_self
  · intro k v hki hv hdisplay hstream' n hn
    have hsame : v.SameStream w := by
      refine ⟨?_, hstream'.trans hown⟩
      have hcast : (v.display : ℤ) = w.display := hdisplay.trans hshown
      exact_mod_cast hcast
    refine h.newer k i v w hki hv hi hsame n ?_
    simp only [List.mem_cons, List.not_mem_nil, or_false] at hn
    exact Worker.mem_ids.mpr (by tauto)

end Workers

end RustAdmin.Viewer.Feedback
