import RustAdmin.Support.Run
import RustAdmin.Viewer.FeedbackWorkers

/-!
# Feedback across activations

Feedback of a newer frame goes behind the report the host keeps in two ways only: a
later worker has counted fewer drops of the same stream, or an earlier worker reports
after a later one did.

## Strategy

`Sound` joins what the modules before this one say of the workers with what the
connection keeps: the thread of a display is its last worker, the tracker of a thread
reports what that worker has counted, and the host's last report came from a worker.
The events are followed in the order of the source: a frame is delivered to the last
worker of its display or starts a new one (`Sound.deliver`), an intent removes
threads, and feedback takes the report of a tracker.

Two reports of one stream then come from one worker, whose counters only grow, or from
two, of which the later knows newer frames only (`Sound.lt_of_lt`).
`Sound.regressed_iff` compares them case by case, and the equivalence for one step
gives that for the run.
-/

namespace RustAdmin.Viewer.Feedback

open RustAdmin.Support RustAdmin.VideoDelivery

/-! ## Viewer and host -/

namespace State

/-- The feedback that is about to be sent, and that the host keeps. -/
def reports (s : State) : Set (ℕ × VideoFeedback) :=
  {r | r ∈ s.taken ∨ s.reporter.get? r.2.display = some r.1 ∧
    s.host.videoFeedbackByDisplay.get? r.2.display = some r.2}

structure Sound (events : List Event) (s : State) : Prop where
  /-- The thread of a display is its last worker. -/
  threads : ∀ display i, s.videoThreads.get? display = some i →
    (∃ w, s.workers[i]? = some w ∧ w.display = display) ∧
      ∀ (k : ℕ) (v : Worker), i < k → s.workers[k]? = some v → v.display ≠ display
  activations : Activations events s.workers
  reported : ∀ r ∈ s.reports, Reported s.workers r.1 r.2
  /-- What was taken from one tracker was taken one after the other. -/
  ordered : ∀ i f g, (i, f) ∈ s.reports → (i, g) ∈ s.reports →
    counters f ≤ counters g ∨ counters g ≤ counters f
  kept : ∀ display previous,
    s.host.videoFeedbackByDisplay.get? display = some previous →
    previous.display = display ∧ previous ∈ s.sent ∧ ∃ j, s.reporter.get? display = some j

variable {events : List Event} {s : State}

theorem sound_start : Sound [] {} where
  threads := nofun
  activations := ⟨nofun, nofun, nofun⟩
  reported := by
    rintro r (hr | ⟨hr, -⟩)
    · exact absurd hr List.not_mem_nil
    · cases hr
  ordered := by
    rintro i f g (hr | ⟨hr, -⟩)
    · exact absurd hr List.not_mem_nil
    · cases hr
  kept := nofun

theorem Sound.mono (h : s.Sound events) (event : Event) : s.Sound (events ++ [event]) where
  threads := h.threads
  activations :=
    { consistent := h.activations.consistent
      arrived := by
        intro i w hw hne
        obtain ⟨intent, vf, hmem, harrived⟩ := h.activations.arrived i w hw hne
        exact ⟨intent, vf, List.mem_append_left _ hmem, harrived⟩
      newer := h.activations.newer }
  reported := h.reported
  ordered := h.ordered
  kept := h.kept

theorem Sound.withStartup (h : s.Sound events) (c : DisplayStartupController) :
    Sound events { s with displayStartup := c } :=
  ⟨h.threads, h.activations, h.reported, h.ordered, h.kept⟩

theorem Sound.withThreads (h : s.Sound events) {threads : LinkedMap ℕ ℕ}
    (hthreads : ∀ display i, threads.get? display = some i →
      s.videoThreads.get? display = some i) : Sound events { s with videoThreads := threads } :=
  ⟨fun display i hi => h.threads display i (hthreads display i hi), h.activations, h.reported,
    h.ordered, h.kept⟩

theorem Sound.modifyWorker (h : s.Sound events) {i : ℕ} {f : Worker → Worker}
    (hshift : ∀ w, s.workers[i]? = some w → Shift events s.workers i w (f w)) :
    (s.modifyWorker i f).Sound events where
  threads := by
    intro display j hj
    obtain ⟨⟨w, hw, hdisplay⟩, hlast⟩ := h.threads display j hj
    refine ⟨?_, ?_⟩
    · by_cases hij : i = j
      · subst hij
        exact ⟨f w, by simp [State.modifyWorker, hw], (hshift w hw).display.trans hdisplay⟩
      · exact ⟨w, by simp [State.modifyWorker, hij, hw], hdisplay⟩
    · intro k v hjk hv
      rcases getElem?_modify_cases hv with ⟨u, hu, rfl, rfl⟩ | ⟨-, hother⟩
      · rw [(hshift u hu).display]
        exact hlast k u hjk hu
      · exact hlast k v hjk hother
  activations := h.activations.modify hshift
  reported := fun r hr => (h.reported r hr).modify hshift
  ordered := h.ordered
  kept := h.kept

theorem Sound.newVideoThread (h : s.Sound events)
    (display activationGeneration streamId renderStreamId : ℕ) :
    (s.newVideoThread display activationGeneration streamId renderStreamId).Sound events where
  threads := by
    intro other i hi
    unfold State.newVideoThread at hi
    rw [LinkedMap.get?_set] at hi
    by_cases hsame : other = display
    · rw [if_pos hsame] at hi
      obtain rfl := Option.some.inj hi
      refine ⟨⟨_, List.getElem?_concat_length, hsame.symm⟩, ?_⟩
      intro k v hlt hv
      rcases getElem?_concat_cases hv with hold | ⟨rfl, -⟩
      · have hk := (List.getElem?_eq_some_iff.mp hold).1
        omega
      · exact absurd hlt (lt_irrefl _)
    · rw [if_neg hsame] at hi
      obtain ⟨⟨w, hw, hdisplay⟩, hlast⟩ := h.threads other i hi
      have hlt := (List.getElem?_eq_some_iff.mp hw).1
      refine ⟨⟨w, ?_, hdisplay⟩, ?_⟩
      · show (s.workers ++ _)[i]? = some w
        rw [List.getElem?_append_left hlt, hw]
      · intro k v hik hv
        rcases getElem?_concat_cases hv with hold | ⟨-, rfl⟩
        · exact hlast k v hik hold
        · exact Ne.symm hsame
  activations := by
    apply h.activations.concat
    · refine ⟨fun _ => rfl, fun hne => absurd rfl hne, ?_, ?_, Nat.zero_le _⟩
      · intro _ n hn
        have hzero : n = 0 := by simpa [Worker.ids, Stage.ids] using hn
        exact hzero.le
      · intro _ n hn
        have hzero : n = 0 := by simpa [Stage.ids] using hn
        exact hzero.le
    · intro n hn
      simpa [Worker.ids, Stage.ids] using hn
  reported := fun r hr => (h.reported r hr).concat _
  ordered := h.ordered
  kept := h.kept

/-! ### A frame arrives -/

/-- A frame is newer than all that came before it on its stream. -/
theorem Sound.received_lt (h : s.Sound events) {intent : Option DisplayMediaIntent}
    {vf : VideoFrame} (hframes : FramesIncrease (events ++ [.frame intent vf])) {k : ℕ}
    {v : Worker} (hv : s.workers[k]? = some v) (hdisplay : vf.display = v.display)
    (hstream : vf.streamId = v.streamId) (hnumber : vf.frameId ≠ 0) :
    v.tracker.receivedFrameId < vf.frameId := by
  by_cases hnone : v.tracker.receivedFrameId = 0
  · omega
  · obtain ⟨earlier, first, hmem, hdisplay', hstream', hnumber'⟩ :=
      h.activations.arrived k v hv hnone
    have hpair := (List.pairwise_append.mp hframes).2.2 _ hmem _ (List.mem_singleton_self _)
    have hlater : first.streamId < vf.streamId ∨
        first.streamId = vf.streamId ∧ first.frameId < vf.frameId :=
      hpair (hdisplay'.trans hdisplay.symm)
    omega

/-- A frame reaches the last worker of its display. -/
theorem Sound.receive (h : s.Sound events) {intent : Option DisplayMediaIntent}
    {vf : VideoFrame} (hframes : FramesIncrease (events ++ [.frame intent vf])) {i : ℕ}
    {w : Worker} (hi : s.workers[i]? = some w) (hdisplay : vf.display = w.display)
    (hstream : vf.streamId = w.streamId)
    (hlast : ∀ (k : ℕ) (v : Worker), i < k → s.workers[k]? = some v → v.display ≠ w.display) :
    (s.modifyWorker i (·.receive vf)).Sound (events ++ [.frame intent vf]) := by
  apply (h.mono _).modifyWorker
  intro u hu
  obtain rfl : w = u := Option.some.inj (hi.symm.trans hu)
  have hreceives := (h.activations.consistent i w hi).receive hstream hdisplay
  refine ⟨hreceives.toMoves, ?_, .inr hlast, ?_⟩
  · intro n hn
    rcases hreceives.ids n hn with h0 | hold | rfl
    · exact .inl h0
    · exact .inr (.inl hold)
    -- The frame is newer than what every worker of its stream has received.
    · by_cases h0 : vf.frameId = 0
      · exact .inl h0
      · refine .inr (.inr fun k v _ hv hsame => ?_)
        refine h.received_lt hframes hv ?_ (hstream.trans hsame.2.symm) h0
        rw [hdisplay, hsame.1]
  · intro hne
    rcases hreceives.received with hold | hnew
    · obtain ⟨earlier, first, hmem, hdisplay', hstream', hnumber'⟩ :=
        h.activations.arrived i w hi (hold ▸ hne)
      exact ⟨earlier, first, List.mem_append_left _ hmem, hdisplay', hstream',
        hnumber'.trans hold.symm⟩
    · exact ⟨intent, vf, by simp, hdisplay, hstream, hnew.symm⟩

theorem Sound.removeStaleThread (h : s.Sound events)
    (display activationGeneration streamId : ℕ) :
    (s.removeStaleThread display activationGeneration streamId).Sound events := by
  unfold State.removeStaleThread
  split_ifs
  · apply h.withThreads
    intro other i hi
    rw [LinkedMap.get?_remove] at hi
    split_ifs at hi
    exact hi
  · exact h

/-- A thread that is left is on the stream of the frame. -/
theorem streamId_of_removeStaleThread {display activationGeneration streamId i : ℕ} {w : Worker}
    (hi : (s.removeStaleThread display activationGeneration streamId).videoThreads.get? display =
      some i)
    (hw : s.workers[i]? = some w) : w.streamId = streamId := by
  unfold State.removeStaleThread at hi
  split_ifs at hi with hstale
  · rw [LinkedMap.get?_remove, if_pos rfl] at hi
    cases hi
  · have hthread : s.videoThread display = some w := by
      simp [State.videoThread, hi, hw]
    rw [hthread] at hstale
    simp at hstale
    exact hstale.2

theorem removeStaleThread_workers (s : State) (display activationGeneration streamId : ℕ) :
    (s.removeStaleThread display activationGeneration streamId).workers = s.workers := by
  unfold State.removeStaleThread
  split_ifs <;> rfl

theorem Sound.deliver (h : s.Sound events) {intent : Option DisplayMediaIntent}
    {vf : VideoFrame} (hframes : FramesIncrease (events ++ [.frame intent vf])) {display : ℕ}
    (hdisplay : vf.display = display) (activationGeneration : ℕ) :
    (s.deliver display activationGeneration vf).Sound (events ++ [.frame intent vf]) := by
  have hkept := h.removeStaleThread display activationGeneration vf.streamId
  unfold State.deliver
  dsimp only
  split
  next i hi =>
    obtain ⟨⟨w, hw, hsame⟩, hlast⟩ := hkept.threads display i hi
    have hstream := streamId_of_removeStaleThread hi (removeStaleThread_workers s .. ▸ hw)
    exact hkept.receive hframes hw (by rw [hdisplay, hsame]) hstream.symm (hsame ▸ hlast)
  -- No thread is left for the display: the frame starts one.
  next =>
    split
    next => exact hkept.mono _
    next state _ =>
      have hnew := hkept.newVideoThread display activationGeneration vf.streamId
        state.renderStreamId
      obtain ⟨⟨w, hw, hsame⟩, hlast⟩ := hnew.threads display _ (by
        unfold State.newVideoThread
        rw [LinkedMap.get?_set, if_pos rfl])
      have hstream : w.streamId = vf.streamId := by
        simp [State.newVideoThread] at hw
        rw [← hw]
      exact hnew.receive hframes hw (by rw [hdisplay, hsame]) hstream.symm (hsame ▸ hlast)

theorem get?_of_foldl_remove {threads : LinkedMap ℕ ℕ} {retired : List ℕ} {display i : ℕ}
    (h : (retired.foldl LinkedMap.remove threads).get? display = some i) :
    threads.get? display = some i := by
  induction retired generalizing threads with
  | nil => exact h
  | cons first retired ih =>
      have hrest := ih h
      rw [LinkedMap.get?_remove] at hrest
      split_ifs at hrest
      exact hrest

theorem Sound.reconcileDisplayIntent (h : s.Sound events) (intent : DisplayMediaIntent) :
    (s.reconcileDisplayIntent intent).Sound events := by
  unfold State.reconcileDisplayIntent
  split_ifs
  · exact h
  · exact (h.withStartup _).withThreads fun display i hi => get?_of_foldl_remove hi

theorem Sound.followIntent (h : s.Sound events) (intent : Option DisplayMediaIntent)
    (display : ℕ) : (s.followIntent intent display).Sound events := by
  unfold State.followIntent
  cases intent with
  | none => exact h.withStartup _
  | some intent =>
      dsimp only
      split_ifs
      · exact h.reconcileDisplayIntent intent
      · exact h

theorem Sound.handleVideoFrame (h : s.Sound events) {intent : Option DisplayMediaIntent}
    {vf : VideoFrame} (hframes : FramesIncrease (events ++ [.frame intent vf])) :
    (s.handleVideoFrame intent vf).Sound (events ++ [.frame intent vf]) := by
  unfold State.handleVideoFrame
  split_ifs with hnegative
  · exact h.mono _
  dsimp only
  split_ifs
  · exact (h.followIntent intent _).mono _
  · have hdisplay : vf.display = (vf.display.toNat : ℤ) := by omega
    have hobserved := (h.followIntent intent vf.display.toNat).withStartup
      ((s.followIntent intent vf.display.toNat).displayStartup.observeFrame vf.display.toNat
        vf.streamId vf.frameId vf.keyframe).1
    split
    · exact hobserved.deliver hframes hdisplay _
    · exact hobserved.mono _

/-! ### Feedback -/

/-- A thread takes what the tracker of a worker says. -/
theorem Sound.addReport (h : s.Sound events) {i : ℕ} {w : Worker} (hi : s.workers[i]? = some w)
    (hstream : w.tracker.streamId ≠ 0) (hreceived : w.tracker.receivedFrameId ≠ 0) :
    Sound events { s with taken := s.taken ++ [(i, w.tracker.feedback)] } := by
  have hcases : ∀ r ∈ State.reports { s with taken := s.taken ++ [(i, w.tracker.feedback)] },
      r ∈ s.reports ∨ r = (i, w.tracker.feedback) := by
    intro r hr
    rcases hr with hr | hr
    · rcases List.mem_append.mp hr with hr | hr
      · exact .inl (.inl hr)
      · exact .inr (List.mem_singleton.mp hr)
    · exact .inl (.inr hr)
  -- All earlier reports of the worker are behind its tracker.
  have hbehind : ∀ g, (i, g) ∈ s.reports → counters g ≤ counters w.tracker.feedback := by
    intro g hg
    obtain ⟨u, hu, -, -, hle⟩ := (h.reported _ hg).source
    obtain rfl : w = u := Option.some.inj (hi.symm.trans hu)
    exact hle
  refine ⟨h.threads, h.activations, ?_, ?_, h.kept⟩
  · intro r hr
    rcases hcases r hr with hold | rfl
    · exact h.reported r hold
    · exact h.activations.reported hi hstream hreceived
  · intro j f g hf hg
    rcases hcases _ hf with hold | hnew <;> rcases hcases _ hg with hold' | hnew'
    · exact h.ordered j f g hold hold'
    · obtain ⟨rfl, rfl⟩ := Prod.mk.inj hnew'
      exact .inl (hbehind f hold)
    · obtain ⟨rfl, rfl⟩ := Prod.mk.inj hnew
      exact .inr (hbehind g hold')
    · obtain ⟨-, rfl⟩ := Prod.mk.inj hnew
      obtain ⟨-, rfl⟩ := Prod.mk.inj hnew'
      exact .inl le_rfl

theorem Sound.takeDue (h : s.Sound events) (i now : ℕ) (force : Bool) :
    (s.takeDue i now force).Sound events := by
  unfold State.takeDue
  cases hi : s.workers[i]? with
  | none => exact h
  | some w =>
      have hshift : ∀ u, s.workers[i]? = some u → Shift events s.workers i u
          { u with tracker := (w.tracker.takeDueAt now force).1 } := by
        intro u hu
        obtain rfl : w = u := Option.some.inj (hi.symm.trans hu)
        exact ((h.activations.consistent i w hi).take now force).shift h.activations hi
      dsimp only
      cases hf : (w.tracker.takeDueAt now force).2 with
      | none =>
          have hnone : s.taken ++ ((none : Option VideoFeedback).map fun f => (i, f)).toList =
              s.taken := by simp
          rw [hnone]
          exact h.modifyWorker hshift
      | some f =>
          obtain ⟨hstream, hreceived, rfl⟩ := Worker.takeDueAt_eq_some hf
          exact (h.addReport hi hstream hreceived).modifyWorker hshift

theorem Sound.send (h : s.Sound events) (position now : ℕ) :
    (s.send position now).Sound events := by
  unfold State.send
  cases htaken : s.taken[position]? with
  | none => exact h
  | some r =>
      obtain ⟨i, f⟩ := r
      dsimp only
      have hmem : (i, f) ∈ s.taken := List.mem_of_getElem? htaken
      have herased : s.taken.eraseIdx position ⊆ s.taken := List.eraseIdx_subset
      by_cases haccepts : s.host.acceptsFeedback f = true
      · -- The report becomes the one the host keeps of its display.
        have hhost : (s.host.handleVideoFeedback f now).videoFeedbackByDisplay =
            s.host.videoFeedbackByDisplay.set f.display f := by
          simp [DeliveryConnection.handleVideoFeedback, haccepts]
        rw [if_pos haccepts]
        have hreports : ∀ r : ℕ × VideoFeedback,
            r ∈ s.taken.eraseIdx position ∨
              (s.reporter.set f.display i).get? r.2.display = some r.1 ∧
                (s.host.handleVideoFeedback f now).videoFeedbackByDisplay.get? r.2.display =
                  some r.2 → r ∈ s.reports := by
          rintro ⟨j, g⟩ (hr | ⟨hreporter, hkept⟩)
          · exact .inl (herased hr)
          · rw [LinkedMap.get?_set] at hreporter
            rw [hhost, LinkedMap.get?_set] at hkept
            by_cases hsame : g.display = f.display
            · rw [if_pos hsame] at hreporter hkept
              obtain rfl := Option.some.inj hreporter
              obtain rfl := Option.some.inj hkept
              exact .inl hmem
            · rw [if_neg hsame] at hreporter hkept
              exact .inr ⟨hreporter, hkept⟩
        refine ⟨h.threads, h.activations, fun r hr => h.reported r (hreports r hr),
          fun j g g' hg hg' => h.ordered j g g' (hreports _ hg) (hreports _ hg'), ?_⟩
        intro display previous hprevious
        rw [hhost, LinkedMap.get?_set] at hprevious
        by_cases hsame : display = f.display
        · rw [if_pos hsame] at hprevious
          obtain rfl := Option.some.inj hprevious
          exact ⟨hsame.symm, List.mem_append_right _ (List.mem_singleton_self _), i,
            by rw [LinkedMap.get?_set, if_pos hsame]⟩
        · rw [if_neg hsame] at hprevious
          obtain ⟨hdisplay, hsent, j, hj⟩ := h.kept display previous hprevious
          exact ⟨hdisplay, List.mem_append_left _ hsent, j,
            by rw [LinkedMap.get?_set, if_neg hsame, hj]⟩
      · have hhost : s.host.handleVideoFeedback f now = s.host := by
          simp [DeliveryConnection.handleVideoFeedback, haccepts]
        rw [if_neg haccepts, hhost]
        have hreports : ∀ r : ℕ × VideoFeedback,
            r ∈ s.taken.eraseIdx position ∨ s.reporter.get? r.2.display = some r.1 ∧
              s.host.videoFeedbackByDisplay.get? r.2.display = some r.2 → r ∈ s.reports := by
          rintro r (hr | hr)
          · exact .inl (herased hr)
          · exact .inr hr
        refine ⟨h.threads, h.activations, fun r hr => h.reported r (hreports r hr),
          fun j g g' hg hg' => h.ordered j g g' (hreports _ hg) (hreports _ hg'), ?_⟩
        intro display previous hprevious
        obtain ⟨hdisplay, hsent, hreporter⟩ := h.kept display previous hprevious
        exact ⟨hdisplay, List.mem_append_left _ hsent, hreporter⟩

/-! ### Whole runs -/

theorem Sound.step (h : s.Sound events) {event : Event}
    (hframes : FramesIncrease (events ++ [event])) :
    (s.step event).Sound (events ++ [event]) := by
  have hmono := h.mono event
  cases event with
  | reconciled intent => exact hmono.reconcileDisplayIntent intent
  | legacyDisplay display => exact hmono.withStartup _
  | frame intent vf => exact h.handleVideoFrame hframes
  | dropped i frames =>
      exact hmono.modifyWorker fun w hw =>
        ((hmono.activations.consistent i w hw).drop frames).shift hmono.activations hw
  | decoded i frameId =>
      exact hmono.modifyWorker fun w hw =>
        ((hmono.activations.consistent i w hw).decode frameId).shift hmono.activations hw
  | rendered i submitted =>
      exact hmono.modifyWorker fun w hw =>
        ((hmono.activations.consistent i w hw).render _ submitted).shift hmono.activations hw
  | recorded i =>
      exact hmono.modifyWorker fun w hw =>
        (hmono.activations.consistent i w hw).record.shift hmono.activations hw
  | taken i now force => exact hmono.takeDue i now force
  | sent position now => exact hmono.send position now

theorem after_concat (events : List Event) (event : Event) :
    State.after (events ++ [event]) = (State.after events).step event := by
  simp [State.after]

theorem sound_after (events : List Event) (hframes : FramesIncrease events) :
    (State.after events).Sound events := by
  induction events using List.reverseRecOn with
  | nil => exact sound_start
  | append_singleton events event ih =>
      rw [after_concat]
      exact (ih (List.pairwise_append.mp hframes).1).step hframes

/-! ## What the host accepts -/

theorem Sound.valid (h : s.Sound events) {i : ℕ} {f : VideoFeedback} (hf : (i, f) ∈ s.reports) :
    validVideoFeedback f = true := by
  have hreported := h.reported _ hf
  obtain ⟨w, -, hdisplay, -⟩ := hreported.source
  have hnonneg : 0 ≤ f.display := by
    rw [hdisplay]
    exact Int.natCast_nonneg _
  simp [validVideoFeedback, hreported.stream, hnonneg, hreported.received, hreported.decoded,
    hreported.rendered]

/-- Reports of one stream, from an earlier and a later worker: the later one knows only
frames that are newer than all those of the earlier one. -/
theorem Sound.lt_of_lt (h : s.Sound events) {i j : ℕ} {f g : VideoFeedback}
    (hf : (i, f) ∈ s.reports) (hg : (j, g) ∈ s.reports) (hij : i < j)
    (hdisplay : f.display = g.display) (hstream : f.streamId = g.streamId) :
    ∀ n ∈ [g.receivedFrameId, g.decodedFrameId, g.renderSubmittedFrameId],
      n = 0 ∨ f.receivedFrameId < n := by
  intro n hn
  obtain ⟨v, hv, hdisplay', hstream', hle⟩ := (h.reported _ hf).source
  have hreceived : f.receivedFrameId ≤ v.tracker.receivedFrameId := (counters_le_iff.mp hle).1
  rcases (h.reported _ hg).newer i v hij hv (hdisplay'.symm.trans hdisplay)
    (hstream'.symm.trans hstream) n hn with h0 | hlt
  · exact .inl h0
  · exact .inr (hreceived.trans_lt hlt)

/-- Feedback of a newer frame is not behind the report of the same stream that the host
keeps exactly when it comes from the worker of that report, or from a later one with as
many drops. -/
theorem Sound.regressed_iff (h : s.Sound events) {i j : ℕ} {f previous : VideoFeedback}
    (hf : (i, f) ∈ s.reports) (hprevious : (j, previous) ∈ s.reports)
    (hdisplay : previous.display = f.display) (hstream : previous.streamId = f.streamId)
    (hnewer : previous.renderSubmittedFrameId < f.renderSubmittedFrameId) :
    videoFeedbackRegressed previous f = false ↔
      j = i ∨ j < i ∧ previous.droppedFrames ≤ f.droppedFrames := by
  rw [videoFeedbackRegressed_eq_false_iff hstream]
  obtain ⟨hdecoded, hrendered⟩ := And.intro (h.reported _ hf).decoded (h.reported _ hf).rendered
  have hprevDecoded := (h.reported _ hprevious).decoded
  dsimp only at hdecoded hrendered hprevDecoded
  constructor
  · intro hle
    rcases lt_trichotomy j i with hlt | heq | hgt
    · exact .inr ⟨hlt, (counters_le_iff.mp hle).2.2.2⟩
    · exact .inl heq
    · -- What a later worker has received is newer.
      have hbehind := h.lt_of_lt hf hprevious hgt hdisplay.symm hstream.symm
        previous.receivedFrameId (by simp)
      have hsome := (h.reported _ hprevious).received
      have hreceived := (counters_le_iff.mp hle).1
      dsimp only at hsome
      omega
  · rintro (rfl | ⟨hlt, hdropped⟩)
    -- One tracker made both, and the newer frame tells which came first.
    · rcases h.ordered j previous f hprevious hf with hle | hle
      · exact hle
      · have hrendered' := (counters_le_iff.mp hle).2.2.1
        omega
    · have hahead := h.lt_of_lt hprevious hf hlt hdisplay hstream f.renderSubmittedFrameId
        (by simp)
      exact counters_le_iff.mpr ⟨by omega, by omega, hnewer.le, hdropped⟩

end State

theorem acceptable_iff {events : List Event} (hframes : FramesIncrease events) (event : Event) :
    Acceptable events event ↔ Continues events event := by
  have h := State.sound_after events hframes
  have hreports : ∀ {i f}, (State.after events).sends event = some (i, f) →
      (i, f) ∈ (State.after events).reports := by
    intro i f hsends
    cases event with
    | sent position now => exact .inl (List.mem_of_getElem? hsends)
    | _ => cases hsends
  -- The report the host keeps was sent before, so the frame is newer than its frame.
  have hkept : ∀ {f j previous}, (State.after events).Newest f →
      (State.after events).reporter.get? f.display = some j →
      (State.after events).host.videoFeedbackByDisplay.get? f.display = some previous →
      (j, previous) ∈ (State.after events).reports ∧ previous.display = f.display ∧
        (previous.streamId < f.streamId ∨ previous.streamId = f.streamId ∧
          previous.renderSubmittedFrameId < f.renderSubmittedFrameId) := by
    intro f j previous hnewest hj hprevious
    obtain ⟨hdisplay, hsent, -⟩ := h.kept f.display previous hprevious
    refine ⟨.inr ?_, hdisplay, hnewest.2 previous hsent hdisplay⟩
    rw [hdisplay]
    exact ⟨hj, hprevious⟩
  constructor
  · intro hacceptable i f hsends hnewest j previous hj hprevious hstream
    obtain ⟨hreport, hdisplay, hnewer⟩ := hkept hnewest hj hprevious
    have hnewer' : previous.renderSubmittedFrameId < f.renderSubmittedFrameId := by omega
    exact (h.regressed_iff (hreports hsends) hreport hdisplay hstream hnewer').mp
      ((hacceptable i f hsends).2 hnewest previous hprevious)
  · intro hcontinues i f hsends
    refine ⟨h.valid (hreports hsends), fun hnewest previous hprevious => ?_⟩
    obtain ⟨-, -, j, hj⟩ := h.kept f.display previous hprevious
    obtain ⟨hreport, hdisplay, hnewer⟩ := hkept hnewest hj hprevious
    rcases hnewer with hlt | ⟨hstream, hlt⟩
    · exact videoFeedbackRegressed_of_lt hlt
    · exact (h.regressed_iff (hreports hsends) hreport hdisplay hstream hlt).mpr
        (hcontinues i f hsends hnewest j previous hj hprevious hstream)

theorem FramesIncrease.before {before after : List Event}
    (h : FramesIncrease (before ++ after)) : FramesIncrease before :=
  (List.pairwise_append.mp h).1

/-- Throughout a run all feedback is valid; and none that reports a newer frame is
rejected as regressed exactly when each such report comes from the worker of the report
the host keeps of the stream, or from a later one that has counted as many drops. -/
theorem always_acceptable_iff (events : List Event) (hframes : FramesIncrease events) :
    Always Acceptable events ↔ Always Continues events := by
  constructor
  · rintro h before event after rfl
    exact (acceptable_iff hframes.before event).mp (h before event after rfl)
  · rintro h before event after rfl
    exact (acceptable_iff hframes.before event).mpr (h before event after rfl)

/-- An intent of one logical session. -/
def intentAt (aggregateGeneration : ℕ) (displays : List (ℕ × ℕ)) : DisplayMediaIntent where
  logicalSessionGeneration := 1
  aggregateGeneration := aggregateGeneration
  displays := (∅ : LinkedMap ℕ ℕ).setAll displays

/-- A keyframe and a delta arrive; `dropped` are dropped, and the worker reports.  The
display is left and wanted again while the host goes on with its stream: a new worker
decodes and renders the next keyframe and takes its report. -/
def reactivatedEvents (dropped : List ℕ) : List Event :=
  [.reconciled (intentAt 1 [(0, 1)]),
    .frame (some (intentAt 1 [(0, 1)])) ⟨0, 1, 1, some true⟩,
    .frame (some (intentAt 1 [(0, 1)])) ⟨0, 1, 2, some false⟩,
    .dropped 0 dropped, .taken 0 0 true, .sent 0 0,
    .reconciled (intentAt 2 []), .reconciled (intentAt 3 [(0, 2)]),
    .frame (some (intentAt 3 [(0, 2)])) ⟨0, 1, 3, some true⟩,
    .decoded 1 3, .rendered 1 true, .recorded 1, .taken 1 100 false]

theorem framesIncrease_reactivated (dropped : List ℕ) :
    FramesIncrease (reactivatedEvents dropped ++ [.sent 0 101]) := by
  simp [FramesIncrease, reactivatedEvents]

theorem always_acceptable_iff_reactivated :
    FramesIncrease (reactivatedEvents [] ++ [.sent 0 101]) ∧
      (Always Acceptable (reactivatedEvents [] ++ [.sent 0 101]) ↔
        Always Continues (reactivatedEvents [] ++ [.sent 0 101])) :=
  ⟨framesIncrease_reactivated [],
    always_acceptable_iff _ (framesIncrease_reactivated [])⟩

/-- The first worker reported a drop; the report of the second one, of a frame newer than
any, counts none and is rejected. -/
theorem not_acceptable_reactivated :
    ¬ ∀ events, FramesIncrease events → Always Acceptable events := by
  intro h
  have hacceptable := h _ (framesIncrease_reactivated [2]) (reactivatedEvents [2])
    (.sent 0 101) [] rfl
  have hsends : (State.after (reactivatedEvents [2])).sends (.sent 0 101) =
      some (1, ⟨0, 1, 3, 3, 3, 0⟩) := by rfl
  have hnewest : (State.after (reactivatedEvents [2])).Newest ⟨0, 1, 3, 3, 3, 0⟩ := by
    have hsent : (State.after (reactivatedEvents [2])).sent = [⟨0, 1, 2, 0, 0, 1⟩] := by rfl
    simp [State.Newest, hsent]
  have hregressed := (hacceptable 1 _ hsends).2 hnewest ⟨0, 1, 2, 0, 0, 1⟩ (by rfl)
  simp [videoFeedbackRegressed] at hregressed

end RustAdmin.Viewer.Feedback
