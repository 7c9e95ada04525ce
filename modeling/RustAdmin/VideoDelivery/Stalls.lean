import RustAdmin.VideoDelivery.Recovery

/-!
# Recovery only from a stall

`poll_recovery` (`src/src/server/connection.rs`) opens a recovery cycle after the
decoder has not advanced for a time while frames were ahead of it.  The clock of
this time, `decode_pending_since`, starts in four places.

Every call either restarts the clock of a display now or leaves both the clock and the
decoder (`displayMove_restarts`).  So `Clocked` holds behind a run: where the clock
runs, the display has been stalled at one frame since it started.  A poll opens a
cycle only once the clock has run out (`poll_opens`).  The time of the first frame
takes no part in that: `poll_ignoresStart` replaces it.
-/

namespace RustAdmin.VideoDelivery

open RustAdmin.Support

/-! ## The clock of a display -/

/-- The host has sent a frame that the decoder has not reached. -/
def VideoDeliveryState.Ahead (state : VideoDeliveryState) : Prop :=
  state.highestDecodedFrameId < state.hostHighestSentFrameId

/-- The decoder did not move, and the host was ahead before if it is now. -/
structure Keeps (state state' : VideoDeliveryState) : Prop where
  stream : state'.streamId = state.streamId
  decoded : state'.highestDecodedFrameId = state.highestDecodedFrameId
  pending : state'.decodePendingSince = state.decodePendingSince
  ahead : state'.Ahead → state.Ahead

theorem keeps_refl (state : VideoDeliveryState) : Keeps state state := ⟨rfl, rfl, rfl, id⟩

/-- The host has the viewer's frontier at most at what the viewer has seen of it. -/
def VideoDeliveryState.Bounded (state : VideoDeliveryState) : Prop :=
  state.hostHighestSentFrameId ≤ state.highestSentFrameId

/-- What a step leaves of the clock: it starts now, or all stays. -/
def Restarts (now : ℕ) (state state' : VideoDeliveryState) : Prop :=
  (state'.Ahead → state'.decodePendingSince = some now) ∨ Keeps state state'

theorem issueRecovery_keeps (state : VideoDeliveryState) (display : ℤ)
    (now networkDelayMs stalled : ℕ) :
    (state.Bounded → (state.issueRecovery display now networkDelayMs stalled).1.Bounded) ∧
      Keeps state (state.issueRecovery display now networkDelayMs stalled).1 := by
  have houtcome := issueOutcome state display now networkDelayMs stalled
  generalize (state.issueRecovery display now networkDelayMs stalled).1 = state' at houtcome ⊢
  generalize (state.issueRecovery display now networkDelayMs stalled).2 = action at houtcome
  cases houtcome <;> exact ⟨id, rfl, rfl, rfl, id⟩

theorem frameSent_restarts {state : VideoDeliveryState} (hbounded : state.Bounded)
    (frame : VideoFrame) (now : ℕ) :
    (state.frameSent frame now).Bounded ∧ Restarts now state (state.frameSent frame now) := by
  unfold VideoDeliveryState.frameSent
  split
  · exact ⟨Nat.le_refl _, .inl fun _ => rfl⟩
  · dsimp only
    by_cases hnewer : state.hostHighestSentFrameId < frame.frameId
    · rw [if_pos hnewer]
      by_cases hcaught : state.hostHighestSentFrameId ≤ state.highestDecodedFrameId
      · -- the host gets ahead with this frame
        rw [if_pos ⟨hnewer, hcaught⟩]
        exact ⟨Nat.le_max_right _ _, .inl fun _ => rfl⟩
      · rw [if_neg fun h => hcaught h.2]
        exact ⟨Nat.le_max_right _ _, .inr ⟨rfl, rfl, rfl, fun _ => Nat.lt_of_not_le hcaught⟩⟩
    · rw [if_neg hnewer, if_neg fun h => hnewer h.1]
      refine ⟨?_, .inr ⟨rfl, rfl, rfl, id⟩⟩
      exact Nat.le_trans hbounded (Nat.le_max_left _ _)

theorem feedbackReceived_restarts {state : VideoDeliveryState} (hbounded : state.Bounded)
    (feedback : VideoFeedback) (now : ℕ) :
    (state.feedbackReceived feedback now).Bounded ∧
      Restarts now state (state.feedbackReceived feedback now) := by
  unfold VideoDeliveryState.feedbackReceived
  dsimp only
  split
  · exact ⟨Nat.le_trans hbounded (Nat.le_max_left _ _), .inl fun _ => rfl⟩
  · exact ⟨Nat.le_trans hbounded (Nat.le_max_left _ _), .inr ⟨rfl, rfl, rfl, id⟩⟩

theorem feedbackDecoded_restarts {state : VideoDeliveryState} (hbounded : state.Bounded)
    (feedback : VideoFeedback) (now : ℕ) :
    (state.feedbackDecoded feedback now).Bounded ∧
      Restarts now state (state.feedbackDecoded feedback now) := by
  have hclock : (state.decodedTo feedback.decodedFrameId now).Ahead →
      (state.decodedTo feedback.decodedFrameId now).decodePendingSince = some now := by
    intro hahead
    exact if_neg (Nat.not_le.mpr hahead)
  unfold VideoDeliveryState.feedbackDecoded
  split
  · dsimp only
    split
    · exact ⟨hbounded, .inl hclock⟩
    · split
      · exact ⟨hbounded, .inl hclock⟩
      · exact ⟨hbounded, .inl hclock⟩
  · exact ⟨hbounded, .inr (keeps_refl state)⟩

/-- Two parts of a step that both restart the clock or keep it. -/
theorem Restarts.trans {now : ℕ} {first second third : VideoDeliveryState}
    (h : Restarts now first second) (h' : Restarts now second third) :
    Restarts now first third := by
  obtain hclock' | hkeeps' := h'
  · exact .inl hclock'
  · obtain hclock | hkeeps := h
    · exact .inl fun hahead => hkeeps'.pending.trans (hclock (hkeeps'.ahead hahead))
    · exact .inr ⟨hkeeps'.stream.trans hkeeps.stream, hkeeps'.decoded.trans hkeeps.decoded,
        hkeeps'.pending.trans hkeeps.pending, fun hahead => hkeeps.ahead (hkeeps'.ahead hahead)⟩

theorem feedback_restarts {state : VideoDeliveryState} (hbounded : state.Bounded)
    (feedback : VideoFeedback) (now : ℕ) :
    (state.feedback feedback now).Bounded ∧ Restarts now state (state.feedback feedback now) := by
  -- what the viewer has rendered does not touch the clock
  have hsame : ∀ (current : VideoDeliveryState) (rendered : ℕ), current.Bounded →
      VideoDeliveryState.Bounded
          { (current.feedbackReceived feedback now).feedbackDecoded feedback now with
            highestRenderSubmittedFrameId := rendered } ∧
        Restarts now current
          { (current.feedbackReceived feedback now).feedbackDecoded feedback now with
            highestRenderSubmittedFrameId := rendered } := by
    intro current rendered hcurrent
    obtain ⟨hreceived, hfirst⟩ := feedbackReceived_restarts hcurrent feedback now
    obtain ⟨hdecoded, hsecond⟩ := feedbackDecoded_restarts hreceived feedback now
    exact ⟨hdecoded, (hfirst.trans hsecond).trans (.inr ⟨rfl, rfl, rfl, id⟩)⟩
  unfold VideoDeliveryState.feedback
  dsimp only
  by_cases hstream : state.streamId = feedback.streamId
  · rw [if_neg (not_not.mpr hstream)]
    exact hsame state _ hbounded
  · rw [if_pos hstream]
    have hfresh : (VideoDeliveryState.new feedback.streamId 0 now).Bounded := Nat.le_refl _
    obtain ⟨hbounded', hclock | hkeeps⟩ := hsame _
      (max ((VideoDeliveryState.new feedback.streamId 0 now).feedbackReceived feedback
        now |>.feedbackDecoded feedback now).highestRenderSubmittedFrameId
          feedback.renderSubmittedFrameId) hfresh
    · exact ⟨hbounded', .inl hclock⟩
    · exact ⟨hbounded', .inl fun _ => hkeeps.pending⟩

/-- A display that moves restarts its clock or keeps it. -/
theorem displayMove_restarts {display : ℤ} {now : ℕ} {state state' : Option VideoDeliveryState}
    {actions : List VideoRecoveryAction} (hmove : DisplayMove display now state state' actions)
    (hbounded : ∀ s, state = some s → s.Bounded) :
    ∀ s', state' = some s' → s'.Bounded ∧
      ((s'.Ahead → s'.decodePendingSince = some now) ∨ ∃ s, state = some s ∧ Keeps s s') := by
  intro s' hs'
  have hlift : ∀ s : VideoDeliveryState, state = some s → s'.Bounded ∧ Restarts now s s' →
      s'.Bounded ∧
        ((s'.Ahead → s'.decodePendingSince = some now) ∨ ∃ s, state = some s ∧ Keeps s s') := by
    rintro s hs ⟨hnext, hclock | hkeeps⟩
    · exact ⟨hnext, .inl hclock⟩
    · exact ⟨hnext, .inr ⟨s, hs, hkeeps⟩⟩
  have hnew : ∀ streamId frontier, (VideoDeliveryState.new streamId frontier now).Bounded ∧
      (VideoDeliveryState.new streamId frontier now).decodePendingSince = some now :=
    fun _ _ => ⟨Nat.le_refl _, rfl⟩
  -- a display that is not tracked begins with a state whose clock has just started
  have hbegin : ∀ first : VideoDeliveryState, first.decodePendingSince = some now →
      s'.Bounded ∧ Restarts now first s' →
        s'.Bounded ∧
          ((s'.Ahead → s'.decodePendingSince = some now) ∨ ∃ s, state = some s ∧ Keeps s s') := by
    rintro first hfirst ⟨hnext, hclock | hkeeps⟩
    · exact ⟨hnext, .inl hclock⟩
    · exact ⟨hnext, .inl fun _ => hkeeps.pending.trans hfirst⟩
  cases hmove with
  | keep => exact hlift s' hs' ⟨hbounded s' hs', .inr (keeps_refl s')⟩
  | frameSent _ frame =>
      obtain rfl := Option.some.inj hs'
      cases state with
      | none =>
          obtain ⟨hfirst, hclock⟩ := hnew frame.streamId frame.frameId
          exact hbegin _ hclock (frameSent_restarts hfirst frame now)
      | some s => exact hlift s rfl (frameSent_restarts (hbounded s rfl) frame now)
  | feedback _ feedback =>
      obtain rfl := Option.some.inj hs'
      cases state with
      | none =>
          obtain ⟨hfirst, hclock⟩ := hnew feedback.streamId 0
          exact hbegin _ hclock (feedback_restarts hfirst feedback now)
      | some s => exact hlift s rfl (feedback_restarts (hbounded s rfl) feedback now)
  | issue s networkDelayMs stalled =>
      obtain rfl := Option.some.inj hs'
      obtain ⟨hnext, hkeeps⟩ := issueRecovery_keeps s display now networkDelayMs stalled
      exact hlift s rfl ⟨hnext (hbounded s rfl), .inr hkeeps⟩

/-! ## Runs -/

/-- What a run leaves of a display. -/
def stateAfter (events : List DeliveryEvent) (display : ℤ) : Option VideoDeliveryState :=
  (deliveryRun events).controller.byDisplay.get? display

theorem stateAfter_concat (events : List DeliveryEvent) (event : DeliveryEvent) (display : ℤ) :
    stateAfter (events ++ [event]) display =
      ((deliveryRun events).controller.handle event).1.byDisplay.get? display := by
  unfold stateAfter deliveryRun
  rw [List.foldl_append]
  rfl

/-- The host is ahead of a decoder at this frame of this stream. -/
def StalledAt (events : List DeliveryEvent) (display : ℤ) (streamId decoded : ℕ) : Prop :=
  ∃ state, stateAfter events display = some state ∧ state.streamId = streamId ∧
    state.highestDecodedFrameId = decoded ∧ state.Ahead

/-- Since an event at this time the decoder has been stalled at this frame. -/
def AheadSince (events : List DeliveryEvent) (display : ℤ) (since streamId decoded : ℕ) : Prop :=
  ∃ before event after, events = before ++ event :: after ∧ event.time = since ∧
    ∀ front, front <+: after → StalledAt (before ++ event :: front) display streamId decoded

theorem AheadSince.concat {events : List DeliveryEvent} {display : ℤ}
    {since streamId decoded : ℕ} (h : AheadSince events display since streamId decoded)
    {event : DeliveryEvent} (hstalled : StalledAt (events ++ [event]) display streamId decoded) :
    AheadSince (events ++ [event]) display since streamId decoded := by
  obtain ⟨before, first, after, rfl, htime, hafter⟩ := h
  refine ⟨before, first, after ++ [event], by simp, htime, ?_⟩
  intro front hfront
  obtain rfl | hfront := List.prefix_concat_iff.mp hfront
  · simpa using hstalled
  · exact hafter front hfront

/-- The clock of a display behind a run. -/
structure Clocked (events : List DeliveryEvent) (display : ℤ) (state : VideoDeliveryState) :
    Prop where
  bounded : state.Bounded
  pending : state.Ahead → ∃ since, state.decodePendingSince = some since ∧
    AheadSince events display since state.streamId state.highestDecodedFrameId

theorem clocked_run (events : List DeliveryEvent) (display : ℤ) :
    ∀ state, stateAfter events display = some state → Clocked events display state := by
  induction events using List.reverseRecOn with
  | nil =>
      intro state hstate
      simp [stateAfter, deliveryRun, LinkedMap.get?_empty] at hstate
  | append_singleton events event ih =>
      intro state' hstate'
      have hmove := VideoDeliveryController.displayMove_handle
        (c := (deliveryRun events).controller) event display
      rw [stateAfter_concat] at hstate'
      obtain ⟨hbounded, hclock⟩ :=
        displayMove_restarts hmove (fun s hs => (ih s hs).bounded) state' hstate'
      refine ⟨hbounded, fun hahead => ?_⟩
      have hstalled : StalledAt (events ++ [event]) display state'.streamId
          state'.highestDecodedFrameId :=
        ⟨state', (stateAfter_concat events event display).trans hstate', rfl, rfl, hahead⟩
      obtain hclock | ⟨s, hs, hkeeps⟩ := hclock
      · refine ⟨event.time, hclock hahead, events, event, [], rfl, rfl, ?_⟩
        intro front hfront
        rw [List.prefix_nil.mp hfront]
        exact hstalled
      · obtain ⟨since, hsince, hrun⟩ := (ih s hs).pending (hkeeps.ahead hahead)
        refine ⟨since, hkeeps.pending.trans hsince, ?_⟩
        rw [← hkeeps.stream, ← hkeeps.decoded] at hrun
        exact hrun.concat hstalled

/-! ## Polls -/

/-- In every state that holds at some time of the last `timeout` before `now` the
decoder is stalled at one frame. -/
def StalledFor (events : List DeliveryEvent) (display : ℤ) (now timeout : ℕ) : Prop :=
  ∃ streamId decoded, ∀ front rest, events = front ++ rest →
    (∀ next ∈ rest.head?, now < next.time + timeout) → StalledAt front display streamId decoded

theorem AheadSince.stalledFor {events : List DeliveryEvent} {display : ℤ}
    {since streamId decoded now timeout : ℕ}
    (h : AheadSince events display since streamId decoded)
    (hsorted : events.Pairwise fun e f => e.time ≤ f.time) (hlong : since + timeout ≤ now) :
    StalledFor events display now timeout := by
  obtain ⟨before, event, after, rfl, rfl, hafter⟩ := h
  refine ⟨streamId, decoded, ?_⟩
  intro front rest hsplit hlate
  obtain ⟨more, hfront, hrest⟩ | ⟨more, hbefore, hrest⟩ := List.append_eq_append_iff.mp hsplit
  · cases more with
    | nil =>
        -- the next event is the one that started the clock
        rw [List.nil_append] at hrest
        have hnext := hlate event (by simp [← hrest])
        omega
    | cons first more =>
        rw [List.cons_append, List.cons.injEq] at hrest
        obtain ⟨rfl, hrest⟩ := hrest
        rw [hfront]
        exact hafter more ⟨rest, hrest.symm⟩
  · -- the next event comes before
    cases more with
    | nil =>
        rw [List.nil_append] at hrest
        have hnext := hlate event (by simp [hrest])
        omega
    | cons first more =>
        have hnext := hlate first (by simp [hrest])
        have hle : first.time ≤ event.time := by
          rw [hbefore] at hsorted
          refine (List.pairwise_append.mp hsorted).2.2 first ?_ event List.mem_cons_self
          exact List.mem_append_right _ List.mem_cons_self
        omega

/-- A poll opens a cycle of a display only once the clock has run out. -/
theorem poll_opens {state : VideoDeliveryState} {display : ℤ} {now networkDelayMs : ℕ}
    {action : VideoRecoveryAction} (htarget : state.recoveryTargetFrameId = none)
    (h : (state.poll display now networkDelayMs).2 = some action) :
    state.Ahead ∧ progressTimeout networkDelayMs ≤
      now - state.decodePendingSince.getD state.firstSentAt := by
  unfold VideoDeliveryState.poll at h
  rw [if_neg (by simp [htarget])] at h
  split at h
  · simp at h
  · next hahead =>
      dsimp only at h
      split at h
      · simp at h
      · split at h
        · simp at h
        · next hlong => exact ⟨Nat.lt_of_not_le hahead, Nat.le_of_not_lt hlong⟩

theorem progressTimeout_pos (networkDelayMs : ℕ) : 0 < progressTimeout networkDelayMs := by
  unfold progressTimeout videoDeliveryMinProgressTimeout videoDeliveryMaxProgressTimeout millis
    secs
  dsimp only
  omega

/-- The time of the session's first frame, where nothing else is known. -/
def VideoDeliveryState.startedAt (state : VideoDeliveryState) (time : ℕ) : VideoDeliveryState :=
  { state with firstSentAt := time }

/-- The outcome does not read the time of the first frame. -/
def IgnoresStart (state : VideoDeliveryState)
    (act : VideoDeliveryState → VideoDeliveryState × Option VideoRecoveryAction) : Prop :=
  ∀ time, act (state.startedAt time) = ((act state).1.startedAt time, (act state).2)

theorem progressAt_startedAt {state : VideoDeliveryState} (hrefreshed : state.lastRefreshAt ≠ none)
    (time : ℕ) : (state.startedAt time).progressAt = state.progressAt := by
  obtain ⟨refresh, hrefresh⟩ := Option.ne_none_iff_exists'.mp hrefreshed
  unfold VideoDeliveryState.progressAt VideoDeliveryState.startedAt
  rw [hrefresh]
  cases state.recoveryProgressAt <;> rfl

theorem issueRecovery_ignoresStart {state : VideoDeliveryState}
    (hrefreshed : state.recoveryTargetFrameId ≠ none → state.lastRefreshAt ≠ none)
    (display : ℤ) (now networkDelayMs stalled : ℕ) :
    IgnoresStart state fun state => state.issueRecovery display now networkDelayMs stalled := by
  intro time
  let forget : VideoDeliveryState × Option VideoRecoveryAction →
      VideoDeliveryState × Option VideoRecoveryAction :=
    fun result => (result.1.startedAt time, result.2)
  show _ = forget (state.issueRecovery display now networkDelayMs stalled)
  cases htarget : state.recoveryTargetFrameId with
  | none =>
      have htarget' : (state.startedAt time).recoveryTargetFrameId = none := htarget
      simp only [VideoDeliveryState.issueRecovery, htarget, htarget', Option.any_none,
        Bool.false_eq_true, if_false, apply_ite forget]
      rfl
  | some target =>
      have hsame := progressAt_startedAt (hrefreshed (by simp [htarget])) time
      simp only [VideoDeliveryState.issueRecovery, hsame, apply_ite forget]
      rfl

theorem poll_ignoresStart {state : VideoDeliveryState}
    (hpending : state.Ahead → state.decodePendingSince ≠ none)
    (hrefreshed : state.recoveryTargetFrameId ≠ none → state.lastRefreshAt ≠ none)
    (display : ℤ) (now networkDelayMs : ℕ) :
    IgnoresStart state fun state => state.poll display now networkDelayMs := by
  intro time
  have hissue : ∀ stalled, (state.startedAt time).issueRecovery display now networkDelayMs stalled =
      ((state.issueRecovery display now networkDelayMs stalled).1.startedAt time,
        (state.issueRecovery display now networkDelayMs stalled).2) := fun stalled =>
    issueRecovery_ignoresStart hrefreshed display now networkDelayMs stalled time
  let forget : VideoDeliveryState × Option VideoRecoveryAction →
      VideoDeliveryState × Option VideoRecoveryAction :=
    fun result => (result.1.startedAt time, result.2)
  show _ = forget (state.poll display now networkDelayMs)
  cases htarget : state.recoveryTargetFrameId with
  | some target =>
      have hprogress := progressAt_startedAt (hrefreshed (by simp [htarget])) time
      have htarget' : (state.startedAt time).recoveryTargetFrameId = some target := htarget
      simp only [VideoDeliveryState.poll, htarget, htarget', Option.isSome_some, if_true,
        hprogress, hissue]
      rfl
  | none =>
      have htarget' : (state.startedAt time).recoveryTargetFrameId = none := htarget
      by_cases hahead : state.Ahead
      · obtain ⟨since, hsince⟩ := Option.ne_none_iff_exists'.mp (hpending hahead)
        have hsince' : (state.startedAt time).decodePendingSince = some since := hsince
        simp only [VideoDeliveryState.poll, htarget, htarget', hsince, hsince',
          Option.isSome_none, Bool.false_eq_true, if_false, Option.getD_some, hissue,
          apply_ite forget]
        rfl
      · have hreached : state.hostHighestSentFrameId ≤ state.highestDecodedFrameId :=
          Nat.le_of_not_lt hahead
        have hreached' : (state.startedAt time).hostHighestSentFrameId ≤
            (state.startedAt time).highestDecodedFrameId := hreached
        simp only [VideoDeliveryState.poll, htarget, htarget', Option.isSome_none,
          Bool.false_eq_true, if_false, if_pos hreached, if_pos hreached']
        rfl

/-! ## Recovery after a stall -/

/-- **No false video recovery.**  A poll opens a recovery cycle of a display, an
action while no target is set, only after the decoder has been stalled at one
frame for the whole progress timeout; and while the host is ahead the clock is
set, so no poll reads the time of the first frame. -/
theorem poll_recovers_stalled {events : List DeliveryEvent}
    (hsorted : events.Pairwise fun e f => e.time ≤ f.time) (now networkDelayMs : ℕ) :
    (∀ action ∈ ((deliveryRun events).controller.pollRecovery now networkDelayMs).2,
        (deliveryRun events).controller.targetOf action.display = none →
          StalledFor events action.display now (progressTimeout networkDelayMs)) ∧
      ∀ display state, stateAfter events display = some state →
        (state.Ahead → state.decodePendingSince ≠ none) ∧
          IgnoresStart state fun state => state.poll display now networkDelayMs := by
  constructor
  · intro action haction htarget
    obtain ⟨⟨display, state⟩, hentry, hpoll⟩ := List.mem_filterMap.mp haction
    have hstate : stateAfter events display = some state :=
      LinkedMap.mem_entries_iff.mp hentry
    have hdisplay : action.display = display := by
      obtain hnone | ⟨stalled, hissue⟩ := poll_cases state display now networkDelayMs
      · rw [hnone] at hpoll
        exact nomatch hpoll
      · rw [hissue] at hpoll
        exact issueRecovery_display hpoll
    rw [hdisplay] at htarget ⊢
    have hnone : state.recoveryTargetFrameId = none := by
      unfold stateAfter at hstate
      rw [VideoDeliveryController.targetOf, hstate] at htarget
      exact htarget
    obtain ⟨hahead, hlong⟩ := poll_opens hnone hpoll
    obtain ⟨since, hsince, hrun⟩ := (clocked_run events display state hstate).pending hahead
    rw [hsince, Option.getD_some] at hlong
    have hpos := progressTimeout_pos networkDelayMs
    exact hrun.stalledFor hsorted (by omega)
  · intro display state hstate
    have hclocked := clocked_run events display state hstate
    have hpending : state.Ahead → state.decodePendingSince ≠ none := by
      intro hahead
      obtain ⟨since, hsince, -⟩ := hclocked.pending hahead
      simp [hsince]
    refine ⟨hpending, poll_ignoresStart hpending ?_ display now networkDelayMs⟩
    intro htarget hnone
    have hpaced := pacedDisplay_run events display
    unfold stateAfter at hstate
    rw [hstate] at hpaced
    have hissued : Paced state ((deliveryRun events).issued display) := hpaced
    refine htarget (hissued.idle ?_)
    have hlast := hissued.lastRefresh_eq
    rw [hnone] at hlast
    simpa using hlast.symm

/-- A frame is sent and nothing is decoded for a second. -/
theorem poll_recovers_stalled_second :
    StalledFor [⟨0, 0, .frameSent ⟨0, 1, 3⟩⟩] 0 (secs 1) (progressTimeout 0) := by
  have hsorted : [(⟨0, 0, .frameSent ⟨0, 1, 3⟩⟩ : DeliveryEvent)].Pairwise
      fun e f => e.time ≤ f.time := List.pairwise_singleton _ _
  have hopened := (poll_recovers_stalled hsorted (secs 1) 0).1
    ⟨0, 1, 3, 0, 0, 1000, .starting, 1, 0⟩ (by decide)
  exact hopened (by decide)

end RustAdmin.VideoDelivery
