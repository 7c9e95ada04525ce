import RustAdmin.VideoDelivery.Recovery

/-!
# The stream a display is tracked on

A frame of another stream, and feedback of another stream, replace the delivery
state of a display.  The connection drops feedback that goes back behind earlier
feedback; it does not compare it with what was sent.

`Tracked` says of every tracked display that its stream and frontier are those of the
frames sent on it.  Frames, polls and refreshes keep it (`tracked_frameSent`,
`tracked_poll`, `tracked_refresh`); feedback does exactly if it names the last stream,
since it puts the display on the stream it names (`streamId_handleVideoFeedback`).
-/

namespace RustAdmin.VideoDelivery

open RustAdmin.Support

/-! ## Feedback as the connection takes it -/

/-- The fields of a connection that video feedback touches. -/
structure DeliveryConnection where
  videoDelivery : VideoDeliveryController := {}
  videoFeedbackByDisplay : LinkedMap ℤ VideoFeedback := ∅

namespace DeliveryConnection

variable (conn : DeliveryConnection)

/-- The checks of `handle_video_feedback`. -/
def acceptsFeedback (feedback : VideoFeedback) : Bool :=
  let previous := conn.videoFeedbackByDisplay.get? feedback.display
  validVideoFeedback feedback &&
    !(previous.any fun state => videoFeedbackRegressed state feedback) &&
    !(previous.isNone &&
      decide (maxVideoFeedbackDisplays ≤ conn.videoFeedbackByDisplay.keys.length))

/-- `handle_video_feedback`. -/
def handleVideoFeedback (feedback : VideoFeedback) (now : ℕ) : DeliveryConnection :=
  if conn.acceptsFeedback feedback then
    { videoFeedbackByDisplay := conn.videoFeedbackByDisplay.set feedback.display feedback
      videoDelivery := (conn.videoDelivery.onFeedback feedback now).1 }
  else conn

/-- The connection after a frame was sent or a message was handled. -/
def next (event : DeliveryEvent) : DeliveryConnection :=
  match event.call with
  | .feedback feedback => conn.handleVideoFeedback feedback event.time
  | _ => { conn with videoDelivery := (conn.videoDelivery.handle event).1 }

end DeliveryConnection

/-- A connection after a run. -/
def connectionRun (events : List DeliveryEvent) : DeliveryConnection :=
  events.foldl DeliveryConnection.next {}

/-! ## What was sent -/

/-- A frame with a stamp; others are not tracked. -/
def VideoFrame.stamped (frame : VideoFrame) : Bool :=
  frame.streamId ≠ 0 && frame.frameId ≠ 0 && decide (0 ≤ frame.display)

/-- The stream last sent on a display and the highest frame sent since. -/
def noteSent (display : ℤ) (sent : Option (ℕ × ℕ)) (event : DeliveryEvent) :
    Option (ℕ × ℕ) :=
  match event.call with
  | .frameSent frame =>
      if frame.stamped ∧ frame.display = display then
        match sent with
        | some (stream, frontier) =>
            if stream = frame.streamId then some (stream, max frontier frame.frameId)
            else some (frame.streamId, frame.frameId)
        | none => some (frame.streamId, frame.frameId)
      else sent
  | _ => sent

def sentOn (events : List DeliveryEvent) (display : ℤ) : Option (ℕ × ℕ) :=
  events.foldl (noteSent display) none

/-- A tracked display is on the stream last sent on it, with its frontier, and no
refresh request for that stream is stale. -/
structure TracksSent (events : List DeliveryEvent) : Prop where
  newest : ∀ display state stream frontier,
    (connectionRun events).videoDelivery.byDisplay.get? display = some state →
    sentOn events display = some (stream, frontier) →
    state.streamId = stream ∧ state.hostHighestSentFrameId = frontier
  notStale : ∀ (request : VideoReferenceRefresh) frontier now networkDelayMs,
    sentOn events request.display = some (request.streamId, frontier) →
    ((connectionRun events).videoDelivery.onReferenceRefreshRequest request now
      networkDelayMs).2 ≠ .error .staleStream

/-- Feedback that is accepted for a tracked display with frames sent on it names
the stream last sent. -/
def NamesLastStream (events : List DeliveryEvent) (event : DeliveryEvent) : Prop :=
  ∀ feedback, event.call = .feedback feedback →
    (connectionRun events).acceptsFeedback feedback = true →
    (connectionRun events).videoDelivery.byDisplay.contains feedback.display = true →
    ∀ stream frontier, sentOn events feedback.display = some (stream, frontier) →
      feedback.streamId = stream

theorem connectionRun_concat (events : List DeliveryEvent) (event : DeliveryEvent) :
    connectionRun (events ++ [event]) = (connectionRun events).next event := by
  simp [connectionRun]

theorem sentOn_concat (events : List DeliveryEvent) (event : DeliveryEvent) (display : ℤ) :
    sentOn (events ++ [event]) display = noteSent display (sentOn events display) event := by
  simp [sentOn]

/-! ## One display -/

/-- The stream and the sent frontier of a state. -/
def VideoDeliveryState.sent (state : VideoDeliveryState) : ℕ × ℕ :=
  (state.streamId, state.hostHighestSentFrameId)

theorem sent_frameSent (state : VideoDeliveryState) (frame : VideoFrame) (now : ℕ) :
    (state.frameSent frame now).sent =
      if state.streamId = frame.streamId then
        (state.streamId, max state.hostHighestSentFrameId frame.frameId)
      else (frame.streamId, frame.frameId) := by
  unfold VideoDeliveryState.frameSent
  by_cases hstream : state.streamId = frame.streamId
  · rw [if_neg (by simp [hstream]), if_pos hstream]
    dsimp only
    by_cases hadvanced : state.hostHighestSentFrameId < frame.frameId
    · have hmax : max state.hostHighestSentFrameId frame.frameId = frame.frameId := by omega
      rw [hmax]
      split_ifs <;> rfl
    · have hmax : max state.hostHighestSentFrameId frame.frameId =
          state.hostHighestSentFrameId := by omega
      rw [hmax]
      split_ifs <;> rfl
  · rw [if_pos hstream, if_neg hstream]
    rfl

theorem sent_feedback {state : VideoDeliveryState} {feedback : VideoFeedback}
    (hstream : state.streamId = feedback.streamId) (now : ℕ) :
    (state.feedback feedback now).sent = state.sent := by
  have hreceived : (state.feedbackReceived feedback now).sent = state.sent := by
    unfold VideoDeliveryState.feedbackReceived
    dsimp only
    split_ifs <;> rfl
  have hdecoded : ∀ current : VideoDeliveryState,
      (current.feedbackDecoded feedback now).sent = current.sent := by
    intro current
    unfold VideoDeliveryState.feedbackDecoded
    dsimp only
    split_ifs <;> rfl
  calc (state.feedback feedback now).sent
      = ((state.feedbackReceived feedback now).feedbackDecoded feedback now).sent := by
        simp [VideoDeliveryState.feedback, hstream, VideoDeliveryState.sent]
    _ = (state.feedbackReceived feedback now).sent := hdecoded _
    _ = state.sent := hreceived

/-- Feedback of another stream is that of a new state. -/
theorem feedback_of_ne {state : VideoDeliveryState} {feedback : VideoFeedback}
    (hstream : state.streamId ≠ feedback.streamId) (now : ℕ) :
    (state.feedback feedback now).sent = (feedback.streamId, 0) := by
  have hfresh : (VideoDeliveryState.new feedback.streamId 0 now).streamId = feedback.streamId := rfl
  calc (state.feedback feedback now).sent
      = ((VideoDeliveryState.new feedback.streamId 0 now).feedback feedback now).sent := by
        simp [VideoDeliveryState.feedback, hstream, hfresh]
    _ = (VideoDeliveryState.new feedback.streamId 0 now).sent := sent_feedback hfresh now
    _ = (feedback.streamId, 0) := rfl

theorem streamId_feedback (state : VideoDeliveryState) (feedback : VideoFeedback) (now : ℕ) :
    (state.feedback feedback now).streamId = feedback.streamId := by
  by_cases hstream : state.streamId = feedback.streamId
  · have hsent := congrArg Prod.fst (sent_feedback hstream now)
    exact hsent.trans hstream
  · exact congrArg Prod.fst (feedback_of_ne hstream now)

theorem IssueOutcome.sent_eq {state state' : VideoDeliveryState} {display : ℤ} {now : ℕ}
    {action : Option VideoRecoveryAction} (h : IssueOutcome state display now state' action) :
    state'.sent = state.sent := by
  cases h <;> rfl

theorem frontier_feedback {state : VideoDeliveryState} {feedback : VideoFeedback}
    (hfrontier : state.hostHighestSentFrameId = 0) (now : ℕ) :
    (state.feedback feedback now).hostHighestSentFrameId = 0 := by
  by_cases hstream : state.streamId = feedback.streamId
  · exact (congrArg Prod.snd (sent_feedback hstream now)).trans hfrontier
  · exact congrArg Prod.snd (feedback_of_ne hstream now)

/-! ## The displays of a connection -/

/-- What the states of the displays say about the frames that were sent. -/
structure Tracked (c : VideoDeliveryController) (sent : ℤ → Option (ℕ × ℕ)) : Prop where
  newest : ∀ display state, c.byDisplay.get? display = some state →
    ∀ pair, sent display = some pair → state.sent = pair
  unsent : ∀ display state, c.byDisplay.get? display = some state →
    sent display = none → state.hostHighestSentFrameId = 0
  full : ∀ display, sent display ≠ none → c.byDisplay.get? display = none →
    maxVideoFeedbackDisplays ≤ c.byDisplay.keys.length

/-- A display that gets a state was excess or had nothing sent on it. -/
theorem Tracked.unsent_of_not_excess {c : VideoDeliveryController}
    {sent : ℤ → Option (ℕ × ℕ)} (h : Tracked c sent) {display : ℤ}
    (hexcess : ¬ c.excess display = true) (hnone : c.byDisplay.get? display = none) :
    sent display = none := by
  by_contra hsent
  have hfull := h.full display hsent hnone
  apply hexcess
  simp [VideoDeliveryController.excess, LinkedMap.contains, hnone, hfull]

/-- The states change in a way that keeps streams and frontiers. -/
theorem Tracked.of_sent_eq {c c' : VideoDeliveryController} {sent : ℤ → Option (ℕ × ℕ)}
    (h : Tracked c sent)
    (hstates : ∀ display, (c'.byDisplay.get? display).map VideoDeliveryState.sent =
      (c.byDisplay.get? display).map VideoDeliveryState.sent)
    (hkeys : c.byDisplay.keys.length ≤ c'.byDisplay.keys.length) : Tracked c' sent := by
  have hback : ∀ display state', c'.byDisplay.get? display = some state' →
      ∃ state, c.byDisplay.get? display = some state ∧ state.sent = state'.sent := by
    intro display state' hstate'
    have heq := hstates display
    rw [hstate', Option.map_some] at heq
    exact Option.map_eq_some_iff.mp heq.symm
  refine ⟨?_, ?_, ?_⟩
  · intro display state' hstate' pair hpair
    obtain ⟨state, hstate, hsame⟩ := hback display state' hstate'
    exact hsame.symm.trans (h.newest display state hstate pair hpair)
  · intro display state' hstate' hnone
    obtain ⟨state, hstate, hsame⟩ := hback display state' hstate'
    exact (congrArg Prod.snd hsame).symm.trans (h.unsent display state hstate hnone)
  · intro display hsent hnone'
    refine (h.full display hsent ?_).trans hkeys
    have heq := hstates display
    rw [hnone', Option.map_none] at heq
    exact Option.map_eq_none_iff.mp heq.symm

/-- One display gets a state that agrees with what was sent on it. -/
theorem Tracked.set {c : VideoDeliveryController} {sent sent' : ℤ → Option (ℕ × ℕ)}
    (h : Tracked c sent) {display : ℤ} {state : VideoDeliveryState}
    (hother : ∀ other, other ≠ display → sent' other = sent other)
    (hnewest : ∀ pair, sent' display = some pair → state.sent = pair)
    (hunsent : sent' display = none → state.hostHighestSentFrameId = 0) :
    Tracked ⟨c.byDisplay.set display state⟩ sent' := by
  refine ⟨?_, ?_, ?_⟩
  · intro other current hcurrent pair hpair
    rw [LinkedMap.get?_set] at hcurrent
    by_cases hsame : other = display
    · rw [if_pos hsame] at hcurrent
      obtain rfl := Option.some.inj hcurrent
      exact hnewest pair (hsame ▸ hpair)
    · rw [if_neg hsame] at hcurrent
      exact h.newest other current hcurrent pair (hother other hsame ▸ hpair)
  · intro other current hcurrent hnone
    rw [LinkedMap.get?_set] at hcurrent
    by_cases hsame : other = display
    · rw [if_pos hsame] at hcurrent
      obtain rfl := Option.some.inj hcurrent
      exact hunsent (hsame ▸ hnone)
    · rw [if_neg hsame] at hcurrent
      exact h.unsent other current hcurrent (hother other hsame ▸ hnone)
  · intro other hsent hnone
    rw [LinkedMap.get?_set] at hnone
    by_cases hsame : other = display
    · rw [if_pos hsame] at hnone
      cases hnone
    · rw [if_neg hsame] at hnone
      exact (h.full other (hother other hsame ▸ hsent) hnone).trans
        (LinkedMap.length_keys_set_le _ _ _)

/-- A display that is excess is not tracked and stays so. -/
theorem Tracked.of_excess {c : VideoDeliveryController} {sent sent' : ℤ → Option (ℕ × ℕ)}
    (h : Tracked c sent) {display : ℤ} (hexcess : c.excess display = true)
    (hother : ∀ other, other ≠ display → sent' other = sent other) : Tracked c sent' := by
  have hparts : c.byDisplay.get? display = none ∧
      maxVideoFeedbackDisplays ≤ c.byDisplay.keys.length := by
    simpa [VideoDeliveryController.excess, LinkedMap.contains] using hexcess
  have hne : ∀ other state, c.byDisplay.get? other = some state → other ≠ display := by
    rintro other state hstate rfl
    simp [hparts.1] at hstate
  refine ⟨?_, ?_, fun _ _ _ => hparts.2⟩
  · intro other state hstate pair hpair
    rw [hother other (hne other state hstate)] at hpair
    exact h.newest other state hstate pair hpair
  · intro other state hstate hnone
    rw [hother other (hne other state hstate)] at hnone
    exact h.unsent other state hstate hnone

/-- What a stamped frame adds to the frames sent on its display. -/
theorem noteSent_stamped {frame : VideoFrame} (hstamped : frame.stamped = true)
    {event : DeliveryEvent} (hcall : event.call = .frameSent frame) (sent : Option (ℕ × ℕ)) :
    noteSent frame.display sent event =
      some (match sent with
        | some (stream, frontier) =>
            if stream = frame.streamId then (stream, max frontier frame.frameId)
            else (frame.streamId, frame.frameId)
        | none => (frame.streamId, frame.frameId)) := by
  cases sent with
  | none => simp [noteSent, hcall, hstamped]
  | some pair =>
      obtain ⟨stream, frontier⟩ := pair
      by_cases hstream : stream = frame.streamId <;>
        simp [noteSent, hcall, hstamped, hstream]

theorem tracked_frameSent {c : VideoDeliveryController} {events : List DeliveryEvent}
    (h : Tracked c (sentOn events)) {frame : VideoFrame} {event : DeliveryEvent}
    (hcall : event.call = .frameSent frame) :
    Tracked (c.onFrameSent frame event.time) (sentOn (events ++ [event])) := by
  have hother : ∀ display, display ≠ frame.display →
      sentOn (events ++ [event]) display = sentOn events display := by
    intro display hne
    simp [sentOn_concat, noteSent, hcall, Ne.symm hne]
  cases hstamped : frame.stamped with
  | false =>
      have hignored : frame.streamId = 0 ∨ frame.frameId = 0 ∨ frame.display < 0 := by
        simp only [VideoFrame.stamped, Bool.and_eq_false_iff, decide_eq_false_iff_not] at hstamped
        omega
      have hsame : c.onFrameSent frame event.time = c := by
        simp [VideoDeliveryController.onFrameSent, hignored]
      have hsent : sentOn (events ++ [event]) = sentOn events := by
        funext display
        simp [sentOn_concat, noteSent, hcall, hstamped]
      rw [hsame, hsent]
      exact h
  | true =>
      have hvalid : ¬ (frame.streamId = 0 ∨ frame.frameId = 0 ∨ frame.display < 0) := by
        simp only [VideoFrame.stamped, Bool.and_eq_true, decide_eq_true_eq] at hstamped
        omega
      have hsent : sentOn (events ++ [event]) frame.display = _ :=
        (sentOn_concat _ _ _).trans (noteSent_stamped hstamped hcall _)
      by_cases hexcess : c.excess frame.display = true
      · have hsame : c.onFrameSent frame event.time = c := by
          simp [VideoDeliveryController.onFrameSent, hexcess]
        rw [hsame]
        exact h.of_excess hexcess hother
      · have hset : c.onFrameSent frame event.time = ⟨c.byDisplay.set frame.display
            (((c.byDisplay.get? frame.display).getD
              (.new frame.streamId frame.frameId event.time)).frameSent frame event.time)⟩ := by
          simp [VideoDeliveryController.onFrameSent, hvalid, hexcess]
        rw [hset]
        apply h.set hother
        · intro pair hpair
          rw [hsent] at hpair
          obtain rfl := Option.some.inj hpair
          rw [sent_frameSent]
          cases hstate : c.byDisplay.get? frame.display with
          | none =>
              rw [h.unsent_of_not_excess hexcess hstate]
              simp [VideoDeliveryState.new]
          | some state =>
              cases hbefore : sentOn events frame.display with
              | none =>
                  have hfrontier := h.unsent _ _ hstate hbefore
                  by_cases hstream : state.streamId = frame.streamId <;>
                    simp [hstream, hfrontier]
              | some pair =>
                  obtain ⟨stream, frontier⟩ := pair
                  obtain ⟨rfl, rfl⟩ := Prod.mk.inj (h.newest _ _ hstate _ hbefore)
                  rfl
        · intro hnone
          rw [hsent] at hnone
          cases hnone

theorem tracked_feedback {c : VideoDeliveryController} {sent : ℤ → Option (ℕ × ℕ)}
    (h : Tracked c sent) {feedback : VideoFeedback} (now : ℕ)
    (hnames : c.byDisplay.contains feedback.display = true →
      ∀ stream frontier, sent feedback.display = some (stream, frontier) →
        feedback.streamId = stream) :
    Tracked (c.onFeedback feedback now).1 sent := by
  by_cases hexcess : c.excess feedback.display = true
  · have hsame : (c.onFeedback feedback now).1 = c := by
      simp [VideoDeliveryController.onFeedback, hexcess]
    rw [hsame]
    exact h
  · have hset : (c.onFeedback feedback now).1 = ⟨c.byDisplay.set feedback.display
        (((c.byDisplay.get? feedback.display).getD
          (.new feedback.streamId 0 now)).feedback feedback now)⟩ := by
      simp [VideoDeliveryController.onFeedback, hexcess]
    rw [hset]
    apply h.set (fun _ _ => rfl)
    · intro pair hpair
      cases hstate : c.byDisplay.get? feedback.display with
      | none => simp [h.unsent_of_not_excess hexcess hstate] at hpair
      | some state =>
          have hbefore := h.newest _ _ hstate pair hpair
          obtain ⟨stream, frontier⟩ := pair
          have hstream : feedback.streamId = stream :=
            hnames (LinkedMap.contains_iff.mpr ⟨state, hstate⟩) stream frontier hpair
          have hsame : state.streamId = feedback.streamId :=
            (congrArg Prod.fst hbefore).trans hstream.symm
          exact (sent_feedback hsame now).trans hbefore
    · intro hnone
      cases hstate : c.byDisplay.get? feedback.display with
      | none => exact frontier_feedback (by rfl) now
      | some state => exact frontier_feedback (h.unsent _ _ hstate hnone) now

theorem tracked_poll {c : VideoDeliveryController} {sent : ℤ → Option (ℕ × ℕ)}
    (h : Tracked c sent) (now networkDelayMs : ℕ) :
    Tracked (c.pollRecovery now networkDelayMs).1 sent := by
  apply h.of_sent_eq
  · intro display
    show ((c.byDisplay.mapValues _).get? display).map _ = _
    rw [LinkedMap.get?_mapValues, Option.map_map]
    congr 1
    funext state
    show (state.poll display now networkDelayMs).1.sent = state.sent
    rcases poll_cases state display now networkDelayMs with heq | ⟨stalled, heq⟩
    · rw [heq]
    · rw [heq]
      exact (issueOutcome state display now networkDelayMs stalled).sent_eq
  · show _ ≤ (c.byDisplay.mapValues _).keys.length
    rw [LinkedMap.keys_mapValues]

theorem tracked_refresh {c : VideoDeliveryController} {sent : ℤ → Option (ℕ × ℕ)}
    (h : Tracked c sent) (request : VideoReferenceRefresh) (undone : Bool)
    (now networkDelayMs : ℕ) :
    Tracked (c.refreshOrUndo request undone now networkDelayMs).1 sent := by
  have hset : ∀ {c : VideoDeliveryController} {state state' : VideoDeliveryState},
      Tracked c sent → c.byDisplay.get? request.display = some state → state'.sent = state.sent →
      Tracked ⟨c.byDisplay.set request.display state'⟩ sent := by
    intro c state state' hc hstate hsame
    apply hc.set (fun _ _ => rfl)
    · exact fun pair hpair => hsame.trans (hc.newest _ _ hstate pair hpair)
    · exact fun hnone => (congrArg Prod.snd hsame).trans (hc.unsent _ _ hstate hnone)
  rcases VideoDeliveryController.onReferenceRefreshRequest_cases (c := c) request now
    networkDelayMs with ⟨reason, heq⟩ | ⟨state, stalled, hstate, heq⟩
  · have hsame : (c.refreshOrUndo request undone now networkDelayMs).1 = c := by
      simp [VideoDeliveryController.refreshOrUndo, heq]
    rw [hsame]
    exact h
  · have hissue := (issueOutcome state request.display now networkDelayMs stalled).sent_eq
    have hnext := hset h hstate hissue
    unfold VideoDeliveryController.refreshOrUndo
    rw [heq]
    dsimp only
    split
    · split_ifs
      · -- The display is restored to the state it had.
        show Tracked (VideoDeliveryController.restoreDisplay _ _ (c.byDisplay.get? _)) sent
        rw [hstate]
        refine hset hnext ?_ hissue.symm
        rw [LinkedMap.get?_set, if_pos rfl]
      · exact hnext
    · exact hnext

/-! ## Whole runs -/

theorem tracked_next {conn : DeliveryConnection} {events : List DeliveryEvent}
    (h : Tracked conn.videoDelivery (sentOn events)) {event : DeliveryEvent}
    (hnames : ∀ feedback, event.call = .feedback feedback →
      conn.acceptsFeedback feedback = true →
      conn.videoDelivery.byDisplay.contains feedback.display = true →
      ∀ stream frontier, sentOn events feedback.display = some (stream, frontier) →
        feedback.streamId = stream) :
    Tracked (conn.next event).videoDelivery (sentOn (events ++ [event])) := by
  have hsent : (∀ frame, event.call ≠ .frameSent frame) →
      sentOn (events ++ [event]) = sentOn events := by
    intro hcall
    funext display
    rw [sentOn_concat]
    unfold noteSent
    split
    · exact absurd ‹_› (hcall _)
    · rfl
  unfold DeliveryConnection.next
  cases hcall : event.call with
  | frameSent frame =>
      dsimp only
      unfold VideoDeliveryController.handle
      rw [hcall]
      exact tracked_frameSent h hcall
  | feedback feedback =>
      rw [hsent (by simp [hcall])]
      dsimp only
      unfold DeliveryConnection.handleVideoFeedback
      split_ifs with haccepts
      · exact tracked_feedback h event.time (hnames feedback hcall haccepts)
      · exact h
  | poll =>
      rw [hsent (by simp [hcall])]
      dsimp only
      unfold VideoDeliveryController.handle
      rw [hcall]
      exact tracked_poll h event.time event.networkDelayMs
  | referenceRefresh request undone =>
      rw [hsent (by simp [hcall])]
      dsimp only
      unfold VideoDeliveryController.handle
      rw [hcall]
      exact tracked_refresh h request undone event.time event.networkDelayMs

theorem tracked_run {events : List DeliveryEvent} (hnames : Always NamesLastStream events) :
    Tracked (connectionRun events).videoDelivery (sentOn events) := by
  induction events using List.reverseRecOn with
  | nil => exact ⟨nofun, nofun, fun _ hne => absurd rfl hne⟩
  | append_singleton events event ih =>
      obtain ⟨hbefore, hlast⟩ := always_concat.mp hnames
      rw [connectionRun_concat]
      exact tracked_next (ih hbefore) hlast

theorem Tracked.tracksSent {events : List DeliveryEvent}
    (h : Tracked (connectionRun events).videoDelivery (sentOn events)) : TracksSent events where
  newest := by
    intro display state stream frontier hstate hsent
    exact Prod.mk.inj (h.newest display state hstate _ hsent)
  notStale := by
    intro request frontier now networkDelayMs hsent
    unfold VideoDeliveryController.onReferenceRefreshRequest
    split_ifs
    · simp
    · cases hstate : (connectionRun events).videoDelivery.byDisplay.get? request.display with
      | none => simp
      | some state =>
          have hstream : state.streamId = request.streamId :=
            congrArg Prod.fst (h.newest _ _ hstate _ hsent)
          dsimp only
          unfold VideoDeliveryState.referenceRefresh
          rw [if_neg (by simp [hstream])]
          split_ifs <;> simp

/-- Accepted feedback for a tracked display puts it on the stream it names. -/
theorem streamId_handleVideoFeedback {conn : DeliveryConnection} {feedback : VideoFeedback}
    (haccepts : conn.acceptsFeedback feedback = true)
    (htracked : conn.videoDelivery.byDisplay.contains feedback.display = true) (now : ℕ) :
    ∃ state, (conn.handleVideoFeedback feedback now).videoDelivery.byDisplay.get?
      feedback.display = some state ∧ state.streamId = feedback.streamId := by
  obtain ⟨state, hstate⟩ := LinkedMap.contains_iff.mp htracked
  refine ⟨state.feedback feedback now, ?_, streamId_feedback state feedback now⟩
  have hexcess : conn.videoDelivery.excess feedback.display = false := by
    simp [VideoDeliveryController.excess, htracked]
  simp [DeliveryConnection.handleVideoFeedback, haccepts, VideoDeliveryController.onFeedback,
    hexcess, hstate, LinkedMap.get?_set]

/-- Throughout a run the displays are tracked on the streams last sent on them
exactly when all feedback that is accepted for them names those streams. -/
theorem tracksSent_iff (events : List DeliveryEvent) :
    (∀ before, before <+: events → TracksSent before) ↔ Always NamesLastStream events := by
  constructor
  · rintro h before event after rfl feedback hcall haccepts htracked stream frontier hsent
    have hafter : TracksSent (before ++ [event]) := h _ ⟨after, by simp⟩
    obtain ⟨state, hstate, hstream⟩ :=
      streamId_handleVideoFeedback haccepts htracked event.time
    have hstate' : (connectionRun (before ++ [event])).videoDelivery.byDisplay.get?
        feedback.display = some state := by
      rw [connectionRun_concat, DeliveryConnection.next, hcall]
      exact hstate
    have hsent' : sentOn (before ++ [event]) feedback.display = some (stream, frontier) := by
      rw [sentOn_concat, noteSent, hcall]
      exact hsent
    exact hstream.symm.trans (hafter.newest _ _ _ _ hstate' hsent').1
  · rintro h before ⟨after, rfl⟩
    apply Tracked.tracksSent
    apply tracked_run
    rintro earlier event later rfl
    exact h earlier event (later ++ after) (by simp)

/-! ## Feedback of an old stream -/

/-- The frames sent on a display have streams that do not decrease. -/
def StreamsIncrease (events : List DeliveryEvent) : Prop :=
  events.Pairwise fun earlier later =>
    match earlier.call, later.call with
    | .frameSent first, .frameSent second =>
        first.display = second.display → first.streamId ≤ second.streamId
    | _, _ => True

def lateFeedback : List DeliveryEvent :=
  [⟨0, 10, .frameSent ⟨0, 1, 10⟩⟩, ⟨1, 10, .frameSent ⟨0, 2, 20⟩⟩,
    ⟨2, 10, .feedback ⟨0, 1, 10, 9, 9, 0⟩⟩]

/-- The first feedback of the old stream arrives after the new stream was sent:
the display is back on the old stream, and a request for the new one is stale. -/
theorem not_tracksSent_lateFeedback :
    ¬ ∀ events : List DeliveryEvent, StreamsIncrease events → TracksSent events := by
  intro h
  have hincrease : StreamsIncrease lateFeedback := by
    unfold StreamsIncrease lateFeedback
    simp
  have htracks := h lateFeedback hincrease
  have hsent : sentOn lateFeedback 0 = some (2, 20) := by decide
  apply htracks.notStale ⟨0, 2, 20, 1, false⟩ 20 3 10 hsent
  rfl

end RustAdmin.VideoDelivery
