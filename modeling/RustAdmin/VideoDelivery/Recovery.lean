import Mathlib.Data.List.Chain
import RustAdmin.Support.Run
import RustAdmin.VideoDelivery.Controller

/-!
# The recovery budget of a display

Frames, feedback, polls and refresh requests come in any order, at any times.
Between two changes of the stream of a display its recovery
actions are paced, numbered within a generation, and a new generation waits for
the decoder or for the end of the last one and a cooldown.

## Strategy

A call moves one display (`DisplayMove`) and leaves the others.  What it does to the
recovery cycle of that display is one of the outcomes of `issue_recovery`
(`issueOutcome`), or leaves the cycle where it is (`SameCycle`).  `Paced` is the
invariant of a display with its list of actions: each action follows the one before
it, and the state remembers the last of them (`LastIssued`).  An action that is issued
follows the last one since `issue_recovery` compares the times that the state
remembers (`paced_issue`).  At the end `bounded_of_chain` counts the reissues of one
generation along the chain.
-/

namespace RustAdmin.VideoDelivery

open RustAdmin.Support

/-! ## Runs of the controller -/

/-- A call of the controller. A refresh request is undone where its sender
restores the display after it issued an action. -/
inductive DeliveryCall
  | frameSent (frame : VideoFrame)
  | feedback (feedback : VideoFeedback)
  | poll
  | referenceRefresh (request : VideoReferenceRefresh) (undone : Bool)
  deriving DecidableEq, Repr

structure DeliveryEvent where
  time : ℕ
  networkDelayMs : ℕ
  call : DeliveryCall
  deriving DecidableEq, Repr

namespace VideoDeliveryController

variable (c : VideoDeliveryController)

/-- A refresh request, undone by `restore_display` if asked and if it issued an
action; the action then does not count. -/
def refreshOrUndo (request : VideoReferenceRefresh) (undone : Bool) (now networkDelayMs : ℕ) :
    VideoDeliveryController × List VideoRecoveryAction :=
  let previous := c.snapshotDisplay request.display
  let result := c.onReferenceRefreshRequest request now networkDelayMs
  match result.2 with
  | .ok (some action) =>
      if undone then (result.1.restoreDisplay request.display previous, [])
      else (result.1, [action])
  | _ => (result.1, [])

/-- The controller after a call, and the recovery actions that count. -/
def handle (event : DeliveryEvent) : VideoDeliveryController × List VideoRecoveryAction :=
  match event.call with
  | .frameSent frame => (c.onFrameSent frame event.time, [])
  | .feedback feedback => ((c.onFeedback feedback event.time).1, [])
  | .poll => c.pollRecovery event.time event.networkDelayMs
  | .referenceRefresh request undone =>
      c.refreshOrUndo request undone event.time event.networkDelayMs

/-- The stream of a display. -/
def streamOf (display : ℤ) : Option ℕ :=
  (c.byDisplay.get? display).map VideoDeliveryState.streamId

/-- The target of the recovery cycle of a display. -/
def targetOf (display : ℤ) : Option ℕ :=
  (c.byDisplay.get? display).bind VideoDeliveryState.recoveryTargetFrameId

end VideoDeliveryController

/-- An action with its time and the frame its cycle waits for. -/
structure IssuedRecovery where
  time : ℕ
  action : VideoRecoveryAction
  target : Option ℕ
  deriving DecidableEq, Repr

/-- The controller, and the actions each display got since its stream changed. -/
structure DeliveryMonitor where
  controller : VideoDeliveryController := {}
  issued : ℤ → List IssuedRecovery := fun _ => []

def DeliveryMonitor.next (m : DeliveryMonitor) (event : DeliveryEvent) : DeliveryMonitor :=
  let result := m.controller.handle event
  { controller := result.1
    issued := fun display =>
      if result.1.streamOf display = m.controller.streamOf display then
        m.issued display ++ (result.2.filter fun action => action.display = display).map
          fun action => ⟨event.time, action, result.1.targetOf display⟩
      else [] }

/-- What a run of calls leaves. -/
def deliveryRun (events : List DeliveryEvent) : DeliveryMonitor :=
  events.foldl DeliveryMonitor.next {}

/-! ## The budget -/

/-- The number of an action in its generation. -/
def IssuedRecovery.number (issued : IssuedRecovery) : ℕ := issued.action.recoveryReissue

def IssuedRecovery.generation (issued : IssuedRecovery) : ℕ := issued.action.recoveryGeneration

/-- The last frame the decoder had passed. -/
def IssuedRecovery.decoded (issued : IssuedRecovery) : ℕ := issued.action.highestDecodedFrameId

/-- `next` continues the generation of `previous`. -/
structure Reissues (previous next : IssuedRecovery) : Prop where
  number_eq : next.number = previous.number + 1
  number_le : next.number ≤ 2
  generation_eq : next.generation = previous.generation
  apart : previous.time + secs 3 ≤ next.time

/-- `next` opens a generation: the decoder passed the target of `previous`, or
that generation was spent and the cooldown is over or the decoder advanced. -/
structure Opens (previous next : IssuedRecovery) : Prop where
  number_eq : next.number = 0
  generation_eq : next.generation = saturatingAdd previous.generation 1
  settled : ∀ target, previous.target = some target →
    target < next.decoded ∨
      (previous.number = 2 ∧
        (previous.time + secs 10 ≤ next.time ∨ previous.decoded < next.decoded))

/-- Two consecutive actions. -/
structure Follows (previous next : IssuedRecovery) : Prop where
  apart : previous.time + secs 1 ≤ next.time
  kind : Reissues previous next ∨ Opens previous next

/-! ## One display -/

/-- What a call does to one display. -/
inductive DisplayMove (display : ℤ) (now : ℕ) :
    Option VideoDeliveryState → Option VideoDeliveryState → List VideoRecoveryAction → Prop
  | keep (state : Option VideoDeliveryState) : DisplayMove display now state state []
  | frameSent (state : Option VideoDeliveryState) (frame : VideoFrame) :
      DisplayMove display now state
        (some ((state.getD (.new frame.streamId frame.frameId now)).frameSent frame now)) []
  | feedback (state : Option VideoDeliveryState) (feedback : VideoFeedback) :
      DisplayMove display now state
        (some ((state.getD (.new feedback.streamId 0 now)).feedback feedback now)) []
  | issue (state : VideoDeliveryState) (networkDelayMs stalled : ℕ) :
      DisplayMove display now (some state)
        (some (state.issueRecovery display now networkDelayMs stalled).1)
        (state.issueRecovery display now networkDelayMs stalled).2.toList

/-- A poll leaves a display alone or tries to issue. -/
theorem poll_cases (state : VideoDeliveryState) (display : ℤ) (now networkDelayMs : ℕ) :
    state.poll display now networkDelayMs = (state, none) ∨
      ∃ stalled, state.poll display now networkDelayMs =
        state.issueRecovery display now networkDelayMs stalled := by
  unfold VideoDeliveryState.poll
  dsimp only
  split_ifs <;> first | exact Or.inl rfl | exact Or.inr ⟨_, rfl⟩

theorem referenceRefresh_cases {state state' : VideoDeliveryState}
    {request : VideoReferenceRefresh} {now networkDelayMs : ℕ}
    {action : Option VideoRecoveryAction}
    (h : state.referenceRefresh request now networkDelayMs = .ok (state', action)) :
    ∃ stalled, (state', action) =
      state.issueRecovery request.display now networkDelayMs stalled := by
  unfold VideoDeliveryState.referenceRefresh at h
  split_ifs at h
  all_goals exact ⟨_, (Except.ok.inj h).symm⟩

theorem issueRecovery_display {state : VideoDeliveryState} {display : ℤ}
    {now networkDelayMs stalled : ℕ} {action : VideoRecoveryAction}
    (h : (state.issueRecovery display now networkDelayMs stalled).2 = some action) :
    action.display = display := by
  unfold VideoDeliveryState.issueRecovery at h
  dsimp only at h
  split_ifs at h <;> cases h <;> rfl

/-! ## From the controller to one display -/

namespace VideoDeliveryController

variable {c : VideoDeliveryController}

/-- A display moves, and the others stay. -/
theorem displayMove_set {mover display : ℤ} {state : VideoDeliveryState} {now : ℕ}
    (h : DisplayMove mover now (c.byDisplay.get? mover) (some state) []) :
    DisplayMove display now (c.byDisplay.get? display)
      ((c.byDisplay.set mover state).get? display) [] := by
  rw [LinkedMap.get?_set]
  split_ifs with hdisplay
  · rw [hdisplay]
    exact h
  · exact .keep _

theorem displayMove_frameSent (frame : VideoFrame) (now : ℕ) (display : ℤ) :
    DisplayMove display now (c.byDisplay.get? display)
      ((c.onFrameSent frame now).byDisplay.get? display) [] := by
  unfold onFrameSent
  split_ifs
  · exact .keep _
  · exact .keep _
  · exact displayMove_set (.frameSent _ frame)

theorem displayMove_feedback (feedback : VideoFeedback) (now : ℕ) (display : ℤ) :
    DisplayMove display now (c.byDisplay.get? display)
      ((c.onFeedback feedback now).1.byDisplay.get? display) [] := by
  unfold onFeedback
  split_ifs
  · exact .keep _
  · exact displayMove_set (.feedback _ feedback)

theorem displayMove_poll (now networkDelayMs : ℕ) (display : ℤ) :
    DisplayMove display now (c.byDisplay.get? display)
      ((c.pollRecovery now networkDelayMs).1.byDisplay.get? display)
      ((c.pollRecovery now networkDelayMs).2.filter fun action => action.display = display) := by
  have hactions : ((c.pollRecovery now networkDelayMs).2.filter
      fun action => action.display = display) =
      ((c.byDisplay.get? display).bind
        fun state => (state.poll display now networkDelayMs).2).toList := by
    refine LinkedMap.filter_filterMap_entries
      (fun display state => (VideoDeliveryState.poll state display now networkDelayMs).2)
      VideoRecoveryAction.display ?_ c.byDisplay display
    intro display state action haction
    rcases poll_cases state display now networkDelayMs with hpoll | ⟨stalled, hpoll⟩
    · rw [hpoll] at haction
      cases haction
    · rw [hpoll] at haction
      exact issueRecovery_display haction
  rw [hactions]
  show DisplayMove display now _ ((c.byDisplay.mapValues _).get? display) _
  rw [LinkedMap.get?_mapValues]
  cases hstate : c.byDisplay.get? display with
  | none => exact .keep none
  | some state =>
      rw [Option.map_some, Option.bind_some]
      rcases poll_cases state display now networkDelayMs with hpoll | ⟨stalled, hpoll⟩
      · rw [hpoll]
        exact .keep _
      · rw [hpoll]
        exact .issue state networkDelayMs stalled

/-- A refresh request is refused or tries to issue for its display. -/
theorem onReferenceRefreshRequest_cases (request : VideoReferenceRefresh)
    (now networkDelayMs : ℕ) :
    (∃ reason, c.onReferenceRefreshRequest request now networkDelayMs = (c, .error reason)) ∨
      ∃ state stalled, c.byDisplay.get? request.display = some state ∧
        c.onReferenceRefreshRequest request now networkDelayMs =
          (⟨c.byDisplay.set request.display
            (state.issueRecovery request.display now networkDelayMs stalled).1⟩,
            .ok (state.issueRecovery request.display now networkDelayMs stalled).2) := by
  unfold onReferenceRefreshRequest
  split_ifs
  · exact Or.inl ⟨_, rfl⟩
  · cases hstate : c.byDisplay.get? request.display with
    | none => exact Or.inl ⟨_, rfl⟩
    | some state =>
        cases hrefresh : state.referenceRefresh request now networkDelayMs with
        | error reason => exact Or.inl ⟨reason, by simp [hrefresh]⟩
        | ok result =>
            obtain ⟨state', action⟩ := result
            obtain ⟨stalled, heq⟩ := referenceRefresh_cases hrefresh
            refine Or.inr ⟨state, stalled, rfl, ?_⟩
            simp [hrefresh, ← heq]

/-- One display tries to issue, and the others stay. -/
theorem displayMove_issue {issuer display : ℤ} {state : VideoDeliveryState}
    {now networkDelayMs stalled : ℕ} (hstate : c.byDisplay.get? issuer = some state) :
    DisplayMove display now (c.byDisplay.get? display)
      (if display = issuer then
        some (state.issueRecovery issuer now networkDelayMs stalled).1
      else c.byDisplay.get? display)
      ((state.issueRecovery issuer now networkDelayMs stalled).2.toList.filter
        fun action => action.display = display) := by
  have hissuer : ∀ action ∈ (state.issueRecovery issuer now networkDelayMs stalled).2.toList,
      action.display = issuer := by
    intro action hmem
    exact issueRecovery_display (Option.mem_toList.mp hmem)
  by_cases hdisplay : display = issuer
  · subst hdisplay
    rw [if_pos rfl, hstate, List.filter_eq_self.mpr]
    · exact .issue state networkDelayMs stalled
    · exact fun action hmem => decide_eq_true (hissuer action hmem)
  · rw [if_neg hdisplay, List.filter_eq_nil_iff.mpr]
    · exact .keep _
    · intro action hmem
      rw [hissuer action hmem, decide_eq_true_eq]
      exact fun heq => hdisplay heq.symm

theorem displayMove_refresh (request : VideoReferenceRefresh) (undone : Bool)
    (now networkDelayMs : ℕ) (display : ℤ) :
    DisplayMove display now (c.byDisplay.get? display)
      ((c.refreshOrUndo request undone now networkDelayMs).1.byDisplay.get? display)
      ((c.refreshOrUndo request undone now networkDelayMs).2.filter
        fun action => action.display = display) := by
  rcases onReferenceRefreshRequest_cases (c := c) request now networkDelayMs with
    ⟨reason, heq⟩ | ⟨state, stalled, hstate, heq⟩
  · have hsame : c.refreshOrUndo request undone now networkDelayMs = (c, []) := by
      simp [refreshOrUndo, heq]
    rw [hsame]
    exact .keep _
  · by_cases hundone : undone = true ∧
        (state.issueRecovery request.display now networkDelayMs stalled).2.isSome = true
    · -- the controller goes back to what it was for the display
      obtain ⟨rfl, hissues⟩ := hundone
      obtain ⟨action, haction⟩ := Option.isSome_iff_exists.mp hissues
      have hresult : c.refreshOrUndo request true now networkDelayMs =
          (⟨(c.byDisplay.set request.display
            (state.issueRecovery request.display now networkDelayMs stalled).1).set
              request.display state⟩, []) := by
        simp [refreshOrUndo, heq, haction, restoreDisplay, snapshotDisplay, hstate]
      rw [hresult, LinkedMap.get?_set, LinkedMap.get?_set]
      by_cases hdisplay : display = request.display
      · rw [if_pos hdisplay, hdisplay, hstate]
        exact .keep _
      · rw [if_neg hdisplay, if_neg hdisplay]
        exact .keep _
    · have hresult : c.refreshOrUndo request undone now networkDelayMs =
          (⟨c.byDisplay.set request.display
            (state.issueRecovery request.display now networkDelayMs stalled).1⟩,
            (state.issueRecovery request.display now networkDelayMs stalled).2.toList) := by
        cases haction : (state.issueRecovery request.display now networkDelayMs stalled).2 with
        | none => simp [refreshOrUndo, heq, haction]
        | some action =>
            have hcounts : undone = false := by simpa [haction] using hundone
            simp [refreshOrUndo, heq, haction, hcounts]
      rw [hresult, LinkedMap.get?_set]
      exact displayMove_issue hstate

theorem displayMove_handle (event : DeliveryEvent) (display : ℤ) :
    DisplayMove display event.time (c.byDisplay.get? display)
      ((c.handle event).1.byDisplay.get? display)
      ((c.handle event).2.filter fun action => action.display = display) := by
  unfold handle
  cases event.call with
  | frameSent frame => exact displayMove_frameSent frame event.time display
  | feedback feedback => exact displayMove_feedback feedback event.time display
  | poll => exact displayMove_poll event.time event.networkDelayMs display
  | referenceRefresh request undone =>
      exact displayMove_refresh request undone event.time event.networkDelayMs display

end VideoDeliveryController

/-! ## What a call changes of the recovery cycle -/

/-- The target is passed by the decoder, if there is one. -/
def VideoDeliveryState.passed (state : VideoDeliveryState) : Prop :=
  ∀ target, state.recoveryTargetFrameId = some target → target < state.highestDecodedFrameId

/-- The outcomes of `issue_recovery`. -/
inductive IssueOutcome (state : VideoDeliveryState) (display : ℤ) (now : ℕ) :
    VideoDeliveryState → Option VideoRecoveryAction → Prop
  | wait : IssueOutcome state display now state none
  | spent (htarget : state.recoveryTargetFrameId ≠ none)
      (hreissues : videoDeliveryMaxRecoveryReissues ≤ state.recoveryReissues)
      (hlast : ∀ last, state.lastRefreshAt = some last → last + secs 3 ≤ now) :
      IssueOutcome state display now
        { state.clearRecoveryCycle with
            recoveryCycleCooldownUntil := some (now + videoDeliveryRecoveryCycleCooldown)
            phase := .healthy } none
  | cleared (hobserved : state.feedbackObserved = true) (hpassed : state.passed) :
      IssueOutcome state display now { state.clearRecoveryCycle with phase := .healthy } none
  | unobserved (hobserved : state.feedbackObserved = false)
      (hlast : ∀ last, state.lastRefreshAt = some last → last + secs 1 ≤ now)
      (stalled : ℕ) (phase : VideoDeliveryPhase) :
      IssueOutcome state display now
        (({ state.clearRecoveryCycle with
          recoveryGeneration := saturatingAdd state.recoveryGeneration 1 }).recover display now
            stalled phase 0).1
        (({ state.clearRecoveryCycle with
          recoveryGeneration := saturatingAdd state.recoveryGeneration 1 }).recover display now
            stalled phase 0).2
  | reissued (hobserved : state.feedbackObserved = true)
      (htarget : state.recoveryTargetFrameId ≠ none)
      (hreissues : state.recoveryReissues < videoDeliveryMaxRecoveryReissues)
      (hlast : ∀ last, state.lastRefreshAt = some last → last + secs 3 ≤ now)
      (stalled : ℕ) (phase : VideoDeliveryPhase) :
      IssueOutcome state display now
        (({ state with recoveryReissues := state.recoveryReissues + 1 }).recover display now
          stalled phase (state.recoveryReissues + 1)).1
        (({ state with recoveryReissues := state.recoveryReissues + 1 }).recover display now
          stalled phase (state.recoveryReissues + 1)).2
  | opened (hobserved : state.feedbackObserved = true) (hpassed : state.passed)
      (hcooldown : ∀ deadline, state.recoveryCycleCooldownUntil = some deadline → deadline ≤ now)
      (hlast : ∀ last, state.lastRefreshAt = some last → last + secs 1 ≤ now)
      (stalled : ℕ) (phase : VideoDeliveryPhase) :
      IssueOutcome state display now
        (({ state.clearRecoveryCycle with
          phase := .healthy
          recoveryCycleCooldownUntil := none
          recoveryGeneration := saturatingAdd state.recoveryGeneration 1
          recoveryTargetFrameId := some state.hostHighestSentFrameId
          recoveryReissues := 0
          recoveryProgressAt := some now }).recover display now stalled phase 0).1
        (({ state.clearRecoveryCycle with
          phase := .healthy
          recoveryCycleCooldownUntil := none
          recoveryGeneration := saturatingAdd state.recoveryGeneration 1
          recoveryTargetFrameId := some state.hostHighestSentFrameId
          recoveryReissues := 0
          recoveryProgressAt := some now }).recover display now stalled phase 0).2

theorem last_le_progressAt {state : VideoDeliveryState} {last : ℕ}
    (h : state.lastRefreshAt = some last) : last ≤ state.progressAt := by
  unfold VideoDeliveryState.progressAt
  cases state.recoveryProgressAt with
  | none => simp [h]
  | some progress => simp [h]

theorem le_of_not_refreshedWithin {state : VideoDeliveryState} {now duration : ℕ}
    (h : ¬ state.refreshedWithin now duration = true) {last : ℕ}
    (hlast : state.lastRefreshAt = some last) : duration ≤ now - last := by
  simpa [VideoDeliveryState.refreshedWithin, hlast] using h

theorem last_of_not_refreshedWithin {state : VideoDeliveryState} {now networkDelayMs : ℕ}
    (h : ¬ state.refreshedWithin now (refreshCooldown networkDelayMs) = true) :
    ∀ last, state.lastRefreshAt = some last → last + secs 1 ≤ now := by
  intro last hlast
  have hsecond : secs 1 ≤ now - last :=
    (refreshCooldown_ge networkDelayMs).trans (le_of_not_refreshedWithin h hlast)
  have hpos : 0 < secs 1 := secs_pos (by decide)
  omega

theorem last_of_reissueTimeout {state : VideoDeliveryState} {now networkDelayMs : ℕ}
    (h : ¬ now - state.progressAt < recoveryReissueTimeout networkDelayMs) :
    ∀ last, state.lastRefreshAt = some last → last + secs 3 ≤ now := by
  intro last hlast
  have hprogress := last_le_progressAt hlast
  have htimeout := recoveryReissueTimeout_ge networkDelayMs
  have hpos : 0 < secs 3 := secs_pos (by decide)
  omega

theorem issueOutcome (state : VideoDeliveryState) (display : ℤ) (now networkDelayMs stalled : ℕ) :
    IssueOutcome state display now (state.issueRecovery display now networkDelayMs stalled).1
      (state.issueRecovery display now networkDelayMs stalled).2 := by
  unfold VideoDeliveryState.issueRecovery
  dsimp only
  by_cases hobserved : state.feedbackObserved = true
  · rw [if_neg (by simp [hobserved])]
    split_ifs with htarget htimeout hspent hidle
    · exact .wait
    · refine .spent ?_ hspent (last_of_reissueTimeout htimeout)
      intro hnone
      simp [hnone] at htarget
    · refine .reissued hobserved ?_ (Nat.lt_of_not_le hspent)
        (last_of_reissueTimeout htimeout) stalled state.phase
      intro hnone
      simp [hnone] at htarget
    · refine .cleared hobserved ?_
      intro target hsome
      simpa [hsome] using htarget
    · simp only [Bool.or_eq_true, not_or] at hidle
      obtain ⟨⟨hcooldown, -⟩, hrefreshed⟩ := hidle
      refine .opened hobserved ?_ ?_ (last_of_not_refreshedWithin hrefreshed) stalled state.phase
      · intro target hsome
        simpa [hsome] using htarget
      · intro deadline hdeadline
        have hclear : state.clearRecoveryCycle.recoveryCycleCooldownUntil = some deadline :=
          hdeadline
        simpa [hclear] using hcooldown
  · rw [if_pos (by simp [hobserved])]
    split_ifs with hrefreshed
    · exact .wait
    · exact .unobserved (by simpa using hobserved) (last_of_not_refreshedWithin hrefreshed)
        stalled state.phase

theorem IssueOutcome.streamId_eq {state state' : VideoDeliveryState} {display : ℤ} {now : ℕ}
    {action : Option VideoRecoveryAction} (h : IssueOutcome state display now state' action) :
    state'.streamId = state.streamId := by
  cases h <;> rfl

/-! ## The invariant of one display -/

/-- How the action issued last stands to the state. -/
structure LastIssued (state : VideoDeliveryState) (issued : IssuedRecovery) : Prop where
  number_le : issued.number ≤ 2
  generation_eq : issued.generation = state.recoveryGeneration
  decoded_le : issued.decoded ≤ state.highestDecodedFrameId
  observed : issued.target ≠ none → state.feedbackObserved = true
  running : ∀ target, state.recoveryTargetFrameId = some target →
    issued.target = some target ∧ issued.number = state.recoveryReissues
  elapsed : state.recoveryTargetFrameId = none → ∀ target, issued.target = some target →
    target < state.highestDecodedFrameId ∨
      (issued.number = 2 ∧ (issued.decoded < state.highestDecodedFrameId ∨
        ∃ deadline, state.recoveryCycleCooldownUntil = some deadline ∧
          issued.time + secs 10 ≤ deadline))

/-- The running cycle is that of the last action. -/
theorem LastIssued.target_eq {state : VideoDeliveryState} {issued : IssuedRecovery}
    (h : LastIssued state issued) {current target : ℕ}
    (hcurrent : state.recoveryTargetFrameId = some current)
    (htarget : issued.target = some target) : current = target :=
  Option.some.inj ((h.running current hcurrent).1.symm.trans htarget)

/-- Where what was decoded has passed the running cycle, the last action is over. -/
theorem LastIssued.over {state : VideoDeliveryState} {issued : IssuedRecovery}
    (h : LastIssued state issued)
    (hpassed : ∀ current, state.recoveryTargetFrameId = some current →
      current < state.highestDecodedFrameId)
    {target : ℕ} (htarget : issued.target = some target) :
    target < state.highestDecodedFrameId ∨
      (issued.number = 2 ∧ (issued.decoded < state.highestDecodedFrameId ∨
        ∃ deadline, state.recoveryCycleCooldownUntil = some deadline ∧
          issued.time + secs 10 ≤ deadline)) := by
  cases hcurrent : state.recoveryTargetFrameId with
  | none => exact h.elapsed hcurrent target htarget
  | some current =>
      obtain rfl := h.target_eq hcurrent htarget
      exact Or.inl (hpassed current hcurrent)

/-- The actions of a display are within the budget and its state remembers the
last of them. -/
structure Paced (state : VideoDeliveryState) (issued : List IssuedRecovery) : Prop where
  chain : issued.IsChain Follows
  first : ∀ action ∈ issued.head?, action.number = 0
  lastRefresh_eq : state.lastRefreshAt = issued.getLast?.map IssuedRecovery.time
  idle : issued = [] → state.recoveryTargetFrameId = none
  last : ∀ action ∈ issued.getLast?, LastIssued state action

theorem paced_new (streamId frontier now : ℕ) : Paced (.new streamId frontier now) [] where
  chain := List.IsChain.nil
  first := nofun
  lastRefresh_eq := rfl
  idle := fun _ => rfl
  last := nofun

theorem Paced.last_time {state : VideoDeliveryState} {issued : List IssuedRecovery}
    (h : Paced state issued) {action : IssuedRecovery} (haction : action ∈ issued.getLast?) :
    state.lastRefreshAt = some action.time := by
  rw [h.lastRefresh_eq, Option.mem_def.mp haction]
  rfl

/-- A state that remembers the same actions, with the same list. -/
theorem Paced.of_last {state state' : VideoDeliveryState} {issued : List IssuedRecovery}
    (h : Paced state issued) (hrefresh : state'.lastRefreshAt = state.lastRefreshAt)
    (hidle : state.recoveryTargetFrameId = none → state'.recoveryTargetFrameId = none)
    (hlast : ∀ action ∈ issued.getLast?, LastIssued state action → LastIssued state' action) :
    Paced state' issued where
  chain := h.chain
  first := h.first
  lastRefresh_eq := hrefresh.trans h.lastRefresh_eq
  idle := fun hempty => hidle (h.idle hempty)
  last := fun action haction => hlast action haction (h.last action haction)

/-- The recovery cycle stays where it is. -/
structure SameCycle (state state' : VideoDeliveryState) : Prop where
  refresh : state'.lastRefreshAt = state.lastRefreshAt
  observed : state.feedbackObserved = true → state'.feedbackObserved = true
  target : state'.recoveryTargetFrameId = state.recoveryTargetFrameId
  generation : state'.recoveryGeneration = state.recoveryGeneration
  reissues : state'.recoveryReissues = state.recoveryReissues
  cooldown : state'.recoveryCycleCooldownUntil = state.recoveryCycleCooldownUntil
  decoded : state'.highestDecodedFrameId = state.highestDecodedFrameId

theorem Paced.of_sameCycle {state state' : VideoDeliveryState} {issued : List IssuedRecovery}
    (h : Paced state issued) (hsame : SameCycle state state') : Paced state' issued := by
  refine h.of_last hsame.refresh (fun hnone => hsame.target.trans hnone) ?_
  intro action _ hissued
  refine ⟨hissued.number_le, ?_, ?_, ?_, ?_, ?_⟩
  · rw [hsame.generation]
    exact hissued.generation_eq
  · rw [hsame.decoded]
    exact hissued.decoded_le
  · exact fun htarget => hsame.observed (hissued.observed htarget)
  · rw [hsame.target, hsame.reissues]
    exact hissued.running
  · rw [hsame.target, hsame.decoded, hsame.cooldown]
    exact hissued.elapsed

/-- One more action that follows the last one. -/
theorem Paced.concat {state state' : VideoDeliveryState} {issued : List IssuedRecovery}
    (h : Paced state issued) {next : IssuedRecovery}
    (hfollows : ∀ action ∈ issued.getLast?, Follows action next)
    (hfirst : issued = [] → next.number = 0)
    (hrefresh : state'.lastRefreshAt = some next.time) (hlast : LastIssued state' next) :
    Paced state' (issued ++ [next]) where
  chain := by
    apply List.isChain_append.mpr
    refine ⟨h.chain, List.IsChain.singleton _, ?_⟩
    intro action haction other hother
    obtain rfl : next = other := by simpa using hother
    exact hfollows action haction
  first := by
    intro action haction
    cases issued with
    | nil =>
        obtain rfl : next = action := by simpa using haction
        exact hfirst rfl
    | cons head rest => exact h.first action haction
  lastRefresh_eq := by simpa using hrefresh
  idle := by simp
  last := by
    intro action haction
    obtain rfl : next = action := by simpa using haction
    exact hlast

/-- The record of an action with the target it leaves. -/
def issuedRecovery (now : ℕ) (target : Option ℕ) (action : VideoRecoveryAction) :
    IssuedRecovery :=
  ⟨now, action, target⟩

theorem paced_issue {state : VideoDeliveryState} {issued : List IssuedRecovery}
    (h : Paced state issued) {display : ℤ} {now : ℕ} {state' : VideoDeliveryState}
    {action : Option VideoRecoveryAction} (hissue : IssueOutcome state display now state' action) :
    Paced state' (issued ++
      (action.toList.map (issuedRecovery now state'.recoveryTargetFrameId))) := by
  cases hissue with
  | wait => simpa using h
  | spent htarget hreissues hlast =>
      rw [Option.toList_none, List.map_nil, List.append_nil]
      refine h.of_last rfl (fun _ => rfl) ?_
      intro action haction hissued
      refine ⟨hissued.number_le, hissued.generation_eq, hissued.decoded_le, hissued.observed,
        nofun, fun _ target htarget' => Or.inr ?_⟩
      obtain ⟨current, hcurrent⟩ := Option.ne_none_iff_exists'.mp htarget
      have hnumber : action.number = state.recoveryReissues := (hissued.running current hcurrent).2
      have htime := hlast action.time (h.last_time haction)
      refine ⟨?_, Or.inr ⟨_, rfl, ?_⟩⟩
      · have := hissued.number_le
        have : 2 ≤ state.recoveryReissues := hreissues
        omega
      · show action.time + secs 10 ≤ now + secs 10
        omega
  | cleared hobserved hpassed =>
      rw [Option.toList_none, List.map_nil, List.append_nil]
      refine h.of_last rfl (fun _ => rfl) ?_
      intro action haction hissued
      refine ⟨hissued.number_le, hissued.generation_eq, hissued.decoded_le, hissued.observed,
        nofun, fun _ target htarget => ?_⟩
      exact hissued.over hpassed htarget
  | unobserved hobserved hlast stalled phase =>
      refine h.concat ?_ (fun _ => rfl) rfl ?_
      · intro action haction
        have hissued := h.last action haction
        refine ⟨hlast action.time (h.last_time haction), Or.inr ⟨rfl, ?_, ?_⟩⟩
        · rw [hissued.generation_eq]
          rfl
        · intro target htarget
          have := hissued.observed (by simp [htarget])
          simp [hobserved] at this
      · exact ⟨Nat.zero_le _, rfl, Nat.le_refl _, fun hne => absurd rfl hne, nofun, nofun⟩
  | reissued hobserved htarget hreissues hlast stalled phase =>
      obtain ⟨current, hcurrent⟩ := Option.ne_none_iff_exists'.mp htarget
      refine h.concat ?_ ?_ rfl ?_
      · intro action haction
        have hissued := h.last action haction
        obtain ⟨hsame, hnumber⟩ := hissued.running current hcurrent
        have htime := hlast action.time (h.last_time haction)
        refine ⟨?_, Or.inl ⟨?_, ?_, hissued.generation_eq.symm, htime⟩⟩
        · exact (Nat.add_le_add_left (secs_le_secs (by decide)) _).trans htime
        · show state.recoveryReissues + 1 = action.number + 1
          rw [hnumber]
        · exact hreissues
      · intro hempty
        exact absurd (h.idle hempty) htarget
      · refine ⟨hreissues, rfl, Nat.le_refl _, fun _ => hobserved, ?_, fun hnone => ?_⟩
        · intro target hsome
          exact ⟨hsome, rfl⟩
        · exact absurd hnone htarget
  | opened hobserved hpassed hcooldown hlast stalled phase =>
      refine h.concat ?_ (fun _ => rfl) rfl ?_
      · intro action haction
        have hissued := h.last action haction
        refine ⟨hlast action.time (h.last_time haction), Or.inr ⟨rfl, ?_, ?_⟩⟩
        · rw [hissued.generation_eq]
          rfl
        · intro target htarget
          show target < state.highestDecodedFrameId ∨ (action.number = 2 ∧
            (action.time + secs 10 ≤ now ∨ action.decoded < state.highestDecodedFrameId))
          rcases hissued.over hpassed htarget with
            hpass | ⟨hnumber, hadvanced | ⟨deadline, hdeadline, hle⟩⟩
          · exact Or.inl hpass
          · exact Or.inr ⟨hnumber, Or.inr hadvanced⟩
          · exact Or.inr ⟨hnumber, Or.inl (hle.trans (hcooldown deadline hdeadline))⟩
      · refine ⟨Nat.zero_le _, rfl, Nat.le_refl _, fun _ => hobserved, ?_, nofun⟩
        intro target hsome
        exact ⟨hsome, rfl⟩

/-- A frame of another stream starts afresh; one of the same stream leaves the
recovery cycle alone. -/
theorem paced_frameSent {state : VideoDeliveryState} (frame : VideoFrame) (now : ℕ)
    {issued : List IssuedRecovery} (h : Paced state issued) :
    Paced (state.frameSent frame now)
      (if (state.frameSent frame now).streamId = state.streamId then issued else []) := by
  by_cases hstream : state.streamId = frame.streamId
  · have hsame : (state.frameSent frame now).streamId = state.streamId := by
      simp only [VideoDeliveryState.frameSent, hstream]
      split_ifs <;> simp_all
    have hcycle : SameCycle state (state.frameSent frame now) := by
      simp only [VideoDeliveryState.frameSent, hstream, ne_eq, not_true_eq_false, if_false]
      split_ifs <;> exact ⟨rfl, id, rfl, rfl, rfl, rfl, rfl⟩
    rw [if_pos hsame]
    exact h.of_sameCycle hcycle
  · have hfresh : state.frameSent frame now = .new frame.streamId frame.frameId now := by
      simp [VideoDeliveryState.frameSent, hstream]
    have hchanged : ¬ (state.frameSent frame now).streamId = state.streamId := by
      rw [hfresh]
      exact fun heq => hstream heq.symm
    rw [if_neg hchanged, hfresh]
    exact paced_new _ _ _

/-- The recovery cycle after feedback of the same stream: it goes on, or the
decoder advanced, perhaps past the target. -/
theorem paced_feedbackReceived {state : VideoDeliveryState} (feedback : VideoFeedback) (now : ℕ)
    {issued : List IssuedRecovery} (h : Paced state issued) :
    Paced (state.feedbackReceived feedback now) issued := by
  have hcycle : SameCycle state (state.feedbackReceived feedback now) := by
    simp only [VideoDeliveryState.feedbackReceived]
    split_ifs <;> exact ⟨rfl, fun _ => rfl, rfl, rfl, rfl, rfl, rfl⟩
  exact h.of_sameCycle hcycle

theorem paced_feedbackDecoded {state : VideoDeliveryState} (feedback : VideoFeedback) (now : ℕ)
    {issued : List IssuedRecovery} (h : Paced state issued) :
    Paced (state.feedbackDecoded feedback now) issued := by
  unfold VideoDeliveryState.feedbackDecoded
  by_cases hadvanced : state.highestDecodedFrameId < feedback.decodedFrameId
  · rw [if_pos hadvanced]
    dsimp only
    split_ifs with hpassed hnone
    · -- The decoder passed the target: the cycle is over.
      refine h.of_last rfl (fun _ => rfl) ?_
      intro action _ hissued
      refine ⟨hissued.number_le, hissued.generation_eq,
        hissued.decoded_le.trans (Nat.le_of_lt hadvanced), hissued.observed, nofun, ?_⟩
      intro _ target htarget
      obtain ⟨current, hcurrent⟩ : ∃ current, state.recoveryTargetFrameId = some current := by
        cases hcurrent : state.recoveryTargetFrameId with
        | none => simp [hcurrent] at hpassed
        | some current => exact ⟨current, rfl⟩
      obtain rfl := hissued.target_eq hcurrent htarget
      left
      have hpass : decide (current < feedback.decodedFrameId) = true := by
        rw [VideoDeliveryState.decodedTo_recoveryTargetFrameId, hcurrent] at hpassed
        exact hpassed
      have hlt : current < feedback.decodedFrameId := of_decide_eq_true hpass
      exact hlt
    · refine h.of_last rfl id ?_
      intro action _ hissued
      refine ⟨hissued.number_le, hissued.generation_eq,
        hissued.decoded_le.trans (Nat.le_of_lt hadvanced), hissued.observed, hissued.running, ?_⟩
      intro hcurrent target htarget
      rcases hissued.elapsed hcurrent target htarget with hpass | ⟨hnumber, -⟩
      · exact Or.inl (hpass.trans hadvanced)
      · exact Or.inr ⟨hnumber, Or.inl (Nat.lt_of_le_of_lt hissued.decoded_le hadvanced)⟩
    · refine h.of_last rfl id ?_
      intro action _ hissued
      refine ⟨hissued.number_le, hissued.generation_eq,
        hissued.decoded_le.trans (Nat.le_of_lt hadvanced), hissued.observed, hissued.running, ?_⟩
      intro hcurrent
      exact absurd (Option.isNone_iff_eq_none.mpr hcurrent) hnone
  · rw [if_neg hadvanced]
    exact h

theorem paced_feedback {state : VideoDeliveryState} (feedback : VideoFeedback) (now : ℕ)
    {issued : List IssuedRecovery} (h : Paced state issued) :
    Paced (state.feedback feedback now)
      (if (state.feedback feedback now).streamId = state.streamId then issued else []) := by
  have hkeep : ∀ (current : VideoDeliveryState) (issued : List IssuedRecovery),
      Paced current issued →
      Paced { (current.feedbackReceived feedback now).feedbackDecoded feedback now with
        highestRenderSubmittedFrameId := max
          ((current.feedbackReceived feedback now).feedbackDecoded feedback
            now).highestRenderSubmittedFrameId feedback.renderSubmittedFrameId } issued := by
    intro current issued hcurrent
    have hdecoded := paced_feedbackDecoded feedback now
      (paced_feedbackReceived feedback now hcurrent)
    exact hdecoded.of_sameCycle ⟨rfl, id, rfl, rfl, rfl, rfl, rfl⟩
  have hstreamId : ∀ current : VideoDeliveryState,
      ((current.feedbackReceived feedback now).feedbackDecoded feedback now).streamId =
        current.streamId := by
    intro current
    have hreceived : (current.feedbackReceived feedback now).streamId = current.streamId := by
      simp only [VideoDeliveryState.feedbackReceived]
      split_ifs <;> rfl
    rw [← hreceived]
    simp only [VideoDeliveryState.feedbackDecoded]
    split_ifs <;> rfl
  by_cases hstream : state.streamId = feedback.streamId
  · have hsame : (state.feedback feedback now).streamId = state.streamId := by
      simp [VideoDeliveryState.feedback, hstream, hstreamId]
    rw [if_pos hsame]
    simpa [VideoDeliveryState.feedback, hstream] using hkeep state issued h
  · have hchanged : ¬ (state.feedback feedback now).streamId = state.streamId := by
      simp only [VideoDeliveryState.feedback, ne_eq, hstream, not_false_eq_true, if_true,
        hstreamId]
      exact fun heq => hstream heq.symm
    rw [if_neg hchanged]
    simpa [VideoDeliveryState.feedback, hstream] using hkeep _ [] (paced_new _ 0 now)

/-! ## Whole runs -/

/-- The invariant of a display that may not be tracked. -/
def PacedDisplay (state : Option VideoDeliveryState) (issued : List IssuedRecovery) : Prop :=
  match state with
  | none => issued = []
  | some state => Paced state issued

theorem pacedDisplay_move {display : ℤ} {now : ℕ} {state state' : Option VideoDeliveryState}
    {actions : List VideoRecoveryAction} {issued : List IssuedRecovery}
    (h : PacedDisplay state issued) (hmove : DisplayMove display now state state' actions) :
    PacedDisplay state'
      (if state'.map VideoDeliveryState.streamId = state.map VideoDeliveryState.streamId then
        issued ++ actions.map
          (issuedRecovery now (state'.bind VideoDeliveryState.recoveryTargetFrameId))
      else []) := by
  cases hmove with
  | keep => simpa using h
  | frameSent _ frame =>
      cases state with
      | none =>
          have hfresh := paced_frameSent frame now (paced_new frame.streamId frame.frameId now)
          simpa [PacedDisplay] using hfresh
      | some state =>
          have hnext := paced_frameSent frame now h
          simpa [PacedDisplay] using hnext
  | feedback _ feedback =>
      cases state with
      | none =>
          have hfresh := paced_feedback feedback now (paced_new feedback.streamId 0 now)
          simpa [PacedDisplay] using hfresh
      | some state =>
          have hnext := paced_feedback feedback now h
          simpa [PacedDisplay] using hnext
  | issue state networkDelayMs stalled =>
      have houtcome := issueOutcome state display now networkDelayMs stalled
      rw [if_pos (by simp [houtcome.streamId_eq])]
      exact paced_issue h houtcome

theorem pacedDisplay_next {m : DeliveryMonitor} (event : DeliveryEvent) (display : ℤ)
    (h : PacedDisplay (m.controller.byDisplay.get? display) (m.issued display)) :
    PacedDisplay ((m.next event).controller.byDisplay.get? display)
      ((m.next event).issued display) :=
  pacedDisplay_move h (VideoDeliveryController.displayMove_handle event display)

theorem pacedDisplay_run (events : List DeliveryEvent) (display : ℤ) :
    PacedDisplay ((deliveryRun events).controller.byDisplay.get? display)
      ((deliveryRun events).issued display) := by
  induction events using List.reverseRecOn with
  | nil => rfl
  | append_singleton events event ih =>
      rw [deliveryRun, List.foldl_append, List.foldl_cons, List.foldl_nil]
      exact pacedDisplay_next event display ih

/-- The recovery budget of the actions between two changes of a stream. A
generation starts with the action numbered 0 and lasts until the next such one. -/
structure WithinBudget (issued : List IssuedRecovery) : Prop where
  apart : issued.IsChain fun previous next => previous.time + secs 1 ≤ next.time
  begins : ∀ action ∈ issued.head?, action.number = 0
  bounded : ∀ opening rest, (opening :: rest) <:+: issued → opening.number = 0 →
    (∀ action ∈ rest, action.number ≠ 0) →
      (opening :: rest).length ≤ 3 ∧
      (opening :: rest).map IssuedRecovery.number = List.range (opening :: rest).length ∧
      (∀ action ∈ rest, action.generation = opening.generation) ∧
      (opening :: rest).IsChain fun previous next => previous.time + secs 3 ≤ next.time
  opens : issued.IsChain fun previous next => next.number = 0 → Opens previous next

/-- The actions of one generation are consecutive reissues. -/
theorem bounded_of_chain {opening : IssuedRecovery} {rest : List IssuedRecovery} {start : ℕ}
    (hchain : (opening :: rest).IsChain Follows) (hstart : opening.number = start)
    (hle : start ≤ 2) (hrest : ∀ action ∈ rest, action.number ≠ 0) :
    start + (opening :: rest).length ≤ 3 ∧
      (opening :: rest).map IssuedRecovery.number = List.range' start (opening :: rest).length ∧
      (∀ action ∈ rest, action.generation = opening.generation) ∧
      (opening :: rest).IsChain fun previous next => previous.time + secs 3 ≤ next.time := by
  induction rest generalizing opening start with
  | nil =>
      refine ⟨?_, by simp [hstart], nofun, List.IsChain.singleton _⟩
      rw [List.length_singleton]
      omega
  | cons next rest ih =>
      obtain ⟨hfollows, htail⟩ := List.isChain_cons_cons.mp hchain
      have hreissues : Reissues opening next := by
        rcases hfollows.kind with hreissues | hopens
        · exact hreissues
        · exact absurd hopens.number_eq (hrest next List.mem_cons_self)
      have hnumber : next.number = start + 1 := by rw [hreissues.number_eq, hstart]
      have hnumberLe : start + 1 ≤ 2 := hnumber ▸ hreissues.number_le
      obtain ⟨hlength, hmap, hgeneration, happart⟩ := ih htail hnumber hnumberLe
        fun action haction => hrest action (List.mem_cons_of_mem next haction)
      refine ⟨?_, ?_, ?_, ?_⟩
      · simp only [List.length_cons] at hlength ⊢
        omega
      · rw [List.map_cons, hmap, hstart]
        rfl
      · intro action haction
        rcases List.mem_cons.mp haction with rfl | hmem
        · exact hreissues.generation_eq
        · exact (hgeneration action hmem).trans hreissues.generation_eq
      · exact List.isChain_cons_cons.mpr ⟨hreissues.apart, happart⟩

theorem Paced.withinBudget {state : VideoDeliveryState} {issued : List IssuedRecovery}
    (h : Paced state issued) : WithinBudget issued where
  apart := h.chain.imp fun _ _ hfollows => hfollows.apart
  begins := h.first
  bounded opening rest hinfix hopening hrest := by
    have hchain := List.IsChain.infix h.chain hinfix
    obtain ⟨hlength, hmap, hgeneration, happart⟩ :=
      bounded_of_chain hchain hopening (Nat.zero_le 2) hrest
    refine ⟨by simpa using hlength, ?_, hgeneration, happart⟩
    rw [hmap, List.range_eq_range']
  opens := h.chain.imp fun previous next hfollows hnumber => by
    rcases hfollows.kind with hreissues | hopens
    · rw [hreissues.number_eq] at hnumber
      omega
    · exact hopens

/-- Whatever is sent, reported and asked for, and whatever the delays: since the
last change of a display's stream its recovery actions are within the budget. -/
theorem recovery_withinBudget (events : List DeliveryEvent) (display : ℤ) :
    WithinBudget ((deliveryRun events).issued display) := by
  have hpaced := pacedDisplay_run events display
  cases hstate : (deliveryRun events).controller.byDisplay.get? display with
  | none =>
      rw [hstate] at hpaced
      have hempty : (deliveryRun events).issued display = [] := hpaced
      rw [hempty]
      exact (paced_new 0 0 0).withinBudget
  | some state =>
      rw [hstate] at hpaced
      exact Paced.withinBudget hpaced

end RustAdmin.VideoDelivery
