import RustAdmin.Service.SubscriberJoin

/-!
# Reasons for a reference refresh

`HqReferenceRefreshPolicy` of `src/src/server/video_service.rs`, and the part of the
video loop that asks its encoder for a reference.  The reasons of an iteration are
merged into one attempt, which may fail.  Times are in milliseconds.

A reason that is owed is a delivery or was read in vain.  `iterate_unrecorded` says
what an iteration without a refresh means: it had no reason or could not ask its
encoder.  `iterate_keeps` leaves only deliveries owed where nothing was read in vain,
and the policy remembers those (`takeReason_of_pending`), so `Kept` is kept along a
run; the distance between attempts is a second invariant, `Tracked`, which needs no
condition.
-/

namespace RustAdmin.Service.ReferenceRefresh

open RustAdmin.Support

/-! ## The policy -/

inductive ReferenceRefreshReason
  | startupSafeEnded
  | significantBitrateIncrease
  | deliveryRecovery
  | secureDesktopTransition
  | movieCadenceChange
  | subscriberJoin
  deriving DecidableEq, Repr

def hqReferenceRefreshCooldown : ℕ := 6000

def deliveryReferenceRefreshCooldown : ℕ := 250

structure HqReferenceRefreshPolicy where
  startupSafe : Bool
  referenceBitrate : ℕ
  lastRefresh : Option ℕ
  lastDeliveryRefreshAttempt : Option ℕ
  deliveryRefreshPending : Bool
  deriving DecidableEq, Repr

namespace HqReferenceRefreshPolicy

def new (startupSafe : Bool) (bitrate : ℕ) : HqReferenceRefreshPolicy :=
  ⟨startupSafe, bitrate, none, none, false⟩

variable (policy : HqReferenceRefreshPolicy)

/-- The bitrate of a significant increase, three halves of the reference on 32 bits. -/
def threshold : ℕ := min (policy.referenceBitrate * 3) (2 ^ 32 - 1) / 2

def evaluate (eligible startupSafe : Bool) (bitrate now : ℕ) :
    Option ReferenceRefreshReason × HqReferenceRefreshPolicy :=
  (if !eligible || startupSafe || bitrate == 0 then none
    else if policy.startupSafe && !startupSafe then some .startupSafeEnded
    else if 0 < policy.referenceBitrate ∧ policy.threshold ≤ bitrate ∧
        policy.lastRefresh.all fun lastRefresh => hqReferenceRefreshCooldown ≤ now - lastRefresh
    then some .significantBitrateIncrease
    else none,
    { policy with startupSafe := startupSafe })

def recordRefresh (bitrate now : ℕ) : HqReferenceRefreshPolicy :=
  { policy with
    referenceBitrate := bitrate
    lastRefresh := some now
    deliveryRefreshPending := false }

/-- A refresh was recorded less than the cooldown ago. -/
def refreshedRecently (now : ℕ) : Bool :=
  policy.lastRefresh.any fun lastRefresh => now - lastRefresh < deliveryReferenceRefreshCooldown

/-- The delivery is not answered again within the cooldown. -/
def deliveryWaits (now : ℕ) : Bool :=
  policy.lastDeliveryRefreshAttempt.any fun lastAttempt =>
    now - lastAttempt < deliveryReferenceRefreshCooldown

def requestDeliveryRefresh (requested : Bool) (now : ℕ) :
    Option ReferenceRefreshReason × HqReferenceRefreshPolicy :=
  let pending := policy.deliveryRefreshPending || (requested && !policy.refreshedRecently now)
  if !pending || policy.deliveryWaits now then
    (none, { policy with deliveryRefreshPending := pending })
  else
    (some .deliveryRecovery,
      { policy with deliveryRefreshPending := pending, lastDeliveryRefreshAttempt := some now })

end HqReferenceRefreshPolicy

/-! ## The iteration -/

/-- The variables of the loop that decide on a refresh. -/
structure RefreshLoop where
  policy : HqReferenceRefreshPolicy
  referenceRefreshPending : Option PendingReferenceRefresh
  subscriberJoinStarted : Option ℕ
  /-- `secure_desktop_reference_refresh_pending` holds its reason. -/
  secureDesktopPending : Bool
  /-- `OPTION_REFERENCE_REFRESH` of the service. -/
  optionReferenceRefresh : Bool

/-- An encoder that was made anew. -/
structure Recreation where
  started : ℕ
  bitrate : ℕ

/-- What an iteration meets: the times at which it looks at the clock, the quality of
service, and what comes of its requests to the encoder. -/
structure Iteration where
  /-- The cadence changes, and the encoder is made anew for it. -/
  cadence : Option Recreation
  timeoutNow : ℕ
  /-- The encoder made anew if the reference in place has timed out. -/
  fallback : Option Recreation
  pendingSubscribers : Bool
  hasEncodedFrame : Bool
  replayableFrame : Bool
  joinNow : ℕ
  eligible : Bool
  startupSafe : Bool
  currentBitrate : ℕ
  policyNow : ℕ
  deliveryNow : ℕ
  refreshStarted : ℕ
  /-- The bitrate of the encoder, where it accepts `request_keyframe`. -/
  keyframe : Option ℕ
  /-- The bitrate of the encoder made anew where it does not. -/
  recreated : Option ℕ

/-- What comes of an iteration: the reason it had, and whether it recorded a refresh. -/
structure Answer where
  reason : Option ReferenceRefreshReason
  recorded : Bool

namespace RefreshLoop

variable (s : RefreshLoop) (i : Iteration)

def new (startupSafe : Bool) (bitrate : ℕ) : RefreshLoop :=
  ⟨.new startupSafe bitrate, none, none, false, false⟩

def record (refresh : Recreation) : RefreshLoop :=
  { s with
    policy := s.policy.recordRefresh refresh.bitrate refresh.started
    referenceRefreshPending := some ⟨refresh.started, 0⟩ }

/-- The encoder made anew for the cadence. -/
def recreateForCadence : RefreshLoop := i.cadence.elim s s.record

/-- The fallback to an encoder made anew, where the reference in place has timed out. -/
def timeoutRecreation : Option Recreation :=
  if VideoLoop.timedOut s.referenceRefreshPending i.timeoutNow then i.fallback else none

def recreateAfterTimeout : RefreshLoop := (s.timeoutRecreation i).elim s s.record

/-- An encoder was made anew before the reasons are looked at. -/
def recreatesBefore : Bool :=
  i.cadence.isSome || ((s.recreateForCadence i).timeoutRecreation i).isSome

def joinAction : SubscriberJoinAction × Option ℕ :=
  subscriberJoinAction i.pendingSubscribers i.hasEncodedFrame i.replayableFrame
    s.subscriberJoinStarted i.joinNow

/-- The reason of the iteration, and the loop once the reasons have been looked at. -/
def takeReason : Option ReferenceRefreshReason × RefreshLoop :=
  let join := s.joinAction i
  let evaluated := s.policy.evaluate i.eligible i.startupSafe i.currentBitrate i.policyNow
  let delivery := evaluated.2.requestDeliveryRefresh s.optionReferenceRefresh i.deliveryNow
  ((((if s.secureDesktopPending then some .secureDesktopTransition else none).or
      (if join.1 = .reference then some .subscriberJoin else none)).or delivery.1).or evaluated.1,
    { s with
      policy := delivery.2
      subscriberJoinStarted := join.2
      secureDesktopPending := false
      optionReferenceRefresh := false })

/-- The refresh that an attempt records: a keyframe in place, else an encoder made anew. -/
def attempt : Option Recreation :=
  (i.keyframe.or i.recreated).map fun bitrate => ⟨i.refreshStarted, bitrate⟩

/-- One iteration, up to the capture; none where the loop ends with `SWITCH`. -/
def iterate : Option (RefreshLoop × Answer) :=
  let s' := (s.recreateForCadence i).recreateAfterTimeout i
  if (s'.joinAction i).1 = .restart then none
  else
    let taken := s'.takeReason i
    if s.recreatesBefore i then some (taken.2, ⟨taken.1, true⟩)
    else match taken.1, attempt i with
      | some reason, some refresh => some (taken.2.record refresh, ⟨some reason, true⟩)
      | reason, _ => some (taken.2, ⟨reason, false⟩)

/-- `handle_one_frame`, for a frame the encoder returned. -/
def handleOneFrame (vf : VideoFrame) : RefreshLoop :=
  { s with
    referenceRefreshPending :=
      if hasKeyframe vf then none
      else s.referenceRefreshPending.map fun refresh =>
        { refresh with nonKeyframeFrames := refresh.nonKeyframeFrames + 1 } }

end RefreshLoop

/-! ## Runs -/

/-- The loop with what a run is watched for: the time of the last iteration, the
attempts, made or coalesced, and whether a reason waits for its refresh. -/
structure Watched where
  loop : RefreshLoop
  clock : ℕ
  attempts : List (ℕ × ReferenceRefreshReason)
  owed : Bool

namespace Watched

def start (startupSafe : Bool) (bitrate : ℕ) : Watched := ⟨.new startupSafe bitrate, 0, [], false⟩

end Watched

/-- A transition of the secure desktop or the end of the startup phase of an eligible
encoder, at this iteration. -/
def RefreshLoop.readOnce (s : RefreshLoop) (i : Iteration) : Bool :=
  s.secureDesktopPending || (i.eligible && s.policy.startupSafe && !i.startupSafe)

/-- The iteration has a reason that is to be followed by a refresh. -/
def RefreshLoop.raises (s : RefreshLoop) (i : Iteration) : Bool :=
  (s.optionReferenceRefresh || s.readOnce i) && !s.policy.refreshedRecently i.deliveryNow

inductive LoopEvent
  /-- A connection asks for a refresh. -/
  | requestDelivery
  /-- The capture is retained across a change of the desktop. -/
  | secureDesktop
  | frame (vf : VideoFrame)
  | iteration (i : Iteration)

inductive Step : Watched → LoopEvent → Watched → Prop
  | requestDelivery (s : Watched) :
      Step s .requestDelivery { s with loop := { s.loop with optionReferenceRefresh := true } }
  | secureDesktop (s : Watched) :
      Step s .secureDesktop { s with loop := { s.loop with secureDesktopPending := true } }
  | frame (s : Watched) (vf : VideoFrame) :
      Step s (.frame vf) { s with loop := s.loop.handleOneFrame vf }
  | iteration (s : Watched) (i : Iteration) (loop : RefreshLoop) (answer : Answer)
      (hclock : s.clock ≤ i.deliveryNow) (hiterate : s.loop.iterate i = some (loop, answer)) :
      Step s (.iteration i)
        ⟨loop, i.deliveryNow, s.attempts ++ answer.reason.toList.map (i.deliveryNow, ·),
          (s.owed || s.loop.raises i) && !answer.recorded⟩

/-- The iteration comes a cooldown after the previous attempt, and its request to the
encoder succeeds. -/
def Watched.Ready (s : Watched) (i : Iteration) : Prop :=
  (∀ attempt ∈ s.attempts.getLast?, attempt.1 + deliveryReferenceRefreshCooldown ≤ i.deliveryNow) ∧
    (i.keyframe.isSome = true ∨ i.recreated.isSome = true)

/-- A reason that is read once is not read in vain: an encoder was made anew already, a
refresh is recent, a delivery is still to be made, or the attempt comes about and
succeeds. -/
def RefreshLoop.Keeps (s : RefreshLoop) (i : Iteration) : Prop :=
  s.readOnce i = true →
    s.recreatesBefore i = true ∨ s.policy.refreshedRecently i.deliveryNow = true ∨
      s.policy.deliveryRefreshPending = true ∨ s.optionReferenceRefresh = true ∨
      ((s.secureDesktopPending = true ∨ (s.joinAction i).1 = .reference ∨
          i.currentBitrate ≠ 0) ∧
        (i.keyframe.isSome = true ∨ i.recreated.isSome = true))

/-- A step that does not read a reason in vain. -/
def KeepingStep (s : Watched) (event : LoopEvent) (s' : Watched) : Prop :=
  Step s event s' ∧ ∀ i, event = .iteration i → s.loop.Keeps i

/-! ## One iteration -/

namespace HqReferenceRefreshPolicy

variable {policy : HqReferenceRefreshPolicy} {requested : Bool} {now : ℕ}

theorem requestDeliveryRefresh_pending :
    (policy.requestDeliveryRefresh requested now).2.deliveryRefreshPending =
      (policy.deliveryRefreshPending || (requested && !policy.refreshedRecently now)) := by
  unfold requestDeliveryRefresh
  dsimp only
  split <;> rfl

/-- A delivery is answered a cooldown after it was last, and that is noted. -/
theorem requestDeliveryRefresh_cases (policy : HqReferenceRefreshPolicy) (requested : Bool)
    (now : ℕ) :
    ((policy.requestDeliveryRefresh requested now).1 = none ∧
      (policy.requestDeliveryRefresh requested now).2.lastDeliveryRefreshAttempt =
        policy.lastDeliveryRefreshAttempt) ∨
    ((policy.requestDeliveryRefresh requested now).1 = some .deliveryRecovery ∧
      (policy.requestDeliveryRefresh requested now).2.lastDeliveryRefreshAttempt = some now ∧
      policy.deliveryWaits now = false) := by
  unfold requestDeliveryRefresh
  dsimp only
  split
  · exact Or.inl ⟨rfl, rfl⟩
  · next h =>
      rw [Bool.or_eq_true, not_or] at h
      exact Or.inr ⟨rfl, rfl, by simpa using h.2⟩

theorem requestDeliveryRefresh_of_pending
    (hpending : (policy.requestDeliveryRefresh requested now).2.deliveryRefreshPending = true)
    (hwaits : policy.deliveryWaits now = false) :
    (policy.requestDeliveryRefresh requested now).1 = some .deliveryRecovery := by
  rw [requestDeliveryRefresh_pending] at hpending
  unfold requestDeliveryRefresh
  simp [hpending, hwaits]

theorem evaluate_reason (eligible startupSafe : Bool) (bitrate now : ℕ) :
    (policy.evaluate eligible startupSafe bitrate now).1 ≠ some .deliveryRecovery := by
  unfold evaluate
  dsimp only
  split
  · nofun
  · split
    · nofun
    · split <;> nofun

theorem evaluate_startupEnd {eligible startupSafe : Bool} {bitrate now : ℕ}
    (hend : (eligible && policy.startupSafe && !startupSafe) = true) (hbitrate : bitrate ≠ 0) :
    (policy.evaluate eligible startupSafe bitrate now).1 = some .startupSafeEnded := by
  simp only [Bool.and_eq_true, Bool.not_eq_true'] at hend
  simp [evaluate, hend, hbitrate]

end HqReferenceRefreshPolicy

namespace RefreshLoop

variable {s s' : RefreshLoop} {i : Iteration} {answer : Answer}

/-- The attempts at a delivery that the policy knows of are those of the loop; an
encoder made anew leaves them. -/
theorem recreated_lastDelivery (s : RefreshLoop) (i : Iteration) :
    ((s.recreateForCadence i).recreateAfterTimeout i).policy.lastDeliveryRefreshAttempt =
      s.policy.lastDeliveryRefreshAttempt := by
  unfold recreateAfterTimeout recreateForCadence
  cases i.cadence with
  | none => cases timeoutRecreation _ i <;> rfl
  | some refresh => cases timeoutRecreation _ i <;> rfl

/-- An iteration that makes no encoder anew looks at its reasons in the state it found. -/
theorem recreated_eq (h : s.recreatesBefore i = false) :
    (s.recreateForCadence i).recreateAfterTimeout i = s := by
  unfold recreatesBefore at h
  rw [Bool.or_eq_false_iff, Option.isSome_eq_false_iff, Option.isSome_eq_false_iff,
    Option.isNone_iff_eq_none, Option.isNone_iff_eq_none] at h
  have hcadence : s.recreateForCadence i = s := by simp [recreateForCadence, h.1]
  rw [hcadence] at h ⊢
  simp [recreateAfterTimeout, h.2]

theorem attempt_isSome (i : Iteration) :
    (attempt i).isSome = true ↔ i.keyframe.isSome = true ∨ i.recreated.isSome = true := by
  simp [attempt, Option.isSome_or]

/-- The reasons of an iteration: a delivery that is answered is one of them. -/
theorem takeReason_isSome (s : RefreshLoop) (i : Iteration) :
    (s.takeReason i).1.isSome = true ↔
      s.secureDesktopPending = true ∨ (s.joinAction i).1 = .reference ∨
      (((s.policy.evaluate i.eligible i.startupSafe i.currentBitrate
          i.policyNow).2.requestDeliveryRefresh s.optionReferenceRefresh i.deliveryNow).1).isSome
        = true ∨
      ((s.policy.evaluate i.eligible i.startupSafe i.currentBitrate i.policyNow).1).isSome
        = true := by
  unfold takeReason
  simp only [Option.isSome_or, Bool.or_eq_true]
  cases s.secureDesktopPending <;> by_cases h : (s.joinAction i).1 = .reference <;> simp [h]

/-- An iteration that records nothing has looked at its reasons where it found them, and
had none or could not ask its encoder. -/
theorem iterate_unrecorded (h : s.iterate i = some (s', answer))
    (hnone : answer.recorded = false) :
    s.recreatesBefore i = false ∧ answer.reason = (s.takeReason i).1 ∧
      s' = (s.takeReason i).2 ∧
      ((s.takeReason i).1 = none ∨ (i.keyframe.isSome = false ∧ i.recreated.isSome = false)) := by
  unfold iterate at h
  dsimp only at h
  split at h
  · cases h
  · split at h
    · obtain ⟨-, rfl⟩ := Prod.mk.inj (Option.some.inj h)
      cases hnone
    · next hbefore =>
        rw [Bool.not_eq_true] at hbefore
        rw [recreated_eq hbefore] at h
        refine ⟨hbefore, ?_⟩
        cases hreason : (s.takeReason i).1 with
        | none =>
            rw [hreason] at h
            obtain ⟨rfl, rfl⟩ := Prod.mk.inj (Option.some.inj h)
            exact ⟨rfl, rfl, Or.inl rfl⟩
        | some reason =>
            cases hattempt : attempt i with
            | none =>
                rw [hreason, hattempt] at h
                obtain ⟨rfl, rfl⟩ := Prod.mk.inj (Option.some.inj h)
                have hfails := mt (attempt_isSome i).mpr (by simp [hattempt])
                rw [not_or, Bool.not_eq_true, Bool.not_eq_true] at hfails
                exact ⟨rfl, rfl, Or.inr hfails⟩
            | some refresh =>
                rw [hreason, hattempt] at h
                obtain ⟨-, rfl⟩ := Prod.mk.inj (Option.some.inj h)
                cases hnone

/-- The reason of an iteration, and the attempts at a delivery after it, are those that
come of its reasons. -/
theorem iterate_reason (h : s.iterate i = some (s', answer)) :
    answer.reason = (((s.recreateForCadence i).recreateAfterTimeout i).takeReason i).1 ∧
      s'.policy.lastDeliveryRefreshAttempt = (((s.recreateForCadence i).recreateAfterTimeout
        i).takeReason i).2.policy.lastDeliveryRefreshAttempt := by
  unfold iterate at h
  dsimp only at h
  split at h
  · cases h
  · split at h
    · obtain ⟨rfl, rfl⟩ := Prod.mk.inj (Option.some.inj h)
      exact ⟨rfl, rfl⟩
    · split at h
      · next hreason _ =>
          obtain ⟨rfl, rfl⟩ := Prod.mk.inj (Option.some.inj h)
          exact ⟨hreason.symm, rfl⟩
      · obtain ⟨rfl, rfl⟩ := Prod.mk.inj (Option.some.inj h)
        exact ⟨rfl, rfl⟩

theorem takeReason_delivery (s : RefreshLoop) (i : Iteration) :
    ((s.takeReason i).1 ≠ some .deliveryRecovery ∧
      (s.takeReason i).2.policy.lastDeliveryRefreshAttempt =
        s.policy.lastDeliveryRefreshAttempt) ∨
    ((s.takeReason i).1.isSome = true ∧
      (s.takeReason i).2.policy.lastDeliveryRefreshAttempt = some i.deliveryNow ∧
      s.policy.deliveryWaits i.deliveryNow = false) := by
  have hevaluate : (s.policy.evaluate i.eligible i.startupSafe i.currentBitrate
      i.policyNow).1 ≠ some .deliveryRecovery :=
    HqReferenceRefreshPolicy.evaluate_reason _ _ _ _
  rcases HqReferenceRefreshPolicy.requestDeliveryRefresh_cases
      (s.policy.evaluate i.eligible i.startupSafe i.currentBitrate i.policyNow).2
      s.optionReferenceRefresh i.deliveryNow with
    ⟨hnone, hsame⟩ | ⟨hsome, hnow, hwaits⟩
  · refine Or.inl ⟨?_, hsame⟩
    unfold takeReason
    dsimp only
    rw [hnone]
    cases s.secureDesktopPending <;> by_cases h : (s.joinAction i).1 = .reference <;>
      simp [h, hevaluate]
  · exact Or.inr ⟨(takeReason_isSome s i).mpr (Or.inr (Or.inr (Or.inl (by rw [hsome]; rfl)))),
      hnow, hwaits⟩

/-- What an iteration notes about deliveries. -/
theorem iterate_delivery (h : s.iterate i = some (s', answer)) :
    (answer.reason ≠ some .deliveryRecovery ∧
      s'.policy.lastDeliveryRefreshAttempt = s.policy.lastDeliveryRefreshAttempt) ∨
    (answer.reason.isSome = true ∧ s'.policy.lastDeliveryRefreshAttempt = some i.deliveryNow ∧
      s.policy.deliveryWaits i.deliveryNow = false) := by
  obtain ⟨hreason, hlast⟩ := iterate_reason h
  have hsame := s.recreated_lastDelivery i
  rw [hreason, hlast, ← hsame]
  have hwaits : s.policy.deliveryWaits i.deliveryNow =
      ((s.recreateForCadence i).recreateAfterTimeout i).policy.deliveryWaits i.deliveryNow := by
    unfold HqReferenceRefreshPolicy.deliveryWaits
    rw [hsame]
  rw [hwaits]
  exact takeReason_delivery _ i

theorem takeReason_pending (s : RefreshLoop) (i : Iteration) :
    (s.takeReason i).2.policy.deliveryRefreshPending =
      (s.policy.deliveryRefreshPending ||
        (s.optionReferenceRefresh && !s.policy.refreshedRecently i.deliveryNow)) :=
  HqReferenceRefreshPolicy.requestDeliveryRefresh_pending

/-- A delivery that is to be made is answered where it does not wait. -/
theorem takeReason_of_pending
    (hpending : (s.takeReason i).2.policy.deliveryRefreshPending = true)
    (hwaits : s.policy.deliveryWaits i.deliveryNow = false) :
    (s.takeReason i).1.isSome = true := by
  refine (takeReason_isSome s i).mpr (Or.inr (Or.inr (Or.inl ?_)))
  have hanswer := HqReferenceRefreshPolicy.requestDeliveryRefresh_of_pending hpending hwaits
  rw [hanswer]
  rfl

/-- Where a reason is not read in vain, one that is still owed is a delivery. -/
theorem iterate_keeps (h : s.iterate i = some (s', answer)) (hkeeps : s.Keeps i)
    (hraises : s.raises i = true) (hnone : answer.recorded = false) :
    s'.policy.deliveryRefreshPending = true := by
  obtain ⟨hbefore, -, rfl, hvain⟩ := iterate_unrecorded h hnone
  rw [takeReason_pending]
  unfold raises at hraises
  rw [Bool.and_eq_true, Bool.or_eq_true, Bool.not_eq_true'] at hraises
  obtain ⟨hcause, hrecent⟩ := hraises
  rw [hrecent]
  by_contra hlost
  simp only [Bool.not_false, Bool.and_true, Bool.or_eq_true, not_or, Bool.not_eq_true] at hlost
  have hread : s.readOnce i = true := by simpa [hlost.2] using hcause
  rcases hkeeps hread with hyes | hyes | hyes | hyes | ⟨hreason, hasks⟩
  · simp [hbefore] at hyes
  · simp [hrecent] at hyes
  · simp [hlost.1] at hyes
  · simp [hlost.2] at hyes
  · have hsome : (s.takeReason i).1.isSome = true := by
      refine (takeReason_isSome s i).mpr ?_
      unfold readOnce at hread
      rw [Bool.or_eq_true] at hread
      rcases hread with hsecure | hend
      · exact Or.inl hsecure
      · rcases hreason with hsecure | hjoin | hbitrate
        · exact Or.inl hsecure
        · exact Or.inr (Or.inl hjoin)
        · refine Or.inr (Or.inr (Or.inr ?_))
          rw [HqReferenceRefreshPolicy.evaluate_startupEnd hend hbitrate]
          rfl
    rcases hvain with hvain | ⟨hkeyframe, hrecreated⟩
    · simp [hvain] at hsome
    · simp [hkeyframe, hrecreated] at hasks

end RefreshLoop

/-! ## The run -/

/-- What the policy notes about deliveries, in terms of the attempts. -/
structure Tracked (s : Watched) : Prop where
  clock : ∀ attempt ∈ s.attempts, attempt.1 ≤ s.clock
  noted : ∀ time, s.loop.policy.lastDeliveryRefreshAttempt = some time →
    ∃ attempt, s.attempts.getLast? = some attempt ∧ time ≤ attempt.1
  last : ∀ attempt ∈ s.attempts, attempt.2 = .deliveryRecovery →
    ∃ time, s.loop.policy.lastDeliveryRefreshAttempt = some time ∧ attempt.1 ≤ time
  apart : s.attempts.Pairwise fun first second =>
    first.2 = .deliveryRecovery → second.2 = .deliveryRecovery →
      first.1 + deliveryReferenceRefreshCooldown ≤ second.1

theorem add_cooldown_le_of_not_waits {policy : HqReferenceRefreshPolicy} {now time : ℕ}
    (h : policy.deliveryWaits now = false) (hlast : policy.lastDeliveryRefreshAttempt = some time) :
    time + deliveryReferenceRefreshCooldown ≤ now := by
  unfold HqReferenceRefreshPolicy.deliveryWaits at h
  rw [hlast] at h
  simp only [Option.any_some, decide_eq_false_iff_not] at h
  unfold deliveryReferenceRefreshCooldown at h ⊢
  omega

theorem tracked_start (startupSafe : Bool) (bitrate : ℕ) :
    Tracked (.start startupSafe bitrate) where
  clock := nofun
  noted := nofun
  last := nofun
  apart := List.Pairwise.nil

theorem tracked_step {s s' : Watched} {event : LoopEvent} (h : Tracked s)
    (hstep : Step s event s') : Tracked s' := by
  cases hstep with
  | requestDelivery => exact ⟨h.clock, h.noted, h.last, h.apart⟩
  | secureDesktop => exact ⟨h.clock, h.noted, h.last, h.apart⟩
  | frame vf => exact ⟨h.clock, h.noted, h.last, h.apart⟩
  | iteration i loop answer hclock hiterate =>
      have hpast : ∀ attempt ∈ s.attempts, attempt.1 ≤ i.deliveryNow :=
        fun attempt hattempt => (h.clock attempt hattempt).trans hclock
      have hnow : ∀ attempt ∈ answer.reason.toList.map (i.deliveryNow, ·),
          attempt.1 = i.deliveryNow ∧ answer.reason = some attempt.2 := by
        intro attempt hattempt
        obtain ⟨reason, hreason, rfl⟩ := List.mem_map.mp hattempt
        exact ⟨rfl, Option.mem_toList.mp hreason⟩
      have hdelivery := RefreshLoop.iterate_delivery hiterate
      refine ⟨?_, ?_, ?_, ?_⟩
      · intro attempt hattempt
        rcases List.mem_append.mp hattempt with hold | hnew
        · exact hpast attempt hold
        · exact (hnow attempt hnew).1.le
      · intro time hlast
        dsimp only at hlast ⊢
        cases hreason : answer.reason with
        | some reason =>
            refine ⟨(i.deliveryNow, reason), by simp, ?_⟩
            rcases hdelivery with ⟨-, hsame⟩ | ⟨-, hnoted, -⟩
            · obtain ⟨attempt, hattempt, hle⟩ := h.noted time (hsame ▸ hlast)
              exact hle.trans (hpast attempt (List.mem_of_getLast? hattempt))
            · rw [hnoted] at hlast
              exact (Option.some.inj hlast).ge
        | none =>
            rcases hdelivery with ⟨-, hsame⟩ | ⟨hsome, -, -⟩
            · simpa using h.noted time (hsame ▸ hlast)
            · simp [hreason] at hsome
      · intro attempt hattempt hrecovery
        dsimp only
        rcases hdelivery with ⟨hother, hsame⟩ | ⟨-, hnoted, -⟩
        · rw [hsame]
          rcases List.mem_append.mp hattempt with hold | hnew
          · exact h.last attempt hold hrecovery
          · exact absurd ((hnow attempt hnew).2.trans (congrArg some hrecovery)) hother
        · refine ⟨i.deliveryNow, hnoted, ?_⟩
          rcases List.mem_append.mp hattempt with hold | hnew
          · exact hpast attempt hold
          · exact (hnow attempt hnew).1.le
      · refine List.pairwise_append.mpr ⟨h.apart, ?_, ?_⟩
        · cases answer.reason with
          | none => exact List.Pairwise.nil
          | some reason => exact List.pairwise_singleton _ _
        · intro first hfirst second hsecond hrecovery hagain
          obtain ⟨htime, hreason⟩ := hnow second hsecond
          rcases hdelivery with ⟨hother, -⟩ | ⟨-, -, hwaits⟩
          · exact absurd (hreason.trans (congrArg some hagain)) hother
          · obtain ⟨time, hlast, hle⟩ := h.last first hfirst hrecovery
            have := add_cooldown_le_of_not_waits hwaits hlast
            omega

/-- A reason that is owed is kept by the policy as a delivery. -/
def Kept (s : Watched) : Prop := s.owed = true → s.loop.policy.deliveryRefreshPending = true

theorem kept_step {s s' : Watched} {event : LoopEvent} (h : Kept s)
    (hstep : KeepingStep s event s') : Kept s' := by
  obtain ⟨hstep, hkeeps⟩ := hstep
  cases hstep with
  | requestDelivery => exact h
  | secureDesktop => exact h
  | frame vf => exact h
  | iteration i loop answer hclock hiterate =>
      intro howed
      dsimp only at howed ⊢
      rw [Bool.and_eq_true, Bool.or_eq_true, Bool.not_eq_true'] at howed
      obtain ⟨howed | hraises, hnone⟩ := howed
      · obtain ⟨-, -, rfl, -⟩ := RefreshLoop.iterate_unrecorded hiterate hnone
        rw [RefreshLoop.takeReason_pending, h howed, Bool.true_or]
      · exact RefreshLoop.iterate_keeps hiterate (hkeeps i rfl) hraises hnone

theorem not_owed_of_ready {s s' : Watched} {i : Iteration} (htracked : Tracked s) (hkept : Kept s)
    (hstep : KeepingStep s (.iteration i) s') (hready : s.Ready i) : s'.owed = false := by
  have hpending := kept_step hkept hstep
  obtain ⟨hstep, -⟩ := hstep
  cases hstep with
  | iteration i loop answer hclock hiterate =>
      by_contra howed
      rw [Bool.not_eq_false] at howed
      have hpending := hpending howed
      dsimp only at howed hpending
      rw [Bool.and_eq_true, Bool.not_eq_true'] at howed
      obtain ⟨-, -, rfl, hvain⟩ := RefreshLoop.iterate_unrecorded hiterate howed.2
      have hwaits : s.loop.policy.deliveryWaits i.deliveryNow = false := by
        cases hlast : s.loop.policy.lastDeliveryRefreshAttempt with
        | none => simp [HqReferenceRefreshPolicy.deliveryWaits, hlast]
        | some time =>
            obtain ⟨attempt, hattempt, hle⟩ := htracked.noted time hlast
            have hcooldown := hready.1 attempt hattempt
            simp only [HqReferenceRefreshPolicy.deliveryWaits, hlast, Option.any_some,
              decide_eq_false_iff_not, not_lt]
            omega
      have hsome := RefreshLoop.takeReason_of_pending hpending hwaits
      rcases hvain with hvain | ⟨hkeyframe, hrecreated⟩
      · simp [hvain] at hsome
      · simpa [hkeyframe, hrecreated] using hready.2

/-- In every run in which no reason is read in vain, an iteration that is ready leaves no
reason owed.  In every run the attempts for a delivery are a cooldown apart. -/
theorem reasons_followed (startupSafe : Bool) (bitrate : ℕ) :
    (∀ events s i s', Run KeepingStep (.start startupSafe bitrate) events s →
      KeepingStep s (.iteration i) s' → s.Ready i → s'.owed = false) ∧
    ∀ events s, Run Step (.start startupSafe bitrate) events s →
      s.attempts.Pairwise fun first second =>
        first.2 = .deliveryRecovery → second.2 = .deliveryRecovery →
          first.1 + deliveryReferenceRefreshCooldown ≤ second.1 := by
  have htracked : ∀ {events s}, Run Step (.start startupSafe bitrate) events s → Tracked s :=
    fun hrun => hrun.stateInvariant Tracked (tracked_start startupSafe bitrate)
      fun _ _ _ => tracked_step
  refine ⟨fun events s i s' hrun hstep hready => ?_, fun events s hrun => (htracked hrun).apart⟩
  have hkept := hrun.stateInvariant Kept (fun howed => by cases howed) fun _ _ _ => kept_step
  exact not_owed_of_ready (htracked (hrun.mono fun _ _ _ hstep => hstep.1)) hkept hstep hready

/-- An iteration at this time whose encoder accepts a keyframe or not; it is eligible. -/
def plain (now : ℕ) (accepts : Bool) : Iteration where
  cadence := none
  timeoutNow := now
  fallback := none
  pendingSubscribers := false
  hasEncodedFrame := true
  replayableFrame := true
  joinNow := now
  eligible := true
  startupSafe := false
  currentBitrate := 1000
  policyNow := now
  deliveryNow := now
  refreshStarted := now
  keyframe := if accepts then some 1000 else none
  recreated := none

/-- A loop that is to read a transition of the secure desktop. -/
def secured : Watched :=
  ⟨{ RefreshLoop.new false 1000 with secureDesktopPending := true }, 0, [], false⟩

/-- A loop whose attempt for a delivery has failed. -/
def failedDelivery : Watched :=
  ⟨{ policy := ⟨false, 1000, none, some 40, true⟩
     referenceRefreshPending := none
     subscriberJoinStarted := none
     secureDesktopPending := false
     optionReferenceRefresh := false }, 40, [(40, .deliveryRecovery)], true⟩

/-- The desktop changes after the attempt, and both reasons are followed by one refresh a
cooldown later. -/
theorem reasons_followed_failedDelivery :
    ∃ s s', Run Step (.start false 1000)
        [.requestDelivery, .iteration (plain 40 false), .secureDesktop] s ∧
      s.owed = true ∧ Step s (.iteration (plain 290 true)) s' ∧ s'.owed = false := by
  let requested : Watched :=
    ⟨{ RefreshLoop.new false 1000 with optionReferenceRefresh := true }, 0, [], false⟩
  let changed : Watched :=
    { failedDelivery with loop := { failedDelivery.loop with secureDesktopPending := true } }
  have hrequest : KeepingStep (.start false 1000) .requestDelivery requested :=
    ⟨.requestDelivery _, nofun⟩
  have hfail : KeepingStep requested (.iteration (plain 40 false)) failedDelivery := by
    refine ⟨.iteration requested (plain 40 false) _ _ (by decide) rfl, fun i heq hread => ?_⟩
    obtain rfl := LoopEvent.iteration.inj heq
    exact absurd hread (by decide)
  have hsecure : KeepingStep failedDelivery .secureDesktop changed := ⟨.secureDesktop _, nofun⟩
  have hrun : Run KeepingStep (.start false 1000)
      [.requestDelivery, .iteration (plain 40 false), .secureDesktop] changed :=
    .snoc (.snoc (.single hrequest) hfail) hsecure
  obtain ⟨s', hstep⟩ : ∃ s', Step changed (.iteration (plain 290 true)) s' :=
    ⟨_, .iteration _ _ _ _ (by decide) rfl⟩
  have hlast : KeepingStep changed (.iteration (plain 290 true)) s' := by
    refine ⟨hstep, fun i heq _ => ?_⟩
    obtain rfl := LoopEvent.iteration.inj heq
    exact Or.inr (Or.inr (Or.inr (Or.inr ⟨Or.inl rfl, Or.inl rfl⟩)))
  have hready : changed.Ready (plain 290 true) :=
    ⟨by simp [changed, failedDelivery, plain, deliveryReferenceRefreshCooldown], Or.inl rfl⟩
  exact ⟨changed, s', hrun.mono fun _ _ _ h => h.1, rfl, hstep,
    (reasons_followed false 1000).1 _ _ _ _ hrun hlast hready⟩

/-- The transition is read while the encoder can do nothing, and forgotten. -/
theorem secure_reason_lost :
    ¬ ∀ events s i s', Run Step (.start false 1000) events s → Step s (.iteration i) s' →
      s.Ready i → s'.owed = false := by
  intro h
  have hread : Step secured (.iteration (plain 40 false)) _ :=
    .iteration _ _ _ _ (by decide) rfl
  have hrun := (Run.single (Step.secureDesktop (.start false 1000))).snoc hread
  have hnext := h _ _ (plain 1040 true) _ hrun (.iteration _ _ _ _ (by decide) rfl)
    ⟨by simp [deliveryReferenceRefreshCooldown, plain], Or.inl rfl⟩
  exact absurd hnext (by decide)

end RustAdmin.Service.ReferenceRefresh
