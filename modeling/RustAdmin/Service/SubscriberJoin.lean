import Mathlib.Algebra.Order.Ring.Int
import RustAdmin.Service.Subscribers
import RustAdmin.Support.Run

/-!
# Subscribers that join a running stream

The video loop looks at each iteration whether subscribers wait for a reference frame
and asks its encoder for one.  One timer stands for all that wait; it is cleared by an
iteration that finds nobody waiting.  Times are in milliseconds.

`Accounted` says what a running timer stands for: a reference that is outstanding, or
one that has come and was not looked at since.  An iteration decides by the timer
alone (`subscriberJoinAction_waiting`), so it passes over those who wait exactly where
the timer stands for a reference that came before them (`Inherits`).
-/

namespace RustAdmin.Service

open RustAdmin.Support

/-! ## The decision -/

inductive SubscriberJoinAction
  | wait
  | reference
  | restart
  deriving DecidableEq, Repr

/-- A reference is waited for that long: ten seconds. -/
def subscriberJoinTimeout : ℕ := 10000

/-- `subscriber_join_action`: the action, and the timer after it. -/
def subscriberJoinAction (pending hasEncodedFrame replayableFrame : Bool) (started : Option ℕ)
    (now : ℕ) : SubscriberJoinAction × Option ℕ :=
  if !pending then (.wait, none)
  else if !hasEncodedFrame then (.wait, started)
  else if !replayableFrame || started.any (fun startedAt => subscriberJoinTimeout ≤ now - startedAt)
  then (.restart, started)
  else if started.isNone then (.reference, some now)
  else (.wait, started)

example : subscriberJoinAction true true true (some 0) 1000 = (.wait, some 0) := by decide

/-! ## Frames -/

structure EncodedVideoFrame where
  key : Bool
  data : List UInt8

/-- The frames of one message, of whichever codec. -/
abbrev VideoFrame := List EncodedVideoFrame

def startsWithKeyframe (vf : VideoFrame) : Bool :=
  vf.head?.any fun frame => frame.key && !frame.data.isEmpty

/-- The third answer of `video_frame_payload_stats`. -/
def hasKeyframe (vf : VideoFrame) : Bool := vf.any (·.key)

/-! ## The loop -/

structure PendingReferenceRefresh where
  requestedAt : ℕ
  nonKeyframeFrames : ℕ

def inPlaceReferenceRefreshTimeout : ℕ := 1000

/-- The variables of the loop, for a capturer with a cached frame and an encoder that
accepts keyframe requests.  `keySent` is not in the code: a keyframe has been sent since
the last iteration that could look at the timer or asked for a reference. -/
structure VideoLoop where
  inner : ServiceInner VideoFrame
  nextFrameId : ℕ
  subscriberJoinStarted : Option ℕ
  referenceRefreshPending : Option PendingReferenceRefresh
  keySent : Bool

/-- What an iteration meets besides the subscribers. -/
structure Iteration where
  now : ℕ
  /-- The cadence changes, and the encoder is made anew for it. -/
  cadenceRecreated : Bool
  /-- Should the pending reference have timed out, the encoder can be made anew. -/
  recreates : Bool
  /-- A reference is due for another reason than a subscriber. -/
  otherRefresh : Bool

inductive LoopEvent
  | subscribe (id : ConnId)
  | unsubscribe (id : ConnId)
  | iteration (input : Iteration)
  | frame (vf : VideoFrame)
  /-- The loop ends with `SWITCH` for another reason and begins anew. -/
  | switch

namespace VideoLoop

def start : VideoLoop := ⟨.new true, 1, none, none, false⟩

variable (s : VideoLoop)

/-- The loop begins anew; the subscribers stay. -/
def restart : VideoLoop := ⟨s.inner, 1, none, none, false⟩

def hasEncodedFrame : Bool := decide (1 < s.nextFrameId)

/-- The pending reference has timed out. -/
def timedOut (refresh : Option PendingReferenceRefresh) (now : ℕ) : Bool :=
  refresh.any fun refresh => decide (0 < refresh.nonKeyframeFrames) &&
    decide (inPlaceReferenceRefreshTimeout ≤ now - refresh.requestedAt)

/-- Whether the iteration asks for a reference, by an encoder made anew or in place. -/
def requests (input : Iteration) : Bool :=
  let action := (subscriberJoinAction s.inner.hasPendingSubscribers s.hasEncodedFrame true
    s.subscriberJoinStarted input.now).1
  input.cadenceRecreated ||
    (timedOut s.referenceRefreshPending input.now && input.recreates) ||
    (input.otherRefresh || decide (action = .reference))

/-- One iteration, up to the capture: the loop after it, and whether it restarted. -/
def iterate (input : Iteration) : VideoLoop × Bool :=
  let join := subscriberJoinAction s.inner.hasPendingSubscribers s.hasEncodedFrame true
    s.subscriberJoinStarted input.now
  if join.1 = .restart then (s.restart, true)
  else
    ({ s with
        subscriberJoinStarted := join.2
        referenceRefreshPending :=
          if s.requests input then some ⟨input.now, 0⟩ else s.referenceRefreshPending
        keySent := s.keySent && !s.hasEncodedFrame && !s.requests input }, false)

/-- `handle_one_frame`, for a frame the encoder returned. -/
def handleOneFrame (vf : VideoFrame) : VideoLoop :=
  { inner := (s.inner.sendVideoFrameWithJoin vf (startsWithKeyframe vf)).1
    nextFrameId := max ((max s.nextFrameId 1 + 1) % 2 ^ 64) 1
    subscriberJoinStarted := s.subscriberJoinStarted
    referenceRefreshPending :=
      if hasKeyframe vf then none
      else s.referenceRefreshPending.map fun refresh =>
        { refresh with nonKeyframeFrames := refresh.nonKeyframeFrames + 1 }
    keySent := s.keySent || hasKeyframe vf }

def step (event : LoopEvent) : VideoLoop :=
  match event with
  | .subscribe id => { s with inner := s.inner.onSubscribe id }
  | .unsubscribe id => { s with inner := s.inner.onUnsubscribe id }
  | .iteration input => (s.iterate input).1
  | .frame vf => s.handleOneFrame vf
  | .switch => s.restart

def run (events : List LoopEvent) : VideoLoop := events.foldl step start

theorem run_concat (events : List LoopEvent) (event : LoopEvent) :
    run (events ++ [event]) = (run events).step event := by
  simp [run]

/-! ## Who waits has been asked for -/

/-- If a subscriber waits after the first encoded frame, a reference that was asked for
has yet to come, or the iteration asks for one, or it restarts the stream. -/
def Served (input : Iteration) : Prop :=
  s.hasEncodedFrame = true → s.inner.hasPendingSubscribers = true →
    s.referenceRefreshPending.isSome = true ∨ s.requests input = true ∨ (s.iterate input).2 = true

/-- A subscriber waits with the timer of others: it runs, and a keyframe has come since
it was last looked at. -/
def Inherits (input : Iteration) : Prop :=
  s.hasEncodedFrame = true ∧ s.inner.hasPendingSubscribers = true ∧ s.keySent = true ∧
    (∃ startedAt, s.subscriberJoinStarted = some startedAt ∧
      input.now - startedAt < subscriberJoinTimeout) ∧
    input.cadenceRecreated = false ∧ input.otherRefresh = false

/-- After a keyframe nothing is outstanding until the next request. -/
def Cleared : Prop := s.keySent = true → s.referenceRefreshPending = none

/-- The timer runs for a reference that is outstanding or has come. -/
def Accounted : Prop :=
  s.subscriberJoinStarted.isSome = true →
    s.referenceRefreshPending.isSome = true ∨ s.keySent = true

variable {s} {input : Iteration}

/-- A waiting subscriber with an encoded frame: what the timer decides. -/
theorem subscriberJoinAction_waiting (started : Option ℕ) (now : ℕ) :
    (started = none ∧ subscriberJoinAction true true true started now = (.reference, some now)) ∨
    (∃ startedAt, started = some startedAt ∧ subscriberJoinTimeout ≤ now - startedAt ∧
      subscriberJoinAction true true true started now = (.restart, started)) ∨
    (∃ startedAt, started = some startedAt ∧ now - startedAt < subscriberJoinTimeout ∧
      subscriberJoinAction true true true started now = (.wait, started)) := by
  cases started with
  | none => exact Or.inl ⟨rfl, rfl⟩
  | some startedAt =>
      by_cases h : subscriberJoinTimeout ≤ now - startedAt
      · exact Or.inr (Or.inl ⟨startedAt, rfl, h, by simp [subscriberJoinAction, h]⟩)
      · exact Or.inr (Or.inr ⟨startedAt, rfl, by omega, by simp [subscriberJoinAction, h]⟩)

/-- Nobody who waits is passed over except those who inherit a timer. -/
theorem not_inherits_of_served (hcleared : s.Cleared) (h : s.Served input) :
    ¬ s.Inherits input := by
  rintro ⟨hencoded, hpending, hkey, ⟨startedAt, hstarted, hrunning⟩, hcadence, hother⟩
  have hnone : s.referenceRefreshPending = none := hcleared hkey
  have haction : subscriberJoinAction true true true s.subscriberJoinStarted input.now =
      (.wait, s.subscriberJoinStarted) := by
    rcases subscriberJoinAction_waiting s.subscriberJoinStarted input.now with
      ⟨hno, -⟩ | ⟨startedAt', hsome, hlate, -⟩ | ⟨-, -, -, heq⟩
    · rw [hstarted] at hno
      cases hno
    · rw [hstarted] at hsome
      obtain rfl := Option.some.inj hsome
      omega
    · exact heq
  rcases h hencoded hpending with hsome | hrequests | hrestart
  · rw [hnone] at hsome
    cases hsome
  · simp [requests, hencoded, hpending, haction, hcadence, hother, hnone, timedOut] at hrequests
  · simp [iterate, hencoded, hpending, haction] at hrestart

theorem served_of_not_inherits (haccounted : s.Accounted) (h : ¬ s.Inherits input) :
    s.Served input := by
  intro hencoded hpending
  rcases subscriberJoinAction_waiting s.subscriberJoinStarted input.now with
    ⟨-, heq⟩ | ⟨-, -, -, heq⟩ | ⟨startedAt, hstarted, hrunning, -⟩
  · exact Or.inr (Or.inl (by simp [requests, hencoded, hpending, heq]))
  · exact Or.inr (Or.inr (by simp [iterate, hencoded, hpending, heq]))
  -- The timer runs: for a reference to come, or else a keyframe has come and it is old.
  · rcases haccounted (by rw [hstarted]; rfl) with hsome | hkey
    · exact Or.inl hsome
    · refine Or.inr (Or.inl ?_)
      by_contra hnot
      refine h ⟨hencoded, hpending, hkey, ⟨startedAt, hstarted, hrunning⟩, ?_, ?_⟩
      · by_contra hcadence
        exact hnot (by simp [requests, hcadence])
      · by_contra hother
        exact hnot (by simp [requests, hother])

/-! ## Runs -/

/-- What an iteration leaves of the loop's variables. -/
theorem iterate_cases (s : VideoLoop) (input : Iteration) :
    s.iterate input = (s.restart, true) ∨
    ((s.iterate input).2 = false ∧ (s.iterate input).1.inner = s.inner ∧
      ((s.iterate input).1.subscriberJoinStarted = none ∨
        (s.inner.hasPendingSubscribers = true ∧
          ((s.iterate input).1.subscriberJoinStarted = s.subscriberJoinStarted ∨
            s.hasEncodedFrame = true))) ∧
      (s.iterate input).1.referenceRefreshPending =
        (if s.requests input then some ⟨input.now, 0⟩ else s.referenceRefreshPending) ∧
      (s.iterate input).1.keySent =
        (s.keySent && !s.hasEncodedFrame && !s.requests input)) := by
  simp only [iterate]
  split
  · exact Or.inl rfl
  · refine Or.inr ⟨rfl, rfl, ?_, rfl, rfl⟩
    cases hpending : s.inner.hasPendingSubscribers with
    | false => exact Or.inl rfl
    | true =>
        cases hencoded : s.hasEncodedFrame with
        | false => exact Or.inr ⟨rfl, Or.inl rfl⟩
        | true => exact Or.inr ⟨rfl, Or.inr rfl⟩

theorem Cleared.step (h : s.Cleared) (event : LoopEvent) : (s.step event).Cleared := by
  cases event with
  | subscribe id => exact h
  | unsubscribe id => exact h
  | switch => exact fun hkey => by cases hkey
  | frame vf =>
      intro hkey
      simp only [VideoLoop.step, handleOneFrame] at hkey ⊢
      by_cases hframe : hasKeyframe vf = true
      · rw [if_pos hframe]
      · rw [if_neg hframe, h (by simpa [hframe] using hkey)]
        rfl
  | iteration input =>
      simp only [VideoLoop.step]
      rcases s.iterate_cases input with heq | ⟨-, -, -, hrefresh, hkeySent⟩
      · rw [heq]
        exact fun hkey => by cases hkey
      · intro hkey
        rw [hkeySent] at hkey
        simp only [Bool.and_eq_true, Bool.not_eq_true'] at hkey
        rw [hrefresh, hkey.2, h hkey.1.1]
        rfl

theorem Accounted.step (h : s.Accounted) (event : LoopEvent)
    (hserved : ∀ input, event = .iteration input → s.Served input) :
    (s.step event).Accounted := by
  cases event with
  | subscribe id => exact h
  | unsubscribe id => exact h
  | switch => exact fun hstarted => by cases hstarted
  | frame vf =>
      intro hstarted
      simp only [VideoLoop.step, handleOneFrame] at hstarted ⊢
      by_cases hframe : hasKeyframe vf = true
      · exact Or.inr (by simp [hframe])
      · rw [if_neg hframe, Option.isSome_map, Bool.or_eq_true]
        exact (h hstarted).imp_right Or.inl
  | iteration input =>
      simp only [VideoLoop.step]
      rcases s.iterate_cases input with heq | ⟨hgoes, -, htimer, hrefresh, hkeySent⟩
      · rw [heq]
        exact fun hstarted => by cases hstarted
      · intro hstarted
        rw [hrefresh, hkeySent]
        cases hrequests : s.requests input with
        | true => exact Or.inl rfl
        | false =>
            -- Nothing is asked for, so the timer is an old one that went on.
            rcases htimer with hnone | ⟨hpending, htimer⟩
            · rw [hnone] at hstarted
              cases hstarted
            · cases hencoded : s.hasEncodedFrame with
              | true =>
                  rcases hserved input rfl hencoded hpending with hsome | hyes | hyes
                  · exact Or.inl (by simpa using hsome)
                  · rw [hrequests] at hyes
                    cases hyes
                  · rw [hgoes] at hyes
                    cases hyes
              -- Before the first encoded frame the iteration waits and leaves the timer alone.
              | false =>
                  have hsame : (s.iterate input).1.subscriberJoinStarted =
                      s.subscriberJoinStarted := by
                    simpa [hencoded] using htimer
                  rw [hsame] at hstarted
                  simpa using h hstarted

theorem cleared_run (events : List LoopEvent) : (run events).Cleared := by
  induction events using List.reverseRecOn with
  | nil => exact fun hkey => by cases hkey
  | append_singleton events event ih =>
      rw [run_concat]
      exact ih.step event

/-- Every iteration of the run satisfies `P`, in the state it finds. -/
def EveryIteration (P : VideoLoop → Iteration → Prop) : List LoopEvent → Prop :=
  Always fun before event => ∀ input, event = .iteration input → P (run before) input

theorem accounted_run {events : List LoopEvent} (h : EveryIteration Served events) :
    (run events).Accounted := by
  induction events using List.reverseRecOn with
  | nil => exact fun hstarted => by cases hstarted
  | append_singleton events event ih =>
      obtain ⟨hbefore, hevent⟩ := always_concat.mp h
      rw [run_concat]
      exact (ih hbefore).step event hevent

/-- In every iteration those who wait have been asked for exactly in the runs where no
iteration finds subscribers that inherit a timer. -/
theorem served_iff_not_inherits (events : List LoopEvent) :
    EveryIteration Served events ↔
      EveryIteration (fun s input => ¬ s.Inherits input) events := by
  induction events using List.reverseRecOn with
  | nil => exact iff_of_true always_nil always_nil
  | append_singleton events event ih =>
      unfold EveryIteration at ih ⊢
      rw [always_concat, always_concat]
      constructor
      · rintro ⟨hbefore, hevent⟩
        refine ⟨ih.mp hbefore, fun input heq => ?_⟩
        exact not_inherits_of_served (cleared_run events) (hevent input heq)
      · rintro ⟨hbefore, hevent⟩
        have hserved := ih.mpr hbefore
        refine ⟨hserved, fun input heq => ?_⟩
        exact served_of_not_inherits (accounted_run hserved) (hevent input heq)

/-- The third connection subscribes after the keyframe asked for the second one and
before the next iteration, which takes the timer of the second one for its own. -/
theorem not_served_inherited : ¬ EveryIteration Served
    [.subscribe 1, .frame [⟨true, [0]⟩], .subscribe 2, .iteration ⟨0, false, true, false⟩,
      .frame [⟨true, [0]⟩], .subscribe 3, .iteration ⟨40, false, true, false⟩] := by
  intro h
  have hserved := h [.subscribe 1, .frame [⟨true, [0]⟩], .subscribe 2,
    .iteration ⟨0, false, true, false⟩, .frame [⟨true, [0]⟩], .subscribe 3]
    (.iteration ⟨40, false, true, false⟩) [] rfl ⟨40, false, true, false⟩ rfl
  refine not_inherits_of_served (cleared_run _) hserved ?_
  exact ⟨by decide, by decide, by decide, ⟨0, by decide, by decide⟩, rfl, rfl⟩

end VideoLoop

end RustAdmin.Service
