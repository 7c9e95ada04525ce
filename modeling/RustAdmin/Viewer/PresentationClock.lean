import Mathlib.Data.List.Induction
import RustAdmin.Support.Arith

/-!
# Presentation times

`VideoPresentationClock` of `src/libs/scrap/src/common/video_presentation_clock.rs` turns the
capture times that the host stamps on its frames into the times at which the viewer
shows them.  The host's clock is not trusted: a target that lies too far back or ahead
anchors the clock anew.

Whatever the source says, the target goes through the same limits last:
`limitedTarget_mem` keeps it within the lead and `nextMonotonicTarget_mem` behind the
last one, so `schedule_schedules` has one conclusion for all branches (`Schedules`).
`Representable` keeps the fields within their types, where the casts are exact.
`Sound` remembers that the last target bounds all earlier ones.
-/

namespace RustAdmin.Viewer.PresentationClock

open RustAdmin.Support

def defaultRefreshPeriodNs : ℤ := 16666667
def minRefreshPeriodNs : ℤ := 4000000
def maxRefreshPeriodNs : ℤ := 33333334
def maxFutureLeadNs : ℤ := 50000000
def lateTolerancePeriods : ℤ := 3
def moviePlayoutDelayNs : ℤ := 50000000

inductive PresentationResetReason
  | none
  | initial
  | sourceRegressed
  | late
  | future
deriving DecidableEq, Repr

structure PresentationSchedule where
  targetNs : ℤ
  sourceClock : Bool
  reset : Bool
  resetReason : PresentationResetReason
deriving DecidableEq, Repr

structure VideoPresentationClock where
  refreshPeriodNs : ℤ
  anchorCaptureTimeMs : Option ℕ := none
  anchorTargetNs : ℤ := 0
  lastCaptureTimeMs : ℕ := 0
  lastTargetNs : ℤ := 0
  movieMode : Bool := false
deriving DecidableEq, Repr

def normalizedRefreshPeriod (refreshPeriodNs : ℤ) : ℤ :=
  if minRefreshPeriodNs ≤ refreshPeriodNs ∧ refreshPeriodNs ≤ maxRefreshPeriodNs then
    refreshPeriodNs
  else defaultRefreshPeriodNs

/-- The product saturates at `u64::MAX` and is cut to `i64::MAX` before the cast. -/
def elapsedNs (elapsedMs : ℕ) : ℤ :=
  castI64 (min (min (elapsedMs * 1000000) usizeMax) (2 ^ 63 - 1) : ℕ)

namespace VideoPresentationClock

def new (refreshPeriodNs : ℤ) : VideoPresentationClock where
  refreshPeriodNs := normalizedRefreshPeriod refreshPeriodNs

variable (clock : VideoPresentationClock)

def resetAnchor : VideoPresentationClock :=
  { clock with anchorCaptureTimeMs := none, anchorTargetNs := 0, lastCaptureTimeMs := 0 }

def updateRefreshPeriod (refreshPeriodNs : ℤ) : VideoPresentationClock :=
  let refreshPeriodNs := normalizedRefreshPeriod refreshPeriodNs
  if clock.refreshPeriodNs ≠ refreshPeriodNs then
    resetAnchor { clock with refreshPeriodNs := refreshPeriodNs }
  else clock

def setMovieMode (enabled : Bool) : VideoPresentationClock :=
  if clock.movieMode ≠ enabled then resetAnchor { clock with movieMode := enabled } else clock

def nextMonotonicTarget (targetNs : ℤ) : ℤ :=
  if clock.lastTargetNs = 0 then targetNs
  else max targetNs (saturateI64 (clock.lastTargetNs + 1))

def immediateSchedule (nowNs : ℤ) : PresentationSchedule × VideoPresentationClock :=
  let targetNs := clock.nextMonotonicTarget nowNs
  (⟨targetNs, false, false, .none⟩, { clock with lastTargetNs := targetNs })

/-- `reset_lead_ns` -/
def resetLeadNs : ℤ :=
  if clock.movieMode then max moviePlayoutDelayNs clock.refreshPeriodNs
  else clock.refreshPeriodNs

/-- `late_limit_ns` -/
def lateLimitNs (nowNs : ℤ) : ℤ :=
  saturateI64 (nowNs - saturateI64 (clock.refreshPeriodNs * lateTolerancePeriods))

/-- `future_limit_ns` -/
def futureLimitNs (nowNs : ℤ) : ℤ :=
  saturateI64 (nowNs + max maxFutureLeadNs (saturateI64 (clock.refreshPeriodNs * 3)))

/-- `reset_reason` before the limits are looked at. -/
def sourceReset (captureTimeMs : ℕ) : PresentationResetReason :=
  if clock.anchorCaptureTimeMs.isSome ∧ captureTimeMs < clock.lastCaptureTimeMs then
    .sourceRegressed
  else if clock.anchorCaptureTimeMs.isNone then .initial
  else .none

/-- `target_ns` before the limits are looked at. -/
def sourceTargetNs (captureTimeMs : ℕ) (nowNs : ℤ) : ℤ :=
  if clock.sourceReset captureTimeMs ≠ .none then saturateI64 (nowNs + clock.resetLeadNs)
  else
    let anchorCaptureTimeMs := clock.anchorCaptureTimeMs.getD captureTimeMs
    let elapsedMs := captureTimeMs - anchorCaptureTimeMs
    saturateI64 (clock.anchorTargetNs + elapsedNs elapsedMs)

/-- The target within the limits, and why it was reset. -/
def limitedTarget (captureTimeMs : ℕ) (nowNs : ℤ) : ℤ × PresentationResetReason :=
  let targetNs := clock.sourceTargetNs captureTimeMs nowNs
  if targetNs < clock.lateLimitNs nowNs then (saturateI64 (nowNs + clock.resetLeadNs), .late)
  else if clock.futureLimitNs nowNs < targetNs then
    (saturateI64 (nowNs + clock.resetLeadNs), .future)
  else (max targetNs nowNs, clock.sourceReset captureTimeMs)

def schedule (captureTimeMs : Option ℕ) (nowNs : ℤ) :
    PresentationSchedule × VideoPresentationClock :=
  if nowNs < 0 then (⟨0, false, false, .none⟩, clock.resetAnchor)
  else
    match captureTimeMs with
    | none => clock.immediateSchedule nowNs
    | some 0 => clock.resetAnchor.immediateSchedule nowNs
    | some captureTimeMs =>
        let (targetNs, resetReason) := clock.limitedTarget captureTimeMs nowNs
        let reset := decide (resetReason ≠ .none)
        let targetNs := clock.nextMonotonicTarget targetNs
        (⟨targetNs, true, reset, resetReason⟩,
          { clock with
            anchorCaptureTimeMs := if reset then some captureTimeMs else clock.anchorCaptureTimeMs
            anchorTargetNs := if reset then targetNs else clock.anchorTargetNs
            lastCaptureTimeMs := captureTimeMs
            lastTargetNs := targetNs })

end VideoPresentationClock

/-! ## Calls -/

inductive ClockCall
  | schedule (captureTimeMs : Option UInt64) (nowNs : Int64)
  | updateRefreshPeriod (refreshPeriodNs : Int64)
  | setMovieMode (enabled : Bool)

def ClockCall.Positive : ClockCall → Prop
  | .schedule _ nowNs => 0 < nowNs.toInt
  | _ => True

/-- A clock and the targets that it gave so far. -/
structure Presentation where
  clock : VideoPresentationClock
  targets : List ℤ := []

namespace Presentation

/-- The target of a frame that comes now. -/
def target (p : Presentation) (captureTimeMs : Option UInt64) (nowNs : Int64) : ℤ :=
  (p.clock.schedule (captureTimeMs.map UInt64.toNat) nowNs.toInt).1.targetNs

def call (p : Presentation) : ClockCall → Presentation
  | .schedule captureTimeMs nowNs =>
      { clock := (p.clock.schedule (captureTimeMs.map UInt64.toNat) nowNs.toInt).2
        targets := p.targets ++ [p.target captureTimeMs nowNs] }
  | .updateRefreshPeriod refreshPeriodNs =>
      { p with clock := p.clock.updateRefreshPeriod refreshPeriodNs.toInt }
  | .setMovieMode enabled => { p with clock := p.clock.setMovieMode enabled }

/-- A new clock after some calls. -/
def after (refreshPeriodNs : Int64) (calls : List ClockCall) : Presentation :=
  calls.foldl call ⟨.new refreshPeriodNs.toInt, []⟩

theorem after_concat (refreshPeriodNs : Int64) (calls : List ClockCall) (c : ClockCall) :
    after refreshPeriodNs (calls ++ [c]) = (after refreshPeriodNs calls).call c := by
  simp [after]

end Presentation

/-! ## One target -/

/-- The fields fit into their machine types, and the period is a sensible one. -/
structure Representable (clock : VideoPresentationClock) : Prop where
  period_ge : minRefreshPeriodNs ≤ clock.refreshPeriodNs
  period_le : clock.refreshPeriodNs ≤ maxRefreshPeriodNs
  anchor_nonneg : 0 ≤ clock.anchorTargetNs
  anchor_le : clock.anchorTargetNs ≤ i64Max
  last_nonneg : 0 ≤ clock.lastTargetNs
  last_le : clock.lastTargetNs ≤ i64Max

/-- How far ahead of the present a target may lie. -/
def leadNs (clock : VideoPresentationClock) : ℤ := max maxFutureLeadNs (3 * clock.refreshPeriodNs)

/-- The cast of the elapsed time is exact. -/
theorem elapsedNs_eq (elapsedMs : ℕ) :
    elapsedNs elapsedMs = min ((elapsedMs : ℤ) * 1000000) i64Max := by
  unfold elapsedNs usizeMax i64Max
  rw [castI64_of_lt (by omega) (by omega)]
  omega

theorem normalizedRefreshPeriod_mem (refreshPeriodNs : ℤ) :
    minRefreshPeriodNs ≤ normalizedRefreshPeriod refreshPeriodNs ∧
      normalizedRefreshPeriod refreshPeriodNs ≤ maxRefreshPeriodNs := by
  unfold normalizedRefreshPeriod
  split
  · assumption
  · decide

theorem Representable.resetAnchor {clock : VideoPresentationClock} (h : Representable clock) :
    Representable clock.resetAnchor :=
  { h with
    anchor_nonneg := le_refl 0
    anchor_le := h.anchor_nonneg.trans h.anchor_le }

theorem resetLeadNs_mem {clock : VideoPresentationClock} (h : Representable clock) :
    0 ≤ clock.resetLeadNs ∧ clock.resetLeadNs ≤ leadNs clock := by
  have hge : 4000000 ≤ clock.refreshPeriodNs := h.period_ge
  unfold VideoPresentationClock.resetLeadNs leadNs moviePlayoutDelayNs maxFutureLeadNs
  split <;> omega

/-- The limits bring every target into the lead. -/
theorem limitedTarget_mem {clock : VideoPresentationClock} (h : Representable clock)
    (captureTimeMs : ℕ) {nowNs : ℤ} (hnow : 0 ≤ nowNs) (hmax : nowNs ≤ i64Max) :
    nowNs ≤ (clock.limitedTarget captureTimeMs nowNs).1 ∧
      (clock.limitedTarget captureTimeMs nowNs).1 ≤ nowNs + leadNs clock ∧
      (clock.limitedTarget captureTimeMs nowNs).1 ≤ i64Max := by
  obtain ⟨hlead, hleadle⟩ := resetLeadNs_mem h
  have hreset : nowNs ≤ saturateI64 (nowNs + clock.resetLeadNs) ∧
      saturateI64 (nowNs + clock.resetLeadNs) ≤ nowNs + leadNs clock ∧
      saturateI64 (nowNs + clock.resetLeadNs) ≤ i64Max := by
    refine ⟨le_saturateI64 hmax (by omega), ?_, saturateI64_le_max _⟩
    exact (saturateI64_le (by omega)).trans (by omega)
  unfold VideoPresentationClock.limitedTarget
  dsimp only
  split
  · exact hreset
  · split
    · exact hreset
    · next hfuture =>
        have hge : 4000000 ≤ clock.refreshPeriodNs := h.period_ge
        have hle : clock.refreshPeriodNs ≤ 33333334 := h.period_le
        have hperiods : saturateI64 (clock.refreshPeriodNs * 3) = 3 * clock.refreshPeriodNs := by
          rw [saturateI64_of_le (by omega) (by unfold i64Max; omega)]
          omega
        have hlimit : clock.futureLimitNs nowNs ≤ nowNs + leadNs clock := by
          unfold VideoPresentationClock.futureLimitNs
          rw [hperiods]
          refine saturateI64_le ?_
          unfold maxFutureLeadNs
          omega
        have htarget : clock.sourceTargetNs captureTimeMs nowNs ≤ i64Max := by
          unfold VideoPresentationClock.sourceTargetNs
          split <;> exact saturateI64_le_max _
        refine ⟨le_max_right _ _, ?_, max_le htarget hmax⟩
        dsimp only
        omega

/-- What a schedule does: its target is the monotone one for a time within the lead. -/
structure Schedules (clock : VideoPresentationClock) (nowNs : ℤ)
    (result : PresentationSchedule × VideoPresentationClock) : Prop where
  target_eq : ∃ timeNs, nowNs ≤ timeNs ∧ timeNs ≤ nowNs + leadNs clock ∧ timeNs ≤ i64Max ∧
    result.1.targetNs = clock.nextMonotonicTarget timeNs
  last_eq : result.2.lastTargetNs = result.1.targetNs
  representable : Representable result.2

theorem nextMonotonicTarget_mem (clock : VideoPresentationClock) {timeNs : ℤ}
    (htime : 0 ≤ timeNs) (hmax : timeNs ≤ i64Max) :
    0 ≤ clock.nextMonotonicTarget timeNs ∧ clock.nextMonotonicTarget timeNs ≤ i64Max := by
  unfold VideoPresentationClock.nextMonotonicTarget
  split
  · exact ⟨htime, hmax⟩
  · exact ⟨htime.trans (le_max_left _ _), max_le hmax (saturateI64_le_max _)⟩

theorem immediateSchedule_schedules {clock : VideoPresentationClock} (h : Representable clock)
    {nowNs : ℤ} (hnow : 0 ≤ nowNs) (hmax : nowNs ≤ i64Max) :
    Schedules clock nowNs (clock.immediateSchedule nowNs) := by
  obtain ⟨hnonneg, hle⟩ := nextMonotonicTarget_mem clock hnow hmax
  obtain ⟨hlead, hleadle⟩ := resetLeadNs_mem h
  refine ⟨⟨nowNs, le_refl _, by omega, hmax, rfl⟩, rfl, ?_⟩
  exact { h with last_nonneg := hnonneg, last_le := hle }

theorem schedule_schedules {clock : VideoPresentationClock} (h : Representable clock)
    (captureTimeMs : Option ℕ) {nowNs : ℤ} (hnow : 0 ≤ nowNs) (hmax : nowNs ≤ i64Max) :
    Schedules clock nowNs (clock.schedule captureTimeMs nowNs) := by
  unfold VideoPresentationClock.schedule
  rw [if_neg (not_lt.mpr hnow)]
  split
  · exact immediateSchedule_schedules h hnow hmax
  · have hreset := immediateSchedule_schedules h.resetAnchor hnow hmax
    exact ⟨hreset.target_eq, hreset.last_eq, hreset.representable⟩
  · next captureTimeMs _ =>
      obtain ⟨hge, hlead, hle⟩ := limitedTarget_mem h captureTimeMs hnow hmax
      obtain ⟨hnonneg, htarget⟩ := nextMonotonicTarget_mem clock (hnow.trans hge) hle
      refine ⟨⟨_, hge, hlead, hle, rfl⟩, rfl, ?_⟩
      refine ⟨h.period_ge, h.period_le, ?_, ?_, hnonneg, htarget⟩
      · dsimp only
        split
        · exact hnonneg
        · exact h.anchor_nonneg
      · dsimp only
        split
        · exact htarget
        · exact h.anchor_le

/-! ## All targets -/

/-- The last target bounds all of them, and is the one the clock remembers. -/
structure Sound (p : Presentation) : Prop where
  representable : Representable p.clock
  last_eq : p.clock.lastTargetNs = p.targets.getLast?.getD 0
  mem : ∀ earlier ∈ p.targets, 0 < earlier ∧ earlier ≤ p.clock.lastTargetNs

theorem Sound.schedules {p : Presentation} (h : Sound p) (captureTimeMs : Option UInt64)
    {nowNs : Int64} (hpositive : 0 < nowNs.toInt) :
    Schedules p.clock nowNs.toInt
      (p.clock.schedule (captureTimeMs.map UInt64.toNat) nowNs.toInt) := by
  have hmax : nowNs.toInt ≤ i64Max := Int.le_sub_one_of_lt nowNs.toInt_lt
  exact schedule_schedules h.representable _ hpositive.le hmax

/-- A target follows all earlier ones, unless these have reached the last instant there is. -/
theorem Sound.target_mem {p : Presentation} (h : Sound p) (captureTimeMs : Option UInt64)
    {nowNs : Int64} (hpositive : 0 < nowNs.toInt) :
    (∀ earlier ∈ p.targets, earlier ≤ p.target captureTimeMs nowNs ∧
      (earlier < i64Max → earlier < p.target captureTimeMs nowNs)) ∧
    nowNs.toInt ≤ p.target captureTimeMs nowNs ∧
    (p.target captureTimeMs nowNs ≤ nowNs.toInt + leadNs p.clock ∨
      ∃ last ∈ p.targets.getLast?, p.target captureTimeMs nowNs ≤ last + 1) := by
  obtain ⟨timeNs, hge, hlead, hmax, htarget⟩ := (h.schedules captureTimeMs hpositive).target_eq
  have hlast := h.representable.last_le
  have hnonneg := h.representable.last_nonneg
  change p.target captureTimeMs nowNs = _ at htarget
  unfold VideoPresentationClock.nextMonotonicTarget at htarget
  split at htarget
  · next hfirst =>
      rw [htarget]
      refine ⟨fun earlier hmem => ?_, hge, .inl hlead⟩
      obtain ⟨hpos, hle⟩ := h.mem earlier hmem
      omega
  · next hlater =>
      have hnext : saturateI64 (p.clock.lastTargetNs + 1) =
          min (p.clock.lastTargetNs + 1) i64Max := by
        unfold saturateI64
        omega
      rw [hnext] at htarget
      refine ⟨fun earlier hmem => ?_, by omega, ?_⟩
      · obtain ⟨hpos, hle⟩ := h.mem earlier hmem
        omega
      · rcases le_total timeNs (min (p.clock.lastTargetNs + 1) i64Max) with hle | hle
        · have hsome : p.targets.getLast? = some p.clock.lastTargetNs := by
            have hlasteq := h.last_eq
            cases hlast? : p.targets.getLast? with
            | none =>
                rw [hlast?] at hlasteq
                exact absurd hlasteq hlater
            | some last =>
                rw [hlast?] at hlasteq
                exact congrArg some hlasteq.symm
          exact .inr ⟨_, hsome, by omega⟩
        · exact .inl (by omega)

theorem sound_new (refreshPeriodNs : ℤ) : Sound ⟨.new refreshPeriodNs, []⟩ where
  representable := by
    obtain ⟨hge, hle⟩ := normalizedRefreshPeriod_mem refreshPeriodNs
    have hzero : (0 : ℤ) ≤ i64Max := by decide
    exact ⟨hge, hle, le_refl 0, hzero, le_refl 0, hzero⟩
  last_eq := rfl
  mem earlier hmem := by cases hmem

theorem Sound.call {p : Presentation} (h : Sound p) {c : ClockCall} (hc : c.Positive) :
    Sound (p.call c) := by
  cases c with
  | schedule captureTimeMs nowNs =>
      have hschedules := h.schedules captureTimeMs hc
      obtain ⟨hearlier, hnow, -⟩ := h.target_mem captureTimeMs hc
      have hpositive : 0 < nowNs.toInt := hc
      refine ⟨hschedules.representable, ?_, fun earlier hmem => ?_⟩
      · show _ = ((p.targets ++ [p.target captureTimeMs nowNs]).getLast?).getD 0
        rw [List.getLast?_concat]
        exact hschedules.last_eq
      · show 0 < earlier ∧ earlier ≤ _
        rw [show (p.call (.schedule captureTimeMs nowNs)).clock.lastTargetNs =
          p.target captureTimeMs nowNs from hschedules.last_eq]
        rcases List.mem_append.mp hmem with hmem | hmem
        · exact ⟨(h.mem earlier hmem).1, (hearlier earlier hmem).1⟩
        · obtain rfl := List.mem_singleton.mp hmem
          exact ⟨hpositive.trans_le hnow, le_refl _⟩
  | updateRefreshPeriod refreshPeriodNs =>
      obtain ⟨hge, hle⟩ := normalizedRefreshPeriod_mem refreshPeriodNs.toInt
      show Sound { p with clock := p.clock.updateRefreshPeriod refreshPeriodNs.toInt }
      unfold VideoPresentationClock.updateRefreshPeriod
      dsimp only
      split
      · have hreset := h.representable.resetAnchor
        exact ⟨{ hreset with period_ge := hge, period_le := hle }, h.last_eq, h.mem⟩
      · exact h
  | setMovieMode enabled =>
      show Sound { p with clock := p.clock.setMovieMode enabled }
      unfold VideoPresentationClock.setMovieMode
      split
      · have hreset := h.representable.resetAnchor
        exact ⟨{ hreset with }, h.last_eq, h.mem⟩
      · exact h

theorem sound_after {refreshPeriodNs : Int64} {calls : List ClockCall}
    (h : ∀ c ∈ calls, c.Positive) : Sound (Presentation.after refreshPeriodNs calls) := by
  induction calls using List.reverseRecOn with
  | nil => exact sound_new _
  | append_singleton calls c ih =>
      rw [Presentation.after_concat]
      exact (ih fun c hc => h c (List.mem_append_left _ hc)).call (h c (by simp))

/-- **Targets.**  In every run a frame is shown after all frames before it, not before
now, and not later than the lead or just after the frame before it; the fields keep
within their types, and so does the cast. -/
theorem presentation_targets {refreshPeriodNs : Int64} {before : List ClockCall}
    (hbefore : ∀ c ∈ before, c.Positive) (captureTimeMs : Option UInt64) {nowNs : Int64}
    (hnow : 0 < nowNs.toInt) :
    let p := Presentation.after refreshPeriodNs before
    (∀ earlier ∈ p.targets, earlier < i64Max → earlier < p.target captureTimeMs nowNs) ∧
    nowNs.toInt ≤ p.target captureTimeMs nowNs ∧
    (p.target captureTimeMs nowNs ≤
        nowNs.toInt + max maxFutureLeadNs (3 * p.clock.refreshPeriodNs) ∨
      ∃ last ∈ p.targets.getLast?, p.target captureTimeMs nowNs ≤ last + 1) ∧
    Representable (p.call (.schedule captureTimeMs nowNs)).clock ∧
    ∀ elapsedMs, elapsedNs elapsedMs = min ((elapsedMs : ℤ) * 1000000) i64Max := by
  have hsound : Sound (.after refreshPeriodNs before) := sound_after hbefore
  obtain ⟨hearlier, hge, hle⟩ := hsound.target_mem captureTimeMs hnow
  have hafter : Sound ((Presentation.after refreshPeriodNs before).call
      (.schedule captureTimeMs nowNs)) := hsound.call hnow
  exact ⟨fun earlier hmem => (hearlier earlier hmem).2, hge, hle, hafter.representable,
    elapsedNs_eq⟩

/-- The source goes back by 100 ms. -/
theorem presentation_targets_regressed :
    1016666667 < (Presentation.after 16666667 [.schedule (some 1000) 1000000000]).target
      (some 900) 1000000001 := by
  have htargets : (Presentation.after 16666667 [.schedule (some 1000) 1000000000]).targets =
      [1016666667] := by decide
  refine (presentation_targets ?_ (some 900) ?_).1 1016666667 ?_ ?_
  · simp [ClockCall.Positive]
  · decide
  · rw [htargets]
    exact List.mem_singleton_self _
  · decide

end RustAdmin.Viewer.PresentationClock
