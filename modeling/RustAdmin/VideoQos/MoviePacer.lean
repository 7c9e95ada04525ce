import Mathlib.Algebra.Order.Ring.Nat
import RustAdmin.Support.Run

/-!
# The movie frame pacer

`MovieFramePacer` of `src/src/server/video_service.rs` gives the capture loop in
movie mode its next slot: the slots are a period apart, and a call that comes
late skips the slots that have passed.  Times are nanoseconds.

`planStep_spec` is about one call: it schedules a slot that is not yet over, a whole
number of periods behind the last deadline, and counts the slots between.  `PacerInv`
adds up the calls so far, and `Paced` is what one call promises behind them.
-/

namespace RustAdmin.VideoQos

open RustAdmin.Support

/-- `DEFAULT_ENCODER_FPS`. -/
def defaultEncoderFps : ℕ := 30

/-- `MAX_ENCODER_FPS`. -/
def maxEncoderFps : ℕ := 120

def normalizedEncoderFps (fps : ℕ) : ℕ :=
  if 1 ≤ fps ∧ fps ≤ maxEncoderFps then fps else defaultEncoderFps

structure MoviePacerDecision where
  scheduledAt : ℕ
  missedSlots : ℕ
deriving DecidableEq, Repr

structure MovieFramePacer where
  period : ℕ
  nextDeadline : ℕ
  skippedSlots : ℕ
deriving DecidableEq, Repr

/-- The period of a rate. -/
def periodOf (fps : ℕ) : ℕ := 1000000000 / normalizedEncoderFps fps

def MovieFramePacer.new (fps now : ℕ) : MovieFramePacer := ⟨periodOf fps, now, 0⟩

/-- `plan_at`.  The division by a period of zero, which `checked_div` takes for
zero, is zero. -/
def MovieFramePacer.planAt (pacer : MovieFramePacer) (now : ℕ) :
    MoviePacerDecision × MovieFramePacer :=
  let missedSlots :=
    if pacer.nextDeadline < now then
      min ((now - pacer.nextDeadline) / pacer.period) (2 ^ 32 - 1)
    else 0
  let scheduledAt := pacer.nextDeadline + pacer.period * missedSlots
  (⟨scheduledAt, missedSlots⟩,
    { pacer with
      nextDeadline := scheduledAt + pacer.period
      skippedSlots := min (pacer.skippedSlots + missedSlots) (2 ^ 64 - 1) })

def MovieFramePacer.setFps (pacer : MovieFramePacer) (fps now : ℕ) : MovieFramePacer :=
  { pacer with period := periodOf fps, nextDeadline := now + periodOf fps }

theorem periodOf_pos (fps : ℕ) : 0 < periodOf fps := by
  unfold periodOf normalizedEncoderFps maxEncoderFps defaultEncoderFps
  apply Nat.div_pos
  · split <;> omega
  · split <;> omega

/-! ## Calls between two changes of the rate -/

/-- What begins a sequence of calls: a new pacer, or a change of the rate of an
earlier one. -/
inductive PacerStart
  | new (fps now : ℕ)
  | setFps (pacer : MovieFramePacer) (fps now : ℕ)

def PacerStart.pacer : PacerStart → MovieFramePacer
  | .new fps now => .new fps now
  | .setFps pacer fps now => pacer.setFps fps now

/-- The first deadline: at once for a new pacer, one new period after a change. -/
def PacerStart.firstDeadline : PacerStart → ℕ
  | .new _ now => now
  | .setFps _ fps now => now + periodOf fps

theorem pacer_period_pos (start : PacerStart) : 0 < start.pacer.period := by
  cases start with
  | new fps now => exact periodOf_pos fps
  | setFps pacer fps now => exact periodOf_pos fps

theorem pacer_nextDeadline (start : PacerStart) :
    start.pacer.nextDeadline = start.firstDeadline := by
  cases start <;> rfl

/-- A call of `plan_at` with its decision. -/
structure Planned where
  now : ℕ
  decision : MoviePacerDecision
deriving DecidableEq, Repr

/-- A call that is fewer than `2 ^ 32` slots late. -/
structure PlanStep (pacer : MovieFramePacer) (planned : Planned) (pacer' : MovieFramePacer) :
    Prop where
  plan : pacer.planAt planned.now = (planned.decision, pacer')
  late : (planned.now - pacer.nextDeadline) / pacer.period < 2 ^ 32

/-- The slots reported missed by some calls. -/
def missedSlots (calls : List Planned) : ℕ :=
  (calls.map fun planned => planned.decision.missedSlots).sum

theorem missedSlots_concat (calls : List Planned) (planned : Planned) :
    missedSlots (calls ++ [planned]) = missedSlots calls + planned.decision.missedSlots := by
  simp [missedSlots]

/-- One call schedules a slot that is not yet over, and after the time of the
call only the next one. -/
theorem planStep_spec {pacer pacer' : MovieFramePacer} {planned : Planned}
    (hpos : 0 < pacer.period) (hstep : PlanStep pacer planned pacer') :
    planned.decision.scheduledAt =
        pacer.nextDeadline + planned.decision.missedSlots * pacer.period ∧
      pacer'.nextDeadline = planned.decision.scheduledAt + pacer.period ∧
      pacer'.period = pacer.period ∧
      planned.now < planned.decision.scheduledAt + pacer.period ∧
      (planned.now < planned.decision.scheduledAt → planned.decision.missedSlots = 0) := by
  obtain ⟨hdecision, rfl⟩ := Prod.mk.inj hstep.plan
  have hlate := hstep.late
  rw [← hdecision]
  refine ⟨by rw [Nat.mul_comm], rfl, rfl, ?_, ?_⟩
  · dsimp only
    split
    · rw [Nat.min_eq_left (by omega)]
      -- what is late beyond the missed slots is less than a period
      have hmod := Nat.div_add_mod (planned.now - pacer.nextDeadline) pacer.period
      have hlt := Nat.mod_lt (planned.now - pacer.nextDeadline) hpos
      omega
    · omega
  · dsimp only
    split
    · rw [Nat.min_eq_left (by omega)]
      have hle := Nat.mul_div_le (planned.now - pacer.nextDeadline) pacer.period
      omega
    · exact fun _ => rfl

/-- What a call promises behind the calls before it. -/
structure Paced (start : PacerStart) (calls : List Planned) (planned : Planned) : Prop where
  scheduled : planned.decision.scheduledAt =
    start.firstDeadline +
      (calls.length + missedSlots (calls ++ [planned])) * start.pacer.period
  recent : planned.now < planned.decision.scheduledAt + start.pacer.period
  next : planned.now < planned.decision.scheduledAt → calls = [] ∨
    ∃ earlier previous, calls = earlier ++ [previous] ∧
      planned.decision.scheduledAt = previous.decision.scheduledAt + start.pacer.period
  later : ∀ previous ∈ calls, previous.decision.scheduledAt < planned.decision.scheduledAt

/-- The state of the pacer behind some calls. -/
structure PacerInv (start : PacerStart) (calls : List Planned) (pacer : MovieFramePacer) :
    Prop where
  period : pacer.period = start.pacer.period
  deadline : pacer.nextDeadline =
    start.firstDeadline + (calls.length + missedSlots calls) * start.pacer.period
  after : ∀ previous ∈ calls, previous.decision.scheduledAt < pacer.nextDeadline
  follows : calls = [] ∨ ∃ earlier previous, calls = earlier ++ [previous] ∧
    pacer.nextDeadline = previous.decision.scheduledAt + start.pacer.period

theorem pacerInv_step {start : PacerStart} {calls : List Planned} {planned : Planned}
    {pacer pacer' : MovieFramePacer} (hinv : PacerInv start calls pacer)
    (hstep : PlanStep pacer planned pacer') :
    Paced start calls planned ∧ PacerInv start (calls ++ [planned]) pacer' := by
  have hpos := pacer_period_pos start
  obtain ⟨hscheduled, hnext, hperiod, hrecent, hmissed⟩ :=
    planStep_spec (hinv.period ▸ hpos) hstep
  rw [hinv.period] at hscheduled hnext hperiod hrecent
  have hslot : planned.decision.scheduledAt = start.firstDeadline +
      (calls.length + missedSlots (calls ++ [planned])) * start.pacer.period := by
    rw [hscheduled, hinv.deadline, missedSlots_concat, Nat.add_assoc, ← Nat.add_mul,
      Nat.add_assoc]
  have hle : pacer.nextDeadline ≤ planned.decision.scheduledAt := by
    rw [hscheduled]
    exact Nat.le_add_right _ _
  constructor
  · refine ⟨hslot, hrecent, ?_, ?_⟩
    · intro hfuture
      have hfirst : planned.decision.scheduledAt = pacer.nextDeadline := by
        rw [hscheduled, hmissed hfuture, Nat.zero_mul, Nat.add_zero]
      rw [hfirst]
      exact hinv.follows
    · exact fun previous hprevious => (hinv.after previous hprevious).trans_le hle
  · refine ⟨hperiod, ?_, ?_, ?_⟩
    · rw [hnext, hslot, List.length_append, List.length_singleton, Nat.add_assoc,
        ← Nat.succ_mul]
      congr 2
      omega
    · intro previous hprevious
      rw [hnext]
      obtain hprevious | hprevious := List.mem_append.mp hprevious
      · have := hinv.after previous hprevious
        omega
      · obtain rfl := List.mem_singleton.mp hprevious
        omega
    · exact .inr ⟨calls, planned, rfl, hnext⟩

/-- **Movie pacing.**  Between two changes of the rate every scheduled time is a
whole number of periods behind the first deadline, one for every call and every
slot reported missed before it; no slot comes twice, none is over when it is
scheduled, and one that is ahead is the first or the next one. -/
theorem plans_paced {start : PacerStart} {calls : List Planned} {last : MovieFramePacer}
    (run : Run PlanStep start.pacer calls last) : Always (Paced start) calls := by
  have hboth : Always (Paced start) calls ∧ PacerInv start calls last := by
    refine run.invariant (fun calls pacer => Always (Paced start) calls ∧
      PacerInv start calls pacer) ⟨always_nil, ?_⟩ ?_
    · refine ⟨rfl, ?_, by simp, .inl rfl⟩
      rw [pacer_nextDeadline]
      simp [missedSlots]
    · rintro calls before planned after ⟨hpaced, hinv⟩ hstep
      obtain ⟨hcall, hafter⟩ := pacerInv_step hinv hstep
      exact ⟨always_concat.mpr ⟨hpaced, hcall⟩, hafter⟩
  exact hboth.1

/-- A call on time, and one three and a half periods later. -/
theorem plans_paced_late :
    Always (Paced (.new 60 0))
      [⟨0, ⟨0, 0⟩⟩, ⟨58333331, ⟨49999998, 2⟩⟩] := by
  have run : Run PlanStep (PacerStart.new 60 0).pacer _ _ :=
    (Run.single (⟨rfl, by decide⟩ : PlanStep _ ⟨0, ⟨0, 0⟩⟩ ⟨16666666, 16666666, 0⟩)).snoc
      (⟨rfl, by decide⟩ :
        PlanStep _ ⟨58333331, ⟨49999998, 2⟩⟩ ⟨16666666, 66666664, 2⟩)
  exact plans_paced run

end RustAdmin.VideoQos
