import Mathlib.Data.List.Destutter
import Mathlib.Data.List.Sort
import Mathlib.Order.Lattice

/-!
# The movie cadence controller

In movie mode the host encodes at one rate of a descending ladder.  The controller
moves down under sustained pressure and up after a healthy time, and builds a new
ladder when the target or the refresh rate of the viewer changes.  Times are
milliseconds.  The tests on `f64` values are a parameter.
-/

namespace RustAdmin.VideoQos

/-- `FPS`. -/
def fpsDefault : ℕ := 30

/-- `MIN_FPS`. -/
def minFps : ℕ := 1

/-- `MAX_FPS`. -/
def maxFps : ℕ := 120

/-- `MOVIE_PROBATION_HEALTHY`. -/
def movieProbationHealthy : ℕ := 2000

/-- `MOVIE_PRESSURE_DURATION`. -/
def moviePressureDuration : ℕ := 2000

/-- `MOVIE_UPSHIFT_HEALTHY`. -/
def movieUpshiftHealthy : ℕ := 20000

/-- `MOVIE_MINIMUM_DWELL`. -/
def movieMinimumDwell : ℕ := 10000

/-- `target_fps.clamp(MIN_FPS, MAX_FPS)`. -/
def clampFps (fps : ℕ) : ℕ := max minFps (min fps maxFps)

/-- The comparisons of the source that are made in floating point. -/
structure FloatTests where
  /-- The refresh rate in millihertz is within 0.02 periods of a multiple of the rate. -/
  inStep : ℕ → ℕ → Bool
  /-- More than 20 % of the iterations missed their slot. -/
  missedAbove20 : ℕ → ℕ → Bool
  /-- More than 10 % of the iterations missed their slot. -/
  missedAbove10 : ℕ → ℕ → Bool

/-- The comparisons without rounding. -/
def FloatTests.exact : FloatTests where
  inStep refresh fps :=
    let period := fps * 1000
    50 * min (refresh % period) (period - refresh % period) ≤ period
  missedAbove20 missed iterations := iterations ≠ 0 && decide (iterations < 5 * missed)
  missedAbove10 missed iterations := iterations ≠ 0 && decide (iterations < 10 * missed)

structure MovieViewerMetrics where
  available : Bool
  allRendered : Bool
  maxQueueDepthFrames : ℕ
  maxDecodeTimeUs : ℕ
  maxRenderSubmitTimeUs : ℕ
  droppedFrames : ℕ
  displayRefreshMillihz : ℕ
  presentationLateFrames : ℕ
  presentationDroppedFrames : ℕ
  presentationJitterP95Us : ℕ
  deriving DecidableEq, Repr

structure MovieCadenceSample where
  now : ℕ
  targetFps : ℕ
  hostPipelineP95Us : ℕ
  hostIterations : ℕ
  hostMissedSlots : ℕ
  viewer : MovieViewerMetrics
  localAdmissionPressure : Bool
  deriving DecidableEq, Repr

inductive MovieCadenceReason
  | probationComplete
  | hostCapacity
  | viewerCapacity
  | deliveryPressure
  | healthyUpshift
  | targetChanged
  deriving DecidableEq, Repr

structure MovieCadenceDecision where
  previousFps : ℕ
  currentFps : ℕ
  reason : MovieCadenceReason
  deriving DecidableEq, Repr

structure MovieCadenceController where
  targetFps : ℕ
  tiers : List ℕ
  currentTier : ℕ
  lastChange : ℕ
  pressureSince : Option ℕ
  healthySince : Option ℕ
  probationComplete : Bool
  refreshMillihz : ℕ
  lastViewerCounters : Option (ℕ × ℕ × ℕ)
  deriving DecidableEq, Repr

/-- `COMMON_TIERS`. -/
def commonTiers : List ℕ := [60, 50, 48, 45, 40, 30, 25, 24]

/-- `sort_unstable_by` with the larger rate first. -/
def sortDescending (tiers : List ℕ) : List ℕ := tiers.insertionSort (· ≥ ·)

/-- The tiers that fit the target and the refresh rate, before `FPS` is added. -/
def compatibleTiers (ft : FloatTests) (targetFps refreshMillihz : ℕ) : List ℕ :=
  if refreshMillihz = 0 then (commonTiers.filter (· ≤ targetFps)).take 1
  else commonTiers.filter fun fps =>
    if targetFps < fps then false
    else if fps = fpsDefault ∧ fpsDefault ≤ targetFps then true
    else ft.inStep refreshMillihz fps

/-- `FPS` is on every ladder whose target allows it. -/
def withDefault (targetFps : ℕ) (tiers : List ℕ) : List ℕ :=
  if fpsDefault ≤ targetFps ∧ fpsDefault ∉ tiers then tiers ++ [fpsDefault] else tiers

/-- `movie_cadence_tiers`. -/
def movieCadenceTiers (ft : FloatTests) (targetFps refreshMillihz : ℕ) : List ℕ :=
  let targetFps := clampFps targetFps
  let tiers := withDefault targetFps (compatibleTiers ft targetFps refreshMillihz)
  let tiers := if tiers = [] then [targetFps] else tiers
  (sortDescending tiers).destutter (· ≠ ·)

def monotonicCounterDelta (current previous : ℕ) : ℕ :=
  if previous ≤ current then current - previous else 0

namespace MovieCadenceController

variable (ft : FloatTests)

def new (targetFps refreshMillihz now : ℕ) : MovieCadenceController :=
  let targetFps := clampFps targetFps
  let tiers := movieCadenceTiers ft targetFps refreshMillihz
  let currentTier := (tiers.find? (· ≤ fpsDefault)).getD (tiers.getLast?.getD targetFps)
  { targetFps, tiers, currentTier
    lastChange := now
    pressureSince := none
    healthySince := none
    probationComplete := currentTier == targetFps
    refreshMillihz
    lastViewerCounters := none }

variable (c : MovieCadenceController)

def rejectChange (previousFps rejectedFps now : ℕ) : MovieCadenceController :=
  let c := { c with currentTier := previousFps }
  let c :=
    if previousFps < rejectedFps then
      { c with tiers := c.tiers.filter (· ≤ previousFps), probationComplete := true }
    else c
  { c with lastChange := now, pressureSince := none, healthySince := none }

/-- `change_tier`. -/
def changeTier (next : ℕ) (reason : MovieCadenceReason) (now : ℕ) :
    MovieCadenceController × Option MovieCadenceDecision :=
  if next = c.currentTier then (c, none)
  else
    ({ c with
        currentTier := next
        lastChange := now
        pressureSince := none
        healthySince := none
        probationComplete := true },
      some ⟨c.currentTier, next, reason⟩)

def nextLowerTier : Option ℕ :=
  (c.tiers.idxOf? c.currentTier).bind fun current => c.tiers[current + 1]?

def nextHigherTier : Option ℕ :=
  (c.tiers.idxOf? c.currentTier).bind fun current =>
    if current = 0 then none else c.tiers[current - 1]?

def updateProbationTiers (refreshMillihz : ℕ) : MovieCadenceController :=
  if c.probationComplete ∨ refreshMillihz = 0 ∨ refreshMillihz = c.refreshMillihz then c
  else
    let tiers := movieCadenceTiers ft c.targetFps refreshMillihz
    if c.currentTier ∈ tiers then { c with tiers, refreshMillihz } else c

/-- The ladder for a new target.  A rising target keeps the present rate on it. -/
def retargetedTiers (targetFps refreshMillihz : ℕ) : List ℕ :=
  let tiers := movieCadenceTiers ft targetFps refreshMillihz
  if c.targetFps < targetFps ∧ c.currentTier < targetFps ∧ c.currentTier ∉ tiers then
    sortDescending (tiers ++ [c.currentTier])
  else tiers

/-- `update_target`, once the target has changed. -/
def retarget (targetFps refreshMillihz now : ℕ) :
    MovieCadenceController × Option MovieCadenceDecision :=
  let tiers := c.retargetedTiers ft targetFps refreshMillihz
  let c := { c with targetFps, tiers, refreshMillihz, pressureSince := none, healthySince := none }
  if c.currentTier ∉ tiers then
    c.changeTier (tiers.head?.getD targetFps) .targetChanged now
  else ({ c with probationComplete := targetFps ≤ c.currentTier }, none)

def updateTarget (targetFps refreshMillihz now : ℕ) :
    MovieCadenceController × Option MovieCadenceDecision :=
  if clampFps targetFps = c.targetFps then (c, none)
  else c.retarget ft (clampFps targetFps) refreshMillihz now

/-- `viewer_counter_deltas`. -/
def viewerCounterDeltas (viewer : MovieViewerMetrics) : MovieCadenceController × (ℕ × ℕ × ℕ) :=
  let current :=
    (viewer.droppedFrames, viewer.presentationLateFrames, viewer.presentationDroppedFrames)
  ({ c with lastViewerCounters := some current },
    match c.lastViewerCounters with
    | none => (0, 0, 0)
    | some previous =>
        (monotonicCounterDelta current.1 previous.1, monotonicCounterDelta current.2.1 previous.2.1,
          monotonicCounterDelta current.2.2 previous.2.2))

/-- Which part is under pressure, if any, by the order in which the reasons are named. -/
def pressure (sample : MovieCadenceSample) (deltas : ℕ × ℕ × ℕ) : Option MovieCadenceReason :=
  let framePeriodUs := 1000000 / max c.currentTier 1
  let viewer := sample.viewer
  let hostPressure :=
    -- `at_or_below_baseline`: less headroom is asked for, and more misses are allowed.
    if fpsDefault ≤ c.targetFps ∧ c.currentTier ≤ fpsDefault then
      decide (framePeriodUs * 95 / 100 < sample.hostPipelineP95Us) ||
        ft.missedAbove20 sample.hostMissedSlots sample.hostIterations
    else
      decide (framePeriodUs < sample.hostPipelineP95Us) ||
        ft.missedAbove10 sample.hostMissedSlots sample.hostIterations
  let viewerPressure := viewer.available &&
    (decide (3 < viewer.maxQueueDepthFrames) ||
      decide (framePeriodUs * 95 / 100 < viewer.maxDecodeTimeUs) ||
      decide (framePeriodUs * 95 / 100 < viewer.maxRenderSubmitTimeUs) ||
      decide (framePeriodUs / 2 < viewer.presentationJitterP95Us))
  let deliveryPressure := decide (0 < deltas.1) || decide (0 < deltas.2.1) ||
    decide (0 < deltas.2.2) || sample.localAdmissionPressure
  if hostPressure then some .hostCapacity
  else if viewerPressure then some .viewerCapacity
  else if deliveryPressure then some .deliveryPressure
  else none

/-- `evaluate`, under pressure. -/
def evaluatePressured (reason : MovieCadenceReason) (now : ℕ) :
    MovieCadenceController × Option MovieCadenceDecision :=
  let pressureSince := c.pressureSince.getD now
  let c := { c with healthySince := none, pressureSince := some pressureSince }
  if moviePressureDuration ≤ now - pressureSince then
    match c.nextLowerTier with
    | some next => c.changeTier next reason now
    | none => (c, none)
  else (c, none)

/-- The sample is healthy enough for the period of the next rate. -/
def healthy (sample : MovieCadenceSample) (next : ℕ) : Bool :=
  let nextPeriodUs := 1000000 / max next 1
  let hostPercent := if c.probationComplete then 65 else 95
  let viewerPercent := if c.probationComplete then 65 else 90
  let viewer := sample.viewer
  viewer.available && viewer.allRendered && decide (0 < sample.hostPipelineP95Us) &&
    decide (sample.hostPipelineP95Us ≤ nextPeriodUs * hostPercent / 100) &&
    sample.hostMissedSlots == 0 && decide (viewer.maxQueueDepthFrames ≤ 1) &&
    decide (viewer.maxDecodeTimeUs ≤ nextPeriodUs * viewerPercent / 100) &&
    decide (viewer.maxRenderSubmitTimeUs ≤ nextPeriodUs * viewerPercent / 100)

/-- How long a healthy time the next rate takes. -/
def healthyRequired : ℕ :=
  if c.probationComplete then movieUpshiftHealthy else movieProbationHealthy

def upshiftReason : MovieCadenceReason :=
  if c.probationComplete then .healthyUpshift else .probationComplete

/-- `evaluate`, without pressure. -/
def evaluateRelaxed (sample : MovieCadenceSample) :
    MovieCadenceController × Option MovieCadenceDecision :=
  let c := { c with pressureSince := none }
  match c.nextHigherTier with
  | none => ({ c with probationComplete := true, healthySince := none }, none)
  | some next =>
      if ¬ c.healthy sample next then ({ c with healthySince := none }, none)
      else
        let healthySince := c.healthySince.getD sample.now
        let c := { c with healthySince := some healthySince }
        if sample.now - healthySince < c.healthyRequired then (c, none)
        else if c.probationComplete ∧ sample.now - c.lastChange < movieMinimumDwell then (c, none)
        else c.changeTier next c.upshiftReason sample.now

/-- `evaluate`, once the target is the one of the sample. -/
def evaluateOnTarget (sample : MovieCadenceSample) :
    MovieCadenceController × Option MovieCadenceDecision :=
  let c := c.updateProbationTiers ft sample.viewer.displayRefreshMillihz
  let counted := c.viewerCounterDeltas sample.viewer
  match c.pressure ft sample counted.2 with
  | some reason => counted.1.evaluatePressured reason sample.now
  | none => counted.1.evaluateRelaxed sample

def evaluate (sample : MovieCadenceSample) :
    MovieCadenceController × Option MovieCadenceDecision :=
  match c.updateTarget ft sample.targetFps sample.viewer.displayRefreshMillihz sample.now with
  | (c, some decision) => (c, some decision)
  | (c, none) => c.evaluateOnTarget ft sample

/-- One turn of the video service: an evaluation, and the rejection of a raised rate
for which no encoder could be made. -/
def turn (sample : MovieCadenceSample) (rejects : Bool) : MovieCadenceController :=
  match c.evaluate ft sample with
  | (c, none) => c
  | (c, some decision) =>
      -- A decrease that fails ends the loop with `SWITCH`, a new controller follows.
      if rejects ∧ decision.previousFps < decision.currentFps then
        c.rejectChange decision.previousFps decision.currentFps sample.now
      else c

end MovieCadenceController

end RustAdmin.VideoQos
