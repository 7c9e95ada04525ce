import Mathlib.Data.List.Induction
import Mathlib.Data.List.MinMax
import RustAdmin.Support.Arith
import RustAdmin.Support.LinkedMap
import RustAdmin.Support.Run
import RustAdmin.VideoDelivery.Controller

/-!
# Transport loss

`observe_transport_loss` and `user_transport_loss_at` of `src/src/server/video_qos.rs`: a
viewer reports how many frames it has dropped since its last report, up to the newest
frame it received.  The host sums these up in a window for every stream, and lowers the
frame rate of the viewer when a window shows too many.

## Strategy

A report is stale or counted (`observeTransportLoss_cases`), and `call_cases` says
what that does to the ledger.  The limits need no memory and hold in every run
(`limited_after`).  For the frames, `Ledgered` ties the windows to what was counted: a
window knows the newest frame of its stream, and as long as it is there, a report that
goes back is stale.  Only a stream without a window can be counted again, so a report
that is newer than all earlier ones keeps `Topped`, and one that is not breaks the
order at once (`resumes_of_accounted`).  `window_leaves_iff` says how a window is
lost.
-/

namespace RustAdmin.VideoQos.TransportLoss

open RustAdmin.Support RustAdmin.VideoDelivery

def minFps : ℕ := 1
def maxFps : ℕ := 120

/-- `FPS` -/
def defaultFps : ℕ := 30

def transportLossWindow : ℕ := secs 10
def transportLossBackoffCooldown : ℕ := secs 5
def transportLossBurstDrops : ℕ := 3
def transportLossMinRateDrops : ℕ := 3
def transportLossMinObservedFrames : ℕ := 30
def transportLossRatePercent : ℕ := 3
def transportLossBackoffNumerator : ℕ := 7
def transportLossBackoffDenominator : ℕ := 8
def maxTransportLossWindows : ℕ := 16

structure TransportLossKey where
  display : ℤ
  streamId : ℕ
deriving DecidableEq, Repr

structure TransportLossWindow where
  firstFrameId : ℕ
  highestFrameId : ℕ
  droppedFrames : ℕ
  startedAt : ℕ
  updatedAt : ℕ
deriving DecidableEq, Repr

structure VideoTransportLossSample where
  display : ℤ
  streamId : ℕ
  receivedFrameId : ℕ
  droppedFrames : ℕ
deriving DecidableEq, Repr

inductive TransportLossBackoffReason
  | burst
  | rate
deriving DecidableEq, Repr

structure TransportLossObservation where
  key : TransportLossKey
  observedFrames : ℕ
  droppedFrames : ℕ
  lossPermille : ℕ
  reason : Option TransportLossBackoffReason
  stale : Bool
deriving DecidableEq, Repr

abbrev Windows := LinkedMap TransportLossKey TransportLossWindow

def VideoTransportLossSample.key (sample : VideoTransportLossSample) : TransportLossKey :=
  ⟨sample.display, sample.streamId⟩

/-- Multiplication of 64-bit numbers that stops at the largest one. -/
def saturatingMul (a b : ℕ) : ℕ := min (a * b) usizeMax

/-- `min_by_key` on the windows of a hash map: some window that was updated first. -/
structure Oldest where
  pick : Windows → Option TransportLossKey
  mem : ∀ {windows key}, pick windows = some key → key ∈ windows.keys
  le : ∀ {windows key window}, pick windows = some key → windows.get? key = some window →
    ∀ other ∈ windows.values, window.updatedAt ≤ other.updatedAt
  some_of_pos : ∀ {windows : Windows}, 0 < windows.keys.length → (pick windows).isSome

/-- The first of the oldest windows in the order of the table. -/
def firstOldest : Oldest where
  pick windows := (windows.entries.argmin fun entry => entry.2.updatedAt).map Prod.fst
  mem h := by
    obtain ⟨entry, hentry, rfl⟩ := Option.map_eq_some_iff.mp h
    exact List.mem_map_of_mem (List.argmin_mem hentry)
  le := by
    intro windows key window h hget other hother
    obtain ⟨entry, hentry, rfl⟩ := Option.map_eq_some_iff.mp h
    obtain ⟨otherEntry, hmem, rfl⟩ := List.mem_map.mp hother
    have hwindow := LinkedMap.mem_entries_iff.mpr hget
    have hsame : entry.2 = window := windows.eq_of_mem (List.argmin_mem hentry) hwindow
    have hle := List.le_of_mem_argmin
      (f := fun entry : TransportLossKey × TransportLossWindow => entry.2.updatedAt) hmem hentry
    rw [← hsame]
    exact hle
  some_of_pos := by
    intro windows h
    rw [Option.isSome_map]
    cases hentries : windows.entries.argmin fun entry => entry.2.updatedAt with
    | none =>
        rw [LinkedMap.keys, List.argmin_eq_none.mp hentries] at h
        cases h
    | some entry => rfl

/-! ## The windows -/

/-- The windows of other streams of the display go. -/
def retained (windows : Windows) (sample : VideoTransportLossSample) : Windows :=
  windows.filter fun existing _ =>
    decide (existing.display ≠ sample.display ∨ existing.streamId = sample.streamId)

/-- Room is made for a new window. -/
def evicted (oldest : Oldest) (windows : Windows) (key : TransportLossKey) : Windows :=
  if ¬ windows.contains key ∧ maxTransportLossWindows ≤ windows.keys.length then
    match oldest.pick windows with
    | some oldestKey => windows.remove oldestKey
    | none => windows
  else windows

def freshWindow (sample : VideoTransportLossSample) (now : ℕ) : TransportLossWindow :=
  ⟨sample.receivedFrameId, sample.receivedFrameId, 0, now, now⟩

/-- The window of a sample, with the sample counted. -/
def counted (window : Option TransportLossWindow) (sample : VideoTransportLossSample) (now : ℕ) :
    TransportLossWindow :=
  let window := window.getD (freshWindow sample now)
  let window :=
    if transportLossWindow ≤ now - window.startedAt then freshWindow sample now else window
  { window with
    highestFrameId := sample.receivedFrameId
    droppedFrames := saturatingAdd window.droppedFrames sample.droppedFrames
    updatedAt := now }

def TransportLossWindow.observedFrames (window : TransportLossWindow) : ℕ :=
  max (max (saturatingAdd (window.highestFrameId - window.firstFrameId) 1) window.droppedFrames) 1

def TransportLossWindow.lossPermille (window : TransportLossWindow) : ℕ :=
  saturatingMul window.droppedFrames 1000 / window.observedFrames

def backoffReason (window : TransportLossWindow) (sample : VideoTransportLossSample) :
    Option TransportLossBackoffReason :=
  if transportLossBurstDrops ≤ sample.droppedFrames then some .burst
  else if transportLossMinRateDrops ≤ window.droppedFrames ∧
      transportLossMinObservedFrames ≤ window.observedFrames ∧
      saturatingMul window.observedFrames transportLossRatePercent ≤
        saturatingMul window.droppedFrames 100 then
    some .rate
  else none

def observeTransportLoss (oldest : Oldest) (windows : Windows) (sample : VideoTransportLossSample)
    (now : ℕ) : TransportLossObservation × Windows :=
  let key := sample.key
  let windows := retained windows sample
  if (windows.get? key).any fun window => sample.receivedFrameId ≤ window.highestFrameId then
    (⟨key, 0, 0, 0, none, true⟩, windows)
  else
    let windows := evicted oldest windows key
    let window := counted (windows.get? key) sample now
    (⟨key, window.observedFrames, window.droppedFrames, window.lossPermille,
      backoffReason window sample, false⟩, windows.set key window)

/-! ## A viewer -/

/-- What the host knows of a viewer here.  `customDisplays` says whether there are displays
that it watches with a custom quality and a variable bitrate. -/
structure UserData where
  customFps : Option ℕ
  autoAdjustFps : Option ℕ
  customDisplays : Bool
  delayFps : Option {fps : ℕ // minFps ≤ fps}
  lastTransportLossAt : Option ℕ := none
  transportLossWindows : Windows := ∅

def requestedFps (user : UserData) : ℕ :=
  let fps := user.customFps.getD defaultFps
  let fps := match user.autoAdjustFps with
    | some autoAdjustFps => if fps = 0 ∨ autoAdjustFps < fps then autoAdjustFps else fps
    | none => fps
  max minFps (min fps maxFps)

/-- What became of a report. -/
inductive TransportLossAction
  | nothing
  | stale
  | custom (observation : TransportLossObservation)
  | tolerated (observation : TransportLossObservation)
  | cooldown (observation : TransportLossObservation)
  | backoff (observation : TransportLossObservation) (previousFps nextFps : ℕ)
deriving DecidableEq, Repr

/-- The rate after a backoff; the product saturates at `u32::MAX`. -/
def backoffFps (previousFps highestFps : ℕ) : ℕ :=
  max minFps (min (min (previousFps * transportLossBackoffNumerator) (2 ^ 32 - 1) /
    transportLossBackoffDenominator) highestFps)

theorem minFps_le_backoffFps (previousFps highestFps : ℕ) :
    minFps ≤ backoffFps previousFps highestFps := Nat.le_max_left _ _

/-- `user_transport_loss_at`, as far as the viewer is concerned: what it does to the bitrates
of displays is left out. -/
def userTransportLossAt (oldest : Oldest) (user : UserData) (sample : VideoTransportLossSample)
    (now : ℕ) : TransportLossAction × UserData :=
  if sample.droppedFrames = 0 then (.nothing, user)
  else
    let result := observeTransportLoss oldest user.transportLossWindows sample now
    let observation := result.1
    let user := { user with transportLossWindows := result.2 }
    if observation.stale then (.stale, user)
    else if user.customDisplays then (.custom observation, user)
    else if observation.reason.isNone then (.tolerated observation, user)
    else
      let user := { user with
        transportLossWindows := user.transportLossWindows.remove observation.key }
      if user.lastTransportLossAt.any fun last => now - last < transportLossBackoffCooldown then
        (.cooldown observation, user)
      else
        let highestFps := requestedFps user
        let previousFps := (user.delayFps.map Subtype.val).getD highestFps
        let nextFps := backoffFps previousFps highestFps
        (.backoff observation previousFps nextFps, { user with
          lastTransportLossAt := some now
          delayFps := some ⟨nextFps, minFps_le_backoffFps _ _⟩ })

/-! ## The table -/

section Table

variable {windows windows' : Windows}

/-- Windows are only taken away. -/
def Shrinks (windows windows' : Windows) : Prop :=
  windows'.keys.length ≤ windows.keys.length ∧
    ∀ key window, windows'.get? key = some window → windows.get? key = some window

theorem length_keys_filter_le (windows : Windows)
    (p : TransportLossKey → TransportLossWindow → Bool) :
    (windows.filter p).keys.length ≤ windows.keys.length := by
  unfold LinkedMap.keys LinkedMap.filter
  rw [List.length_map, List.length_map]
  exact List.length_filter_le _ _

theorem shrinks_filter (windows : Windows) (p : TransportLossKey → TransportLossWindow → Bool) :
    Shrinks windows (windows.filter p) := by
  refine ⟨length_keys_filter_le windows p, fun key window h => ?_⟩
  rw [LinkedMap.get?_filter] at h
  exact (Option.filter_eq_some_iff.mp h).1

theorem shrinks_remove (windows : Windows) (key : TransportLossKey) :
    Shrinks windows (windows.remove key) := by
  refine ⟨?_, fun other window h => ?_⟩
  · unfold LinkedMap.keys LinkedMap.remove
    rw [List.length_map, List.length_map]
    exact List.length_filter_le _ _
  · rw [LinkedMap.get?_remove] at h
    split at h
    · cases h
    · exact h

theorem length_keys_remove_lt {key : TransportLossKey} (h : key ∈ windows.keys) :
    (windows.remove key).keys.length < windows.keys.length := by
  unfold LinkedMap.keys LinkedMap.remove
  rw [List.length_map, List.length_map]
  obtain ⟨entry, hentry, rfl⟩ := List.mem_map.mp h
  refine List.length_filter_lt_length_iff_exists.mpr ⟨entry, hentry, ?_⟩
  simp

theorem get?_retained (windows : Windows) (sample : VideoTransportLossSample) :
    (retained windows sample).get? sample.key = windows.get? sample.key := by
  unfold retained
  rw [LinkedMap.get?_filter]
  cases windows.get? sample.key with
  | none => rfl
  | some window => exact Option.filter_some_pos (by simp [VideoTransportLossSample.key])

theorem shrinks_evicted (oldest : Oldest) (windows : Windows) (key : TransportLossKey) :
    Shrinks windows (evicted oldest windows key) := by
  unfold evicted
  split
  · split
    · exact shrinks_remove windows _
    · exact ⟨le_refl _, fun _ _ h => h⟩
  · exact ⟨le_refl _, fun _ _ h => h⟩

theorem length_keys_set_le (windows : Windows) (key : TransportLossKey)
    (window : TransportLossWindow) :
    (windows.set key window).keys.length ≤ windows.keys.length + 1 := by
  rw [LinkedMap.length_keys_set]
  split
  · exact Nat.le_succ _
  · exact le_refl _

/-- After the eviction there is room for the window. -/
theorem length_set_evicted (oldest : Oldest) (key : TransportLossKey)
    (window : TransportLossWindow) (h : windows.keys.length ≤ maxTransportLossWindows) :
    ((evicted oldest windows key).set key window).keys.length ≤ maxTransportLossWindows := by
  have hmax : maxTransportLossWindows = 16 := rfl
  unfold evicted
  split
  · next hfull =>
      -- the table is full and not empty, so one goes
      have hnonempty : 0 < windows.keys.length := by omega
      obtain ⟨oldestKey, hpick⟩ := Option.isSome_iff_exists.mp (oldest.some_of_pos hnonempty)
      rw [hpick]
      have hlt := length_keys_remove_lt (oldest.mem hpick)
      have hle := length_keys_set_le (windows.remove oldestKey) key window
      dsimp only
      omega
  · next hroom =>
      by_cases hin : windows.contains key
      · rw [LinkedMap.length_keys_set, if_pos]
        · exact h
        · rw [LinkedMap.mem_keys_iff]
          exact LinkedMap.contains_iff.mp hin
      · have hlt : ¬ maxTransportLossWindows ≤ windows.keys.length :=
          fun hfull => hroom ⟨hin, hfull⟩
        have hle := length_keys_set_le windows key window
        omega

theorem lossPermille_le (window : TransportLossWindow) : window.lossPermille ≤ 1000 := by
  have hle : window.droppedFrames ≤ window.observedFrames := by
    unfold TransportLossWindow.observedFrames
    omega
  unfold TransportLossWindow.lossPermille saturatingMul
  refine Nat.div_le_of_le_mul ?_
  omega

end Table

/-! ## One report -/

theorem minFps_le_requestedFps (user : UserData) : minFps ≤ requestedFps user :=
  Nat.le_max_left _ _

/-- A backoff never raises the rate. -/
theorem backoffFps_le {previousFps : ℕ} (h : minFps ≤ previousFps) (highestFps : ℕ) :
    backoffFps previousFps highestFps ≤ previousFps := by
  have hmin : minFps = 1 := rfl
  unfold backoffFps transportLossBackoffNumerator transportLossBackoffDenominator
  omega

/-- The observation of a report that is counted. -/
def TransportLossAction.observation : TransportLossAction → Option TransportLossObservation
  | .nothing | .stale => none
  | .custom observation | .tolerated observation | .cooldown observation
  | .backoff observation _ _ => some observation

/-- What a counted report does. -/
structure Counts (user : UserData) (sample : VideoTransportLossSample) (now : ℕ)
    (result : TransportLossAction × UserData) : Prop where
  newer : ∀ window, user.transportLossWindows.get? sample.key = some window →
    window.highestFrameId < sample.receivedFrameId
  observed : ∃ observation, result.1.observation = some observation ∧
    observation.lossPermille ≤ 1000
  windows : ∀ key window, result.2.transportLossWindows.get? key = some window →
    key ≠ sample.key ∧ user.transportLossWindows.get? key = some window ∨
      key = sample.key ∧ window.highestFrameId = sample.receivedFrameId
  bounded : user.transportLossWindows.keys.length ≤ maxTransportLossWindows →
    result.2.transportLossWindows.keys.length ≤ maxTransportLossWindows
  backoff : (result.2.lastTransportLossAt = user.lastTransportLossAt ∧
      ∀ observation previousFps nextFps, result.1 ≠ .backoff observation previousFps nextFps) ∨
    ∃ observation previousFps nextFps, result.1 = .backoff observation previousFps nextFps ∧
      minFps ≤ nextFps ∧ nextFps ≤ previousFps ∧ user.customDisplays = false ∧
      result.2.lastTransportLossAt = some now ∧
      ∀ last ∈ user.lastTransportLossAt, last + transportLossBackoffCooldown ≤ now

/-- The table with a new window in it. -/
theorem set_cases {windows windows' : Windows} {key : TransportLossKey}
    {window : TransportLossWindow} (hshrinks : Shrinks windows windows')
    {other : TransportLossKey} {window' : TransportLossWindow}
    (h : (windows'.set key window).get? other = some window') :
    other ≠ key ∧ windows.get? other = some window' ∨ other = key ∧ window' = window := by
  rw [LinkedMap.get?_set] at h
  split at h
  · next heq => exact .inr ⟨heq, (Option.some.inj h).symm⟩
  · next hne => exact .inl ⟨hne, hshrinks.2 other window' h⟩

/-- A sample is stale, or counted in the window of its stream. -/
theorem observeTransportLoss_cases (oldest : Oldest) (windows : Windows)
    (sample : VideoTransportLossSample) (now : ℕ) :
    (∃ window, windows.get? sample.key = some window ∧
      sample.receivedFrameId ≤ window.highestFrameId ∧
      observeTransportLoss oldest windows sample now =
        (⟨sample.key, 0, 0, 0, none, true⟩, retained windows sample)) ∨
    (∀ window, windows.get? sample.key = some window →
      window.highestFrameId < sample.receivedFrameId) ∧
    ∃ window, window.highestFrameId = sample.receivedFrameId ∧
      observeTransportLoss oldest windows sample now =
        (⟨sample.key, window.observedFrames, window.droppedFrames, window.lossPermille,
            backoffReason window sample, false⟩,
          (evicted oldest (retained windows sample) sample.key).set sample.key window) := by
  unfold observeTransportLoss
  dsimp only
  rw [get?_retained]
  cases hwindow : windows.get? sample.key with
  | none => exact .inr ⟨nofun, _, rfl, rfl⟩
  | some window =>
      by_cases hle : sample.receivedFrameId ≤ window.highestFrameId
      · refine .inl ⟨window, rfl, hle, if_pos ?_⟩
        simpa using hle
      · refine .inr ⟨fun other hother => ?_, _, rfl, if_neg ?_⟩
        · obtain rfl : window = other := Option.some.inj hother
          exact not_le.mp hle
        · simpa using hle

/-- The table after a sample that is counted. -/
theorem observed_windows (oldest : Oldest) (windows : Windows) (sample : VideoTransportLossSample)
    {window : TransportLossWindow} (hhighest : window.highestFrameId = sample.receivedFrameId) :
    let observed := (evicted oldest (retained windows sample) sample.key).set sample.key window
    (∀ key window', observed.get? key = some window' →
      key ≠ sample.key ∧ windows.get? key = some window' ∨
        key = sample.key ∧ window'.highestFrameId = sample.receivedFrameId) ∧
    (windows.keys.length ≤ maxTransportLossWindows →
      observed.keys.length ≤ maxTransportLossWindows) := by
  have hretained : Shrinks windows (retained windows sample) := shrinks_filter _ _
  have hevicted := shrinks_evicted oldest (retained windows sample) sample.key
  refine ⟨fun key window' h => ?_, fun h => ?_⟩
  · rcases set_cases hevicted h with ⟨hne, hold⟩ | ⟨heq, rfl⟩
    · exact .inl ⟨hne, hretained.2 key window' hold⟩
    · exact .inr ⟨heq, hhighest⟩
  · exact length_set_evicted oldest sample.key window (hretained.1.trans h)

theorem minFps_le_previousFps (user : UserData) :
    minFps ≤ (user.delayFps.map Subtype.val).getD (requestedFps user) := by
  cases user.delayFps with
  | none => exact minFps_le_requestedFps user
  | some fps => exact fps.2

theorem userTransportLossAt_cases (oldest : Oldest) (user : UserData)
    (sample : VideoTransportLossSample) (now : ℕ) :
    sample.droppedFrames = 0 ∧ userTransportLossAt oldest user sample now = (.nothing, user) ∨
    sample.droppedFrames ≠ 0 ∧ (∃ window windows,
      user.transportLossWindows.get? sample.key = some window ∧
      sample.receivedFrameId ≤ window.highestFrameId ∧
      Shrinks user.transportLossWindows windows ∧
      userTransportLossAt oldest user sample now =
        (.stale, { user with transportLossWindows := windows })) ∨
    sample.droppedFrames ≠ 0 ∧
      Counts user sample now (userTransportLossAt oldest user sample now) := by
  unfold userTransportLossAt
  by_cases hzero : sample.droppedFrames = 0
  · exact .inl ⟨hzero, if_pos hzero⟩
  · refine .inr ?_
    rw [if_neg hzero]
    have hretained : Shrinks user.transportLossWindows
        (retained user.transportLossWindows sample) := shrinks_filter _ _
    rcases observeTransportLoss_cases oldest user.transportLossWindows sample now with
      ⟨window, hwindow, hle, hobserve⟩ | ⟨hnewer, window, hhighest, hobserve⟩
    · rw [hobserve]
      exact .inl ⟨hzero, window, _, hwindow, hle, hretained, rfl⟩
    · refine .inr ⟨hzero, ?_⟩
      rw [hobserve]
      obtain ⟨hset, hbounded⟩ :=
        observed_windows oldest user.transportLossWindows sample hhighest
      have hremoved := shrinks_remove ((evicted oldest (retained user.transportLossWindows sample)
        sample.key).set sample.key window) sample.key
      dsimp only
      rw [if_neg Bool.false_ne_true]
      split
      · exact ⟨hnewer, ⟨_, rfl, lossPermille_le window⟩, hset, hbounded, .inl ⟨rfl, nofun⟩⟩
      · next hcustom =>
          split
          · exact ⟨hnewer, ⟨_, rfl, lossPermille_le window⟩, hset, hbounded, .inl ⟨rfl, nofun⟩⟩
          · split
            · exact ⟨hnewer, ⟨_, rfl, lossPermille_le window⟩,
                fun key window' h => hset key window' (hremoved.2 key window' h),
                fun h => hremoved.1.trans (hbounded h), .inl ⟨rfl, nofun⟩⟩
            · next hcooldown =>
                refine ⟨hnewer, ⟨_, rfl, lossPermille_le window⟩,
                  fun key window' h => hset key window' (hremoved.2 key window' h),
                  fun h => hremoved.1.trans (hbounded h),
                  .inr ⟨_, _, _, rfl, minFps_le_backoffFps _ _, ?_, by simpa using hcustom, rfl,
                    fun last hlast => ?_⟩⟩
                · exact backoffFps_le (minFps_le_previousFps user) _
                · have hlast : user.lastTransportLossAt = some last := hlast
                  have hpos : transportLossBackoffCooldown = 5000000000 := rfl
                  have hlate : ¬ now - last < transportLossBackoffCooldown := by
                    simpa [hlast] using hcooldown
                  omega

/-! ## Windows that leave the table -/

/-- The report of another stream of the display took the window away. -/
def Superseded (sample : VideoTransportLossSample) (key : TransportLossKey) : Prop :=
  key.display = sample.display ∧ key.streamId ≠ sample.streamId

/-- The window was the oldest when a new one found the table full. -/
def Evicts (oldest : Oldest) (user : UserData) (sample : VideoTransportLossSample)
    (key : TransportLossKey) : Prop :=
  user.transportLossWindows.get? sample.key = none ∧
    maxTransportLossWindows ≤ (retained user.transportLossWindows sample).keys.length ∧
    oldest.pick (retained user.transportLossWindows sample) = some key

/-- The report showed too many drops, and its window was taken for that. -/
def TransportLossAction.consumes : TransportLossAction → Bool
  | .cooldown _ | .backoff _ _ _ => true
  | _ => false

theorem get?_retained_of_ne {windows : Windows} {sample : VideoTransportLossSample}
    {key : TransportLossKey} (h : ¬ Superseded sample key) :
    (retained windows sample).get? key = windows.get? key := by
  unfold retained
  rw [LinkedMap.get?_filter]
  cases windows.get? key with
  | none => rfl
  | some window =>
      refine Option.filter_some_pos (decide_eq_true ?_)
      by_contra hother
      push Not at hother
      exact h hother

theorem get?_retained_of_superseded {windows : Windows} {sample : VideoTransportLossSample}
    {key : TransportLossKey} (h : Superseded sample key) :
    (retained windows sample).get? key = none := by
  unfold retained
  rw [LinkedMap.get?_filter]
  cases windows.get? key with
  | none => rfl
  | some window => exact Option.filter_some_neg (by simp [h.1, h.2])

/-- What is left of a window when room was made. -/
theorem get?_evicted (oldest : Oldest) (windows : Windows) (key other : TransportLossKey) :
    (evicted oldest windows key).get? other =
      if windows.get? key = none ∧ maxTransportLossWindows ≤ windows.keys.length ∧
          oldest.pick windows = some other then none
      else windows.get? other := by
  have hcontains : ¬ windows.contains key ↔ windows.get? key = none := by
    rw [LinkedMap.contains_iff, ← Option.isSome_iff_exists, Option.not_isSome_iff_eq_none]
  unfold evicted
  simp only [hcontains]
  by_cases hfull : windows.get? key = none ∧ maxTransportLossWindows ≤ windows.keys.length
  · rw [if_pos hfull]
    cases hpick : oldest.pick windows with
    | none => simp
    | some oldestKey =>
        rw [LinkedMap.get?_remove]
        by_cases heq : other = oldestKey
        · rw [if_pos heq, if_pos ⟨hfull.1, hfull.2, by rw [heq]⟩]
        · rw [if_neg heq, if_neg fun h => heq (Option.some.inj h.2.2).symm]
  · rw [if_neg hfull, if_neg fun h => hfull ⟨h.1, h.2.1⟩]

/-- A window that a counted report leaves out of the table. -/
theorem get?_observed_eq_none_iff (oldest : Oldest) {user : UserData}
    (sample : VideoTransportLossSample) (window : TransportLossWindow) {key : TransportLossKey}
    (hwindow : (user.transportLossWindows.get? key).isSome) :
    ((evicted oldest (retained user.transportLossWindows sample) sample.key).set sample.key
        window).get? key = none ↔ Superseded sample key ∨ Evicts oldest user sample key := by
  have hsome := Option.isSome_iff_ne_none.mp hwindow
  rw [LinkedMap.get?_set]
  by_cases heq : key = sample.key
  · subst heq
    rw [if_pos rfl]
    refine ⟨nofun, ?_⟩
    rintro (hsuperseded | hevicts)
    · exact (hsuperseded.2 rfl).elim
    · exact (hsome hevicts.1).elim
  · rw [if_neg heq, get?_evicted, get?_retained]
    by_cases hsuperseded : Superseded sample key
    · rw [get?_retained_of_superseded hsuperseded, ite_self]
      exact ⟨fun _ => .inl hsuperseded, fun _ => rfl⟩
    · rw [get?_retained_of_ne hsuperseded]
      split
      · next hevicts => exact ⟨fun _ => .inr hevicts, fun _ => rfl⟩
      · next hevicts =>
          exact ⟨fun h => (hsome h).elim, fun h => (h.elim hsuperseded hevicts).elim⟩

/-- A window leaves the table for another stream of its display, for want of room, or for the
backoff that it has called for. -/
theorem window_leaves_iff {oldest : Oldest} {user : UserData} {sample : VideoTransportLossSample}
    {now : ℕ} {key : TransportLossKey} (hwindow : (user.transportLossWindows.get? key).isSome) :
    let result := userTransportLossAt oldest user sample now
    result.2.transportLossWindows.get? key = none ↔ sample.droppedFrames ≠ 0 ∧
      (Superseded sample key ∨ Evicts oldest user sample key ∨
        key = sample.key ∧ result.1.consumes = true) := by
  have hsome := Option.isSome_iff_ne_none.mp hwindow
  dsimp only
  unfold userTransportLossAt
  by_cases hzero : sample.droppedFrames = 0
  · rw [if_pos hzero]
    exact ⟨fun h => (hsome h).elim, fun h => (h.1 hzero).elim⟩
  rw [if_neg hzero]
  simp only [ne_eq, hzero, not_false_eq_true, true_and]
  rcases observeTransportLoss_cases oldest user.transportLossWindows sample now with
    ⟨own, hown, -, hobserve⟩ | ⟨-, window, -, hobserve⟩
  · -- a stale report only takes the windows of other streams away
    rw [hobserve]
    dsimp only
    rw [if_pos rfl]
    by_cases hsuperseded : Superseded sample key
    · exact ⟨fun _ => .inl hsuperseded, fun _ => get?_retained_of_superseded hsuperseded⟩
    · rw [get?_retained_of_ne hsuperseded]
      refine ⟨fun h => (hsome h).elim, ?_⟩
      rintro (h | hevicts | ⟨-, hconsumes⟩)
      · exact (hsuperseded h).elim
      · exact (Option.some_ne_none own (hown.symm.trans hevicts.1)).elim
      · cases hconsumes
  · rw [hobserve]
    have hleft := get?_observed_eq_none_iff oldest sample window hwindow
    dsimp only
    rw [if_neg Bool.false_ne_true]
    -- the table that is kept, and the one without the window of the report
    split
    · rw [hleft]
      simp [TransportLossAction.consumes]
    · split
      · rw [hleft]
        simp [TransportLossAction.consumes]
      · split
        all_goals
          dsimp only
          rw [LinkedMap.get?_remove]
          by_cases heq : key = sample.key
          · rw [if_pos heq]
            exact ⟨fun _ => .inr (.inr ⟨heq, rfl⟩), fun _ => rfl⟩
          · rw [if_neg heq, hleft]
            simp [heq]

/-! ## All reports -/

structure LossReport where
  sample : VideoTransportLossSample
  now : ℕ
deriving DecidableEq, Repr

/-- A viewer with the frames up to which its reports were counted and the times of its
backoffs. -/
structure LossRun where
  user : UserData
  counted : List (TransportLossKey × ℕ) := []
  backoffs : List ℕ := []

def TransportLossAction.isBackoff : TransportLossAction → Bool
  | .backoff _ _ _ => true
  | _ => false

section Runs

variable (oldest : Oldest)

/-- What becomes of a report. -/
def LossRun.result (r : LossRun) (report : LossReport) : TransportLossAction × UserData :=
  userTransportLossAt oldest r.user report.sample report.now

def LossRun.call (r : LossRun) (report : LossReport) : LossRun :=
  let result := r.result oldest report
  { user := result.2
    counted := r.counted ++ if result.1.observation.isSome then
      [(report.sample.key, report.sample.receivedFrameId)] else []
    backoffs := r.backoffs ++ if result.1.isBackoff then [report.now] else [] }

/-- The reports of a viewer that has no windows yet. -/
def after (user : UserData) (reports : List LossReport) : LossRun :=
  reports.foldl (LossRun.call oldest)
    ⟨{ user with lastTransportLossAt := none, transportLossWindows := ∅ }, [], []⟩

theorem after_concat (user : UserData) (reports : List LossReport) (report : LossReport) :
    after oldest user (reports ++ [report]) = (after oldest user reports).call oldest report := by
  simp [after]

/-- The table, the loss and the backoffs keep their limits. -/
structure Limited (r : LossRun) (report : LossReport) : Prop where
  bounded : (r.result oldest report).2.transportLossWindows.keys.length ≤ maxTransportLossWindows
  permille : ∀ observation ∈ (r.result oldest report).1.observation,
    observation.lossPermille ≤ 1000
  backoff : ∀ observation previousFps nextFps,
    (r.result oldest report).1 = .backoff observation previousFps nextFps →
      minFps ≤ nextFps ∧ nextFps ≤ previousFps ∧ r.user.customDisplays = false ∧
        ∀ time ∈ r.backoffs, time + transportLossBackoffCooldown ≤ report.now

/-- A report is counted once, and within the limits. -/
structure Accounted (r : LossRun) (report : LossReport) : Prop where
  increases : (r.result oldest report).1.observation.isSome → ∀ frame ∈ r.counted,
    frame.1 = report.sample.key → frame.2 < report.sample.receivedFrameId
  limited : Limited oldest r report

def AllAccounted (user : UserData) : List LossReport → Prop :=
  Always fun before report => Accounted oldest (after oldest user before) report

/-- Without a window for its stream a report is newer than all earlier ones of the stream. -/
def Resumes (r : LossRun) (before : List LossReport) (report : LossReport) : Prop :=
  report.sample.droppedFrames ≠ 0 →
    r.user.transportLossWindows.get? report.sample.key = none →
      ∀ earlier ∈ before, earlier.sample.droppedFrames ≠ 0 →
        earlier.sample.key = report.sample.key →
          earlier.sample.receivedFrameId < report.sample.receivedFrameId

def AllResume (user : UserData) : List LossReport → Prop :=
  Always fun before report => Resumes (after oldest user before) before report

end Runs

variable {oldest : Oldest}

/-- What was counted, as the reports and the windows know it. -/
structure Ledgered (r : LossRun) (before : List LossReport) : Prop where
  highest : ∀ key window, r.user.transportLossWindows.get? key = some window →
    (key, window.highestFrameId) ∈ r.counted
  reported : ∀ frame ∈ r.counted, ∃ report ∈ before, report.sample.droppedFrames ≠ 0 ∧
    report.sample.key = frame.1 ∧ report.sample.receivedFrameId = frame.2
  covered : ∀ report ∈ before, report.sample.droppedFrames ≠ 0 → ∃ frame ∈ r.counted,
    frame.1 = report.sample.key ∧ report.sample.receivedFrameId ≤ frame.2
  bounded : r.user.transportLossWindows.keys.length ≤ maxTransportLossWindows
  backoffs : ∀ time ∈ r.backoffs, ∃ last ∈ r.user.lastTransportLossAt, time ≤ last

/-- No frame beyond a window was counted for its stream. -/
def Topped (r : LossRun) : Prop :=
  ∀ key window, r.user.transportLossWindows.get? key = some window → ∀ frame ∈ r.counted,
    frame.1 = key → frame.2 ≤ window.highestFrameId

theorem ledgered_start (user : UserData) : Ledgered (after oldest user []) [] where
  highest := nofun
  reported := nofun
  covered := nofun
  bounded := Nat.zero_le _
  backoffs := nofun

/-- A report does nothing, is stale, or is counted. -/
theorem call_cases (oldest : Oldest) (r : LossRun) (report : LossReport) :
    report.sample.droppedFrames = 0 ∧ r.call oldest report = r ∧
      (r.result oldest report).1 = .nothing ∨
    report.sample.droppedFrames ≠ 0 ∧ (∃ window windows,
      r.user.transportLossWindows.get? report.sample.key = some window ∧
      report.sample.receivedFrameId ≤ window.highestFrameId ∧
      Shrinks r.user.transportLossWindows windows ∧ (r.result oldest report).1 = .stale ∧
      r.call oldest report = { r with
        user := { r.user with transportLossWindows := windows } }) ∨
    report.sample.droppedFrames ≠ 0 ∧
      Counts r.user report.sample report.now (r.result oldest report) ∧
      (r.call oldest report).counted =
        r.counted ++ [(report.sample.key, report.sample.receivedFrameId)] := by
  rcases userTransportLossAt_cases oldest r.user report.sample report.now with
    ⟨hzero, hresult⟩ | ⟨hpos, window, windows, hwindow, hle, hshrinks, hresult⟩ | ⟨hpos, hcounts⟩
  · change r.result oldest report = _ at hresult
    refine .inl ⟨hzero, ?_, by rw [hresult]⟩
    simp [LossRun.call, hresult, TransportLossAction.observation, TransportLossAction.isBackoff]
  · change r.result oldest report = _ at hresult
    refine .inr (.inl ⟨hpos, window, windows, hwindow, hle, hshrinks, by rw [hresult], ?_⟩)
    simp [LossRun.call, hresult, TransportLossAction.observation, TransportLossAction.isBackoff]
  · refine .inr (.inr ⟨hpos, hcounts, ?_⟩)
    obtain ⟨observation, hobserved, -⟩ := hcounts.observed
    change (r.result oldest report).1.observation = some observation at hobserved
    simp [LossRun.call, hobserved]

/-- The time of a backoff is that of the last one. -/
theorem Ledgered.backoffs_call {r : LossRun} {before : List LossReport} (h : Ledgered r before)
    {report : LossReport}
    (hcounts : Counts r.user report.sample report.now (r.result oldest report)) :
    ∀ time ∈ (r.call oldest report).backoffs,
      ∃ last ∈ (r.call oldest report).user.lastTransportLossAt, time ≤ last := by
  intro time htime
  change time ∈ r.backoffs ++ if (r.result oldest report).1.isBackoff then [report.now] else []
    at htime
  show ∃ last ∈ (r.result oldest report).2.lastTransportLossAt, time ≤ last
  rcases hcounts.backoff with
    ⟨hsame, hnone⟩ | ⟨observation, previousFps, nextFps, haction, -, -, -, hlast, hlate⟩
  · have hnot : (r.result oldest report).1.isBackoff = false := by
      cases haction : (r.result oldest report).1 with
      | backoff observation previousFps nextFps => exact absurd haction (hnone _ _ _)
      | _ => rfl
    rw [hnot, if_neg Bool.false_ne_true, List.append_nil] at htime
    rw [hsame]
    exact h.backoffs time htime
  · rw [hlast]
    refine ⟨report.now, rfl, ?_⟩
    rw [haction] at htime
    rcases List.mem_append.mp htime with htime | htime
    · obtain ⟨last, hmem, hle⟩ := h.backoffs time htime
      exact hle.trans ((Nat.le_add_right _ _).trans (hlate last hmem))
    · exact (List.mem_singleton.mp htime).le

/-- What one report adds. -/
theorem Ledgered.call {r : LossRun} {before : List LossReport} (h : Ledgered r before)
    (report : LossReport) : Ledgered (r.call oldest report) (before ++ [report]) := by
  have hreported : ∀ frame ∈ r.counted, ∃ earlier ∈ before ++ [report],
      earlier.sample.droppedFrames ≠ 0 ∧ earlier.sample.key = frame.1 ∧
        earlier.sample.receivedFrameId = frame.2 := by
    intro frame hframe
    obtain ⟨earlier, hmem, hfacts⟩ := h.reported frame hframe
    exact ⟨earlier, List.mem_append_left _ hmem, hfacts⟩
  rcases call_cases oldest r report with
    ⟨hzero, hcall, -⟩ | ⟨-, window, windows, hwindow, hle, hshrinks, -, hcall⟩ |
    ⟨hpos, hcounts, hcounted⟩
  · rw [hcall]
    refine ⟨h.highest, hreported, fun earlier hmem hpos => ?_, h.bounded, h.backoffs⟩
    rcases List.mem_append.mp hmem with hmem | hmem
    · exact h.covered earlier hmem hpos
    · rw [List.mem_singleton.mp hmem] at hpos
      exact absurd hzero hpos
  · rw [hcall]
    refine ⟨fun key other hother => h.highest key other (hshrinks.2 key other hother), hreported,
      fun earlier hmem hpos => ?_, hshrinks.1.trans h.bounded, h.backoffs⟩
    rcases List.mem_append.mp hmem with hmem | hmem
    · exact h.covered earlier hmem hpos
    · rw [List.mem_singleton.mp hmem]
      exact ⟨_, h.highest _ window hwindow, rfl, hle⟩
  · constructor
    · intro key window hget
      rw [hcounted]
      rcases hcounts.windows key window hget with ⟨-, hold⟩ | ⟨rfl, hhighest⟩
      · exact List.mem_append_left _ (h.highest key window hold)
      · rw [hhighest]
        exact List.mem_append_right _ (List.mem_singleton_self _)
    · intro frame hframe
      rw [hcounted] at hframe
      rcases List.mem_append.mp hframe with hframe | hframe
      · exact hreported frame hframe
      · rw [List.mem_singleton.mp hframe]
        exact ⟨report, List.mem_append_right _ (List.mem_singleton_self _), hpos, rfl, rfl⟩
    · intro earlier hmem hdropped
      rw [hcounted]
      rcases List.mem_append.mp hmem with hmem | hmem
      · obtain ⟨frame, hframe, hfacts⟩ := h.covered earlier hmem hdropped
        exact ⟨frame, List.mem_append_left _ hframe, hfacts⟩
      · rw [List.mem_singleton.mp hmem]
        exact ⟨_, List.mem_append_right _ (List.mem_singleton_self _), rfl, le_refl _⟩
    · exact hcounts.bounded h.bounded
    · exact h.backoffs_call hcounts

theorem ledgered_after (user : UserData) (reports : List LossReport) :
    Ledgered (after oldest user reports) reports := by
  induction reports using List.reverseRecOn with
  | nil => exact ledgered_start user
  | append_singleton reports report ih =>
      rw [after_concat]
      exact ih.call report

/-- A report that is newer than what was counted leaves nothing beyond its window. -/
theorem Topped.call {r : LossRun} (h : Topped r) {report : LossReport}
    (haccounted : Accounted oldest r report) : Topped (r.call oldest report) := by
  rcases call_cases oldest r report with
    ⟨-, hcall, -⟩ | ⟨-, window, windows, -, -, hshrinks, -, hcall⟩ | ⟨-, hcounts, hcounted⟩
  · rw [hcall]
    exact h
  · rw [hcall]
    exact fun key other hother => h key other (hshrinks.2 key other hother)
  · obtain ⟨observation, hobserved, -⟩ := hcounts.observed
    have hincreases := haccounted.increases (hobserved ▸ rfl)
    intro key window hget frame hframe hkey
    rw [hcounted] at hframe
    rcases hcounts.windows key window hget with ⟨hne, hold⟩ | ⟨rfl, hhighest⟩
    · rcases List.mem_append.mp hframe with hframe | hframe
      · exact h key window hold frame hframe hkey
      · rw [List.mem_singleton.mp hframe] at hkey
        exact absurd hkey.symm hne
    · rw [hhighest]
      rcases List.mem_append.mp hframe with hframe | hframe
      · exact (hincreases frame hframe hkey).le
      · rw [List.mem_singleton.mp hframe]

theorem AllAccounted.topped {user : UserData} {reports : List LossReport}
    (h : AllAccounted oldest user reports) : Topped (after oldest user reports) := by
  induction reports using List.reverseRecOn with
  | nil => exact nofun
  | append_singleton reports report ih =>
      obtain ⟨hbefore, hreport⟩ := always_concat.mp h
      rw [after_concat]
      exact (ih hbefore).call hreport

/-- The limits hold for every report, whatever was counted before. -/
theorem Ledgered.limited {r : LossRun} {before : List LossReport} (h : Ledgered r before)
    (report : LossReport) : Limited oldest r report := by
  have hbounded : (r.result oldest report).2.transportLossWindows.keys.length ≤
      maxTransportLossWindows := (h.call report).bounded
  rcases call_cases oldest r report with
    ⟨-, -, hnothing⟩ | ⟨-, window, windows, -, -, -, hstale, -⟩ | ⟨-, hcounts, -⟩
  · refine ⟨hbounded, ?_, ?_⟩
    · rw [hnothing]
      exact nofun
    · rw [hnothing]
      exact nofun
  · refine ⟨hbounded, ?_, ?_⟩
    · rw [hstale]
      exact nofun
    · rw [hstale]
      exact nofun
  · refine ⟨hbounded, fun observation hmem => ?_, fun observation previousFps nextFps haction => ?_⟩
    · obtain ⟨observed, hobserved, hle⟩ := hcounts.observed
      obtain rfl : observed = observation := Option.some.inj (hobserved.symm.trans hmem)
      exact hle
    · rcases hcounts.backoff with
        ⟨-, hnone⟩ | ⟨_, previousFps', nextFps', haction', hmin, hle, hcustom, -, hlate⟩
      · exact absurd haction (hnone _ _ _)
      · obtain ⟨-, rfl, rfl⟩ := TransportLossAction.backoff.inj (haction'.symm.trans haction)
        refine ⟨hmin, hle, hcustom, fun time htime => ?_⟩
        obtain ⟨last, hlast, htimele⟩ := h.backoffs time htime
        exact (Nat.add_le_add_right htimele _).trans (hlate last hlast)

/-- In every run the limits are kept. -/
theorem limited_after (oldest : Oldest) (user : UserData) (reports : List LossReport)
    (report : LossReport) : Limited oldest (after oldest user reports) report :=
  (ledgered_after user reports).limited report

/-- Where a stream without a window resumes, the frames increase. -/
theorem accounted_of_resumes {r : LossRun} {before : List LossReport} (h : Ledgered r before)
    (htopped : Topped r) {report : LossReport} (hresumes : Resumes r before report) :
    Accounted oldest r report := by
  refine ⟨fun hcounted frame hframe hkey => ?_, h.limited report⟩
  rcases call_cases oldest r report with
    ⟨-, -, hnothing⟩ | ⟨-, window, windows, -, -, -, hstale, -⟩ | ⟨hpos, hcounts, -⟩
  · rw [hnothing] at hcounted
    cases hcounted
  · rw [hstale] at hcounted
    cases hcounted
  · cases hwindow : r.user.transportLossWindows.get? report.sample.key with
    | some window =>
        exact (htopped _ window hwindow frame hframe hkey).trans_lt (hcounts.newer window hwindow)
    | none =>
        obtain ⟨earlier, hmem, hdropped, hsame, hframeId⟩ := h.reported frame hframe
        rw [← hframeId]
        exact hresumes hpos hwindow earlier hmem hdropped (hsame.trans hkey)

/-- Where the frames increase, a stream without a window resumes. -/
theorem resumes_of_accounted {r : LossRun} {before : List LossReport} (h : Ledgered r before)
    {report : LossReport} (haccounted : Accounted oldest r report) : Resumes r before report := by
  intro hpos hnone earlier hmem hdropped hkey
  rcases call_cases oldest r report with
    ⟨hzero, -⟩ | ⟨-, window, windows, hwindow, -⟩ | ⟨-, hcounts, -⟩
  · exact absurd hzero hpos
  · rw [hnone] at hwindow
    cases hwindow
  · obtain ⟨observation, hobserved, -⟩ := hcounts.observed
    obtain ⟨frame, hframe, hsame, hle⟩ := h.covered earlier hmem hdropped
    exact hle.trans_lt (haccounted.increases (hobserved ▸ rfl) frame hframe (hsame.trans hkey))

/-- Every report is counted once, and within the limits, exactly in the runs where a
stream without a window is not reported again up to an old frame. -/
theorem allAccounted_iff (oldest : Oldest) (user : UserData) (reports : List LossReport) :
    AllAccounted oldest user reports ↔ AllResume oldest user reports := by
  induction reports using List.reverseRecOn with
  | nil => exact iff_of_true always_nil always_nil
  | append_singleton reports report ih =>
      have hledgered : Ledgered (after oldest user reports) reports := ledgered_after user reports
      unfold AllAccounted AllResume at ih ⊢
      rw [always_concat, always_concat]
      constructor
      · rintro ⟨hbefore, hreport⟩
        exact ⟨ih.mp hbefore, resumes_of_accounted hledgered hreport⟩
      · rintro ⟨hbefore, hreport⟩
        have haccounted := ih.mpr hbefore
        exact ⟨haccounted, accounted_of_resumes hledgered (AllAccounted.topped haccounted) hreport⟩

/-- A burst that is reported twice. -/
def repeatedBurst : List LossReport := [⟨⟨0, 7, 40, 3⟩, 0⟩, ⟨⟨0, 7, 40, 3⟩, secs 1⟩]

/-- The backoff has taken the window, and the repetition is counted again. -/
theorem repeatedBurst_counted_twice :
    ¬ AllAccounted firstOldest ⟨none, none, false, none, none, ∅⟩ repeatedBurst := by
  intro h
  have haccounted := h [⟨⟨0, 7, 40, 3⟩, 0⟩] ⟨⟨0, 7, 40, 3⟩, secs 1⟩ [] rfl
  have hlt := haccounted.increases (by decide) (⟨0, 7⟩, 40) (by decide) rfl
  exact absurd hlt (by decide)

end RustAdmin.VideoQos.TransportLoss
