import RustAdmin.Support.Arith
import RustAdmin.Support.LinkedMap

/-!
# Starting the capture helpers

The coordinator decides when a user helper may be started.  It keeps one entry for
each desktop generation, display and backend, and a gate that a failed process
launch closes for all of them.  Times are milliseconds.

Each operation first lets abandoned attempts fail, so it is split into `expire` and a
part that looks at the entries as they then are; `beginChecked_cases` and its siblings
name what that part can do.
-/

namespace RustAdmin.Server.HelperRetry

open RustAdmin.Support

/-- `ABANDONED_TIMEOUT`. -/
def abandonedTimeout : ℕ := 5000

/-- `FIRST_COOLDOWN`. -/
def firstCooldown : ℕ := 5000

/-- `SECOND_COOLDOWN`. -/
def secondCooldown : ℕ := 30000

/-- `MAX_FAILURES`. -/
def maxFailures : ℕ := 3

/-- `MAX_STARTING`. -/
def maxStarting : ℕ := 2

/-- `MAX_KEYS`. -/
def maxKeys : ℕ := 64

structure HelperKey where
  desktopGeneration : ℕ
  display : ℕ
  backend : ℕ
  deriving DecidableEq, Repr

structure AttemptToken where
  key : HelperKey
  generation : ℕ
  deriving DecidableEq, Repr

inductive Phase
  | ready
  | queued
  | starting (since : ℕ)
  | running
  | cooldown (until_ : ℕ)
  | suppressed
  deriving DecidableEq, Repr

namespace Phase

def isStarting : Phase → Bool
  | starting _ => true
  | _ => false

/-- `Phase::Starting(_) | Phase::Running`. -/
def isActive : Phase → Bool
  | starting _ | running => true
  | _ => false

end Phase

structure Entry where
  phase : Phase
  attempt : ℕ
  failures : ℕ
  deriving DecidableEq, Repr

namespace Entry

/-- `Entry::default`. -/
def default : Entry := ⟨.ready, 0, 0⟩

/-- How long a key waits after its failure of this number. -/
def cooldownAfter (failures : ℕ) : ℕ := if failures = 1 then firstCooldown else secondCooldown

def fail (e : Entry) (now : ℕ) : Entry :=
  let failures := min (e.failures + 1) (2 ^ 32 - 1)
  { e with
    failures
    phase :=
      if maxFailures ≤ failures then .suppressed
      else .cooldown (now + cooldownAfter failures) }

/-- The helper was started and has said nothing for `ABANDONED_TIMEOUT`. -/
def expired (e : Entry) (now : ℕ) : Bool :=
  match e.phase with
  | .starting since => abandonedTimeout ≤ now - since
  | _ => false

end Entry

structure HelperCoordinator where
  desktop : Option (ℕ × Bool)
  desktopGeneration : ℕ
  nextAttempt : ℕ
  entries : LinkedMap HelperKey Entry
  enabled : Bool
  processRetryAt : Option ℕ

namespace HelperCoordinator

/-- `HelperCoordinator::default`. -/
def default : HelperCoordinator := ⟨none, 0, 0, ∅, true, none⟩

def reset (c : HelperCoordinator) (enabled : Bool) : HelperCoordinator :=
  { c with
    desktopGeneration := saturatingAdd c.desktopGeneration 1
    entries := ∅
    processRetryAt := none
    enabled }

/-- `observe_desktop`; it returns the generation. -/
def observeDesktop (c : HelperCoordinator) (session : ℕ) (secure : Bool) : HelperCoordinator × ℕ :=
  let c :=
    if c.desktop ≠ some (session, secure) then
      { c with desktop := some (session, secure) }.reset c.enabled
    else c
  (c, c.desktopGeneration)

def expire (c : HelperCoordinator) (now : ℕ) : HelperCoordinator :=
  { c with entries := c.entries.mapValues fun _ e => if e.expired now then e.fail now else e }

/-- The number of keys whose helper is being started. -/
def startingCount (c : HelperCoordinator) : ℕ := c.entries.values.countP fun e => e.phase.isStarting

def busy (c : HelperCoordinator) : Bool := maxStarting ≤ c.startingCount

def processBlocked (c : HelperCoordinator) (now : ℕ) : Bool :=
  c.processRetryAt.any fun retryAt => now < retryAt

/-- An entry may begin, by its own phase. -/
def Startable (phase : Phase) (now : ℕ) : Prop :=
  match phase with
  | .ready | .queued => True
  | .cooldown retryAt => retryAt ≤ now
  | _ => False

instance (phase : Phase) (now : ℕ) : Decidable (Startable phase now) := by
  cases phase <;> unfold Startable <;> infer_instance

/-- The entry of a key, the one `or_default` makes if it has none. -/
def entryAt (c : HelperCoordinator) (key : HelperKey) : Entry := (c.entries.get? key).getD .default

/-- `begin`, after its first check. -/
def beginChecked (c : HelperCoordinator) (key : HelperKey) (now : ℕ) :
    HelperCoordinator × Option AttemptToken :=
  if ¬ c.entries.contains key ∧ maxKeys ≤ c.entries.keys.length then (c, none)
  else
    let entry := c.entryAt key
    -- The entry `or_default` would make is ready, so none is made where this fails.
    if ¬ Startable entry.phase now then (c, none)
    else if c.busy ∨ c.processBlocked now then
      ({ c with entries := c.entries.set key { entry with phase := .queued } }, none)
    else
      let attempt := c.nextAttempt + 1
      ({ c with
          nextAttempt := attempt
          entries := c.entries.set key { entry with attempt, phase := .starting now } },
        some ⟨key, attempt⟩)

/-- The first check of `begin`. -/
def mayBegin (c : HelperCoordinator) (key : HelperKey) : Bool :=
  c.enabled && key.desktopGeneration == c.desktopGeneration && c.nextAttempt != usizeMax

def begin (c : HelperCoordinator) (key : HelperKey) (now : ℕ) :
    HelperCoordinator × Option AttemptToken :=
  if c.mayBegin key then (c.expire now).beginChecked key now else (c, none)

/-- `owned_entry`. -/
def ownedEntry (c : HelperCoordinator) (token : AttemptToken) : Option Entry :=
  (c.entries.get? token.key).filter fun e => e.attempt == token.generation

def success (c : HelperCoordinator) (token : AttemptToken) : HelperCoordinator × Bool :=
  match c.ownedEntry token with
  | none => (c, false)
  | some e =>
      if e.phase.isStarting then
        ({ c with
            entries := c.entries.set token.key { e with phase := .running, failures := 0 } }, true)
      else (c, false)

def failure (c : HelperCoordinator) (token : AttemptToken) (now : ℕ) (processLaunch : Bool) :
    HelperCoordinator × Bool :=
  match c.ownedEntry token with
  | none => (c, false)
  | some e =>
      if e.phase.isActive then
        ({ c with
            entries := c.entries.set token.key (e.fail now)
            -- Only a failed process launch closes the gate.
            processRetryAt := if processLaunch then some (now + firstCooldown)
              else c.processRetryAt }, true)
      else (c, false)

def cancel (c : HelperCoordinator) (token : AttemptToken) : HelperCoordinator × Bool :=
  match c.ownedEntry token with
  | none => (c, false)
  | some e =>
      if e.phase.isActive then
        ({ c with entries := c.entries.set token.key { e with phase := .ready } }, true)
      else (c, false)

/-- `retry_due`, after it has expired the old attempts. -/
def retryDueChecked (c : HelperCoordinator) (key : HelperKey) (now : ℕ) : Bool :=
  if ¬ c.enabled ∨ key.desktopGeneration ≠ c.desktopGeneration ∨ c.processBlocked now ∨ c.busy then
    false
  else
    (c.entries.get? key).any fun e =>
      match e.phase with
      | .queued => true
      | .cooldown retryAt => retryAt ≤ now
      | _ => false

def retryDue (c : HelperCoordinator) (key : HelperKey) (now : ℕ) : HelperCoordinator × Bool :=
  (c.expire now, (c.expire now).retryDueChecked key now)

/-- `protects_refresh`, after it has expired the old attempts. -/
def protectsRefreshChecked (c : HelperCoordinator) (display now : ℕ) : Bool :=
  c.entries.entries.any fun e =>
    e.1.display == display &&
      match e.2.phase with
      | .starting _ => true
      | .cooldown retryAt => decide (now < retryAt)
      | .queued => c.busy || c.processBlocked now
      | _ => false

def protectsRefresh (c : HelperCoordinator) (display now : ℕ) : HelperCoordinator × Bool :=
  (c.expire now, (c.expire now).protectsRefreshChecked display now)

end HelperCoordinator

/-! ## Leases -/

/-- The lease of one attempt, which travels with the capturer. -/
structure HelperAttemptLease where
  token : AttemptToken
  firstFrame : Bool

namespace HelperAttemptLease

/-- `success`: the first frame settles the attempt; later ones only ask whether it
still runs. -/
def success (lease : HelperAttemptLease) (owner : HelperCoordinator) :
    HelperAttemptLease × HelperCoordinator × Bool :=
  let runs (c : HelperCoordinator) : Bool :=
    (c.ownedEntry lease.token).any fun e => e.phase == .running
  if lease.firstFrame then (lease, owner, runs owner)
  else
    let settled := owner.success lease.token
    if settled.2 then ({ lease with firstFrame := true }, settled.1, runs settled.1)
    else (lease, settled.1, false)

def failure (lease : HelperAttemptLease) (owner : HelperCoordinator) (now : ℕ)
    (processLaunch : Bool) : HelperCoordinator :=
  (owner.failure lease.token now processLaunch).1

/-- The lease goes out of scope. -/
def drop (lease : HelperAttemptLease) (owner : HelperCoordinator) : HelperCoordinator :=
  (owner.cancel lease.token).1

end HelperAttemptLease

/-! ## What the operations do -/

namespace HelperCoordinator

variable {c : HelperCoordinator} {key : HelperKey} {now : ℕ}

theorem entryAt_of_get? {e : Entry} (h : c.entries.get? key = some e) : c.entryAt key = e := by
  simp [entryAt, h]

theorem entryAt_set (k : HelperKey) (e : Entry) (d : HelperCoordinator)
    (hd : d.entries = c.entries.set k e) :
    d.entryAt key = if key = k then e else c.entryAt key := by
  simp only [entryAt, hd, LinkedMap.get?_set]
  split <;> simp

/-- Which entry a token owns. -/
theorem ownedEntry_eq_some {token : AttemptToken} {e : Entry} :
    c.ownedEntry token = some e ↔
      c.entries.get? token.key = some e ∧ e.attempt = token.generation := by
  simp [ownedEntry, Option.filter_eq_some_iff]

theorem expired_default : Entry.default.expired now = false := rfl

theorem entryAt_expire :
    (c.expire now).entryAt key =
      if (c.entryAt key).expired now then (c.entryAt key).fail now else c.entryAt key := by
  have hget : (c.expire now).entries.get? key =
      (c.entries.get? key).map fun e => if e.expired now then e.fail now else e :=
    LinkedMap.get?_mapValues
  cases hkey : c.entries.get? key with
  | none => simp [entryAt, hget, hkey, expired_default]
  | some e => simp [entryAt, hget, hkey]

/-- Below the limit of failures the counter does not saturate. -/
theorem fail_of_lt {e : Entry} (h : e.failures < 3) :
    e.fail now = { e with
      failures := e.failures + 1
      phase := if 3 ≤ e.failures + 1 then .suppressed
        else .cooldown (now + Entry.cooldownAfter (e.failures + 1)) } := by
  have hcount : min (e.failures + 1) (2 ^ 32 - 1) = e.failures + 1 := by omega
  unfold Entry.fail
  rw [hcount]
  rfl

theorem not_expired_fail (e : Entry) : (e.fail now).expired now = false := by
  unfold Entry.fail Entry.expired
  split
  · rename_i since hphase
    simp only at hphase
    split at hphase <;> cases hphase
  · rfl

/-- Expiring twice at one time is expiring once. -/
theorem expire_expire : (c.expire now).expire now = c.expire now := by
  have hentries : (c.expire now).entries.mapValues
      (fun _ e => if e.expired now then e.fail now else e) = (c.expire now).entries := by
    apply LinkedMap.ext
    simp only [expire, LinkedMap.mapValues, List.map_map]
    refine List.map_congr_left fun e _ => ?_
    by_cases he : e.2.expired now
    · simp [he, not_expired_fail]
    · simp [he]
  calc (c.expire now).expire now
      = { c.expire now with
          entries := (c.expire now).entries.mapValues
            (fun _ e => if e.expired now then e.fail now else e) } := rfl
    _ = c.expire now := by rw [hentries]

theorem startingCount_expire_le : (c.expire now).startingCount ≤ c.startingCount := by
  apply LinkedMap.countP_values_mapValues_le
  intro k e h
  by_cases he : e.expired now
  · rw [if_pos he] at h
    have hphase : e.phase.isStarting = true := by
      unfold Entry.expired at he
      split at he
      · rename_i since hphase
        rw [hphase]
        rfl
      · cases he
    exact hphase
  · rwa [if_neg he] at h

theorem keys_expire : (c.expire now).entries.keys = c.entries.keys := LinkedMap.keys_mapValues _ _

/-- What `success` does: nothing, or it settles the attempt that is starting. -/
theorem success_cases (c : HelperCoordinator) (token : AttemptToken) :
    c.success token = (c, false) ∨
    ∃ e, c.ownedEntry token = some e ∧ e.phase.isStarting = true ∧
      c.success token =
        ({ c with
          entries := c.entries.set token.key { e with phase := .running, failures := 0 } },
        true) := by
  cases howned : c.ownedEntry token with
  | none => exact Or.inl (by simp [success, howned])
  | some e =>
      by_cases hphase : e.phase.isStarting = true
      · exact Or.inr ⟨e, rfl, hphase, by simp [success, howned, hphase]⟩
      · exact Or.inl (by simp [success, howned, hphase])

/-- What `failure` does: nothing, or it fails the attempt that is active. -/
theorem failure_cases (c : HelperCoordinator) (token : AttemptToken) (now : ℕ)
    (processLaunch : Bool) :
    c.failure token now processLaunch = (c, false) ∨
    ∃ e, c.ownedEntry token = some e ∧ e.phase.isActive = true ∧
      c.failure token now processLaunch = ({ c with
        entries := c.entries.set token.key (e.fail now)
        processRetryAt := if processLaunch then some (now + firstCooldown)
          else c.processRetryAt }, true) := by
  cases howned : c.ownedEntry token with
  | none => exact Or.inl (by simp [failure, howned])
  | some e =>
      by_cases hphase : e.phase.isActive = true
      · exact Or.inr ⟨e, rfl, hphase, by simp [failure, howned, hphase]⟩
      · exact Or.inl (by simp [failure, howned, hphase])

/-- What `cancel` does: nothing, or it takes back the attempt that is active. -/
theorem cancel_cases (c : HelperCoordinator) (token : AttemptToken) :
    c.cancel token = (c, false) ∨
    ∃ e, c.ownedEntry token = some e ∧ e.phase.isActive = true ∧
      c.cancel token =
        ({ c with entries := c.entries.set token.key { e with phase := .ready } }, true) := by
  cases howned : c.ownedEntry token with
  | none => exact Or.inl (by simp [cancel, howned])
  | some e =>
      by_cases hphase : e.phase.isActive = true
      · exact Or.inr ⟨e, rfl, hphase, by simp [cancel, howned, hphase]⟩
      · exact Or.inl (by simp [cancel, howned, hphase])

/-- What `begin` does once it may: nothing, it queues the key, or it starts an
attempt. -/
theorem beginChecked_cases (c : HelperCoordinator) (key : HelperKey) (now : ℕ) :
    c.beginChecked key now = (c, none) ∨
    ((key ∈ c.entries.keys ∨ c.entries.keys.length < maxKeys) ∧
      Startable (c.entryAt key).phase now ∧
      (c.beginChecked key now = ({ c with
          entries := c.entries.set key { c.entryAt key with phase := .queued } }, none) ∨
        (c.busy = false ∧ c.processBlocked now = false ∧
          c.beginChecked key now = ({ c with
              nextAttempt := c.nextAttempt + 1
              entries := c.entries.set key
                { c.entryAt key with attempt := c.nextAttempt + 1, phase := .starting now } },
            some ⟨key, c.nextAttempt + 1⟩)))) := by
  by_cases hfull : ¬ c.entries.contains key ∧ maxKeys ≤ c.entries.keys.length
  · exact Or.inl (by rw [beginChecked, if_pos hfull])
  have hroom : key ∈ c.entries.keys ∨ c.entries.keys.length < maxKeys := by
    by_cases hmem : key ∈ c.entries.keys
    · exact Or.inl hmem
    · right
      have hcontains : ¬ c.entries.contains key := by
        rw [LinkedMap.contains_iff, ← LinkedMap.mem_keys_iff]
        exact hmem
      by_contra hlength
      exact hfull ⟨hcontains, Nat.le_of_not_lt hlength⟩
  by_cases hphase : Startable (c.entryAt key).phase now
  · refine Or.inr ⟨hroom, hphase, ?_⟩
    by_cases hgate : c.busy ∨ c.processBlocked now
    · left
      rw [beginChecked, if_neg hfull]
      dsimp only
      rw [if_neg (not_not.mpr hphase), if_pos hgate]
    · right
      simp only [not_or, Bool.not_eq_true] at hgate
      refine ⟨hgate.1, hgate.2, ?_⟩
      rw [beginChecked, if_neg hfull]
      dsimp only
      rw [if_neg (not_not.mpr hphase), if_neg (by simp [hgate])]
  · left
    rw [beginChecked, if_neg hfull]
    dsimp only
    rw [if_pos hphase]

end HelperCoordinator

end RustAdmin.Server.HelperRetry
