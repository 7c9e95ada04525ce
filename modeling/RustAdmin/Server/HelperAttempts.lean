import RustAdmin.Server.HelperRetry
import RustAdmin.Support.Run

/-!
# The attempts of one coordinator

A run of the coordinator with a log of what came of its operations: which attempts
began, succeeded, failed or expired, and when the desktop generation changed.  The
entry of a key is a summary of the part of the log about that key, and the rules on
attempts are read off the log.

## Strategy

`EntrySound` relates the entry of one key to the log: its failures, the last of them
and its current attempt are what the log says about the key.  `Sound` says so of all
entries and adds the gate and the bounds.  Each operation first lets abandoned
attempts fail (`Sound.expire`) and then changes one entry (`Sound.update`) with a note
to the log; notes about other keys are spared (`HelperNote.Spares`).  `fenced` reads
the rules off the invariant: an attempt that begins was allowed by the log,
`retry_due` agrees with `begin`, and a token that is not current is inert.
-/

namespace RustAdmin.Server.HelperRetry

open RustAdmin.Support

/-- One operation, from a capture thread, a lease or the desktop observer. -/
inductive HelperOp
  | begin (key : HelperKey) (now : ℕ)
  | success (token : AttemptToken)
  | failure (token : AttemptToken) (now : ℕ) (processLaunch : Bool)
  | cancel (token : AttemptToken)
  | leaseDrop (lease : HelperAttemptLease)
  | retryDue (key : HelperKey) (now : ℕ)
  | protectsRefresh (display now : ℕ)
  | observeDesktop (session : ℕ) (secure : Bool)
  | reset (enabled : Bool)

def HelperOp.time? : HelperOp → Option ℕ
  | .begin _ now | .failure _ now _ | .retryDue _ now | .protectsRefresh _ now => some now
  | _ => none

/-- What came of an operation. -/
inductive HelperNote
  | began (token : AttemptToken) (now : ℕ)
  | succeeded (key : HelperKey)
  | failed (keys : List HelperKey) (now : ℕ)
  | launchFailed (now : ℕ)
  | reset

/-! ## Reading the log -/

section Log

variable (key : HelperKey) (log : List HelperNote) (note : HelperNote)

/-- How often the key has failed or expired since its last success. -/
def failures : ℕ :=
  log.foldl (fun n note => match note with
    | .failed keys _ => if key ∈ keys then n + 1 else n
    | .succeeded k => if key = k then 0 else n
    | _ => n) 0

/-- When the key failed or expired last since its last success. -/
def lastFailure : Option ℕ :=
  log.foldl (fun last note => match note with
    | .failed keys now => if key ∈ keys then some now else last
    | .succeeded k => if key = k then none else last
    | _ => last) none

/-- The attempt of the key that began last in this desktop generation. -/
def currentAttempt : Option ℕ :=
  log.foldl (fun current note => match note with
    | .began token _ => if key = token.key then some token.generation else current
    | .reset => none
    | _ => current) none

/-- The process launch failures of this desktop generation. -/
def launchFailures : List ℕ :=
  log.foldl (fun times note => match note with
    | .launchFailed now => now :: times
    | .reset => []
    | _ => times) []

theorem failures_concat : failures key (log ++ [note]) = match note with
    | .failed keys _ => if key ∈ keys then failures key log + 1 else failures key log
    | .succeeded k => if key = k then 0 else failures key log
    | _ => failures key log := by
  simp only [failures, List.foldl_append, List.foldl_cons, List.foldl_nil]

theorem lastFailure_concat : lastFailure key (log ++ [note]) = match note with
    | .failed keys now => if key ∈ keys then some now else lastFailure key log
    | .succeeded k => if key = k then none else lastFailure key log
    | _ => lastFailure key log := by
  simp only [lastFailure, List.foldl_append, List.foldl_cons, List.foldl_nil]

theorem currentAttempt_concat : currentAttempt key (log ++ [note]) = match note with
    | .began token _ =>
        if key = token.key then some token.generation else currentAttempt key log
    | .reset => none
    | _ => currentAttempt key log := by
  simp only [currentAttempt, List.foldl_append, List.foldl_cons, List.foldl_nil]

theorem launchFailures_concat : launchFailures (log ++ [note]) = match note with
    | .launchFailed now => now :: launchFailures log
    | .reset => []
    | _ => launchFailures log := by
  simp only [launchFailures, List.foldl_append, List.foldl_cons, List.foldl_nil]

end Log

/-- What the log before an attempt of the key must say: fewer than three failures
since the last success, the last of them long enough ago, and no process launch
failure of this generation within the cooldown. -/
structure MayBegin (log : List HelperNote) (key : HelperKey) (now : ℕ) : Prop where
  bounded : failures key log < 3
  first : failures key log = 1 → ∀ t ∈ lastFailure key log, t + 5000 ≤ now
  second : failures key log = 2 → ∀ t ∈ lastFailure key log, t + 30000 ≤ now
  process : ∀ t ∈ launchFailures log, t + 5000 ≤ now

/-- Every attempt in the log could begin. -/
def AttemptsAllowed (log : List HelperNote) : Prop :=
  Always (fun before note => ∀ token now, note = .began token now → MayBegin before token.key now)
    log

/-! ## Runs -/

/-- The keys an expiry fails. -/
def expiredKeys (c : HelperCoordinator) (now : ℕ) : List HelperKey :=
  (c.entries.entries.filter fun e => e.2.expired now).map Prod.fst

/-- What an operation adds to the log. -/
def notesOf (c : HelperCoordinator) : HelperOp → List HelperNote
  | .begin key now =>
      if c.mayBegin key then
        .failed (expiredKeys c now) now ::
          ((c.begin key now).2.map fun token => .began token now).toList
      else []
  | .success token => if (c.success token).2 then [.succeeded token.key] else []
  | .failure token now processLaunch =>
      if (c.failure token now processLaunch).2 then
        .failed [token.key] now :: if processLaunch then [.launchFailed now] else []
      else []
  | .cancel _ | .leaseDrop _ => []
  | .retryDue _ now | .protectsRefresh _ now => [.failed (expiredKeys c now) now]
  | .observeDesktop session secure => if c.desktop ≠ some (session, secure) then [.reset] else []
  | .reset _ => [.reset]

def HelperCoordinator.apply (c : HelperCoordinator) : HelperOp → HelperCoordinator
  | .begin key now => (c.begin key now).1
  | .success token => (c.success token).1
  | .failure token now processLaunch => (c.failure token now processLaunch).1
  | .cancel token => (c.cancel token).1
  | .leaseDrop lease => lease.drop c
  | .retryDue key now => (c.retryDue key now).1
  | .protectsRefresh display now => (c.protectsRefresh display now).1
  | .observeDesktop session secure => (c.observeDesktop session secure).1
  | .reset enabled => c.reset enabled

/-- A coordinator with its log and the time of its last operation. -/
structure HelperRun where
  coordinator : HelperCoordinator
  log : List HelperNote
  clock : ℕ

namespace HelperRun

def start : HelperRun := ⟨.default, [], 0⟩

/-- One operation; time does not run backwards. -/
def applyOp? (r : HelperRun) (op : HelperOp) : Option HelperRun :=
  if op.time?.any fun now => now < r.clock then none
  else some ⟨r.coordinator.apply op, r.log ++ notesOf r.coordinator op, op.time?.getD r.clock⟩

/-- The run of the operations, if their times do not decrease. -/
def run? (ops : List HelperOp) : Option HelperRun := ops.foldlM applyOp? start

end HelperRun

/-! ## The entry of a key -/

/-- When an entry that is not suppressed may begin at the earliest. -/
def Entry.due (e : Entry) (clock : ℕ) : ℕ :=
  match e.phase with
  | .cooldown retryAt => retryAt
  | _ => clock

/-- Two logs say the same about the key. -/
structure SameAbout (key : HelperKey) (log log' : List HelperNote) : Prop where
  attempt : currentAttempt key log' = currentAttempt key log
  failures : failures key log' = failures key log
  last : lastFailure key log' = lastFailure key log

/-- A note about other keys. -/
def HelperNote.Spares (key : HelperKey) : HelperNote → Prop
  | .began token _ => key ≠ token.key
  | .succeeded k => key ≠ k
  | .failed keys _ => key ∉ keys
  | .launchFailed _ => True
  | .reset => False

theorem SameAbout.refl (key : HelperKey) (log : List HelperNote) : SameAbout key log log :=
  ⟨rfl, rfl, rfl⟩

theorem SameAbout.concat {key : HelperKey} {log log' : List HelperNote} {note : HelperNote}
    (h : SameAbout key log log') (hnote : note.Spares key) :
    SameAbout key log (log' ++ [note]) := by
  obtain ⟨hattempt, hfailures, hlast⟩ := h
  cases note with
  | reset => exact hnote.elim
  | _ =>
      simp only [HelperNote.Spares] at hnote
      constructor
      · simp [currentAttempt_concat, hattempt, hnote]
      · simp [failures_concat, hfailures, hnote]
      · simp [lastFailure_concat, hlast, hnote]

/-- The entry of a key is what the log says about it. -/
structure EntrySound (clock : ℕ) (log : List HelperNote) (key : HelperKey) (e : Entry) : Prop where
  attempt : e.attempt = (currentAttempt key log).getD 0
  idle : e.attempt = 0 → e.phase = .ready ∨ e.phase = .queued
  failures : e.failures = failures key log
  suppressed : 3 ≤ e.failures ↔ e.phase = .suppressed
  due : e.phase ≠ .suppressed → ∀ t ∈ lastFailure key log,
    t + Entry.cooldownAfter e.failures ≤ e.due clock

namespace EntrySound

variable {clock now : ℕ} {log : List HelperNote} {key : HelperKey} {e : Entry}

theorem default_nil (key : HelperKey) : EntrySound clock [] key .default where
  attempt := rfl
  idle _ := Or.inl rfl
  failures := rfl
  suppressed := by simp [Entry.default]
  due _ t ht := by cases ht

theorem due_mono (hclock : clock ≤ now) : e.due clock ≤ e.due now := by
  unfold Entry.due
  split <;> omega

/-- Time passes. -/
theorem advance (h : EntrySound clock log key e) (hclock : clock ≤ now) :
    EntrySound now log key e :=
  { h with due := fun hphase t ht => (h.due hphase t ht).trans (due_mono hclock) }

/-- The log says no more about the key than before. -/
theorem of_same (h : EntrySound clock log key e) {log' : List HelperNote}
    (hsame : SameAbout key log log') : EntrySound clock log' key e where
  attempt := by rw [hsame.attempt, h.attempt]
  idle := h.idle
  failures := by rw [hsame.failures, h.failures]
  suppressed := h.suppressed
  due := by
    rw [hsame.last]
    exact h.due

/-- The attempt of the key fails or has expired. -/
theorem fail (h : EntrySound clock log key e) (hactive : e.phase.isActive = true)
    {keys : List HelperKey} (hkey : key ∈ keys) :
    EntrySound now (log ++ [.failed keys now]) key (e.fail now) := by
  have hnot : e.phase ≠ .suppressed := by
    intro hphase
    rw [hphase] at hactive
    cases hactive
  have hless : e.failures < 3 := by
    by_contra hmany
    exact hnot (h.suppressed.mp (by omega))
  have hattempt : e.attempt ≠ 0 := by
    intro hzero
    rcases h.idle hzero with hphase | hphase <;> rw [hphase] at hactive <;> cases hactive
  rw [HelperCoordinator.fail_of_lt hless]
  exact {
    attempt := by
      rw [currentAttempt_concat]
      exact h.attempt
    idle := fun hzero => absurd hzero hattempt
    failures := by
      rw [failures_concat, ← h.failures]
      simp [hkey]
    suppressed := by
      by_cases hmax : 3 ≤ e.failures + 1
      · simp [hmax]
      · simp [hmax]
    due := by
      intro hphase t ht
      rw [lastFailure_concat] at ht
      obtain rfl : now = t := by simpa [hkey] using ht
      by_cases hmax : 3 ≤ e.failures + 1
      · simp [hmax] at hphase
      · simp [Entry.due, hmax] }

/-- The phase moves within the phases that do not wait. -/
theorem setPhase (h : EntrySound clock log key e) {phase : Phase} (hready : phase = .ready ∨
    phase = .queued) (hphase : e.phase ≠ .suppressed) (hdue : e.due clock ≤ clock) :
    EntrySound clock log key { e with phase } where
  attempt := h.attempt
  idle _ := hready
  failures := h.failures
  suppressed := by
    have hnot : ¬ 3 ≤ e.failures := fun hmany => hphase (h.suppressed.mp hmany)
    rcases hready with rfl | rfl <;> simp [hnot]
  due := by
    intro _ t ht
    calc t + Entry.cooldownAfter e.failures ≤ e.due clock := h.due hphase t ht
      _ ≤ clock := hdue
      _ = Entry.due { e with phase } clock := by rcases hready with rfl | rfl <;> rfl

/-- An attempt of the key begins. -/
theorem start (h : EntrySound now log key e) {attempt : ℕ} (hattempt : attempt ≠ 0)
    (hphase : e.phase ≠ .suppressed) (hdue : e.due now ≤ now) :
    EntrySound now (log ++ [.began ⟨key, attempt⟩ now]) key
      { e with attempt, phase := .starting now } where
  attempt := by
    rw [currentAttempt_concat]
    simp
  idle hzero := absurd hzero hattempt
  failures := by
    rw [failures_concat]
    exact h.failures
  suppressed := by
    have hnot : ¬ 3 ≤ e.failures := fun hmany => hphase (h.suppressed.mp hmany)
    simp [hnot]
  due := by
    intro _ t ht
    rw [lastFailure_concat] at ht
    exact (h.due hphase t ht).trans hdue

/-- The attempt of the key has shown its first frame. -/
theorem succeed (h : EntrySound clock log key e) (hattempt : e.attempt ≠ 0) :
    EntrySound clock (log ++ [.succeeded key]) key { e with phase := .running, failures := 0 } where
  attempt := by
    rw [currentAttempt_concat]
    exact h.attempt
  idle hzero := absurd hzero hattempt
  failures := by
    rw [failures_concat]
    simp
  suppressed := by simp
  due := by
    intro _ t ht
    rw [lastFailure_concat] at ht
    simp at ht

end EntrySound

/-! ## The invariant of a run -/

namespace HelperRun

/-- The entries belong to the present desktop generation and are what the log says,
the gate remembers every launch failure, and the bounds hold. -/
structure Sound (r : HelperRun) : Prop where
  owned : ∀ k e, r.coordinator.entries.get? k = some e →
    k.desktopGeneration = r.coordinator.desktopGeneration
  entries : ∀ k, r.coordinator.desktopGeneration ≤ k.desktopGeneration →
    EntrySound r.clock r.log k (r.coordinator.entryAt k)
  launches : ∀ t ∈ launchFailures r.log, t ≤ r.clock ∧
    ∃ retryAt, r.coordinator.processRetryAt = some retryAt ∧ t + 5000 ≤ retryAt
  starting : r.coordinator.startingCount ≤ 2
  stored : r.coordinator.entries.keys.length ≤ 64
  allowed : AttemptsAllowed r.log

theorem sound_start : start.Sound where
  owned k e h := by cases h
  entries k _ := EntrySound.default_nil k
  launches t ht := by cases ht
  starting := Nat.zero_le _
  stored := Nat.zero_le _
  allowed := always_nil

variable {c c' : HelperCoordinator} {log log' : List HelperNote} {clock now : ℕ}

/-- Time passes. -/
theorem Sound.advance (h : Sound ⟨c, log, clock⟩) (hclock : clock ≤ now) :
    Sound ⟨c, log, now⟩ where
  owned := h.owned
  entries k hk := (h.entries k hk).advance hclock
  launches t ht := ⟨(h.launches t ht).1.trans hclock, (h.launches t ht).2⟩
  starting := h.starting
  stored := h.stored
  allowed := h.allowed

theorem allowed_concat (h : AttemptsAllowed log) {note : HelperNote}
    (hnote : ∀ token now, note = .began token now → MayBegin log token.key now) :
    AttemptsAllowed (log ++ [note]) :=
  always_concat.mpr ⟨h, hnote⟩

theorem mem_expiredKeys {k : HelperKey} :
    k ∈ expiredKeys c now ↔ (c.entryAt k).expired now = true := by
  unfold expiredKeys HelperCoordinator.entryAt
  constructor
  · intro hk
    obtain ⟨⟨k', e⟩, hmem, rfl⟩ := List.mem_map.mp hk
    obtain ⟨hmem, hexpired⟩ := List.mem_filter.mp hmem
    rw [LinkedMap.mem_entries_iff.mp hmem]
    exact hexpired
  · intro hexpired
    cases hget : c.entries.get? k with
    | none =>
        rw [hget] at hexpired
        cases hexpired
    | some e =>
        rw [hget] at hexpired
        have hmem : (k, e) ∈ c.entries.entries := LinkedMap.mem_entries_iff.mpr hget
        exact List.mem_map.mpr ⟨(k, e), List.mem_filter.mpr ⟨hmem, hexpired⟩, rfl⟩

/-- Abandoned attempts fail. -/
theorem Sound.expire (h : Sound ⟨c, log, clock⟩) (hclock : clock ≤ now) :
    Sound ⟨c.expire now, log ++ [.failed (expiredKeys c now) now], now⟩ where
  owned := by
    intro k e hget
    obtain ⟨old, hold, -⟩ := Option.map_eq_some_iff.mp (LinkedMap.get?_mapValues.symm.trans hget)
    exact h.owned k old hold
  entries := by
    intro k hk
    have hentry := h.entries k hk
    show EntrySound now _ k ((c.expire now).entryAt k)
    rw [HelperCoordinator.entryAt_expire]
    by_cases hexpired : (c.entryAt k).expired now = true
    · rw [if_pos hexpired]
      refine hentry.fail ?_ (mem_expiredKeys.mpr hexpired)
      -- Only an attempt that is starting expires.
      unfold Entry.expired at hexpired
      cases hphase : (c.entryAt k).phase <;> rw [hphase] at hexpired <;>
        first | rfl | cases hexpired
    · rw [if_neg hexpired]
      have hspares : (HelperNote.failed (expiredKeys c now) now).Spares k :=
        fun hmem => hexpired (mem_expiredKeys.mp hmem)
      exact (hentry.advance hclock).of_same ((SameAbout.refl k log).concat hspares)
  launches := by
    intro t ht
    rw [launchFailures_concat] at ht
    obtain ⟨hle, hretry⟩ := h.launches t ht
    exact ⟨hle.trans hclock, hretry⟩
  starting := HelperCoordinator.startingCount_expire_le.trans h.starting
  stored := by
    show (c.expire now).entries.keys.length ≤ 64
    rw [HelperCoordinator.keys_expire]
    exact h.stored
  allowed := allowed_concat h.allowed (by simp)

/-- One entry changes. -/
theorem Sound.update (h : Sound ⟨c, log, clock⟩) {k : HelperKey} {e : Entry}
    (hkey : k.desktopGeneration = c.desktopGeneration)
    (hentries : c'.entries = c.entries.set k e) (hgen : c'.desktopGeneration = c.desktopGeneration)
    (hentry : EntrySound clock log' k e)
    (hother : ∀ k', k' ≠ k → SameAbout k' log log')
    (hstarting : c.startingCount + (if e.phase.isStarting then 1 else 0) ≤ 2)
    (hstored : k ∈ c.entries.keys ∨ c.entries.keys.length < 64)
    (hlaunches : ∀ t ∈ launchFailures log', t ≤ clock ∧
      ∃ retryAt, c'.processRetryAt = some retryAt ∧ t + 5000 ≤ retryAt)
    (hallowed : AttemptsAllowed log') : Sound ⟨c', log', clock⟩ where
  owned := by
    intro k' e' hget
    show k'.desktopGeneration = c'.desktopGeneration
    rw [hgen]
    simp only [hentries, LinkedMap.get?_set] at hget
    by_cases hsame : k' = k
    · rw [hsame, hkey]
    · rw [if_neg hsame] at hget
      exact h.owned k' e' hget
  entries := by
    intro k' hk'
    show EntrySound clock log' k' (c'.entryAt k')
    rw [HelperCoordinator.entryAt_set k e c' hentries]
    by_cases hsame : k' = k
    · rw [if_pos hsame, hsame]
      exact hentry
    · rw [if_neg hsame]
      exact (h.entries k' (hgen ▸ hk')).of_same (hother k' hsame)
  launches := hlaunches
  starting := by
    have hcount := LinkedMap.countP_values_set_le c.entries k e fun e => e.phase.isStarting
    show c'.entries.values.countP (fun e => e.phase.isStarting) ≤ 2
    rw [hentries]
    exact hcount.trans hstarting
  stored := by
    show c'.entries.keys.length ≤ 64
    have hbound : c.entries.keys.length ≤ 64 := h.stored
    rw [hentries, LinkedMap.length_keys_set]
    split <;> rcases hstored with hmem | hless <;> first | omega | contradiction
  allowed := hallowed

/-- The entry a token owns, with what the invariant says about it. -/
theorem Sound.of_owned (h : Sound ⟨c, log, clock⟩) {token : AttemptToken} {e : Entry}
    (howned : c.ownedEntry token = some e) :
    token.key.desktopGeneration = c.desktopGeneration ∧ token.key ∈ c.entries.keys ∧
      EntrySound clock log token.key e := by
  obtain ⟨hget, -⟩ := HelperCoordinator.ownedEntry_eq_some.mp howned
  have hkey : token.key.desktopGeneration = c.desktopGeneration := h.owned _ _ hget
  refine ⟨hkey, LinkedMap.mem_keys_iff.mpr ⟨e, hget⟩, ?_⟩
  rw [← HelperCoordinator.entryAt_of_get? hget]
  exact h.entries token.key (Nat.le_of_eq hkey.symm)

theorem Sound.success (h : Sound ⟨c, log, clock⟩) (token : AttemptToken) :
    Sound ⟨(c.success token).1, log ++ notesOf c (.success token), clock⟩ := by
  rcases c.success_cases token with hsame | ⟨e, howned, hstarting, hnew⟩
  · simpa [notesOf, hsame] using h
  · obtain ⟨hkey, hmem, hentry⟩ := h.of_owned howned
    have hattempt : e.attempt ≠ 0 := by
      intro hzero
      rcases hentry.idle hzero with hphase | hphase <;> rw [hphase] at hstarting <;>
        cases hstarting
    have hnotes : notesOf c (.success token) = [.succeeded token.key] := by simp [notesOf, hnew]
    rw [hnotes, hnew]
    refine h.update hkey rfl rfl (hentry.succeed hattempt) ?_ h.starting (Or.inl hmem) ?_
      (allowed_concat h.allowed (by simp))
    · intro k' hk'
      exact (SameAbout.refl k' log).concat hk'
    · intro t ht
      rw [launchFailures_concat] at ht
      exact h.launches t ht

theorem Sound.cancel (h : Sound ⟨c, log, clock⟩) (token : AttemptToken) :
    Sound ⟨(c.cancel token).1, log, clock⟩ := by
  rcases c.cancel_cases token with hsame | ⟨e, howned, hactive, hnew⟩
  · rw [hsame]
    exact h
  · obtain ⟨hkey, hmem, hentry⟩ := h.of_owned howned
    -- An active entry waits for nothing, so the ready one may begin at once.
    have hphase : e.phase ≠ .suppressed ∧ e.due clock ≤ clock := by
      unfold Entry.due
      cases hphase : e.phase <;> rw [hphase] at hactive <;> simp_all [Phase.isActive]
    rw [hnew]
    exact h.update hkey rfl rfl (hentry.setPhase (Or.inl rfl) hphase.1 hphase.2)
      (fun k' _ => SameAbout.refl k' log) h.starting (Or.inl hmem) h.launches h.allowed

theorem Sound.failure (h : Sound ⟨c, log, clock⟩) (hclock : clock ≤ now) (token : AttemptToken)
    (processLaunch : Bool) :
    Sound ⟨(c.failure token now processLaunch).1,
      log ++ notesOf c (.failure token now processLaunch), now⟩ := by
  have hnow := h.advance hclock
  rcases c.failure_cases token now processLaunch with hsame | ⟨e, howned, hactive, hnew⟩
  · simpa [notesOf, hsame] using hnow
  · obtain ⟨hkey, hmem, hentry⟩ := hnow.of_owned howned
    have hother : ∀ k', k' ≠ token.key → SameAbout k' log (log ++ [.failed [token.key] now]) := by
      intro k' hk'
      exact (SameAbout.refl k' log).concat (by simpa [HelperNote.Spares] using hk')
    have hfailed : EntrySound now (log ++ [.failed [token.key] now]) token.key (e.fail now) :=
      hentry.fail hactive (List.mem_singleton.mpr rfl)
    have hidle : (e.fail now).phase.isStarting = false := by
      unfold Entry.fail
      dsimp only
      split <;> rfl
    have hstarting : c.startingCount + (if (e.fail now).phase.isStarting then 1 else 0) ≤ 2 := by
      rw [hidle]
      exact h.starting
    have hallowed : AttemptsAllowed (log ++ [.failed [token.key] now]) :=
      allowed_concat h.allowed (by simp)
    cases processLaunch with
    | false =>
        have hnotes : notesOf c (.failure token now false) = [.failed [token.key] now] := by
          simp [notesOf, hnew]
        rw [hnotes, hnew]
        refine hnow.update hkey rfl rfl hfailed hother hstarting (Or.inl hmem) ?_ hallowed
        intro t ht
        rw [launchFailures_concat] at ht
        exact hnow.launches t ht
    | true =>
        have hnotes : log ++ notesOf c (.failure token now true) =
            (log ++ [.failed [token.key] now]) ++ [.launchFailed now] := by
          simp [notesOf, hnew]
        rw [hnotes, hnew]
        refine hnow.update hkey rfl rfl (hfailed.of_same ((SameAbout.refl _ _).concat trivial))
          (fun k' hk' => (hother k' hk').concat trivial) hstarting (Or.inl hmem) ?_
          (allowed_concat hallowed (by simp))
        intro t ht
        have hle : t ≤ now := by
          simp only [launchFailures_concat, List.mem_cons] at ht
          rcases ht with rfl | ht
          · exact Nat.le_refl _
          · exact (hnow.launches t ht).1
        refine ⟨hle, now + firstCooldown, rfl, ?_⟩
        unfold firstCooldown
        omega

/-- A reset starts a desktop generation, about which the log says nothing yet. -/
theorem Sound.reset (h : Sound ⟨c, log, clock⟩) {desktop : Option (ℕ × Bool)} (enabled : Bool)
    (hroom : (c.reset enabled).desktopGeneration < usizeMax) :
    Sound ⟨{ c.reset enabled with desktop }, log ++ [.reset], clock⟩ where
  owned k e hget := by cases hget
  entries := by
    intro k hk
    have hgen : c.desktopGeneration < k.desktopGeneration := by
      have hle : saturatingAdd c.desktopGeneration 1 ≤ k.desktopGeneration := hk
      have hlt : saturatingAdd c.desktopGeneration 1 < usizeMax := hroom
      unfold saturatingAdd at hle hlt
      omega
    -- No entry of a later generation exists before the reset.
    have hnone : c.entryAt k = .default := by
      cases hget : c.entries.get? k with
      | none => simp [HelperCoordinator.entryAt, hget]
      | some e =>
          have hkey : k.desktopGeneration = c.desktopGeneration := h.owned k e hget
          omega
    have hentry := h.entries k (Nat.le_of_lt hgen)
    show EntrySound clock (log ++ [.reset]) k .default
    rw [hnone] at hentry
    exact {
      attempt := by
        rw [currentAttempt_concat]
        rfl
      idle := hentry.idle
      failures := by
        rw [failures_concat]
        exact hentry.failures
      suppressed := hentry.suppressed
      due := by
        rw [lastFailure_concat]
        exact hentry.due }
  launches t ht := by
    rw [launchFailures_concat] at ht
    cases ht
  starting := Nat.zero_le _
  stored := Nat.zero_le _
  allowed := allowed_concat h.allowed (by simp)

/-- A key that may start now has few enough failures, long enough ago. -/
theorem Sound.startable (h : Sound ⟨c, log, now⟩) {key : HelperKey}
    (hkey : key.desktopGeneration = c.desktopGeneration)
    (hphase : HelperCoordinator.Startable (c.entryAt key).phase now) :
    EntrySound now log key (c.entryAt key) ∧ (c.entryAt key).phase ≠ .suppressed ∧
      (c.entryAt key).due now ≤ now := by
  refine ⟨h.entries key (Nat.le_of_eq hkey.symm), ?_, ?_⟩
  · intro hsuppressed
    rw [hsuppressed] at hphase
    exact hphase
  · unfold Entry.due
    cases heq : (c.entryAt key).phase with
    | cooldown retryAt =>
        rw [heq] at hphase
        exact hphase
    | _ => exact Nat.le_refl _

/-- The rest of `begin`, once the old attempts have expired. -/
theorem Sound.beginChecked (h : Sound ⟨c, log, now⟩) {key : HelperKey}
    (hkey : key.desktopGeneration = c.desktopGeneration) :
    Sound ⟨(c.beginChecked key now).1,
      log ++ ((c.beginChecked key now).2.map fun token => .began token now).toList, now⟩ := by
  rcases c.beginChecked_cases key now with hsame | ⟨hroom, hphase, hqueue | ⟨hbusy, hgate, hstart⟩⟩
  · rw [hsame]
    simpa using h
  · obtain ⟨hentry, hsuppressed, hdue⟩ := h.startable hkey hphase
    rw [hqueue]
    simp only [Option.map_none, Option.toList_none, List.append_nil]
    exact h.update hkey rfl rfl (hentry.setPhase (Or.inr rfl) hsuppressed hdue)
      (fun k' _ => SameAbout.refl k' log) h.starting hroom h.launches h.allowed
  · obtain ⟨hentry, hsuppressed, hdue⟩ := h.startable hkey hphase
    have hless : (c.entryAt key).failures < 3 := by
      by_contra hmany
      exact hsuppressed (hentry.suppressed.mp (by omega))
    have hmay : MayBegin log key now := {
      bounded := by
        rw [← hentry.failures]
        exact hless
      first := by
        intro hone t ht
        have hwait := (hentry.due hsuppressed t ht).trans hdue
        rw [← hentry.failures] at hone
        simpa [Entry.cooldownAfter, hone, firstCooldown] using hwait
      second := by
        intro htwo t ht
        have hwait := (hentry.due hsuppressed t ht).trans hdue
        rw [← hentry.failures] at htwo
        simpa [Entry.cooldownAfter, htwo, secondCooldown] using hwait
      process := by
        intro t ht
        obtain ⟨-, retryAt, hretry, hle⟩ := h.launches t ht
        have hpassed : ¬ now < retryAt := by
          have hretry' : c.processRetryAt = some retryAt := hretry
          simpa [HelperCoordinator.processBlocked, hretry'] using hgate
        omega }
    rw [hstart]
    simp only [Option.map_some, Option.toList_some]
    refine h.update hkey rfl rfl (hentry.start (Nat.succ_ne_zero _) hsuppressed hdue) ?_ ?_ hroom ?_
      (allowed_concat h.allowed ?_)
    · intro k' hk'
      exact (SameAbout.refl k' log).concat hk'
    · have hcount : ¬ maxStarting ≤ c.startingCount := of_decide_eq_false hbusy
      unfold maxStarting at hcount
      simp only [Phase.isStarting, if_true]
      omega
    · intro t ht
      rw [launchFailures_concat] at ht
      exact h.launches t ht
    · intro token t heq
      cases heq
      exact hmay

theorem Sound.begin (h : Sound ⟨c, log, clock⟩) (hclock : clock ≤ now) (key : HelperKey) :
    Sound ⟨(c.begin key now).1, log ++ notesOf c (.begin key now), now⟩ := by
  by_cases hmay : c.mayBegin key = true
  · have hkey : key.desktopGeneration = c.desktopGeneration := by
      simp only [HelperCoordinator.mayBegin, Bool.and_eq_true, beq_iff_eq] at hmay
      exact hmay.1.2
    have hbegin : c.begin key now = (c.expire now).beginChecked key now := by
      simp [HelperCoordinator.begin, hmay]
    -- The old attempts expire first, which the log says before the new attempt.
    have hnotes : log ++ notesOf c (.begin key now) =
        (log ++ [.failed (expiredKeys c now) now]) ++
          (((c.expire now).beginChecked key now).2.map fun token => .began token now).toList := by
      simp [notesOf, hmay, hbegin]
    rw [hnotes, hbegin]
    exact (h.expire hclock).beginChecked hkey
  · have hbegin : c.begin key now = (c, none) := by simp [HelperCoordinator.begin, hmay]
    rw [hbegin]
    simpa [notesOf, hmay] using h.advance hclock

/-- Every operation keeps the invariant, while the generation counter has room. -/
theorem Sound.apply {r r' : HelperRun} (h : r.Sound) {op : HelperOp} (hop : r.applyOp? op = some r')
    (hroom : r'.coordinator.desktopGeneration < usizeMax) : r'.Sound := by
  obtain ⟨c, log, clock⟩ := r
  by_cases hback : op.time?.any fun now => now < clock
  · simp [applyOp?, hback] at hop
  · simp only [applyOp?, hback, if_false, Bool.false_eq_true] at hop
    obtain rfl := Option.some.inj hop
    cases op with
    | begin key now =>
        have hclock : clock ≤ now := by simpa [HelperOp.time?] using hback
        exact h.begin hclock key
    | success token => exact h.success token
    | failure token now processLaunch =>
        have hclock : clock ≤ now := by simpa [HelperOp.time?] using hback
        exact h.failure hclock token processLaunch
    | cancel token =>
        show Sound ⟨(c.cancel token).1, log ++ [], clock⟩
        rw [List.append_nil]
        exact h.cancel token
    | leaseDrop lease =>
        show Sound ⟨(c.cancel lease.token).1, log ++ [], clock⟩
        rw [List.append_nil]
        exact h.cancel lease.token
    | retryDue key now =>
        have hclock : clock ≤ now := by simpa [HelperOp.time?] using hback
        exact h.expire hclock
    | protectsRefresh display now =>
        have hclock : clock ≤ now := by simpa [HelperOp.time?] using hback
        exact h.expire hclock
    | observeDesktop session secure =>
        by_cases hsame : c.desktop ≠ some (session, secure)
        · simp only [HelperCoordinator.apply, HelperCoordinator.observeDesktop, if_pos hsame,
            notesOf] at hroom ⊢
          exact h.reset c.enabled hroom
        · simpa [HelperCoordinator.apply, HelperCoordinator.observeDesktop, hsame, notesOf,
            HelperOp.time?] using h
    | reset enabled => exact h.reset enabled hroom

/-- An operation keeps the desktop generation or takes the next one. -/
theorem apply_generation (c : HelperCoordinator) (op : HelperOp) :
    (c.apply op).desktopGeneration = c.desktopGeneration ∨
      (c.apply op).desktopGeneration = saturatingAdd c.desktopGeneration 1 := by
  cases op with
  | begin key now =>
      left
      simp only [HelperCoordinator.apply, HelperCoordinator.begin]
      split
      · rcases (c.expire now).beginChecked_cases key now with h | ⟨-, -, h | ⟨-, -, h⟩⟩ <;>
          rw [h] <;> rfl
      · rfl
  | success token =>
      left
      rcases c.success_cases token with h | ⟨e, -, -, h⟩ <;>
        simp only [HelperCoordinator.apply, h]
  | failure token now processLaunch =>
      left
      rcases c.failure_cases token now processLaunch with h | ⟨e, -, -, h⟩ <;>
        simp only [HelperCoordinator.apply, h]
  | cancel token =>
      left
      rcases c.cancel_cases token with h | ⟨e, -, -, h⟩ <;>
        simp only [HelperCoordinator.apply, h]
  | leaseDrop lease =>
      left
      rcases c.cancel_cases lease.token with h | ⟨e, -, -, h⟩ <;>
        simp only [HelperCoordinator.apply, HelperAttemptLease.drop, h]
  | retryDue key now => exact Or.inl rfl
  | protectsRefresh display now => exact Or.inl rfl
  | observeDesktop session secure =>
      simp only [HelperCoordinator.apply, HelperCoordinator.observeDesktop]
      split
      · exact Or.inr rfl
      · exact Or.inl rfl
  | reset enabled => exact Or.inr rfl

/-- While the counter has room at the end of an operation, it had room before. -/
theorem generation_lt {r r' : HelperRun} {op : HelperOp} (hop : r.applyOp? op = some r')
    (hroom : r'.coordinator.desktopGeneration < usizeMax) :
    r.coordinator.desktopGeneration < usizeMax := by
  have hnext : r'.coordinator = r.coordinator.apply op := by
    unfold applyOp? at hop
    split at hop
    · cases hop
    · rw [← Option.some.inj hop]
  rw [hnext] at hroom
  -- A saturated counter stays saturated.
  rcases apply_generation r.coordinator op with h | h <;> rw [h] at hroom
  · exact hroom
  · unfold saturatingAdd at hroom
    omega

theorem sound_run {ops : List HelperOp} {r : HelperRun} (hrun : run? ops = some r)
    (hroom : r.coordinator.desktopGeneration < usizeMax) : r.Sound := by
  have hsteps := run_of_foldlM hrun
  clear hrun
  induction hsteps with
  | nil => exact sound_start
  | snoc _ hop ih => exact (ih (generation_lt hop hroom)).apply hop hroom

end HelperRun

/-! ## What holds in every run -/

/-- `retry_due` allows exactly what `begin` will do. -/
theorem HelperCoordinator.begin_of_retryDue {c : HelperCoordinator} {key : HelperKey} {now : ℕ}
    (hroom : c.nextAttempt ≠ usizeMax) (hdue : (c.retryDue key now).2 = true) :
    ((c.retryDue key now).1.begin key now).2.isSome = true := by
  simp only [retryDue] at hdue ⊢
  unfold retryDueChecked at hdue
  split at hdue
  · cases hdue
  · rename_i hgates
    simp only [not_or, not_not, Bool.not_eq_true] at hgates
    obtain ⟨henabled, hgen, hprocess, hbusy⟩ := hgates
    obtain ⟨e, hget, hphase⟩ : ∃ e, (c.expire now).entries.get? key = some e ∧
        Startable e.phase now := by
      cases hget : (c.expire now).entries.get? key with
      | none => simp [hget] at hdue
      | some e =>
          refine ⟨e, rfl, ?_⟩
          rw [hget] at hdue
          cases hphase : e.phase <;> simp_all [Startable]
    have hmay : (c.expire now).mayBegin key = true := by
      have hattempt : (c.expire now).nextAttempt = c.nextAttempt := rfl
      simp [mayBegin, henabled, hgen, hattempt, hroom]
    have hmem : key ∈ (c.expire now).entries.keys := LinkedMap.mem_keys_iff.mpr ⟨e, hget⟩
    have hfull : ¬ (¬ (c.expire now).entries.contains key ∧
        maxKeys ≤ (c.expire now).entries.keys.length) :=
      fun h => h.1 (LinkedMap.contains_iff.mpr ⟨e, hget⟩)
    rw [begin, if_pos hmay, expire_expire, beginChecked, if_neg hfull]
    simp [entryAt_of_get? hget, hphase, hbusy, hprocess]

/-- The token of an attempt that is not its key's current one changes nothing. -/
theorem HelperRun.Sound.stale {r : HelperRun} (h : r.Sound) {token : AttemptToken}
    (hstale : currentAttempt token.key r.log ≠ some token.generation) :
    r.coordinator.success token = (r.coordinator, false) ∧
    (∀ now processLaunch,
      r.coordinator.failure token now processLaunch = (r.coordinator, false)) ∧
    r.coordinator.cancel token = (r.coordinator, false) := by
  -- An entry with attempt 0 belongs to no attempt; it is ready or queued.
  have hinactive : ∀ e, r.coordinator.ownedEntry token = some e → e.phase.isActive = false := by
    intro e howned
    obtain ⟨-, hattempt⟩ := HelperCoordinator.ownedEntry_eq_some.mp howned
    obtain ⟨-, -, hentry⟩ := h.of_owned howned
    have hcurrent := hentry.attempt
    cases hlog : currentAttempt token.key r.log with
    | none =>
        rw [hlog] at hcurrent
        rcases hentry.idle hcurrent with hphase | hphase <;> rw [hphase] <;> rfl
    | some attempt =>
        rw [hlog, hattempt] at hcurrent
        exact absurd (hlog.trans (congrArg some hcurrent.symm)) hstale
  refine ⟨?_, ?_, ?_⟩
  · rcases r.coordinator.success_cases token with hsame | ⟨e, howned, hstarting, -⟩
    · exact hsame
    · have hphase := hinactive e howned
      cases heq : e.phase <;> rw [heq] at hstarting hphase <;> simp_all [Phase.isStarting,
        Phase.isActive]
  · intro now processLaunch
    rcases r.coordinator.failure_cases token now processLaunch with hsame | ⟨e, howned, hactive, -⟩
    · exact hsame
    · rw [hinactive e howned] at hactive
      cases hactive
  · rcases r.coordinator.cancel_cases token with hsame | ⟨e, howned, hactive, -⟩
    · exact hsame
    · rw [hinactive e howned] at hactive
      cases hactive

/-- The token changes nothing, neither by itself nor through a lease. -/
structure Inert (c : HelperCoordinator) (token : AttemptToken) : Prop where
  success : c.success token = (c, false)
  failure : ∀ now processLaunch, c.failure token now processLaunch = (c, false)
  cancel : c.cancel token = (c, false)
  leaseSuccess : ∀ firstFrame, (HelperAttemptLease.success ⟨token, firstFrame⟩ c).2.1 = c
  leaseFailure : ∀ firstFrame now processLaunch,
    HelperAttemptLease.failure ⟨token, firstFrame⟩ c now processLaunch = c
  leaseDrop : ∀ firstFrame, HelperAttemptLease.drop ⟨token, firstFrame⟩ c = c

/-- Start-up is bounded and fenced in this state. -/
structure Fenced (r : HelperRun) : Prop where
  starting : r.coordinator.startingCount ≤ 2
  stored : r.coordinator.entries.keys.length ≤ 64
  stale : ∀ token, currentAttempt token.key r.log ≠ some token.generation →
    Inert r.coordinator token
  attempts : AttemptsAllowed r.log
  retry : ∀ key now, r.coordinator.nextAttempt ≠ usizeMax →
    (r.coordinator.retryDue key now).2 = true →
    ((r.coordinator.retryDue key now).1.begin key now).2.isSome = true

/-- Every run of the coordinator whose desktop generations are not used up. -/
theorem fenced {ops : List HelperOp} {r : HelperRun} (hrun : HelperRun.run? ops = some r)
    (hroom : r.coordinator.desktopGeneration < usizeMax) : Fenced r := by
  have hsound := HelperRun.sound_run hrun hroom
  exact {
    starting := hsound.starting
    stored := hsound.stored
    stale := by
      intro token hstale
      obtain ⟨hsuccess, hfailure, hcancel⟩ := hsound.stale hstale
      exact {
        success := hsuccess
        failure := hfailure
        cancel := hcancel
        leaseSuccess := by
          intro firstFrame
          cases firstFrame <;> simp [HelperAttemptLease.success, hsuccess]
        leaseFailure := by
          intro firstFrame now processLaunch
          simp [HelperAttemptLease.failure, hfailure]
        leaseDrop := by
          intro firstFrame
          simp [HelperAttemptLease.drop, hcancel] }
    attempts := hsound.allowed
    retry := fun key now hattempts hdue =>
      HelperCoordinator.begin_of_retryDue hattempts hdue }

/-- A launch failure, a retry that is queued behind the gate and one that is not. -/
def retriedOps : List HelperOp :=
  [.observeDesktop 1 false, .begin ⟨1, 0, 2⟩ 0, .failure ⟨⟨1, 0, 2⟩, 1⟩ 100 true,
    .begin ⟨1, 1, 2⟩ 200, .retryDue ⟨1, 1, 2⟩ 5100, .begin ⟨1, 1, 2⟩ 5100,
    .begin ⟨1, 0, 2⟩ 5100]

theorem fenced_retried : Fenced ((HelperRun.run? retriedOps).get (by decide)) :=
  fenced (Option.some_get _).symm (by decide)

end RustAdmin.Server.HelperRetry
