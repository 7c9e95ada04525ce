import Mathlib.Data.List.Induction
import RustAdmin.Support.Arith
import RustAdmin.Support.Backoff
import RustAdmin.VideoDelivery.Controller

/-!
# Decoder recovery

`DecoderRecovery` of `src/src/client/decoder_recovery.rs`: when a decoder fails, stalls or
is replaced, the worker of the display waits for a keyframe, and until one decodes it
recovers again and again at growing intervals.

`Paced` relates the timer to the retries since the last success: the next one is not
before the last one and the delay of its number.  A call that hands out no retry keeps
it (`Paced.keep`), and a retry sets the timer from its own time (`Paced.takeDue`), so
the distances hold at any times of the calls.
-/

namespace RustAdmin.Viewer

open RustAdmin.Support RustAdmin.VideoDelivery

def outputStallTimeout : ℕ := secs 2
def initialRetryDelay : ℕ := millis 500
def maxRetryDelay : ℕ := secs 5

structure DecoderRecovery where
  nextRetry : Option ℕ := none
  attempt : ℕ := 0
  waitingForKeyframe : Bool := false
  needsReset : Bool := false
  refreshRequested : Bool := false
deriving DecidableEq, Repr

/-- The delay after a retry. -/
def retryDelay (attempt : ℕ) : ℕ :=
  doublingDelay initialRetryDelay maxRetryDelay (min (attempt - 1) 4)

namespace DecoderRecovery

variable (r : DecoderRecovery)

def failed (now : ℕ) : DecoderRecovery :=
  { r with
    nextRetry := if r.attempt = 0 then some now else r.nextRetry
    waitingForKeyframe := true
    needsReset := true }

def pending (now : ℕ) : DecoderRecovery :=
  if r.nextRetry.isNone then { r with nextRetry := some (now + outputStallTimeout) } else r

def backendSwitched (now : ℕ) : DecoderRecovery :=
  { r with
    waitingForKeyframe := true
    refreshRequested := true
    nextRetry := some (r.nextRetry.getD (now + outputStallTimeout)) }

def takeRefreshRequest : Bool × DecoderRecovery :=
  (r.refreshRequested, { r with refreshRequested := false })

def succeeded (_ : DecoderRecovery) : DecoderRecovery := {}

def takeDue (now : ℕ) : Option ℕ × DecoderRecovery :=
  match r.nextRetry with
  | none => (none, r)
  | some nextRetry =>
      if now < nextRetry then (none, r)
      else
        let attempt := saturatingAdd r.attempt 1
        (some attempt,
          { r with
            attempt := attempt
            nextRetry := some (now + retryDelay attempt)
            waitingForKeyframe := true
            needsReset := false })

def acceptsFrame (stamped hasKeyframe : Bool) : Bool × DecoderRecovery :=
  if r.needsReset || (r.waitingForKeyframe && stamped && !hasKeyframe) then (false, r)
  else (true, { r with waitingForKeyframe := false })

/-- A retry is handed out when its time has come. -/
theorem takeDue_cases (now : ℕ) :
    (∃ next, r.nextRetry = some next ∧ next ≤ now ∧
      r.takeDue now = (some (saturatingAdd r.attempt 1),
        { r with
          attempt := saturatingAdd r.attempt 1
          nextRetry := some (now + retryDelay (saturatingAdd r.attempt 1))
          waitingForKeyframe := true
          needsReset := false })) ∨
      r.takeDue now = (none, r) := by
  unfold takeDue
  cases hnext : r.nextRetry with
  | none => exact .inr rfl
  | some next =>
      by_cases hlt : now < next
      · exact .inr (if_pos hlt)
      · exact .inl ⟨next, rfl, not_lt.mp hlt, if_neg hlt⟩

end DecoderRecovery

/-! ## Calls -/

inductive RecoveryCall
  | failed (now : ℕ)
  | pending (now : ℕ)
  | backendSwitched (now : ℕ)
  | takeRefreshRequest
  | acceptsFrame (stamped hasKeyframe : Bool)
  | takeDue (now : ℕ)
  | succeeded
deriving DecidableEq, Repr

/-- A recovery with the times of the retries since the last success, the refresh requests
that were taken and the switches of the backend. -/
structure RecoveryTrace where
  recovery : DecoderRecovery := {}
  retries : List ℕ := []
  requests : ℕ := 0
  switches : ℕ := 0
deriving DecidableEq, Repr

namespace RecoveryTrace

def call (t : RecoveryTrace) : RecoveryCall → RecoveryTrace
  | .failed now => { t with recovery := t.recovery.failed now }
  | .pending now => { t with recovery := t.recovery.pending now }
  | .backendSwitched now =>
      { t with recovery := t.recovery.backendSwitched now, switches := t.switches + 1 }
  | .takeRefreshRequest =>
      let (requested, recovery) := t.recovery.takeRefreshRequest
      { t with recovery := recovery, requests := t.requests + requested.toNat }
  | .acceptsFrame stamped hasKeyframe =>
      { t with recovery := (t.recovery.acceptsFrame stamped hasKeyframe).2 }
  | .takeDue now =>
      match t.recovery.takeDue now with
      | (some _, recovery) => { t with recovery := recovery, retries := t.retries ++ [now] }
      | (none, recovery) => { t with recovery := recovery }
  | .succeeded => { t with recovery := t.recovery.succeeded, retries := [] }

def after (calls : List RecoveryCall) : RecoveryTrace := calls.foldl call {}

theorem after_concat (calls : List RecoveryCall) (c : RecoveryCall) :
    after (calls ++ [c]) = (after calls).call c := by
  simp [after]

end RecoveryTrace

/-! ## The timer -/

/-- The retries keep the distances of the backoff. -/
def Spaced (retries : List ℕ) : Prop :=
  ∀ (k first second : ℕ), retries[k]? = some first → retries[k + 1]? = some second →
    first + min (millis 500 * 2 ^ min k 4) (secs 5) ≤ second

/-- A retry that keeps its distance from the last one. -/
theorem Spaced.concat {retries : List ℕ} (h : Spaced retries) {now : ℕ}
    (hlast : ∀ last ∈ retries.getLast?,
      last + min (millis 500 * 2 ^ min (retries.length - 1) 4) (secs 5) ≤ now) :
    Spaced (retries ++ [now]) := by
  intro k first second hfirst hsecond
  have hlt : k + 1 < (retries ++ [now]).length := (List.getElem?_eq_some_iff.mp hsecond).1
  rw [List.length_append, List.length_singleton] at hlt
  rw [List.getElem?_append_left (by omega)] at hfirst
  by_cases hold : k + 1 < retries.length
  · rw [List.getElem?_append_left hold] at hsecond
    exact h k first second hfirst hsecond
  · -- the new one is the second of the two
    have hk : k = retries.length - 1 := by omega
    rw [List.getElem?_append_right (by omega),
      show k + 1 - retries.length = 0 by omega] at hsecond
    obtain rfl : now = second := Option.some.inj hsecond
    rw [hk] at hfirst ⊢
    exact hlast first (List.getLast?_eq_getElem? ▸ hfirst)

/-- The timer, as the retries since the last success set it. -/
structure Paced (t : RecoveryTrace) : Prop where
  waits : t.recovery.waitingForKeyframe = true ∨ t.recovery.needsReset = true →
    t.recovery.nextRetry.isSome
  attempt_eq : t.recovery.attempt = min t.retries.length usizeMax
  timer : ∀ last ∈ t.retries.getLast?, ∃ next, t.recovery.nextRetry = some next ∧
    last + min (millis 500 * 2 ^ min (t.retries.length - 1) 4) (secs 5) ≤ next
  spaced : Spaced t.retries
  requested : t.requests + t.recovery.refreshRequested.toNat ≤ t.switches

/-- Where no retry was taken, the timer may be set anew. -/
theorem Paced.retries_nil {t : RecoveryTrace} (h : Paced t) (hattempt : t.recovery.attempt = 0) :
    t.retries = [] := by
  have heq := h.attempt_eq
  have hmax : usizeMax = 18446744073709551615 := rfl
  rw [hattempt] at heq
  exact List.length_eq_zero_iff.mp (by omega)

theorem paced_start : Paced {} where
  waits := by simp
  attempt_eq := rfl
  timer := by simp
  spaced := by
    intro k first second hfirst hsecond
    simp at hfirst
  requested := le_refl 0

/-- A call that hands out no retry keeps the timer once one was handed out. -/
theorem Paced.keep {t t' : RecoveryTrace} (h : Paced t) (hretries : t'.retries = t.retries)
    (hattempt : t'.recovery.attempt = t.recovery.attempt)
    (hwaits : t'.recovery.waitingForKeyframe = true ∨ t'.recovery.needsReset = true →
      t'.recovery.nextRetry.isSome)
    (hnext : ∀ next, t.recovery.attempt ≠ 0 → t.recovery.nextRetry = some next →
      t'.recovery.nextRetry = some next)
    (hrequested : t'.requests + t'.recovery.refreshRequested.toNat ≤ t'.switches) : Paced t' := by
  refine ⟨hwaits, ?_, fun last hlast => ?_, ?_, hrequested⟩
  · rw [hattempt, hretries]
    exact h.attempt_eq
  · rw [hretries] at hlast ⊢
    obtain ⟨next, hsome, hle⟩ := h.timer last hlast
    refine ⟨next, hnext next (fun hzero => ?_) hsome, hle⟩
    rw [h.retries_nil hzero] at hlast
    cases hlast
  · rw [hretries]
    exact h.spaced

/-- The delay after the next retry. -/
theorem retryDelay_attempt {t : RecoveryTrace} (h : Paced t) :
    retryDelay (saturatingAdd t.recovery.attempt 1) =
      min (millis 500 * 2 ^ min t.retries.length 4) (secs 5) := by
  have hmax : usizeMax = 18446744073709551615 := rfl
  have hexp : min (saturatingAdd t.recovery.attempt 1 - 1) 4 = min t.retries.length 4 := by
    rw [h.attempt_eq]
    unfold saturatingAdd
    omega
  unfold retryDelay
  rw [hexp]
  rfl

/-- A retry that was handed out has set the timer. -/
theorem Paced.isSome_of_attempt {t : RecoveryTrace} (h : Paced t)
    (hattempt : t.recovery.attempt ≠ 0) : t.recovery.nextRetry.isSome := by
  cases hretries : t.retries.getLast? with
  | none =>
      have hnil := List.getLast?_eq_none_iff.mp hretries
      rw [h.attempt_eq, hnil] at hattempt
      exact absurd rfl hattempt
  | some last =>
      obtain ⟨next, hnext, -⟩ := h.timer last hretries
      rw [hnext]
      rfl

theorem Paced.failed {t : RecoveryTrace} (h : Paced t) (now : ℕ) :
    Paced (t.call (.failed now)) := by
  refine h.keep rfl rfl (fun _ => ?_) (fun next hattempt hnext => ?_) h.requested
  · show (if t.recovery.attempt = 0 then some now else t.recovery.nextRetry).isSome
    split
    · rfl
    · next hattempt => exact h.isSome_of_attempt hattempt
  · show (if t.recovery.attempt = 0 then some now else t.recovery.nextRetry) = some next
    rw [if_neg hattempt, hnext]

theorem Paced.takeDue {t : RecoveryTrace} (h : Paced t) (now : ℕ) :
    Paced (t.call (.takeDue now)) := by
  unfold RecoveryTrace.call
  dsimp only
  rcases t.recovery.takeDue_cases now with ⟨next, hnext, hle, htake⟩ | htake
  · rw [htake]
    have hdelay := retryDelay_attempt h
    refine ⟨fun _ => rfl, ?_, fun last hlast => ?_, ?_, h.requested⟩
    · show saturatingAdd t.recovery.attempt 1 = min (t.retries ++ [now]).length usizeMax
      rw [h.attempt_eq, List.length_append, List.length_singleton]
      unfold saturatingAdd
      omega
    · obtain rfl : now = last := by
        simpa [List.getLast?_concat] using hlast
      refine ⟨_, rfl, ?_⟩
      rw [hdelay]
      simp
    · -- the timer that is due bounds the distance from the last retry
      refine h.spaced.concat fun last hlast => ?_
      obtain ⟨due, hdue, hspace⟩ := h.timer last hlast
      obtain rfl : next = due := Option.some.inj (hnext ▸ hdue)
      exact hspace.trans hle
  · rw [htake]
    exact h

theorem Paced.call {t : RecoveryTrace} (h : Paced t) (c : RecoveryCall) : Paced (t.call c) := by
  cases c with
  | failed now => exact h.failed now
  | pending now =>
      show Paced { t with recovery := t.recovery.pending now }
      unfold DecoderRecovery.pending
      split
      · next hnone =>
          refine h.keep rfl rfl (fun _ => rfl) (fun next _ hnext => ?_) h.requested
          rw [hnext] at hnone
          cases hnone
      · exact h
  | backendSwitched now =>
      refine h.keep rfl rfl (fun _ => rfl) (fun next _ hnext => ?_) ?_
      · show some (t.recovery.nextRetry.getD _) = some next
        rw [hnext]
        rfl
      · have hrequested := h.requested
        show t.requests + 1 ≤ t.switches + 1
        omega
  | takeRefreshRequest =>
      exact h.keep rfl rfl h.waits (fun _ _ hnext => hnext) h.requested
  | acceptsFrame stamped hasKeyframe =>
      show Paced { t with recovery := (t.recovery.acceptsFrame stamped hasKeyframe).2 }
      unfold DecoderRecovery.acceptsFrame
      split
      · exact h
      · refine h.keep rfl rfl (fun hwaits => h.waits (.inr ?_)) (fun _ _ hnext => hnext) h.requested
        rcases hwaits with hwaits | hwaits
        · cases hwaits
        · exact hwaits
  | takeDue now => exact h.takeDue now
  | succeeded =>
      refine ⟨by simp [RecoveryTrace.call, DecoderRecovery.succeeded], rfl, by
        simp [RecoveryTrace.call], ?_, ?_⟩
      · intro k first second hfirst hsecond
        simp [RecoveryTrace.call] at hfirst
      · have hrequested := h.requested
        show t.requests + 0 ≤ t.switches
        omega

theorem paced_after (calls : List RecoveryCall) : Paced (.after calls) := by
  induction calls using List.reverseRecOn with
  | nil => exact paced_start
  | append_singleton calls c ih =>
      rw [RecoveryTrace.after_concat]
      exact ih.call c

/-- **The recovery neither forgets its timer nor spins.**  This holds at any times of the
calls, as a retry sets the next one from its own time. -/
theorem decoderRecovery_paced (calls : List RecoveryCall) :
    let t := RecoveryTrace.after calls
    (t.recovery.waitingForKeyframe = true ∨ t.recovery.needsReset = true →
      t.recovery.nextRetry.isSome) ∧
    (∀ (k first second : ℕ), t.retries[k]? = some first → t.retries[k + 1]? = some second →
      first + min (millis 500 * 2 ^ min k 4) (secs 5) ≤ second) ∧
    t.requests ≤ t.switches := by
  have h := paced_after calls
  have hrequested := h.requested
  exact ⟨h.waits, h.spaced, (Nat.le_add_right _ _).trans hrequested⟩

end RustAdmin.Viewer
