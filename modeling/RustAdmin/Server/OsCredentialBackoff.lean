import Mathlib.Algebra.Order.Ring.Int
import Mathlib.Data.List.Induction
import RustAdmin.Support.Backoff

/-!
# Failed logins with OS credentials

`src/src/server/login_failure_check.rs`: the failed logins of a terminal with the
credentials of the operating system are counted for the whole host, and after the
third one further attempts are refused for a time that doubles with every failure.
The count starts anew after two hours without a failure.

The state is compared with the list of failures alone: `streak` is the part of it that
counts, and `decisionAfter` the decision that it means at a time.  `Reflects` says
that the state stands for these failures; a call that comes later first settles it
(`Reflects.settled`).  As a block is over long before the count starts anew
(`blockMs_lt`), a state and its failures never disagree about a block that is running.
So `evaluate_after` needs no more than the failures and the time.
-/

namespace RustAdmin.Server.OsCredentialBackoff

open RustAdmin.Support

/-- `OS_CREDENTIAL_LOGIN_TOTAL_IDLE_RESET_MS` -/
def totalIdleResetMs : ℤ := 120 * 60 * 1000

/-- `OS_CREDENTIAL_LOGIN_BACKOFF_BASE_SECONDS` -/
def backoffBaseSeconds : ℕ := 15

/-- `OS_CREDENTIAL_LOGIN_BACKOFF_MAX_SECONDS` -/
def backoffMaxSeconds : ℕ := 30 * 60

/-- `i32::MAX` -/
def i32Max : ℕ := 2 ^ 31 - 1

inductive FailureScope
  | default
  | terminalOsLogin
deriving DecidableEq, Repr

inductive AlarmAuditType
  | terminalOsLoginBackoff
deriving DecidableEq, Repr

structure PolicyDecision where
  allowed : Bool
  loginError : Option String
  audit : Option AlarmAuditType
deriving DecidableEq, Repr

structure FailureState where
  totalFailures : ℕ := 0
  backoffUntilMs : Option ℤ := none
  lastFailureMs : Option ℤ := none
deriving DecidableEq, Repr

def isOsCredentialScope : FailureScope → Bool
  | .terminalOsLogin => true
  | .default => false

def backoffAuditTypeForScope : FailureScope → Option AlarmAuditType
  | .terminalOsLogin => some .terminalOsLoginBackoff
  | .default => none

/-- `os_credential_login_backoff_seconds` -/
def backoffSeconds (totalFailures : ℕ) : ℕ :=
  if totalFailures ≤ 2 then 0
  else
    let exp := min (totalFailures - 3) 7
    min (backoffBaseSeconds * 2 ^ exp) backoffMaxSeconds

namespace FailureState

variable (s : FailureState) (now : ℤ)

def normalizeBackoff : FailureState :=
  match s.backoffUntilMs with
  | some untilMs => if untilMs ≤ now then { s with backoffUntilMs := none } else s
  | none => s

/-- The subtraction saturates only above the two hours. -/
def resetTotalsOnIdle : FailureState :=
  match s.lastFailureMs with
  | some lastMs => if totalIdleResetMs ≤ now - lastMs then {} else s
  | none => s

end FailureState

def allowDecision : PolicyDecision := ⟨true, none, none⟩

def blockDecision (loginError : String) (alarmType : Option AlarmAuditType) : PolicyDecision :=
  ⟨false, some loginError, alarmType⟩

/-- The message for a login that is refused until a time. -/
def retryMessage (untilMs now : ℤ) : String :=
  let remainingMs := max (untilMs - now) 0
  let remainingSeconds := max ((remainingMs + 999) / 1000) 1
  let secondsLabel := if remainingSeconds = 1 then "second" else "seconds"
  s!"Please try again in {remainingSeconds} {secondsLabel}."

/-- `evaluate_os_credential_policy` -/
def evaluate (s : FailureState) (scope : FailureScope) (now : ℤ) :
    PolicyDecision × FailureState :=
  if !isOsCredentialScope scope then (allowDecision, s)
  else
    let s := (s.resetTotalsOnIdle now).normalizeBackoff now
    match s.backoffUntilMs with
    | some untilMs =>
        (blockDecision (retryMessage untilMs now) (backoffAuditTypeForScope scope), s)
    | none => (allowDecision, s)

/-- `record_os_credential_failure`, at a time of the clock. -/
def record (s : FailureState) (scope : FailureScope) (now : ℤ) : FailureState :=
  if !isOsCredentialScope scope then s
  else
    let s := (s.resetTotalsOnIdle now).normalizeBackoff now
    let total := min (s.totalFailures + 1) i32Max
    let seconds := backoffSeconds total
    { totalFailures := total
      lastFailureMs := some now
      backoffUntilMs := if 0 < seconds then some (now + seconds * 1000) else s.backoffUntilMs }

/-! ## Calls -/

inductive PolicyCall
  | evaluate (scope : FailureScope) (now : ℤ)
  | record (scope : FailureScope) (now : ℤ)
deriving DecidableEq, Repr

def PolicyCall.time : PolicyCall → ℤ
  | .evaluate _ now => now
  | .record _ now => now

def call (s : FailureState) : PolicyCall → FailureState
  | .evaluate scope now => (evaluate s scope now).2
  | .record scope now => record s scope now

/-- The state after some calls. -/
def after (calls : List PolicyCall) : FailureState := calls.foldl call {}

theorem after_concat (calls : List PolicyCall) (c : PolicyCall) :
    after (calls ++ [c]) = call (after calls) c := by
  simp [after]

/-- The time of a failure that a call records. -/
def PolicyCall.failure : PolicyCall → Option ℤ
  | .record .terminalOsLogin now => some now
  | _ => none

/-- The times of the recorded failures, the last one first. -/
def failures (calls : List PolicyCall) : List ℤ := (calls.filterMap PolicyCall.failure).reverse

theorem failures_concat (calls : List PolicyCall) (c : PolicyCall) :
    failures (calls ++ [c]) = c.failure.toList ++ failures calls := by
  cases h : c.failure <;> simp [failures, h]

/-! ## What the state stands for -/

/-- How many failures there were since two hours passed without one. -/
def streak : List ℤ → ℕ
  | [] => 0
  | [_] => 1
  | time :: last :: older =>
      if totalIdleResetMs ≤ time - last then 1 else streak (last :: older) + 1

/-- The time after `n` failures in a row during which logins are refused. -/
def blockMs (n : ℕ) : ℕ :=
  if n < 3 then 0 else doublingDelay backoffBaseSeconds backoffMaxSeconds (n - 3) * 1000

/-- When the block of the last failure ends. -/
def blockedUntil : List ℤ → Option ℤ
  | [] => none
  | last :: older => some (last + blockMs (streak (last :: older)))

/-- The decision as the failures alone determine it. -/
def decisionAfter (times : List ℤ) (now : ℤ) : PolicyDecision :=
  match blockedUntil times with
  | some untilMs =>
      if now < untilMs then
        blockDecision (retryMessage untilMs now) (some .terminalOsLoginBackoff)
      else allowDecision
  | none => allowDecision

theorem streak_cons_of_idle {times : List ℤ} {now : ℤ}
    (h : ∀ last ∈ times.head?, totalIdleResetMs ≤ now - last) : streak (now :: times) = 1 := by
  cases times with
  | nil => rfl
  | cons last older => exact if_pos (h last rfl)

theorem streak_cons {times : List ℤ} {now last : ℤ} (hhead : times.head? = some last)
    (h : now - last < totalIdleResetMs) : streak (now :: times) = streak times + 1 := by
  cases times with
  | nil => simp at hhead
  | cons first older =>
      obtain rfl : first = last := Option.some.inj hhead
      exact if_neg (not_le.mpr h)

/-- Neither the exponent nor the counter is ever too small for the number of failures. -/
theorem backoffSeconds_eq (n : ℕ) : backoffSeconds (min n i32Max) * 1000 = blockMs n := by
  have hmax : i32Max = 2147483647 := rfl
  unfold backoffSeconds blockMs
  by_cases hfew : n < 3
  · rw [if_pos (show min n i32Max ≤ 2 by omega), if_pos hfew]
  · rw [if_neg (show ¬ min n i32Max ≤ 2 by omega), if_neg hfew]
    have hexp : min (min n i32Max - 3) 7 = min (n - 3) 7 := by omega
    have hcap : backoffMaxSeconds ≤ backoffBaseSeconds * 2 ^ 7 := by decide
    show min (backoffBaseSeconds * 2 ^ min (min n i32Max - 3) 7) backoffMaxSeconds * 1000 = _
    rw [hexp, ← doublingDelay_min hcap]
    rfl

theorem blockMs_mono {m n : ℕ} (hmn : m ≤ n) : blockMs m ≤ blockMs n := by
  unfold blockMs
  split
  · exact Nat.zero_le _
  · rw [if_neg (by omega)]
    exact Nat.mul_le_mul_right 1000 (doublingDelay_mono _ _ (by omega))

/-- A block is over long before the count starts anew. -/
theorem blockMs_lt (n : ℕ) : (blockMs n : ℤ) < totalIdleResetMs := by
  have hle : doublingDelay backoffBaseSeconds backoffMaxSeconds (n - 3) ≤ 1800 :=
    doublingDelay_le _ _ _
  have hreset : totalIdleResetMs = 7200000 := rfl
  unfold blockMs
  split <;> omega

/-! ## The state after the calls -/

/-- A state and the failures that led to it. -/
structure Reflects (times : List ℤ) (now : ℤ) (s : FailureState) : Prop where
  le_now : ∀ last ∈ times.head?, last ≤ now
  idle : s.lastFailureMs = none →
    s = {} ∧ ∀ last ∈ times.head?, totalIdleResetMs ≤ now - last
  counted : ∀ last, s.lastFailureMs = some last →
    times.head? = some last ∧ s.totalFailures = min (streak times) i32Max
  blocked : s.backoffUntilMs = blockedUntil times ∨
    s.backoffUntilMs = none ∧ ∀ untilMs ∈ blockedUntil times, untilMs ≤ now

/-- A state that was brought up to the time of a call. -/
structure Settled (times : List ℤ) (now : ℤ) (s : FailureState) : Prop where
  reflects : Reflects times now s
  recent : ∀ last, s.lastFailureMs = some last → now - last < totalIdleResetMs
  until_eq : s.backoffUntilMs = (blockedUntil times).filter fun untilMs => now < untilMs

theorem blockedUntil_le {times : List ℤ} {now : ℤ}
    (h : ∀ last ∈ times.head?, totalIdleResetMs ≤ now - last) :
    ∀ untilMs ∈ blockedUntil times, untilMs ≤ now := by
  intro untilMs hmem
  cases times with
  | nil => cases hmem
  | cons last older =>
      obtain rfl : last + blockMs (streak (last :: older)) = untilMs := Option.some.inj hmem
      have hidle := h last rfl
      have hblock := blockMs_lt (streak (last :: older))
      omega

theorem Reflects.mono {times : List ℤ} {t now : ℤ} {s : FailureState} (h : Reflects times t s)
    (hle : t ≤ now) : Reflects times now s where
  le_now last hlast := (h.le_now last hlast).trans hle
  idle hnone := ⟨(h.idle hnone).1, fun last hlast => by
    have := (h.idle hnone).2 last hlast
    omega⟩
  counted := h.counted
  blocked := by
    rcases h.blocked with heq | ⟨hnone, hover⟩
    · exact .inl heq
    · exact .inr ⟨hnone, fun untilMs hmem => (hover untilMs hmem).trans hle⟩

theorem Reflects.resetTotalsOnIdle {times : List ℤ} {now : ℤ} {s : FailureState}
    (h : Reflects times now s) :
    Reflects times now (s.resetTotalsOnIdle now) ∧
      ∀ last, (s.resetTotalsOnIdle now).lastFailureMs = some last →
        now - last < totalIdleResetMs := by
  unfold FailureState.resetTotalsOnIdle
  cases hlast : s.lastFailureMs with
  | none => exact ⟨h, fun last hsome => by simp [hlast] at hsome⟩
  | some lastMs =>
      dsimp only
      split
      · next hidle =>
          have hgap : ∀ last ∈ times.head?, totalIdleResetMs ≤ now - last := by
            intro last hmem
            rw [(h.counted lastMs hlast).1] at hmem
            obtain rfl : lastMs = last := Option.some.inj hmem
            exact hidle
          refine ⟨⟨h.le_now, fun _ => ⟨rfl, hgap⟩, fun last hsome => ?_, ?_⟩, fun last hsome => ?_⟩
          · cases hsome
          · exact .inr ⟨rfl, blockedUntil_le hgap⟩
          · cases hsome
      · next hrecent =>
          refine ⟨h, fun last hsome => ?_⟩
          obtain rfl : lastMs = last := Option.some.inj (hlast ▸ hsome)
          exact not_le.mp hrecent

theorem Reflects.settled {times : List ℤ} {now : ℤ} {s : FailureState}
    (h : Reflects times now s) :
    Settled times now ((s.resetTotalsOnIdle now).normalizeBackoff now) := by
  obtain ⟨hreset, hrecent⟩ := h.resetTotalsOnIdle
  generalize s.resetTotalsOnIdle now = s at hreset hrecent
  rcases hreset.blocked with heq | ⟨hnone, hover⟩
  · -- the end of the last block is still there, and goes if it is over
    cases huntil : s.backoffUntilMs with
    | none =>
        have hsame : s.normalizeBackoff now = s := by
          unfold FailureState.normalizeBackoff
          rw [huntil]
        rw [hsame]
        exact ⟨hreset, hrecent, by rw [← heq, huntil]; rfl⟩
    | some untilMs =>
        have hends : blockedUntil times = some untilMs := heq ▸ huntil
        by_cases hle : untilMs ≤ now
        · have hcleared : s.normalizeBackoff now = { s with backoffUntilMs := none } := by
            unfold FailureState.normalizeBackoff
            rw [huntil]
            exact if_pos hle
          have hover : ∀ u ∈ blockedUntil times, u ≤ now := by
            intro u hu
            obtain rfl : untilMs = u := Option.some.inj (hends ▸ hu)
            exact hle
          rw [hcleared]
          refine ⟨⟨hreset.le_now, fun hlast => ?_, hreset.counted, .inr ⟨rfl, hover⟩⟩, hrecent, ?_⟩
          · obtain ⟨hempty, hgap⟩ := hreset.idle hlast
            rw [hempty] at huntil
            cases huntil
          · rw [hends, Option.filter_some_neg (by simpa using hle)]
        · have hsame : s.normalizeBackoff now = s := by
            unfold FailureState.normalizeBackoff
            rw [huntil]
            exact if_neg hle
          rw [hsame]
          refine ⟨hreset, hrecent, ?_⟩
          rw [huntil, hends, Option.filter_some_pos (by simpa using hle)]
  · have hsame : s.normalizeBackoff now = s := by
      unfold FailureState.normalizeBackoff
      rw [hnone]
    rw [hsame]
    refine ⟨hreset, hrecent, ?_⟩
    rw [hnone]
    symm
    rw [Option.filter_eq_none_iff]
    intro untilMs hmem
    simpa using hover untilMs hmem

/-- The counter after one more failure. -/
theorem Settled.total_succ {times : List ℤ} {now : ℤ} {s : FailureState}
    (h : Settled times now s) :
    min (s.totalFailures + 1) i32Max = min (streak (now :: times)) i32Max := by
  cases hlast : s.lastFailureMs with
  | none =>
      obtain ⟨hempty, hgap⟩ := h.reflects.idle hlast
      rw [streak_cons_of_idle hgap, hempty]
  | some last =>
      obtain ⟨hhead, htotal⟩ := h.reflects.counted last hlast
      rw [streak_cons hhead (h.recent last hlast), htotal]
      omega

/-- A block that is running has come from failures enough. -/
theorem Settled.until_none {times : List ℤ} {now : ℤ} {s : FailureState}
    (h : Settled times now s) (hfew : blockMs (streak (now :: times)) = 0) :
    s.backoffUntilMs = none := by
  cases hlast : s.lastFailureMs with
  | none => rw [(h.reflects.idle hlast).1]
  | some last =>
      obtain ⟨hhead, -⟩ := h.reflects.counted last hlast
      have hmono := blockMs_mono (Nat.le_add_right (streak times) 1)
      rw [← streak_cons hhead (h.recent last hlast), hfew] at hmono
      rw [h.until_eq, Option.filter_eq_none_iff]
      intro untilMs hmem
      cases times with
      | nil => cases hmem
      | cons first older =>
          obtain rfl : first + blockMs (streak (first :: older)) = untilMs := Option.some.inj hmem
          have hle := h.reflects.le_now first rfl
          rw [decide_eq_true_iff]
          omega

theorem Reflects.record {times : List ℤ} {now : ℤ} {s : FailureState}
    (h : Reflects times now s) :
    Reflects (now :: times) now (record s .terminalOsLogin now) := by
  have hsettled := h.settled
  show Reflects (now :: times) now
    { totalFailures := min (((s.resetTotalsOnIdle now).normalizeBackoff now).totalFailures + 1)
        i32Max
      lastFailureMs := some now
      backoffUntilMs := _ }
  generalize (s.resetTotalsOnIdle now).normalizeBackoff now = s at hsettled ⊢
  have hblock := backoffSeconds_eq (streak (now :: times))
  rw [hsettled.total_succ]
  refine ⟨?_, fun hnone => ?_, fun last hlast => ?_, ?_⟩
  · intro last hlast
    exact (Option.some.inj hlast).symm.le
  · cases hnone
  · obtain rfl : now = last := Option.some.inj hlast
    exact ⟨rfl, rfl⟩
  · dsimp only
    split
    · refine .inl ?_
      show _ = some (now + (blockMs (streak (now :: times)) : ℤ))
      rw [← hblock]
      push_cast
      rfl
    · have hfew : blockMs (streak (now :: times)) = 0 := by omega
      refine .inr ⟨hsettled.until_none hfew, fun untilMs hmem => ?_⟩
      obtain rfl : now + blockMs (streak (now :: times)) = untilMs := Option.some.inj hmem
      omega

theorem Reflects.evaluate {times : List ℤ} {now : ℤ} {s : FailureState}
    (h : Reflects times now s) :
    (evaluate s .terminalOsLogin now).1 = decisionAfter times now ∧
      Reflects times now (evaluate s .terminalOsLogin now).2 := by
  have hsettled := h.settled
  have hsplit : OsCredentialBackoff.evaluate s .terminalOsLogin now =
      match ((s.resetTotalsOnIdle now).normalizeBackoff now).backoffUntilMs with
      | some untilMs => (blockDecision (retryMessage untilMs now) (some .terminalOsLoginBackoff),
          (s.resetTotalsOnIdle now).normalizeBackoff now)
      | none => (allowDecision, (s.resetTotalsOnIdle now).normalizeBackoff now) := rfl
  rw [hsplit]
  generalize (s.resetTotalsOnIdle now).normalizeBackoff now = s at hsettled ⊢
  unfold decisionAfter
  rw [hsettled.until_eq]
  cases hends : blockedUntil times with
  | none => exact ⟨rfl, hsettled.reflects⟩
  | some untilMs =>
      by_cases hlt : now < untilMs
      · rw [Option.filter_some_pos (by simpa using hlt)]
        exact ⟨(if_pos hlt).symm, hsettled.reflects⟩
      · rw [Option.filter_some_neg (by simpa using hlt)]
        exact ⟨(if_neg hlt).symm, hsettled.reflects⟩

/-- A call keeps what the state stands for. -/
theorem Reflects.call {times : List ℤ} {s : FailureState} {c : PolicyCall}
    (h : Reflects times c.time s) : Reflects (c.failure.toList ++ times) c.time (call s c) := by
  cases c with
  | evaluate scope now =>
      cases scope with
      | default => exact h
      | terminalOsLogin => exact h.evaluate.2
  | record scope now =>
      cases scope with
      | default => exact h
      | terminalOsLogin => exact h.record

/-- Calls at times that do not go back, up to a time. -/
structure Ordered (calls : List PolicyCall) (now : ℤ) : Prop where
  sorted : (calls.map PolicyCall.time).Pairwise (· ≤ ·)
  le_now : ∀ c ∈ calls, c.time ≤ now

theorem ordered_concat {calls : List PolicyCall} {c : PolicyCall} {now : ℤ} :
    Ordered (calls ++ [c]) now ↔ Ordered calls c.time ∧ c.time ≤ now := by
  constructor
  · rintro ⟨hsorted, hle⟩
    rw [List.map_append, List.pairwise_append] at hsorted
    refine ⟨⟨hsorted.1, fun earlier hmem => ?_⟩, hle c (by simp)⟩
    exact hsorted.2.2 _ (List.mem_map_of_mem hmem) _ (by simp)
  · rintro ⟨hordered, hle⟩
    refine ⟨?_, fun earlier hmem => ?_⟩
    · rw [List.map_append, List.pairwise_append]
      refine ⟨hordered.sorted, by simp, fun time htime last hlast => ?_⟩
      obtain ⟨earlier, hmem, rfl⟩ := List.mem_map.mp htime
      obtain rfl : last = c.time := by simpa using hlast
      exact hordered.le_now earlier hmem
    · rcases List.mem_append.mp hmem with hmem | hmem
      · exact (hordered.le_now earlier hmem).trans hle
      · obtain rfl := List.mem_singleton.mp hmem
        exact hle

theorem reflects_after {calls : List PolicyCall} {now : ℤ} (h : Ordered calls now) :
    Reflects (failures calls) now (after calls) := by
  induction calls using List.reverseRecOn generalizing now with
  | nil => exact ⟨by simp [failures], fun _ => ⟨rfl, by simp [failures]⟩, by simp [after], .inl rfl⟩
  | append_singleton calls c ih =>
      obtain ⟨hcalls, hle⟩ := ordered_concat.mp h
      rw [after_concat, failures_concat]
      exact (ih hcalls).call.mono hle

/-- The decision depends on the recorded failures and the time alone. -/
theorem evaluate_after {calls : List PolicyCall} {now : ℤ} (h : Ordered calls now) :
    (evaluate (after calls) .terminalOsLogin now).1 = decisionAfter (failures calls) now :=
  (reflects_after h).evaluate.1

/-! ## The block -/

/-- A login is refused. -/
def Refuses (s : FailureState) (now : ℤ) : Prop :=
  (evaluate s .terminalOsLogin now).1.allowed = false

theorem decisionAfter_refuses {times : List ℤ} {now : ℤ} :
    (decisionAfter times now).allowed = false ↔ ∃ untilMs ∈ blockedUntil times, now < untilMs := by
  unfold decisionAfter
  cases blockedUntil times with
  | none => simp [allowDecision]
  | some untilMs =>
      by_cases hlt : now < untilMs
      · simp [hlt, blockDecision]
      · simp [hlt, allowDecision]

theorem refuses_after_iff {calls : List PolicyCall} {now : ℤ} (h : Ordered calls now) :
    Refuses (after calls) now ↔ ∃ untilMs ∈ blockedUntil (failures calls), now < untilMs := by
  unfold Refuses
  rw [evaluate_after h, decisionAfter_refuses]

/-- Before the third failure nothing is refused, as the last failure is not in the future. -/
theorem blockedUntil_iff {times : List ℤ} {now : ℤ} (h : ∀ last ∈ times.head?, last ≤ now) :
    (∃ untilMs ∈ blockedUntil times, now < untilMs) ↔ 3 ≤ streak times ∧ ∃ last ∈ times.head?,
      now < last + (min (15 * 2 ^ (streak times - 3)) 1800 : ℕ) * 1000 := by
  cases times with
  | nil => simp [blockedUntil]
  | cons last older =>
      have hle := h last rfl
      have hblock : 3 ≤ streak (last :: older) → blockMs (streak (last :: older)) =
          min (15 * 2 ^ (streak (last :: older) - 3)) 1800 * 1000 :=
        fun hmany => if_neg (not_lt.mpr hmany)
      constructor
      · rintro ⟨untilMs, hmem, hlt⟩
        obtain rfl : last + blockMs (streak (last :: older)) = untilMs := Option.some.inj hmem
        have hmany : 3 ≤ streak (last :: older) := by
          by_contra hfew
          have hzero : blockMs (streak (last :: older)) = 0 := if_pos (not_le.mp hfew)
          rw [hzero] at hlt
          omega
        rw [hblock hmany] at hlt
        exact ⟨hmany, last, rfl, by exact_mod_cast hlt⟩
      · rintro ⟨hmany, first, hfirst, hlt⟩
        obtain rfl : last = first := Option.some.inj hfirst
        refine ⟨_, rfl, ?_⟩
        rw [hblock hmany]
        exact_mod_cast hlt

/-- A failure during a block moves its end, never towards the present. -/
theorem blockedUntil_cons {times : List ℤ} {time now : ℤ}
    (hle : ∀ last ∈ times.head?, last ≤ time) (htime : time ≤ now)
    (h : ∃ untilMs ∈ blockedUntil times, now < untilMs) :
    ∃ untilMs ∈ blockedUntil (time :: times), now < untilMs := by
  obtain ⟨untilMs, hmem, hlt⟩ := h
  refine ⟨_, rfl, ?_⟩
  cases times with
  | nil => cases hmem
  | cons last older =>
      obtain rfl : last + blockMs (streak (last :: older)) = untilMs := Option.some.inj hmem
      have hlast := hle last rfl
      have hshort := blockMs_lt (streak (last :: older))
      have hrecent : time - last < totalIdleResetMs := by omega
      have hmono := blockMs_mono (Nat.le_add_right (streak (last :: older)) 1)
      rw [streak_cons rfl hrecent]
      omega

/-- **The back-off of OS logins.**  From the third failure in a row on, logins are refused
exactly for the time that its number sets; another failure never ends a block earlier;
and what was evaluated before makes no difference. -/
theorem osCredential_backoff {calls : List PolicyCall} {time : ℤ} (h : Ordered calls time) :
    (∀ now, time ≤ now → (Refuses (after calls) now ↔
      3 ≤ streak (failures calls) ∧ ∃ last ∈ (failures calls).head?,
        now < last + (min (15 * 2 ^ (streak (failures calls) - 3)) 1800 : ℕ) * 1000)) ∧
    (∀ now, time ≤ now → Refuses (after calls) now →
      Refuses (after (calls ++ [.record .terminalOsLogin time])) now) ∧
    ∀ other, Ordered other time → failures other = failures calls → ∀ now, time ≤ now →
      (evaluate (after other) .terminalOsLogin now).1 =
        (evaluate (after calls) .terminalOsLogin now).1 := by
  have hmono : ∀ {calls : List PolicyCall} {now : ℤ}, Ordered calls time → time ≤ now →
      Ordered calls now :=
    fun hcalls hle => ⟨hcalls.sorted, fun c hc => (hcalls.le_now c hc).trans hle⟩
  refine ⟨fun now hle => ?_, fun now hle hrefuses => ?_, fun other hother hsame now hle => ?_⟩
  · rw [refuses_after_iff (hmono h hle)]
    exact blockedUntil_iff (reflects_after (hmono h hle)).le_now
  · have hrecorded : Ordered (calls ++ [.record .terminalOsLogin time]) now :=
      ordered_concat.mpr ⟨h, hle⟩
    rw [refuses_after_iff (hmono h hle)] at hrefuses
    rw [refuses_after_iff hrecorded, failures_concat]
    exact blockedUntil_cons (reflects_after h).le_now hle hrefuses
  · rw [evaluate_after (hmono h hle), evaluate_after (hmono hother hle), hsame]

/-- Three failures within two seconds, and a login in between that is still allowed. -/
theorem osCredential_backoff_three :
    Refuses (after [.record .terminalOsLogin 0, .record .terminalOsLogin 1000,
      .evaluate .terminalOsLogin 1500, .record .terminalOsLogin 2000]) 16999 := by
  have hordered : Ordered [.record .terminalOsLogin 0, .record .terminalOsLogin 1000,
      .evaluate .terminalOsLogin 1500, .record .terminalOsLogin 2000] 2000 :=
    ⟨by decide, by decide⟩
  exact ((osCredential_backoff hordered).1 16999 (by decide)).mpr ⟨by decide, 2000, rfl, by decide⟩

end RustAdmin.Server.OsCredentialBackoff
