import Mathlib.Logic.Function.Basic
import RustAdmin.Support.Arith

/-!
# Wrong passwords

`check_failure` and `update_failure` of `src/src/server/connection.rs`: the host
counts the wrong passwords of an address, and of the networks an IPv6 address
lies in, and does not look at a password while one of the counts is too high.

An attempt touches each of its counters once (`attempt_keyEffect`), so the bounds are
proved for one counter and any predicate on attempts that are counted in it.
`wrong_add_total_le` is the induction over the attempts: without a success the counter
takes in every wrong password, and the check stops it behind its limit.  The bound for
a minute is the same induction on the count of the minute, which begins again once the
minute is over (`wrong_of_over`).  Attempts between two successes are a part of the
log (`outcomes_of_infix`).
-/

namespace RustAdmin.Server.LoginFailures

open RustAdmin.Support

/-! ## Addresses and counters -/

/-- The address of a connection; one of version 6 may name a zone. -/
inductive Address
  | v4 (bits : BitVec 32)
  | v6 (bits : BitVec 128) (zone : String)
deriving DecidableEq, Repr

/-- The keys of a map of `LOGIN_FAILURES`. -/
inductive FailureKey
  | ip (address : Address)
  | net (len : ℕ) (bits : BitVec 128)
deriving DecidableEq, Repr

/-- `mask_u128`. -/
def maskU128 (bits : BitVec 128) (len : ℕ) : BitVec 128 :=
  bits &&& if len = 0 ∨ 128 < len then 0 else BitVec.allOnes 128 <<< (128 - len)

/-- An entry: the minute of the last wrong password, the wrong passwords in that
minute, and all of them. -/
structure Failure where
  minute : ℤ
  inMinute : ℕ
  total : ℕ
deriving DecidableEq, Repr

def Failure.none : Failure := ⟨0, 0, 0⟩

/-- `bump_failure_entry`. -/
def Failure.bump (failure : Failure) (time : ℤ) : Failure :=
  if failure.minute = time then
    ⟨failure.minute, failure.inMinute + 1, failure.total + 1⟩
  else ⟨time, 1, failure.total + 1⟩

/-- A map of `LOGIN_FAILURES`. -/
abbrev Failures := FailureKey → Option Failure

def Failures.empty : Failures := fun _ => Option.none

def Failures.entry (failures : Failures) (key : FailureKey) : Failure :=
  (failures key).getD .none

def Failures.bump (failures : Failures) (time : ℤ) (key : FailureKey) : Failures :=
  Function.update failures key (some ((failures.entry key).bump time))

def Failures.remove (failures : Failures) (key : FailureKey) : Failures :=
  Function.update failures key Option.none

/-! ## Check and update -/

/-- The lengths of the networks of `get_ipv6_prefixes`, with the counts up to
which they are served. -/
def prefixLimits : List (ℕ × ℕ) := [(64, 60), (56, 80), (48, 100)]

/-- The networks of an address, in the order in which they are checked. -/
def Address.nets : Address → List FailureKey
  | .v4 _ => []
  | .v6 bits _ => prefixLimits.map fun limit => .net limit.1 (maskU128 bits limit.1)

/-- The keys of an address. -/
def Address.keys (address : Address) : List FailureKey := address.nets ++ [.ip address]

/-- The clock minute of a time in milliseconds. -/
def clockMinute (time : ℤ) : ℤ := time.tdiv 60000

/-- `check_failure_ipv6_prefix` for the networks one after the other: the error
of the first one that is over its limit. -/
def Failures.overLimit (failures : Failures) : Address → Option String
  | .v4 _ => Option.none
  | .v6 bits _ => prefixLimits.findSome? fun (len, limit) =>
      if limit < (failures.entry (.net len (maskU128 bits len))).total then
        some s!"Too many wrong attempts for IPv6 prefix /{len}"
      else Option.none

/-- `check_failure`: the entry of the address, or the error that is sent. -/
def Failures.checkFailure (failures : Failures) (address : Address) (time : ℤ) :
    Except String Failure :=
  match failures.overLimit address with
  | some error => .error error
  | Option.none =>
      let failure := failures.entry (.ip address)
      if 30 < failure.total then .error "Too many wrong attempts"
      else if castI32 (clockMinute time) = failure.minute ∧ 6 < failure.inMinute then
        .error "Please try 1 minute later"
      else .ok failure

/-- `update_failure`, with the entry and the time of the check. -/
def Failures.updateFailure (failures : Failures) (address : Address) (failure : Failure)
    (time : ℤ) (remove : Bool) : Failures :=
  if remove then
    if failure.minute ≠ 0 then address.keys.foldl Failures.remove failures else failures
  else address.keys.foldl (Failures.bump · (castI32 (clockMinute time))) failures

/-! ## Attempts -/

/-- A login with a password, right or wrong. -/
structure Attempt where
  address : Address
  time : ℤ
  right : Bool
deriving DecidableEq, Repr

inductive Outcome
  | blocked (error : String)
  | rejected
  | accepted
deriving DecidableEq, Repr

/-- The password branch of `on_message`. -/
def Failures.attempt (failures : Failures) (a : Attempt) : Outcome × Failures :=
  match failures.checkFailure a.address a.time with
  | .error error => (.blocked error, failures)
  | .ok failure =>
      if a.right then (.accepted, failures.updateFailure a.address failure a.time true)
      else (.rejected, failures.updateFailure a.address failure a.time false)

/-- What becomes of a sequence of attempts. -/
def Failures.outcomes (failures : Failures) : List Attempt → List (Attempt × Outcome)
  | [] => []
  | a :: rest => (a, (failures.attempt a).1) :: (failures.attempt a).2.outcomes rest

/-! ## One attempt -/

theorem nodup_keys (address : Address) : address.keys.Nodup := by
  cases address <;> simp [Address.keys, Address.nets, prefixLimits]

/-- Keys that are bumped one after the other are bumped each once. -/
theorem entry_foldl_bump (time : ℤ) {keys : List FailureKey} (hkeys : keys.Nodup)
    (failures : Failures) (key : FailureKey) :
    (keys.foldl (Failures.bump · time) failures).entry key =
      if key ∈ keys then (failures.entry key).bump time else failures.entry key := by
  induction keys generalizing failures with
  | nil => simp
  | cons first keys ih =>
      obtain ⟨hfirst, hrest⟩ := List.nodup_cons.mp hkeys
      have hbump : (failures.bump time first).entry key =
          if key = first then (failures.entry first).bump time else failures.entry key := by
        unfold Failures.bump Failures.entry
        rw [Function.update_apply]
        split <;> rfl
      rw [List.foldl_cons, ih hrest, hbump]
      by_cases hkey : key = first
      · subst hkey
        rw [if_neg hfirst, if_pos rfl, if_pos List.mem_cons_self]
      · simp [hkey]

theorem entry_foldl_remove (keys : List FailureKey) (failures : Failures) {key : FailureKey}
    (hkey : key ∉ keys) : (keys.foldl Failures.remove failures).entry key = failures.entry key := by
  induction keys generalizing failures with
  | nil => rfl
  | cons first keys ih =>
      rw [List.mem_cons, not_or] at hkey
      rw [List.foldl_cons, ih _ hkey.2]
      unfold Failures.remove Failures.entry
      rw [Function.update_of_ne hkey.1]

/-- An attempt that is blocked is blocked whatever the password, and leaves the
counters as they are. -/
theorem attempt_of_error {failures : Failures} {address : Address} {time : ℤ} {error : String}
    (h : failures.checkFailure address time = .error error) (right : Bool) :
    failures.attempt ⟨address, time, right⟩ = (.blocked error, failures) := by
  simp only [Failures.attempt, h]

/-- What an attempt does to one counter: a wrong password of the key is counted,
where the check has passed; a right one may remove it; nothing else touches it. -/
inductive KeyEffect (failures : Failures) (a : Attempt) (key : FailureKey) :
    Outcome → Failures → Prop
  | kept (outcome : Outcome) (failures' : Failures)
      (hother : outcome = .rejected → key ∉ a.address.keys)
      (hentry : failures'.entry key = failures.entry key) :
      KeyEffect failures a key outcome failures'
  | counted (failures' : Failures) (failure : Failure) (hkey : key ∈ a.address.keys)
      (hcheck : failures.checkFailure a.address a.time = .ok failure)
      (hentry : failures'.entry key =
        (failures.entry key).bump (castI32 (clockMinute a.time))) :
      KeyEffect failures a key .rejected failures'
  | removed (failures' : Failures) (hkey : key ∈ a.address.keys) :
      KeyEffect failures a key .accepted failures'

theorem attempt_keyEffect (failures : Failures) (a : Attempt) (key : FailureKey) :
    KeyEffect failures a key (failures.attempt a).1 (failures.attempt a).2 := by
  unfold Failures.attempt
  cases hcheck : failures.checkFailure a.address a.time with
  | error error => exact .kept _ _ nofun rfl
  | ok failure =>
      dsimp only
      split
      · unfold Failures.updateFailure
        by_cases hkey : key ∈ a.address.keys
        · exact .removed _ hkey
        · refine .kept _ _ nofun ?_
          rw [if_pos rfl]
          split
          · exact entry_foldl_remove _ _ hkey
          · rfl
      · have hentry := entry_foldl_bump (castI32 (clockMinute a.time)) (nodup_keys a.address)
          failures key
        by_cases hkey : key ∈ a.address.keys
        · rw [if_pos hkey] at hentry
          exact .counted _ failure hkey hcheck hentry
        · rw [if_neg hkey] at hentry
          exact .kept _ _ (fun _ => hkey) hentry

/-! ## Keys and addresses -/

/-- The address lies in the network of this length around the bits. -/
def Address.inNet (len : ℕ) (bits : BitVec 128) : Address → Bool
  | .v4 _ => false
  | .v6 bits' _ => maskU128 bits' len == maskU128 bits len

theorem ip_mem_keys_iff {address other : Address} :
    FailureKey.ip address ∈ other.keys ↔ other = address := by
  cases other <;> simp [Address.keys, Address.nets, eq_comm]

theorem net_mem_keys_iff {len limit : ℕ} (hlen : (len, limit) ∈ prefixLimits) {bits : BitVec 128}
    {address : Address} :
    FailureKey.net len (maskU128 bits len) ∈ address.keys ↔ address.inNet len bits = true := by
  cases address with
  | v4 bits' => simp [Address.keys, Address.nets, Address.inNet]
  | v6 bits' zone =>
      have hmem : FailureKey.net len (maskU128 bits len) ∈ (Address.v6 bits' zone).keys ↔
          maskU128 bits len = maskU128 bits' len := by
        unfold prefixLimits at hlen
        simp only [List.mem_cons, Prod.mk.injEq, List.not_mem_nil, or_false] at hlen
        obtain ⟨rfl, -⟩ | ⟨rfl, -⟩ | ⟨rfl, -⟩ := hlen <;>
          simp [Address.keys, Address.nets, prefixLimits]
      rw [hmem, Address.inNet, beq_iff_eq, eq_comm]

/-- A network within a longer one lies in it. -/
theorem inNet_48_of_inNet {len limit : ℕ} (hlen : (len, limit) ∈ prefixLimits)
    {bits : BitVec 128} {address : Address} (h : address.inNet len bits = true) :
    address.inNet 48 bits = true := by
  cases address with
  | v4 bits' => simp [Address.inNet] at h
  | v6 bits' zone =>
      have hmask : ∀ bits : BitVec 128, maskU128 bits 48 = maskU128 (maskU128 bits len) 48 := by
        intro bits
        unfold prefixLimits at hlen
        simp only [List.mem_cons, Prod.mk.injEq, List.not_mem_nil, or_false] at hlen
        unfold maskU128
        rw [BitVec.and_assoc]
        congr 1
        obtain ⟨rfl, -⟩ | ⟨rfl, -⟩ | ⟨rfl, -⟩ := hlen <;> decide
      simp only [Address.inNet, beq_iff_eq] at h ⊢
      rw [hmask bits', h, ← hmask bits]

/-! ## What the check lets pass -/

theorem checkFailure_eq_ok {failures : Failures} {address : Address} {time : ℤ}
    {failure : Failure} (h : failures.checkFailure address time = .ok failure) :
    failures.overLimit address = Option.none ∧ (failures.entry (.ip address)).total ≤ 30 ∧
      (castI32 (clockMinute time) = (failures.entry (.ip address)).minute →
        (failures.entry (.ip address)).inMinute ≤ 6) := by
  unfold Failures.checkFailure at h
  split at h
  · simp at h
  · next hover =>
      dsimp only at h
      split at h
      · simp at h
      · next htotal =>
          split at h
          · simp at h
          · next hminute =>
              refine ⟨hover, not_lt.mp htotal, fun hsame => ?_⟩
              exact not_lt.mp fun hmany => hminute ⟨hsame, hmany⟩

/-- An address is let pass only while the counter of each of its networks is
within its limit. -/
theorem total_le_of_checkFailure {failures : Failures} {address : Address} {time : ℤ}
    {failure : Failure} (h : failures.checkFailure address time = .ok failure) {len limit : ℕ}
    (hlen : (len, limit) ∈ prefixLimits) {bits : BitVec 128}
    (hkey : FailureKey.net len (maskU128 bits len) ∈ address.keys) :
    (failures.entry (.net len (maskU128 bits len))).total ≤ limit := by
  have hnet := (net_mem_keys_iff hlen).mp hkey
  obtain ⟨hover, -⟩ := checkFailure_eq_ok h
  cases address with
  | v4 bits' => simp [Address.inNet] at hnet
  | v6 bits' zone =>
      have hmask : maskU128 bits' len = maskU128 bits len := by
        simpa [Address.inNet] using hnet
      have hnone := List.findSome?_eq_none_iff.mp hover (len, limit) hlen
      dsimp only at hnone
      rw [hmask] at hnone
      split at hnone
      · simp at hnone
      · next hle => exact not_lt.mp hle

/-! ## Counting -/

/-- The wrong passwords that were looked at, from the addresses with `p`. -/
def wrong (p : Attempt → Bool) (log : List (Attempt × Outcome)) : ℕ :=
  log.countP fun entry => entry.2 = .rejected ∧ p entry.1

/-- No right password from the addresses with `p`. -/
def NoSuccess (p : Attempt → Bool) (log : List (Attempt × Outcome)) : Prop :=
  ∀ entry ∈ log, entry.2 = .accepted → p entry.1 = false

def ofKey (key : FailureKey) (a : Attempt) : Bool := key ∈ a.address.keys

theorem bump_total (failure : Failure) (time : ℤ) :
    (failure.bump time).total = failure.total + 1 := by
  unfold Failure.bump
  split <;> rfl

/-- As long as no success removes a counter it counts, and the check stops it
behind its limit. -/
theorem wrong_add_total_le {key : FailureKey} {limit : ℕ}
    (hlimit : ∀ (failures : Failures) (a : Attempt) failure, key ∈ a.address.keys →
      failures.checkFailure a.address a.time = .ok failure →
        (failures.entry key).total ≤ limit) (attempts : List Attempt) :
    ∀ failures : Failures, NoSuccess (ofKey key) (failures.outcomes attempts) →
      wrong (ofKey key) (failures.outcomes attempts) + (failures.entry key).total ≤
        max (limit + 1) (failures.entry key).total := by
  induction attempts with
  | nil =>
      intro failures _
      simp [Failures.outcomes, wrong]
  | cons a rest ih =>
      intro failures hsuccess
      obtain ⟨hfirst, hrest⟩ := List.forall_mem_cons.mp hsuccess
      have hnext := ih _ hrest
      have heffect := attempt_keyEffect failures a key
      rw [Failures.outcomes, wrong, List.countP_cons]
      unfold wrong at hnext
      generalize (failures.attempt a).1 = outcome at hfirst heffect ⊢
      generalize (failures.attempt a).2 = failures' at hnext heffect ⊢
      cases heffect with
      | kept _ _ hother hentry =>
          have hnone : ¬ (outcome = .rejected ∧ ofKey key a = true) := by
            rintro ⟨hrejected, hkey⟩
            exact hother hrejected (of_decide_eq_true hkey)
          rw [hentry] at hnext
          simpa [hnone] using hnext
      | counted _ failure hkey hcheck hentry =>
          have hle := hlimit failures a failure hkey hcheck
          have hone : ofKey key a = true := decide_eq_true hkey
          rw [hentry, bump_total] at hnext
          simp only [hone, and_self, decide_true, if_true] at hnext ⊢
          omega
      | removed _ hkey =>
          have hnot := hfirst rfl
          simp [ofKey, hkey] at hnot

theorem wrong_le {key : FailureKey} {limit : ℕ}
    (hlimit : ∀ (failures : Failures) (a : Attempt) failure, key ∈ a.address.keys →
      failures.checkFailure a.address a.time = .ok failure →
        (failures.entry key).total ≤ limit) (attempts : List Attempt) (failures : Failures)
    (hsuccess : NoSuccess (ofKey key) (failures.outcomes attempts)) :
    wrong (ofKey key) (failures.outcomes attempts) ≤ limit + 1 := by
  have hbound := wrong_add_total_le hlimit attempts failures hsuccess
  omega

/-! ## The clock minute -/

theorem clockMinute_mono {time time' : ℤ} (h : time ≤ time') :
    clockMinute time ≤ clockMinute time' :=
  Int.tdiv_le_tdiv (by omega) h

def ofMinute (address : Address) (minute : ℤ) (a : Attempt) : Bool :=
  a.address = address ∧ clockMinute a.time = minute

/-- The times of the attempts do not go back. -/
def ClockForward (log : List (Attempt × Outcome)) : Prop :=
  log.Pairwise fun first second => first.1.time ≤ second.1.time

/-- The entry after a wrong password that has passed the check. -/
theorem inMinute_bump {failure : Failure} {minute : ℤ}
    (hcheck : minute = failure.minute → failure.inMinute ≤ 6) :
    1 ≤ (failure.bump minute).inMinute ∧ (failure.bump minute).inMinute ≤ 7 ∧
      (failure.bump minute).minute = minute ∧
      (failure.minute = minute → (failure.bump minute).inMinute = failure.inMinute + 1) := by
  unfold Failure.bump
  split
  · next hsame =>
      have hle := hcheck hsame.symm
      exact ⟨Nat.le_add_left 1 _, Nat.succ_le_succ hle, hsame, fun _ => rfl⟩
  · next hother =>
      have hone : 1 ≤ 7 := by decide
      exact ⟨le_refl 1, hone, rfl, fun hsame => absurd hsame hother⟩

/-- A minute that is over gets no more wrong passwords. -/
theorem wrong_of_over {address : Address} {minute : ℤ} {log : List (Attempt × Outcome)}
    (hover : ∀ entry ∈ log, minute < clockMinute entry.1.time) :
    wrong (ofMinute address minute) log = 0 := by
  refine List.countP_eq_zero.mpr fun entry hentry hcounted => ?_
  have hin := (of_decide_eq_true (of_decide_eq_true hcounted).2).2
  have := hover entry hentry
  omega

/-- The wrong passwords of a minute; those to come are counted on top of the ones
its entry already holds, once the minute has begun. -/
theorem wrong_minute_le {address : Address} {minute : ℤ} (attempts : List Attempt) :
    ∀ failures : Failures, NoSuccess (ofKey (.ip address)) (failures.outcomes attempts) →
      ClockForward (failures.outcomes attempts) →
        wrong (ofMinute address minute) (failures.outcomes attempts) ≤ 7 ∧
          ((failures.entry (.ip address)).minute = castI32 minute →
            (∀ entry ∈ failures.outcomes attempts, minute ≤ clockMinute entry.1.time) →
              wrong (ofMinute address minute) (failures.outcomes attempts) +
                  (failures.entry (.ip address)).inMinute ≤
                max 7 (failures.entry (.ip address)).inMinute) := by
  induction attempts with
  | nil =>
      intro failures _ _
      simp [Failures.outcomes, wrong]
  | cons a rest ih =>
      intro failures hsuccess hclock
      obtain ⟨hfirst, hrest⟩ := List.forall_mem_cons.mp hsuccess
      obtain ⟨hlater, hclock⟩ := List.pairwise_cons.mp hclock
      obtain ⟨hcount, hheld⟩ := ih _ hrest hclock
      have heffect := attempt_keyEffect failures a (.ip address)
      rw [Failures.outcomes, wrong, List.countP_cons]
      unfold wrong at hcount hheld
      generalize (failures.attempt a).1 = outcome at hfirst heffect ⊢
      generalize (failures.attempt a).2 = failures' at hlater hcount hheld heffect ⊢
      cases heffect with
      | kept _ _ hother hentry =>
          have hnone : ¬ (outcome = .rejected ∧ ofMinute address minute a = true) := by
            rintro ⟨hrejected, hminute⟩
            exact hother hrejected (ip_mem_keys_iff.mpr (of_decide_eq_true hminute).1)
          rw [hentry] at hheld
          simp only [hnone, decide_false, Bool.false_eq_true, if_false, add_zero]
          refine ⟨hcount, fun hsame hbegun => hheld hsame ?_⟩
          exact fun entry hentry => hbegun entry (List.mem_cons_of_mem _ hentry)
      | counted _ failure hkey hcheck hentry =>
          obtain ⟨-, -, hmany⟩ := checkFailure_eq_ok hcheck
          obtain rfl := ip_mem_keys_iff.mp hkey
          obtain ⟨hone, hseven, hnow, hagain⟩ := inMinute_bump hmany
          by_cases hminute : clockMinute a.time = minute
          · subst hminute
            have hafter : ∀ entry ∈ failures'.outcomes rest,
                clockMinute a.time ≤ clockMinute entry.1.time :=
              fun entry hentry => clockMinute_mono (hlater entry hentry)
            have hheld := hheld (by rw [hentry, hnow]) hafter
            rw [hentry, max_eq_left hseven] at hheld
            have hmine : ofMinute a.address (clockMinute a.time) a = true := by simp [ofMinute]
            simp only [hmine, and_self, decide_true, if_true]
            refine ⟨by omega, fun hsame _ => ?_⟩
            have := hagain hsame
            omega
          · have hnot : ofMinute a.address minute a = false := by simp [ofMinute, hminute]
            simp only [hnot, Bool.false_eq_true, and_false, decide_false, if_false, add_zero]
            refine ⟨hcount, fun _ hbegun => ?_⟩
            -- the minute is over: nobody comes back to it
            have hover : minute < clockMinute a.time :=
              lt_of_le_of_ne (hbegun _ List.mem_cons_self) (Ne.symm hminute)
            have hzero : wrong (ofMinute a.address minute) (failures'.outcomes rest) = 0 :=
              wrong_of_over fun entry hentry =>
                hover.trans_le (clockMinute_mono (hlater entry hentry))
            unfold wrong at hzero
            rw [hzero, zero_add]
            exact le_max_right _ _
      | removed _ hkey =>
          have hnot := hfirst rfl
          simp [ofKey, hkey] at hnot

/-! ## Between two successes -/

theorem outcomes_append (failures : Failures) (first second : List Attempt) :
    ∃ failures' : Failures, failures.outcomes (first ++ second) =
      failures.outcomes first ++ failures'.outcomes second := by
  induction first generalizing failures with
  | nil => exact ⟨failures, rfl⟩
  | cons a first ih =>
      obtain ⟨failures', h⟩ := ih (failures.attempt a).2
      exact ⟨failures', by simp only [List.cons_append, Failures.outcomes, h]⟩

theorem length_outcomes (failures : Failures) (attempts : List Attempt) :
    (failures.outcomes attempts).length = attempts.length := by
  induction attempts generalizing failures with
  | nil => rfl
  | cons a rest ih => simp only [Failures.outcomes, List.length_cons, ih]

/-- A part of a log is the log of its own attempts, from the counters it begins
with. -/
theorem outcomes_of_infix {failures : Failures} {attempts : List Attempt}
    {window : List (Attempt × Outcome)} (h : window <:+: failures.outcomes attempts) :
    ∃ (failures' : Failures) (attempts' : List Attempt),
      window = failures'.outcomes attempts' := by
  obtain ⟨before, after, h⟩ := h
  have hlength := length_outcomes failures attempts
  rw [← h, List.length_append, List.length_append] at hlength
  obtain ⟨failures₁, hbefore⟩ := outcomes_append failures (attempts.take before.length)
    (attempts.drop before.length)
  rw [List.take_append_drop, ← h, List.append_assoc] at hbefore
  obtain ⟨-, hwindow⟩ := List.append_inj hbefore (by
    rw [length_outcomes, List.length_take]
    omega)
  obtain ⟨failures₂, hafter⟩ := outcomes_append failures₁
    ((attempts.drop before.length).take window.length)
    ((attempts.drop before.length).drop window.length)
  rw [List.take_append_drop, ← hwindow] at hafter
  obtain ⟨hwindow, -⟩ := List.append_inj hafter (by
    rw [length_outcomes, List.length_take, List.length_drop]
    omega)
  exact ⟨failures₁, _, hwindow⟩

def ofAddress (address : Address) (a : Attempt) : Bool := a.address = address

def ofNet (len : ℕ) (bits : BitVec 128) (a : Attempt) : Bool := a.address.inNet len bits

/-- The bounds on the wrong passwords that are looked at between two successes. -/
structure GuessesBounded (log : List (Attempt × Outcome)) : Prop where
  address : ∀ address window, window <:+: log → NoSuccess (ofAddress address) window →
    wrong (ofAddress address) window ≤ 31
  minute : ∀ address minute window, window <:+: log → NoSuccess (ofAddress address) window →
    ClockForward window → wrong (ofMinute address minute) window ≤ 7
  net64 : ∀ bits window, window <:+: log → NoSuccess (ofNet 48 bits) window →
    wrong (ofNet 64 bits) window ≤ 61
  net56 : ∀ bits window, window <:+: log → NoSuccess (ofNet 48 bits) window →
    wrong (ofNet 56 bits) window ≤ 81
  net48 : ∀ bits window, window <:+: log → NoSuccess (ofNet 48 bits) window →
    wrong (ofNet 48 bits) window ≤ 101

theorem ofKey_ip (address : Address) : ofKey (.ip address) = ofAddress address := by
  funext a
  simp only [ofKey, ofAddress, ip_mem_keys_iff]

theorem ofKey_net {len limit : ℕ} (hlen : (len, limit) ∈ prefixLimits) (bits : BitVec 128) :
    ofKey (.net len (maskU128 bits len)) = ofNet len bits := by
  funext a
  unfold ofKey ofNet
  rw [Bool.eq_iff_iff, decide_eq_true_iff, net_mem_keys_iff hlen]

/-- Without a success inside the /48 the counter of a network in it goes on. -/
theorem wrong_net_le {len limit : ℕ} (hlen : (len, limit) ∈ prefixLimits)
    {failures : Failures} {attempts : List Attempt} {bits : BitVec 128}
    (hsuccess : NoSuccess (ofNet 48 bits) (failures.outcomes attempts)) :
    wrong (ofNet len bits) (failures.outcomes attempts) ≤ limit + 1 := by
  rw [← ofKey_net hlen]
  refine wrong_le (fun failures a failure hkey hcheck =>
    total_le_of_checkFailure hcheck hlen hkey) attempts failures ?_
  intro entry hentry haccepted
  rw [ofKey_net hlen]
  refine Bool.eq_false_iff.mpr fun hnet => ?_
  have hin : ofNet 48 bits entry.1 = true := inNet_48_of_inNet hlen hnet
  exact absurd hin (Bool.eq_false_iff.mp (hsuccess entry hentry haccepted))

/-- From any counters, the wrong passwords between two successes are bounded; an
attempt that is blocked does not depend on the password and changes no counter. -/
theorem guesses_bounded (failures : Failures) (attempts : List Attempt) :
    GuessesBounded (failures.outcomes attempts) ∧
      ∀ (failures : Failures) (address : Address) (time : ℤ) (error : String),
        failures.checkFailure address time = .error error →
          ∀ right, failures.attempt ⟨address, time, right⟩ = (.blocked error, failures) := by
  refine ⟨⟨?_, ?_, ?_, ?_, ?_⟩, fun _ _ _ _ h right => attempt_of_error h right⟩
  · intro address window hwindow hsuccess
    obtain ⟨failures, attempts, rfl⟩ := outcomes_of_infix hwindow
    rw [← ofKey_ip] at hsuccess ⊢
    refine wrong_le (fun failures a failure hkey hcheck => ?_) attempts failures hsuccess
    obtain rfl := ip_mem_keys_iff.mp hkey
    exact (checkFailure_eq_ok hcheck).2.1
  · intro address minute window hwindow hsuccess hclock
    obtain ⟨failures, attempts, rfl⟩ := outcomes_of_infix hwindow
    rw [← ofKey_ip] at hsuccess
    exact (wrong_minute_le attempts failures hsuccess hclock).1
  · intro bits window hwindow hsuccess
    obtain ⟨failures, attempts, rfl⟩ := outcomes_of_infix hwindow
    have hlen : (64, 60) ∈ prefixLimits := by decide
    exact wrong_net_le hlen hsuccess
  · intro bits window hwindow hsuccess
    obtain ⟨failures, attempts, rfl⟩ := outcomes_of_infix hwindow
    have hlen : (56, 80) ∈ prefixLimits := by decide
    exact wrong_net_le hlen hsuccess
  · intro bits window hwindow hsuccess
    obtain ⟨failures, attempts, rfl⟩ := outcomes_of_infix hwindow
    have hlen : (48, 100) ∈ prefixLimits := by decide
    exact wrong_net_le hlen hsuccess

/-- Eight wrong passwords of an address in one minute, of which the last is not looked at, one of
its neighbour, and the right one a minute later. -/
def blockedEighth : List Attempt :=
  List.replicate 8 ⟨.v6 1 "", 120000, false⟩ ++
    [⟨.v6 2 "", 120000, false⟩, ⟨.v6 1 "", 180000, true⟩]

/-- `guesses_bounded` up to the right password. -/
theorem guesses_bounded_blockedEighth :
    let window := (Failures.empty.outcomes blockedEighth).take 9
    window.map Prod.snd = List.replicate 7 .rejected ++
        [.blocked "Please try 1 minute later", .rejected] ∧
      wrong (ofMinute (.v6 1 "") 2) window ≤ 7 ∧ wrong (ofNet 64 1) window ≤ 61 := by
  intro window
  have hwindow : window = (blockedEighth.take 9).zip (List.replicate 7 .rejected ++
      [.blocked "Please try 1 minute later", .rejected]) := by
    decide +kernel
  have hclock : ClockForward window := by
    rw [hwindow]
    unfold ClockForward
    decide
  have hsuccess : ∀ p, NoSuccess p window := by
    intro p entry hentry haccepted
    rw [hwindow] at hentry
    have hnone := (List.of_mem_zip hentry).2
    rw [haccepted] at hnone
    exact absurd hnone (by decide)
  have hinfix : window <:+: Failures.empty.outcomes blockedEighth := (List.take_prefix _ _).isInfix
  obtain ⟨hbounded, -⟩ := guesses_bounded Failures.empty blockedEighth
  refine ⟨?_, hbounded.minute _ _ _ hinfix (hsuccess _) hclock, hbounded.net64 _ _ hinfix
    (hsuccess _)⟩
  rw [hwindow]
  decide

/-- Seven wrong passwords, one when the clock was set back a minute, and an eighth. -/
def setBack : List Attempt :=
  (List.replicate 7 (120000 : ℤ) ++ [60000, 120000]).map (⟨.v4 0, ·, false⟩)

theorem minute_not_bounded :
    ¬ ∀ (attempts : List Attempt) (address : Address) (minute : ℤ),
      NoSuccess (ofAddress address) (Failures.empty.outcomes attempts) →
        wrong (ofMinute address minute) (Failures.empty.outcomes attempts) ≤ 7 := by
  intro h
  have houtcomes : Failures.empty.outcomes setBack = setBack.map (·, .rejected) := by
    decide +kernel
  have hle := h setBack (.v4 0) 2
  rw [houtcomes] at hle
  exact absurd (hle (by simp [NoSuccess, setBack])) (by decide)

end RustAdmin.Server.LoginFailures
