import RustAdmin.Quic.Admission
import RustAdmin.Support.Run

/-!
# What spoofed source addresses can occupy

Every sequence of admissions and ticket drops keeps the two counters equal to
what they count.  Nothing stores how many tickets were admitted without a proof
of their address: the bound on them is an invariant of the ghost list `live`,
which remembers for every ticket the address and whether it was proven.

`Sound` ties the two counters to the list `live`, from which the number of unproven
tickets is read.  `incomingDecision_eq_accept` inverts the decision into the three
limits, so an admission keeps the bounds, and `sound_of_eraseIdx` says that a drop
only lowers what is counted.
-/

namespace RustAdmin.Quic

open RustAdmin.Support

/-- A live ticket with the arguments of the `admit` that handed it out. -/
structure Live where
  ticket : PendingTicket
  ip : IpAddr
  addressValidated : Bool

structure System where
  state : PendingConnections
  live : List Live

inductive Call
  | incoming (ip : IpAddr) (addressValidated mayRetry : Bool)
  | drop (index : ℕ)

def System.start : System := ⟨.empty, []⟩

/-- The state after a call; `none` where a counter goes below zero. -/
def System.call (s : System) : Call → Option System
  | .incoming ip addressValidated mayRetry =>
      match s.state.tryAdmit ip addressValidated mayRetry with
      | (.admitted ticket, state) => some ⟨state, s.live ++ [⟨ticket, ip, addressValidated⟩]⟩
      | (_, state) => some { s with state := state }
  | .drop index =>
      match s.live[index]? with
      | some live => (s.state.drop live.ticket).map fun state => ⟨state, s.live.eraseIdx index⟩
      | none => some s

/-- The live tickets of an address's source. -/
def System.fromSource (s : System) (ip : IpAddr) : ℕ :=
  s.live.countP fun l => decide (SameSource l.ip ip)

/-- The live tickets of an address's source with an unproven address. -/
def System.unvalidatedFrom (s : System) (ip : IpAddr) : ℕ :=
  s.live.countP fun l => decide (SameSource l.ip ip) && !l.addressValidated

def System.unvalidated (s : System) : ℕ := s.live.countP fun l => !l.addressValidated

def System.validated (s : System) : ℕ := s.live.countP fun l => l.addressValidated

/-- The counters are exact and all limits hold. -/
structure System.Sound (s : System) : Prop where
  total : s.state.total = s.live.length
  counts : s.state.perSource.Counts (s.live.map fun l => l.ticket.source)
  source : ∀ l ∈ s.live, l.ticket.source = sourceKey l.ip
  live_le : s.live.length ≤ maxQuicPending
  source_le : ∀ ip, s.fromSource ip ≤ maxQuicPendingPerSource
  unvalidatedFrom_le : ∀ ip, s.unvalidatedFrom ip ≤ 1
  unvalidated_le : s.unvalidated ≤ quicRetryThreshold

theorem initial_sound : System.start.Sound where
  total := rfl
  counts := CountMap.counts_nil
  source := by simp [System.start]
  live_le := Nat.zero_le _
  source_le := fun _ => Nat.zero_le _
  unvalidatedFrom_le := fun _ => Nat.zero_le _
  unvalidated_le := Nat.zero_le _

/-! ## The decision -/

theorem incomingDecision_eq_accept {pending fromSource : ℕ} {addressValidated mayRetry : Bool} :
    incomingDecision pending fromSource addressValidated mayRetry = .accept ↔
      pending < maxQuicPending ∧ fromSource < maxQuicPendingPerSource ∧
        (addressValidated = false → pending < quicRetryThreshold ∧ fromSource = 0) := by
  unfold incomingDecision
  split
  · next hfull => simp; omega
  · next hfull =>
      split
      · next hunproven =>
          have hne : (if mayRetry = true then IncomingDecision.retry else .refuse) ≠ .accept := by
            split <;> simp
          simp only [hne, false_iff]
          rintro ⟨-, -, hquiet⟩
          have hload := hunproven.2
          have hfew := hquiet hunproven.1
          omega
      · next hproven =>
          simp only [true_iff]
          refine ⟨by omega, by omega, fun hunproven => ?_⟩
          have hquiet : ¬ (quicRetryThreshold ≤ pending ∨ 0 < fromSource) :=
            fun hload => hproven ⟨hunproven, hload⟩
          omega

/-- A proven address is only refused at a limit. -/
theorem incomingDecision_validated {pending fromSource : ℕ} {mayRetry : Bool}
    (hrefuse : incomingDecision pending fromSource true mayRetry = .refuse) :
    maxQuicPending ≤ pending ∨ maxQuicPendingPerSource ≤ fromSource := by
  unfold incomingDecision at hrefuse
  split at hrefuse
  · next hfull => exact hfull
  · simp at hrefuse

/-! ## The counters -/

/-- The counter of a source counts its live tickets. -/
theorem get_sourceKey {s : System} (hs : s.Sound) (ip : IpAddr) :
    s.state.perSource.get (sourceKey ip) = s.fromSource ip := by
  rw [hs.counts.get_eq, List.count, List.countP_map, System.fromSource]
  refine List.countP_congr fun l hl => ?_
  simp [hs.source l hl, sourceKey_eq_iff]

theorem sound_of_eraseIdx {s : System} (hs : s.Sound) {index : ℕ} {l : Live}
    (hl : s.live[index]? = some l) :
    ∃ state, s.state.drop l.ticket = some state ∧
      System.Sound ⟨state, s.live.eraseIdx index⟩ := by
  obtain ⟨hindex, rfl⟩ := List.getElem?_eq_some_iff.mp hl
  have hsublist : (s.live.eraseIdx index).Sublist s.live := List.eraseIdx_sublist _ _
  -- the counter of a live ticket is not zero, so its decrement goes through
  have hmem : s.live[index].ticket.source ∈ s.live.map fun l => l.ticket.source :=
    List.mem_map_of_mem (List.getElem_mem hindex)
  obtain ⟨perSource, hdecrement, hcounts⟩ := hs.counts.decrement hmem
  have hperm : ((s.live.map fun l => l.ticket.source).erase s.live[index].ticket.source).Perm
      ((s.live.eraseIdx index).map fun l => l.ticket.source) := by
    have hcons := (List.getElem_cons_eraseIdx_perm hindex).map fun l => l.ticket.source
    exact ((List.perm_cons_erase hmem).symm.trans hcons.symm).cons_inv
  refine ⟨⟨s.state.total - 1, perSource⟩, ?_, ?_, hcounts.perm hperm, ?_, ?_, ?_, ?_, ?_⟩
  · rw [PendingConnections.drop, hdecrement, Option.map_some]
  · simp only [hs.total, List.length_eraseIdx_of_lt hindex]
  · exact fun l hl => hs.source l (hsublist.subset hl)
  · exact hsublist.length_le.trans hs.live_le
  · exact fun ip => (hsublist.countP_le).trans (hs.source_le ip)
  · exact fun ip => (hsublist.countP_le).trans (hs.unvalidatedFrom_le ip)
  · exact (hsublist.countP_le).trans hs.unvalidated_le

/-- Addresses of one source have the same live tickets. -/
theorem fromSource_eq_of_sameSource {s : System} (hs : s.Sound) {ip other : IpAddr}
    (h : SameSource ip other) : s.fromSource other = s.fromSource ip := by
  rw [← get_sourceKey hs, ← get_sourceKey hs, (sourceKey_eq_iff ip other).mpr h]

theorem unvalidatedFrom_le_fromSource (s : System) (ip : IpAddr) :
    s.unvalidatedFrom ip ≤ s.fromSource ip := by
  refine List.countP_mono_left fun l _ hl => ?_
  exact (Bool.and_eq_true_iff.mp hl).1

theorem unvalidated_le_length (s : System) : s.unvalidated ≤ s.live.length :=
  List.countP_le_length

/-- The system after an accepted `admit`. -/
def System.admitted (s : System) (ip : IpAddr) (addressValidated : Bool) : System :=
  ⟨⟨s.state.total + 1, s.state.perSource.increment (sourceKey ip)⟩,
    s.live ++ [⟨⟨sourceKey ip⟩, ip, addressValidated⟩]⟩

theorem fromSource_admitted (s : System) (ip other : IpAddr) (addressValidated : Bool) :
    (s.admitted ip addressValidated).fromSource other =
      s.fromSource other + if SameSource ip other then 1 else 0 := by
  simp [System.admitted, System.fromSource, List.countP_singleton]

theorem unvalidatedFrom_admitted (s : System) (ip other : IpAddr) (addressValidated : Bool) :
    (s.admitted ip addressValidated).unvalidatedFrom other =
      s.unvalidatedFrom other +
        if SameSource ip other ∧ addressValidated = false then 1 else 0 := by
  simp [System.admitted, System.unvalidatedFrom, List.countP_singleton]

theorem unvalidated_admitted (s : System) (ip : IpAddr) (addressValidated : Bool) :
    (s.admitted ip addressValidated).unvalidated =
      s.unvalidated + if addressValidated = false then 1 else 0 := by
  simp [System.admitted, System.unvalidated, List.countP_singleton]

theorem sound_of_admitted {s : System} (hs : s.Sound) {ip : IpAddr}
    {addressValidated mayRetry : Bool}
    (haccept : incomingDecision s.state.total (s.state.perSource.get (sourceKey ip))
      addressValidated mayRetry = .accept) :
    (s.admitted ip addressValidated).Sound := by
  obtain ⟨htotal, hsource, hunproven⟩ := incomingDecision_eq_accept.mp haccept
  rw [get_sourceKey hs] at hsource hunproven
  rw [hs.total] at htotal hunproven
  refine ⟨?_, ?_, ?_, ?_, ?_, ?_, ?_⟩
  · simp [System.admitted, hs.total]
  · have hperm : (sourceKey ip :: s.live.map fun l => l.ticket.source).Perm
        ((s.admitted ip addressValidated).live.map fun l => l.ticket.source) := by
      rw [System.admitted, List.map_append, List.map_singleton]
      exact (List.perm_append_singleton _ _).symm
    exact (hs.counts.increment (sourceKey ip)).perm hperm
  · intro l hl
    rcases List.mem_append.mp hl with hl | hl
    · exact hs.source l hl
    · rw [List.mem_singleton.mp hl]
  · rw [System.admitted, List.length_append, List.length_singleton]
    exact htotal
  · intro other
    rw [fromSource_admitted]
    split
    · next hnew =>
        rw [fromSource_eq_of_sameSource hs hnew]
        exact hsource
    · exact hs.source_le other
  · intro other
    rw [unvalidatedFrom_admitted]
    split
    · -- an unproven ticket is only admitted from a source without tickets
      next hnew =>
        have hzero := (hunproven hnew.2).2
        rw [← fromSource_eq_of_sameSource hs hnew.1] at hzero
        have hbound := unvalidatedFrom_le_fromSource s other
        omega
    · exact hs.unvalidatedFrom_le other
  · rw [unvalidated_admitted]
    split
    · next hnew =>
        have hfew := (hunproven hnew).1
        have hall := unvalidated_le_length s
        omega
    · exact hs.unvalidated_le

theorem call_sound {s : System} (hs : s.Sound) (call : Call) :
    ∃ s', s.call call = some s' ∧ s'.Sound := by
  cases call with
  | incoming ip addressValidated mayRetry =>
      cases hdecision : incomingDecision s.state.total (s.state.perSource.get (sourceKey ip))
          addressValidated mayRetry with
      | accept =>
          refine ⟨_, ?_, sound_of_admitted hs hdecision⟩
          simp only [System.call, PendingConnections.tryAdmit, hdecision, System.admitted]
      | retry => exact ⟨s, by simp only [System.call, PendingConnections.tryAdmit, hdecision], hs⟩
      | refuse => exact ⟨s, by simp only [System.call, PendingConnections.tryAdmit, hdecision], hs⟩
  | drop index =>
      cases hl : s.live[index]? with
      | none => exact ⟨s, by simp only [System.call, hl], hs⟩
      | some l =>
          obtain ⟨state, hdrop, hsound⟩ := sound_of_eraseIdx hs hl
          exact ⟨_, by simp only [System.call, hl, hdrop, Option.map_some], hsound⟩

/-- A peer with a proven address whose source has a slot left is refused only
while many proven peers are pending. -/
theorem validated_of_refused {s : System} (hs : s.Sound) {ip : IpAddr} {mayRetry : Bool}
    (hslot : s.fromSource ip < maxQuicPendingPerSource)
    (hrefused : (s.state.tryAdmit ip true mayRetry).1 = .refuse) :
    maxQuicPending - quicRetryThreshold ≤ s.validated := by
  have hdecision : incomingDecision s.state.total (s.state.perSource.get (sourceKey ip)) true
      mayRetry = .refuse := by
    unfold PendingConnections.tryAdmit at hrefused
    cases hdecision : incomingDecision s.state.total (s.state.perSource.get (sourceKey ip)) true
      mayRetry <;> simp [hdecision] at hrefused ⊢
  have hfull : maxQuicPending ≤ s.live.length := by
    rcases incomingDecision_validated hdecision with htotal | hsource
    · rwa [hs.total] at htotal
    · rw [get_sourceKey hs] at hsource
      omega
  -- the unproven tickets fit below the retry threshold, so the rest is proven
  have hsplit : s.live.length = s.validated + s.unvalidated := by
    rw [System.validated, System.unvalidated,
      List.length_eq_countP_add_countP (fun l => l.addressValidated)]
    simp
  have hunvalidated := hs.unvalidated_le
  omega

/-- **Admission under spoofing.**  Every sequence of admissions and drops goes
through without a counter below zero; the counters count the live tickets, the
limits hold for all tickets and for the unproven ones, and a proven peer with a
free slot is refused only by proven peers. -/
theorem calls_sound (calls : List Call) :
    ∃ s, calls.foldlM System.call System.start = some s ∧ s.Sound ∧
      s.state.perSource.total = s.state.total ∧
      (∀ source, source ∈ s.state.perSource ↔ ∃ l ∈ s.live, l.ticket.source = source) ∧
      ∀ ip mayRetry, s.fromSource ip < maxQuicPendingPerSource →
        (s.state.tryAdmit ip true mayRetry).1 = .refuse →
        maxQuicPending - quicRetryThreshold ≤ s.validated := by
  obtain ⟨s, hcalls, hs⟩ :=
    exists_foldlM System.Sound (fun _ call hs => call_sound hs call) calls initial_sound
  refine ⟨s, hcalls, hs, ?_, fun source => ?_, fun ip mayRetry => validated_of_refused hs⟩
  · rw [hs.counts.total_eq, List.length_map, hs.total]
  · rw [hs.counts.mem_iff, List.mem_map]

end RustAdmin.Quic
