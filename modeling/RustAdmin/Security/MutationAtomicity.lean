import RustAdmin.Security.PeerSecurityMutation

/-!
# Mutations are done completely or later

Whatever calls fail and wherever a run is cut short, the journal on the disk tells the
next run what is left to do.

## Strategy

`Disk.Sound` holds wherever a program is cut: a committed journal has been applied,
and a journal that waits was never committed.  Each program has a triple whose
precondition says what is on the disk and whose calls are `Allowed`.  `Progress`
follows the removals of a journal one call at a time, and `Completed` is what is left
when it was committed.  A request first recovers what waits (`spec_recoverPending`),
so a mutation of its own starts from a settled disk, and `spec_planned` follows it
from the answer of the store of paired peers.  Sessions are runs one after the other
from a sound disk.
-/

namespace RustAdmin.Security

open RustAdmin.Support

variable {β φ : Type} (B : PeerSecurityMutationBackend β φ)

/-- Every removal the journal names is done. -/
def Applied (journal : PeerSecurityMutationJournal) (b : β) : Prop :=
  ∀ r ∈ journal.removals, B.Removed r b

/-- No mutation waits to be completed. -/
def Settled (d : Disk β) : Prop := ∀ journal, d.journal = some journal → journal.committed = true

/-- A committed journal has been applied, and a journal that waits is not one of those
that were committed. -/
structure Disk.Sound (d : Disk β) : Prop where
  applied : ∀ journal, d.journal = some journal → journal.committed = true →
    Applied B journal d.backend
  numbered : ∀ n ∈ d.committed, n ≤ d.prepared
  waits : ∀ journal, d.journal = some journal → journal.committed = false →
    d.prepared ∉ d.committed

/-- When a call may be made.  A removal belongs to a journal that waits on the disk and
was never committed; a mutation is prepared only if none waits. -/
def Allowed : Call → Disk β → Prop
  | .backend call, d => ∃ journal, d.journal = some journal ∧ journal.committed = false ∧
      d.prepared ∉ d.committed ∧ ∀ r ∈ call.removals, r ∈ journal.removals
  | .pairedPeers, d => Settled d
  | .persistJournal journal, d => journal.committed = false → Settled d
  | _, _ => True

/-- The triples of the programs here. -/
abbrev Spec {α : Type} (Pre : Disk β → Prop) (task : Task α) (Post : α → Disk β → Prop) : Prop :=
  Holds (machine B) Allowed (Disk.Sound B) Pre task Post

variable {B} {d : Disk β} {journal : PeerSecurityMutationJournal}

/-! ## The calls -/

theorem Disk.Sound.start (b : β) : Disk.Sound B ⟨none, b, 0, []⟩ where
  applied := by simp
  numbered := by simp
  waits := by simp

/-- The precondition that names one sound disk. -/
theorem Disk.Sound.of_eq (h : d.Sound B) (s : Disk β) (hs : s = d) : s.Sound B := by
  rw [hs]
  exact h

/-- A removal leaves a journal that waits as it is. -/
theorem Disk.Sound.act (h : d.Sound B) (hjournal : d.journal = some journal)
    (hwaits : journal.committed = false) (b : β) : Disk.Sound B { d with backend := b } where
  applied := by
    intro other hother hcommitted
    obtain rfl : journal = other := Option.some.inj (hjournal.symm.trans hother)
    rw [hwaits] at hcommitted
    cases hcommitted
  numbered := h.numbered
  waits := h.waits

theorem Disk.Sound.prepare (h : d.Sound B) (hwaits : journal.committed = false) :
    Disk.Sound B { d with journal := some journal, prepared := d.prepared + 1 } where
  applied := by
    intro other hother hcommitted
    obtain rfl : journal = other := Option.some.inj hother
    rw [hwaits] at hcommitted
    cases hcommitted
  numbered := fun n hn => Nat.le_succ_of_le (h.numbered n hn)
  waits := by
    intro _ _ _ hmem
    have hle : d.prepared + 1 ≤ d.prepared := h.numbered _ hmem
    omega

theorem Disk.Sound.commit (h : d.Sound B) (hcommitted : journal.committed = true)
    (happlied : Applied B journal d.backend) :
    Disk.Sound B { d with journal := some journal, committed := d.prepared :: d.committed } where
  applied := by
    intro other hother _
    obtain rfl : journal = other := Option.some.inj hother
    exact happlied
  numbered := by
    intro n hn
    rcases List.mem_cons.mp hn with rfl | hn
    · exact le_rfl
    · exact h.numbered n hn
  waits := by
    intro other hother hnot
    obtain rfl : journal = other := Option.some.inj hother
    rw [hcommitted] at hnot
    cases hnot

theorem Disk.Sound.delete (h : d.Sound B) : Disk.Sound B { d with journal := none } where
  applied := by simp
  numbered := h.numbered
  waits := by simp

theorem Disk.attempt_cases (d after : Disk β) (fault : Fault φ) :
    d.attempt after fault = after ∨ (fault.error ≠ none ∧ d.attempt after fault = d) := by
  unfold Disk.attempt
  cases herror : fault.error with
  | none => exact Or.inl (by simp)
  | some e =>
      cases heffect : fault.takesEffect with
      | true => exact Or.inl (by simp)
      | false => exact Or.inr ⟨by simp, by simp⟩

theorem answerOf_eq_ok {α : Type} {fault : Fault φ} {a c : α} (h : answerOf fault a = .ok c) :
    fault.error = none ∧ a = c := by
  unfold answerOf at h
  cases herror : fault.error with
  | none =>
      rw [herror] at h
      exact ⟨rfl, Except.ok.inj h⟩
  | some e =>
      rw [herror] at h
      cases h

/-- Removals that are done, of a journal that waits. -/
structure Progress (B : PeerSecurityMutationBackend β φ) (journal : PeerSecurityMutationJournal)
    (done : List Removal) (d : Disk β) : Prop where
  sound : d.Sound B
  journal : d.journal = some journal
  removed : ∀ r ∈ done, B.Removed r d.backend

/-- One call on the stores adds its removals to those that are done. -/
theorem spec_backend (hwaits : journal.committed = false) (done : List Removal)
    {call : BackendCall} (hcall : ∀ r ∈ call.removals, r ∈ journal.removals) :
    Spec B (Progress B journal done) (Task.backend call)
      fun _ => Progress B journal (done ++ call.removals) := by
  refine Holds.call (fun d h => h.sound) ?_ ?_
  · intro d h
    exact ⟨journal, h.journal, hwaits, h.sound.waits journal h.journal hwaits, hcall⟩
  · intro fault d h
    refine Holds.ofExcept ?_ ?_
    · rintro _ rfl
      exact h.sound.act h.journal hwaits _
    · rintro answer _ hanswer rfl
      refine ⟨h.sound.act h.journal hwaits _, h.journal, fun r hr => ?_⟩
      rcases List.mem_append.mp hr with hr | hr
      · exact B.removed_mono (h.removed r hr)
      · exact B.removed_act hanswer hr

theorem spec_cleanupJournal {P : Disk β → Prop} (hsound : ∀ d, P d → d.Sound B)
    (hdelete : ∀ d, P d → P { d with journal := none }) :
    Spec B P Task.cleanupJournal fun _ => P := by
  refine Holds.call hsound (fun _ _ => trivial) ?_
  intro fault d h
  have hafter : P ((machine B) .cleanupJournal fault d).2 := by
    rcases d.attempt_cases { d with journal := none } fault with heq | ⟨-, heq⟩
    · simp only [machine, heq]
      exact hdelete d h
    · simp only [machine, heq]
      exact h
  refine Holds.ret ?_ ?_
  · rintro _ rfl
    exact hsound _ hafter
  · rintro _ rfl
    exact hafter

/-- Writing a journal: a call that fails has written it or has done nothing, and one that
returns has written it. -/
theorem spec_persistJournal {P Q : Disk β → Prop} (hsound : ∀ d, P d → d.Sound B)
    (hallowed : ∀ d, P d → Allowed (.persistJournal journal) d)
    (hwritten : ∀ d, P d → Disk.Sound B (d.write journal))
    (hpost : ∀ d, P d → Q (d.write journal)) :
    Spec B P (Task.persistJournal journal) fun _ => Q := by
  refine Holds.call hsound hallowed ?_
  intro fault d h
  refine Holds.ofExcept ?_ ?_
  · rintro _ rfl
    simp only [machine]
    rcases d.attempt_cases (d.write journal) fault with heq | ⟨-, heq⟩ <;> rw [heq]
    · exact hwritten d h
    · exact hsound d h
  · rintro _ _ hanswer rfl
    -- An `ok` answer means no error, and then the write took effect.
    have heq : d.attempt (d.write journal) fault = d.write journal := by
      rcases d.attempt_cases (d.write journal) fault with heq | ⟨herror, -⟩
      · exact heq
      · exact absurd (answerOf_eq_ok hanswer).1 herror
    simp only [machine]
    rw [heq]
    exact hpost d h

/-! ## Completing a journal -/

theorem Progress.of_subset {done done' : List Removal} (h : Progress B journal done d)
    (hdone : ∀ r ∈ done', r ∈ done) : Progress B journal done' d :=
  ⟨h.sound, h.journal, fun r hr => h.removed r (hdone r hr)⟩

theorem spec_clearPairings (hwaits : journal.committed = false) (done : List Removal) :
    Spec B (Progress B journal done)
      (Program.filterIn (fun id => Task.backend (.clearPairing id)) journal.configIds)
      fun _ => Progress B journal (done ++ journal.configIds.map .pairing) := by
  -- The loop invariant: the pairings of the ids taken so far are cleared.
  let P (ids : List String) : Disk β → Prop :=
    Progress B journal (done ++ ids.map .pairing)
  have hone : ∀ id ∈ journal.configIds, ∀ ids,
      Spec B (P ids) (Task.backend (.clearPairing id)) fun _ => P (ids ++ [id]) := by
    intro id hid ids
    have hcall : ∀ r ∈ (BackendCall.clearPairing id).removals, r ∈ journal.removals := by
      intro r hr
      obtain rfl := List.mem_singleton.mp hr
      exact List.mem_append_left _ (List.mem_append_right _ (List.mem_map_of_mem hid))
    refine (spec_backend hwaits _ hcall).weaken (fun _ h => h) ?_
    intro _ d h
    exact h.of_subset (by simp [BackendCall.removals])
  have hall : Spec B (P [])
      (Program.filterIn (fun id => Task.backend (.clearPairing id)) journal.configIds)
      fun _ => P ([] ++ journal.configIds) :=
    Holds.filterIn (fun _ _ h => h.sound) hone
  refine hall.weaken ?_ fun _ _ h => h
  intro d h
  exact h.of_subset (by simp)

/-- The removals of the journal, in three parts. -/
theorem spec_applyJournal (hwaits : journal.committed = false) :
    Spec B (Progress B journal []) (applyJournal journal)
      fun _ => Progress B journal journal.removals := by
  have hquic : ∀ r ∈ (BackendCall.removeQuicIds journal.quicPeerIds).removals,
      r ∈ journal.removals := by
    intro r hr
    exact List.mem_append_left _ (List.mem_append_left _ hr)
  refine Holds.bind (spec_backend hwaits [] hquic) fun removedQuicPeerIds => ?_
  refine Holds.bind (spec_clearPairings hwaits _) fun clearedPeerConfigIds => ?_
  have hlast : Spec B
      (Progress B journal (([] ++ (BackendCall.removeQuicIds journal.quicPeerIds).removals) ++
        journal.configIds.map .pairing))
      (if journal.operation = .removePeer then
        Task.backend (.removePeerConfig journal.peerConfigId)
      else pure false)
      fun _ => Progress B journal journal.removals := by
    by_cases hoperation : journal.operation = .removePeer
    · have hconfig : ∀ r ∈ (BackendCall.removePeerConfig journal.peerConfigId).removals,
          r ∈ journal.removals := by
        intro r hr
        simp only [PeerSecurityMutationJournal.removals, hoperation, if_true]
        exact List.mem_append_right _ hr
      rw [if_pos hoperation]
      refine (spec_backend hwaits _ hconfig).weaken (fun _ h => h) ?_
      intro _ d h
      refine h.of_subset fun r hr => ?_
      simpa [PeerSecurityMutationJournal.removals, BackendCall.removals, hoperation] using hr
    · rw [if_neg hoperation]
      refine Holds.ret (fun _ h => h.sound) ?_
      intro d h
      refine h.of_subset fun r hr => ?_
      simpa [PeerSecurityMutationJournal.removals, BackendCall.removals, hoperation] using hr
  refine Holds.bind hlast fun removedPeerConfig => ?_
  exact Holds.ret (fun _ h => h.sound) fun _ h => h

/-- What completing a journal leaves: it is applied, and nothing waits. -/
structure Completed (B : PeerSecurityMutationBackend β φ) (journal : PeerSecurityMutationJournal)
    (d : Disk β) : Prop where
  sound : d.Sound B
  settled : Settled d
  applied : Applied B journal d.backend

theorem Completed.delete (h : Completed B journal d) :
    Completed B journal { d with journal := none } :=
  ⟨h.sound.delete, by simp [Settled], h.applied⟩

theorem spec_commit :
    Spec B (Progress B journal journal.removals)
      (Task.persistJournal { journal with committed := true })
      fun _ => Completed B journal := by
  let commit : PeerSecurityMutationJournal := { journal with committed := true }
  have hwrite : ∀ d, Progress B journal journal.removals d →
      Completed B journal (d.write commit) := by
    intro d h
    refine ⟨h.sound.commit rfl h.removed, ?_, h.removed⟩
    intro other hother
    obtain rfl : commit = other := Option.some.inj hother
    rfl
  refine spec_persistJournal (fun _ h => h.sound) ?_ (fun d h => (hwrite d h).sound) hwrite
  intro d _ hnot
  cases hnot

theorem spec_completeJournal :
    Spec B (fun d => d.Sound B ∧ d.journal = some journal) (completeJournal journal)
      fun _ => Completed B journal := by
  unfold completeJournal
  cases hcommitted : journal.committed with
  | true =>
      -- A committed journal is only deleted: its removals were done before it was marked.
      rw [if_pos rfl]
      have hpre : ∀ d : Disk β, d.Sound B ∧ d.journal = some journal →
          Completed B journal d := by
        rintro d ⟨hsound, hjournal⟩
        refine ⟨hsound, ?_, hsound.applied journal hjournal hcommitted⟩
        intro other hother
        obtain rfl : journal = other := Option.some.inj (hjournal.symm.trans hother)
        exact hcommitted
      have hcleanup : Spec B (Completed B journal) Task.cleanupJournal
          fun _ => Completed B journal :=
        spec_cleanupJournal (fun _ h => h.sound) fun _ h => h.delete
      refine Holds.bind (hcleanup.weaken hpre fun _ _ h => h) fun _ => ?_
      exact Holds.ret (fun _ h => h.sound) fun _ h => h
  | false =>
      rw [if_neg (by simp)]
      refine Holds.bind ((spec_applyJournal hcommitted).weaken ?_ fun _ _ h => h) fun result => ?_
      · rintro d ⟨hsound, hjournal⟩
        exact ⟨hsound, hjournal, by simp⟩
      · refine Holds.bind spec_commit fun _ => ?_
        refine Holds.bind (spec_cleanupJournal (fun _ h => h.sound) fun _ h => h.delete) fun _ => ?_
        exact Holds.ret (fun _ h => h.sound) fun _ h => h

/-! ## The two requests -/

/-- What the journal found on the disk asks for is done, and nothing waits. -/
structure Recovered (B : PeerSecurityMutationBackend β φ)
    (found : Option PeerSecurityMutationJournal) (d : Disk β) : Prop where
  sound : d.Sound B
  settled : Settled d
  applied : ∀ journal, found = some journal → Applied B journal d.backend

theorem spec_loadJournal (found : Option PeerSecurityMutationJournal) :
    Spec B (fun d => d.Sound B ∧ d.journal = found) Task.loadJournal
      fun loaded d => loaded = found ∧ d.Sound B ∧ d.journal = found := by
  refine Holds.call (fun _ h => h.1) (fun _ _ => trivial) ?_
  rintro fault d ⟨hsound, rfl⟩
  cases hanswer : (machine B .loadJournal fault d).1 with
  | error e =>
      exact Holds.fail hsound.of_eq
  | ok loaded =>
      obtain ⟨-, rfl⟩ := answerOf_eq_ok hanswer
      cases hjournal : d.journal with
      | none =>
          refine Holds.ret hsound.of_eq ?_
          rintro _ rfl
          exact ⟨rfl, hsound, hjournal⟩
      | some journal =>
          have hvalidate : Spec B (fun d' => d' = d) (.ofExcept journal.validate)
              fun _ d' => d' = d :=
            Holds.ofExcept hsound.of_eq fun _ _ _ h => h
          refine Holds.bind hvalidate fun _ => ?_
          refine Holds.ret hsound.of_eq ?_
          rintro _ rfl
          exact ⟨rfl, hsound, hjournal⟩

theorem spec_recoverPending (found : Option PeerSecurityMutationJournal) :
    Spec B (fun d => d.Sound B ∧ d.journal = found) recoverPending
      fun _ => Recovered B found := by
  refine Holds.bind (spec_loadJournal found) fun loaded => ?_
  cases loaded with
  | none =>
      refine Holds.ret (fun _ h => h.2.1) ?_
      rintro d ⟨rfl, hsound, hjournal⟩
      exact ⟨hsound, by simp [Settled, hjournal], by simp⟩
  | some journal =>
      refine Holds.assuming (fun _ h => h.1) ?_
      rintro rfl
      refine spec_completeJournal.weaken (fun _ h => h.2) ?_
      intro _ d h
      refine ⟨h.sound, h.settled, fun other hother => ?_⟩
      obtain rfl : journal = other := Option.some.inj hother
      exact h.applied

/-- A mutation is prepared and written only when nothing waits. -/
theorem spec_persistPlan (hwaits : journal.committed = false) :
    Spec B (fun d => d.Sound B ∧ Settled d) (Task.persistJournal journal)
      fun _ d => d.Sound B ∧ d.journal = some journal := by
  have hwrite : ∀ d : Disk β, d.Sound B ∧ Settled d →
      Disk.Sound B (d.write journal) ∧ (d.write journal).journal = some journal := by
    intro d h
    have heq : d.write journal =
        { d with journal := some journal, prepared := d.prepared + 1 } := by
      simp [Disk.write, hwaits]
    rw [heq]
    exact ⟨h.1.prepare hwaits, rfl⟩
  exact spec_persistJournal (fun _ h => h.1) (fun _ h _ => h.2) (fun d h => (hwrite d h).1) hwrite

/-- The part of a mutation that follows the answer of the store of paired peers, from a disk
where nothing waits: the removals it does are those planned from that answer. -/
theorem spec_planned (peerConfigId : String) (operation : PeerSecurityMutationKind)
    (hsound : d.Sound B) (hsettled : Settled d) (answer : Except String (List TrustedPeerRecord))
    {rest : Except String (List TrustedPeerRecord) → Task PeerSecurityMutationResult}
    (hrest : ((prepare peerConfigId operation).bind fun journal =>
      (Task.persistJournal journal).bind fun _ => completeJournal journal) =
        .call .pairedPeers rest) :
    Spec B (fun d' => d' = d) (rest answer)
      fun _ d' => ∃ records, answer = .ok records ∧
        Applied B (.plan records peerConfigId operation) d'.backend := by
  obtain rfl := (Program.call.inj hrest).2
  cases answer with
  | error e => exact Holds.fail hsound.of_eq
  | ok records =>
      let planned := PeerSecurityMutationJournal.plan records peerConfigId operation
      have hvalidate : Spec B (fun d' => d' = d) (.ofExcept planned.validate)
          fun _ d' => d' = d :=
        Holds.ofExcept hsound.of_eq fun _ _ _ h => h
      have hprepare : Spec B (fun d' => d' = d)
          ((Program.ofExcept planned.validate : Task Unit).bind fun _ => pure planned)
          fun journal d' => journal = planned ∧ d' = d :=
        Holds.bind hvalidate fun _ => Holds.ret hsound.of_eq fun _ h => ⟨rfl, h⟩
      -- The answer fixes the plan, so the rest is about this one journal.
      refine Holds.bind hprepare fun journal => ?_
      refine Holds.assuming (fun _ h => h.1) ?_
      rintro rfl
      refine Holds.bind ((spec_persistPlan rfl).weaken ?_ fun _ _ h => h) fun _ => ?_
      · rintro _ ⟨-, rfl⟩
        exact ⟨hsound, hsettled⟩
      · refine spec_completeJournal.weaken (fun _ h => h) ?_
        intro _ d' h
        exact ⟨records, rfl, h.applied⟩

/-! ## Sessions -/

/-- The runs one after the other, each cut where its faults end. -/
def session (B : PeerSecurityMutationBackend β φ) (b : β)
    (runs : List (Request × List (Fault φ))) : Disk β :=
  runs.foldl (fun d run => (run.1.task.run (machine B) run.2 d).last) ⟨none, b, 0, []⟩

theorem spec_mutate (peerConfigId : String) (operation : PeerSecurityMutationKind) :
    Spec B (Disk.Sound B) (mutate peerConfigId operation) fun _ _ => True := by
  refine Holds.pointwise fun d hsound => ?_
  have hrecover : Spec B (fun d' => d' = d) recoverPending fun _ => Recovered B d.journal := by
    refine (spec_recoverPending d.journal).weaken ?_ fun _ _ h => h
    rintro _ rfl
    exact ⟨hsound, rfl⟩
  refine Holds.bind hrecover fun _ => Holds.call (fun _ h => h.sound) (fun _ h => h.settled) ?_
  intro fault d' h
  exact (spec_planned peerConfigId operation h.sound h.settled _ rfl).weaken (fun _ h => h)
    fun _ _ _ => trivial

theorem spec_request (request : Request) :
    Spec B (Disk.Sound B) request.task fun _ _ => True := by
  cases request with
  | mutate peerConfigId operation => exact spec_mutate peerConfigId operation
  | recover =>
      refine Holds.pointwise fun d hsound => ?_
      refine (spec_recoverPending d.journal).weaken ?_ fun _ _ _ => trivial
      rintro _ rfl
      exact ⟨hsound, rfl⟩

theorem sound_session (b : β) (runs : List (Request × List (Fault φ))) :
    (session B b runs).Sound B := by
  induction runs using List.reverseRecOn with
  | nil => exact Disk.Sound.start b
  | append_singleton runs run ih =>
      unfold session at ih ⊢
      rw [List.foldl_append]
      exact (spec_request run.1 run.2 _ ih).2.1

/-- What holds of a run on the disk that earlier runs left. -/
structure Atomic (B : PeerSecurityMutationBackend β φ) (found : Disk β) (request : Request)
    (faults : List (Fault φ)) : Prop where
  /-- A recovery that returns has completed every removal of the journal it found. -/
  recovers : request = .recover → ∀ result journal,
    (request.task.run (machine B) faults found).outcome = .returned result →
    found.journal = some journal →
    Applied B journal (request.task.run (machine B) faults found).last.backend
  /-- A removal belongs to the journal on the disk, which has never been committed. -/
  replays_nothing : ∀ d call, (d, .backend call) ∈
      (request.task.run (machine B) faults found).calls →
    ∃ journal, d.journal = some journal ∧ journal.committed = false ∧
      d.prepared ∉ d.committed ∧ ∀ r ∈ call.removals, r ∈ journal.removals
  /-- A mutation is planned and its journal is written while none waits. -/
  prepares_last : ∀ d call, (d, call) ∈ (request.task.run (machine B) faults found).calls →
    (call = .pairedPeers ∨ ∃ journal, call = .persistJournal journal ∧
      journal.committed = false) → Settled d
  /-- A mutation that returns has completed every removal that it planned, from what the call
  for the paired peers has answered, the one that follows the calls of its recovery. -/
  applies : ∀ peerConfigId operation result, request = .mutate peerConfigId operation →
    (request.task.run (machine B) faults found).outcome = .returned result →
    let recovery := recoverPending.run (machine B) faults found
    ∃ fault records, faults[recovery.calls.length]? = some fault ∧
      B.pairedPeers fault.backend recovery.last.backend = .ok records ∧
      Applied B (.plan records peerConfigId operation)
        (request.task.run (machine B) faults found).last.backend

/-- After any runs, whatever failed in them and wherever they were cut, the next run is
all-or-nothing. -/
theorem atomic (B : PeerSecurityMutationBackend β φ) (b : β)
    (earlier : List (Request × List (Fault φ))) (request : Request) (faults : List (Fault φ)) :
    Atomic B (session B b earlier) request faults := by
  have hsound := sound_session (B := B) b earlier
  generalize session B b earlier = found at hsound ⊢
  have hcalls := (spec_request request faults found hsound).1
  refine ⟨?_, ?_, ?_, ?_⟩
  · rintro rfl result journal hreturned hjournal
    have hrecovered := (spec_recoverPending found.journal faults found ⟨hsound, rfl⟩).2.2
      result hreturned
    exact hrecovered.applied journal hjournal
  · intro d call hcall
    exact hcalls (d, .backend call) hcall
  · rintro d _ hcall (rfl | ⟨journal, rfl, hwaits⟩)
    · exact hcalls (d, .pairedPeers) hcall
    · exact hcalls (d, .persistJournal journal) hcall hwaits
  · rintro peerConfigId operation result rfl hreturned
    obtain ⟨recovered, hrecovered, hrest, hlast⟩ := Program.run_bind_returned hreturned
    have h := (spec_recoverPending found.journal faults found ⟨hsound, rfl⟩).2.2
      recovered hrecovered
    -- The first fault that the recovery has left goes to the call for the paired peers.
    cases hleft : faults.drop (recoverPending.run (machine B) faults found).calls.length with
    | nil =>
        rw [hleft, Program.run_nil] at hrest
        cases hrest
    | cons fault left =>
        rw [hleft] at hrest hlast
        have hfault : faults[(recoverPending.run (machine B) faults found).calls.length]? =
            some fault := by
          rw [← List.head?_drop, hleft]
          rfl
        obtain ⟨records, hanswer, happlied⟩ :=
          (spec_planned peerConfigId operation h.sound h.settled _ rfl left _ rfl).2.2 result hrest
        refine ⟨fault, records, hfault, hanswer, ?_⟩
        have hlast : ((Request.mutate peerConfigId operation).task.run (machine B) faults
            found).last = _ := hlast
        rw [hlast]
        exact happlied

/-- The pairing of the alias cannot be cleared; the next run clears it. -/
example : (session fakeBackend ⟨["alias", "peer"], ["alias", "peer"], []⟩
    [(.mutate "peer" .resetPairing, List.replicate 8 ⟨none, false, some "alias"⟩),
      (.recover, List.replicate 8 ⟨none, false, none⟩)]).backend = ⟨[], [], []⟩ := by decide

end RustAdmin.Security
