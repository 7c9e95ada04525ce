import Mathlib.Data.List.Induction
import Mathlib.Data.List.Pairwise

/-!
# The order of keyboard packets

`update_keyboard_input_sequence` decides for each packet of the second keyboard
protocol whether it is fresh.  The receiver remembers only the epoch and the
sequence number of the packet it accepted last, and takes any packet of another
epoch as the start of a new one.  So an epoch that comes back is open again.

What the receiver remembers is the last accepted packet, and that the last packet that
arrived had its epoch (`Remembers`); three cases of one packet keep that
(`receivePacket_cases`).  So the epoch that comes back is seen among the accepted
packets exactly when it is seen among the arrived ones
(`epochsNeverReturn_of_accepted`, `EpochsNeverReturn.concat`), and without a return
the sequences of an epoch were compared with each other and increase.
-/

namespace RustAdmin.Connection

/-- What the receiver remembers: the epoch and the last accepted sequence. -/
structure KeyboardInputReceiveState where
  epoch : ℕ
  lastSequence : ℕ
  deriving DecidableEq, Repr

/-- `KeyboardInputReceiveState::default`. -/
def KeyboardInputReceiveState.default : KeyboardInputReceiveState := ⟨0, 0⟩

inductive KeyboardInputSequenceDecision
  | accept
  | resetEpoch
  | rejectDuplicateOrStale
  deriving DecidableEq, Repr

/-- The packet is injected. -/
def KeyboardInputSequenceDecision.accepts : KeyboardInputSequenceDecision → Bool
  | accept | resetEpoch => true
  | rejectDuplicateOrStale => false

/-- `update_keyboard_input_sequence`. -/
def updateKeyboardInputSequence (state : KeyboardInputReceiveState) (epoch sequence : ℕ) :
    KeyboardInputReceiveState × KeyboardInputSequenceDecision :=
  if state.epoch ≠ epoch then
    (⟨epoch, sequence⟩, .resetEpoch)
  else if sequence ≤ state.lastSequence then
    (state, .rejectDuplicateOrStale)
  else
    ({ state with lastSequence := sequence }, .accept)

/-- The ordering header of a packet. -/
structure KeyboardInputHeader where
  inputEpoch : ℕ
  sequence : ℕ
  deriving DecidableEq, Repr

/-- One packet arrives; an accepted one is appended to the log. -/
def receivePacket (state : KeyboardInputReceiveState × List KeyboardInputHeader)
    (packet : KeyboardInputHeader) : KeyboardInputReceiveState × List KeyboardInputHeader :=
  let update := updateKeyboardInputSequence state.1 packet.inputEpoch packet.sequence
  (update.1, if update.2.accepts then state.2 ++ [packet] else state.2)

/-- The receiver and its log after all the packets of a connection. -/
def receivePackets (packets : List KeyboardInputHeader) :
    KeyboardInputReceiveState × List KeyboardInputHeader :=
  packets.foldl receivePacket (.default, [])

/-- The packets a connection accepts, in order. -/
def acceptedPackets (packets : List KeyboardInputHeader) : List KeyboardInputHeader :=
  (receivePackets packets).2

/-! ## What is asked of the accepted packets -/

/-- After a packet of another epoch no packet of the epoch before it follows. -/
def EpochsNeverReturn (packets : List KeyboardInputHeader) : Prop :=
  ∀ p q r, [p, q, r].Sublist packets → p.inputEpoch = r.inputEpoch → q.inputEpoch = p.inputEpoch

/-- No pair of epoch and sequence twice, increasing sequences within an epoch,
and no epoch again once a newer one was accepted. -/
structure AcceptedInOrder (packets : List KeyboardInputHeader) : Prop where
  once : (acceptedPackets packets).Nodup
  increasing : (acceptedPackets packets).Pairwise fun p q =>
    p.inputEpoch = q.inputEpoch → p.sequence < q.sequence
  settled : EpochsNeverReturn (acceptedPackets packets)

theorem EpochsNeverReturn.sublist {packets fewer : List KeyboardInputHeader}
    (hpackets : EpochsNeverReturn packets) (hsub : fewer.Sublist packets) :
    EpochsNeverReturn fewer :=
  fun p q r htriple => hpackets p q r (htriple.trans hsub)

/-! ## One packet -/

/-- What one packet does: it opens another epoch, is dropped, or goes on. -/
theorem receivePacket_cases (state : KeyboardInputReceiveState)
    (log : List KeyboardInputHeader) (packet : KeyboardInputHeader) :
    (state.epoch ≠ packet.inputEpoch ∧
      receivePacket (state, log) packet =
        (⟨packet.inputEpoch, packet.sequence⟩, log ++ [packet])) ∨
    (state.epoch = packet.inputEpoch ∧ packet.sequence ≤ state.lastSequence ∧
      receivePacket (state, log) packet = (state, log)) ∨
    (state.epoch = packet.inputEpoch ∧ state.lastSequence < packet.sequence ∧
      receivePacket (state, log) packet =
        (⟨packet.inputEpoch, packet.sequence⟩, log ++ [packet])) := by
  by_cases hepoch : state.epoch = packet.inputEpoch
  · by_cases hsequence : packet.sequence ≤ state.lastSequence
    · refine Or.inr (Or.inl ⟨hepoch, hsequence, ?_⟩)
      simp [receivePacket, updateKeyboardInputSequence, hepoch, hsequence,
        KeyboardInputSequenceDecision.accepts]
    · refine Or.inr (Or.inr ⟨hepoch, by omega, ?_⟩)
      simp [receivePacket, updateKeyboardInputSequence, hepoch, hsequence,
        KeyboardInputSequenceDecision.accepts]
  · refine Or.inl ⟨hepoch, ?_⟩
    simp [receivePacket, updateKeyboardInputSequence, hepoch,
      KeyboardInputSequenceDecision.accepts]

/-- What the receiver remembers is the packet accepted last, and the last packet
had its epoch. -/
structure Remembers (packets : List KeyboardInputHeader) (state : KeyboardInputReceiveState)
    (log : List KeyboardInputHeader) : Prop where
  sublist : log.Sublist packets
  represented : ∀ packet ∈ packets, ∃ kept ∈ log, kept.inputEpoch = packet.inputEpoch
  front : (packets = [] ∧ state = .default ∧ log = []) ∨
    ∃ earlier last kept accepted, packets = earlier ++ [last] ∧ log = kept ++ [accepted] ∧
      last.inputEpoch = accepted.inputEpoch ∧ state = ⟨accepted.inputEpoch, accepted.sequence⟩

theorem remembers_nil : Remembers [] .default [] where
  sublist := List.Sublist.refl _
  represented := by simp
  front := Or.inl ⟨rfl, rfl, rfl⟩

/-- An accepted packet becomes what is remembered. -/
theorem Remembers.accept {packets log : List KeyboardInputHeader}
    {state : KeyboardInputReceiveState} (h : Remembers packets state log)
    (packet : KeyboardInputHeader) :
    Remembers (packets ++ [packet]) ⟨packet.inputEpoch, packet.sequence⟩ (log ++ [packet]) where
  sublist := h.sublist.append (List.Sublist.refl _)
  represented := by
    intro other hother
    rcases List.mem_append.mp hother with hother | hother
    · obtain ⟨kept, hkept, hepoch⟩ := h.represented other hother
      exact ⟨kept, List.mem_append_left _ hkept, hepoch⟩
    · obtain rfl : other = packet := by simpa using hother
      exact ⟨other, by simp, rfl⟩
  front := Or.inr ⟨packets, packet, log, packet, rfl, rfl, rfl, rfl⟩

/-- A dropped packet has the remembered epoch. -/
theorem Remembers.drop {packets log : List KeyboardInputHeader}
    {state : KeyboardInputReceiveState} (h : Remembers packets state log)
    {packet : KeyboardInputHeader} (hnonzero : packet.inputEpoch ≠ 0)
    (hepoch : state.epoch = packet.inputEpoch) :
    Remembers (packets ++ [packet]) state log := by
  rcases h.front with ⟨-, rfl, -⟩ | ⟨earlier, last, kept, accepted, hpackets, hlog, hlast, rfl⟩
  · exact absurd hepoch.symm hnonzero
  · refine ⟨h.sublist.trans (List.sublist_append_left _ _), ?_, Or.inr ?_⟩
    · intro other hother
      rcases List.mem_append.mp hother with hother | hother
      · exact h.represented other hother
      · obtain rfl : other = packet := by simpa using hother
        exact ⟨accepted, by simp [hlog], hepoch⟩
    · exact ⟨packets, packet, kept, accepted, rfl, hlog, hepoch.symm, rfl⟩

theorem receivePackets_concat (packets : List KeyboardInputHeader)
    (packet : KeyboardInputHeader) :
    receivePackets (packets ++ [packet]) =
      receivePacket ((receivePackets packets).1, acceptedPackets packets) packet := by
  rw [receivePackets, List.foldl_append, List.foldl_cons, List.foldl_nil]
  rfl

theorem remembers_receivePackets {packets : List KeyboardInputHeader}
    (hnonzero : ∀ packet ∈ packets, packet.inputEpoch ≠ 0) :
    Remembers packets (receivePackets packets).1 (acceptedPackets packets) := by
  induction packets using List.reverseRecOn with
  | nil => exact remembers_nil
  | append_singleton packets packet ih =>
      have hbefore := ih fun other hother => hnonzero other (List.mem_append_left _ hother)
      have hpacket : packet.inputEpoch ≠ 0 := hnonzero packet (by simp)
      rw [acceptedPackets, receivePackets_concat]
      rcases receivePacket_cases (receivePackets packets).1 (acceptedPackets packets) packet with
        ⟨-, heq⟩ | ⟨hepoch, -, heq⟩ | ⟨-, -, heq⟩
      · rw [heq]
        exact hbefore.accept packet
      · rw [heq]
        exact hbefore.drop hpacket hepoch
      · rw [heq]
        exact hbefore.accept packet

/-- The log after one more packet. -/
theorem acceptedPackets_cases (packets : List KeyboardInputHeader)
    (packet : KeyboardInputHeader) :
    ((receivePackets packets).1.epoch ≠ packet.inputEpoch ∧
      acceptedPackets (packets ++ [packet]) = acceptedPackets packets ++ [packet]) ∨
    ((receivePackets packets).1.epoch = packet.inputEpoch ∧
      packet.sequence ≤ (receivePackets packets).1.lastSequence ∧
      acceptedPackets (packets ++ [packet]) = acceptedPackets packets) ∨
    ((receivePackets packets).1.epoch = packet.inputEpoch ∧
      (receivePackets packets).1.lastSequence < packet.sequence ∧
      acceptedPackets (packets ++ [packet]) = acceptedPackets packets ++ [packet]) := by
  have hlog : acceptedPackets (packets ++ [packet]) =
      (receivePacket ((receivePackets packets).1, acceptedPackets packets) packet).2 := by
    rw [acceptedPackets, receivePackets_concat]
  rw [hlog]
  rcases receivePacket_cases (receivePackets packets).1 (acceptedPackets packets) packet with
    ⟨hepoch, heq⟩ | ⟨hepoch, hsequence, heq⟩ | ⟨hepoch, hsequence, heq⟩
  · exact Or.inl ⟨hepoch, by rw [heq]⟩
  · exact Or.inr (Or.inl ⟨hepoch, hsequence, by rw [heq]⟩)
  · exact Or.inr (Or.inr ⟨hepoch, hsequence, by rw [heq]⟩)

/-! ## Sublists that end at the last element -/

/-- A sublist of a list lies before its last element or ends with it. -/
theorem concat_sublist_concat {α : Type*} {l l' : List α} {a b : α}
    (h : (l ++ [a]).Sublist (l' ++ [b])) :
    (l ++ [a]).Sublist l' ∨ (a = b ∧ l.Sublist l') := by
  have hreverse : (a :: l.reverse).Sublist (b :: l'.reverse) := by
    simpa using List.reverse_sublist.mpr h
  rcases List.sublist_cons_iff.mp hreverse with hbefore | ⟨rest, heq, hrest⟩
  · left
    apply List.reverse_sublist.mp
    simpa using hbefore
  · right
    obtain ⟨rfl, rfl⟩ := List.cons.inj heq
    exact ⟨rfl, List.reverse_sublist.mp hrest⟩

/-! ## Epochs that return -/

/-- The epochs never return where they did not before, and the last packet has
the epoch of the one before it or an epoch no packet had. -/
theorem EpochsNeverReturn.concat {packets : List KeyboardInputHeader}
    {packet : KeyboardInputHeader} (hpackets : EpochsNeverReturn packets)
    (hlast : ∀ p q, [p, q].Sublist packets → p.inputEpoch = packet.inputEpoch →
      q.inputEpoch = p.inputEpoch) :
    EpochsNeverReturn (packets ++ [packet]) := by
  intro p q r htriple hepoch
  have hsplit : ([p, q] ++ [r]).Sublist (packets ++ [packet]) := by simpa using htriple
  rcases concat_sublist_concat hsplit with hbefore | ⟨rfl, hpair⟩
  · exact hpackets p q r (by simpa using hbefore) hepoch
  · exact hlast p q hpair hepoch

/-- A pair before the last packet of its first epoch stays in that epoch. -/
theorem EpochsNeverReturn.pair {earlier : List KeyboardInputHeader}
    {p q last : KeyboardInputHeader} (h : EpochsNeverReturn (earlier ++ [last]))
    (hpair : [p, q].Sublist (earlier ++ [last])) (hepoch : p.inputEpoch = last.inputEpoch) :
    q.inputEpoch = p.inputEpoch := by
  have hsplit : ([p] ++ [q]).Sublist (earlier ++ [last]) := by simpa using hpair
  rcases concat_sublist_concat hsplit with hbefore | ⟨rfl, -⟩
  · refine h p q last ?_ hepoch
    simpa using hbefore.append (List.Sublist.refl [last])
  · exact hepoch.symm

/-- A packet of the epoch that is open returns to no other. -/
theorem EpochsNeverReturn.sameEpoch {packets : List KeyboardInputHeader}
    {packet : KeyboardInputHeader} (hpackets : EpochsNeverReturn packets)
    (hremembers : Remembers packets (receivePackets packets).1 (acceptedPackets packets))
    (hnonzero : packet.inputEpoch ≠ 0)
    (hepoch : (receivePackets packets).1.epoch = packet.inputEpoch) :
    EpochsNeverReturn (packets ++ [packet]) := by
  rcases hremembers.front with ⟨-, hstate, -⟩ |
    ⟨earlier, last, kept, accepted, hlist, -, hlast, hstate⟩
  · rw [hstate] at hepoch
    exact absurd hepoch.symm hnonzero
  · have hopen : last.inputEpoch = packet.inputEpoch := by
      rw [hlast, ← hepoch, hstate]
    subst hlist
    apply hpackets.concat
    intro p q hpair hp
    exact hpackets.pair hpair (hp.trans hopen.symm)

/-- The accepted packets show every return of an epoch. -/
theorem epochsNeverReturn_of_accepted {packets : List KeyboardInputHeader}
    (hnonzero : ∀ packet ∈ packets, packet.inputEpoch ≠ 0)
    (haccepted : EpochsNeverReturn (acceptedPackets packets)) : EpochsNeverReturn packets := by
  induction packets using List.reverseRecOn with
  | nil => exact haccepted
  | append_singleton packets packet ih =>
      have hearlier : ∀ other ∈ packets, other.inputEpoch ≠ 0 :=
        fun other hother => hnonzero other (List.mem_append_left _ hother)
      have hpacket : packet.inputEpoch ≠ 0 := hnonzero packet (by simp)
      have hremembers := remembers_receivePackets hearlier
      rcases acceptedPackets_cases packets packet with
        ⟨hepoch, heq⟩ | ⟨hepoch, -, heq⟩ | ⟨hepoch, -, heq⟩
      · -- The packet opens an epoch: an earlier packet of it was accepted too.
        rw [heq] at haccepted
        have hpackets := ih hearlier (haccepted.sublist (List.sublist_append_left _ _))
        apply hpackets.concat
        intro p q hpair hp
        exfalso
        obtain ⟨first, hfirst, hfirstEpoch⟩ := hremembers.represented p (hpair.subset (by simp))
        rcases hremembers.front with ⟨rfl, -, -⟩ |
          ⟨earlier, last, kept, accepted, -, hlog, -, hstate⟩
        · simp at hpair
        · rw [hstate] at hepoch
          have hne : first ≠ accepted := by
            rintro rfl
            exact hepoch (hfirstEpoch.trans hp)
          rw [hlog] at hfirst haccepted
          have hkept : first ∈ kept := by
            rcases List.mem_append.mp hfirst with hkept | hlast
            · exact hkept
            · exact absurd (by simpa using hlast) hne
          have htriple : [first, accepted, packet].Sublist (kept ++ [accepted] ++ [packet]) := by
            have hone := List.singleton_sublist.mpr hkept
            simpa using hone.append (List.Sublist.refl [accepted, packet])
          have hreturn := haccepted first accepted packet htriple (hfirstEpoch.trans hp)
          exact hepoch (hreturn.trans (hfirstEpoch.trans hp))
      · rw [heq] at haccepted
        exact (ih hearlier haccepted).sameEpoch hremembers hpacket hepoch
      · rw [heq] at haccepted
        have hpackets := ih hearlier (haccepted.sublist (List.sublist_append_left _ _))
        exact hpackets.sameEpoch hremembers hpacket hepoch

/-- Where epochs do not return, the accepted sequences of an epoch increase. -/
theorem increasing_of_epochsNeverReturn {packets : List KeyboardInputHeader}
    (hnonzero : ∀ packet ∈ packets, packet.inputEpoch ≠ 0)
    (hpackets : EpochsNeverReturn packets) :
    (acceptedPackets packets).Pairwise fun p q =>
      p.inputEpoch = q.inputEpoch → p.sequence < q.sequence := by
  induction packets using List.reverseRecOn with
  | nil => exact List.Pairwise.nil
  | append_singleton packets packet ih =>
      have hearlier : ∀ other ∈ packets, other.inputEpoch ≠ 0 :=
        fun other hother => hnonzero other (List.mem_append_left _ hother)
      have hpacket : packet.inputEpoch ≠ 0 := hnonzero packet (by simp)
      have hremembers := remembers_receivePackets hearlier
      have hbefore := ih hearlier (hpackets.sublist (List.sublist_append_left _ _))
      rcases acceptedPackets_cases packets packet with
        ⟨hepoch, heq⟩ | ⟨-, -, heq⟩ | ⟨hepoch, hsequence, heq⟩
      · -- A new epoch: no accepted packet had it.
        rw [heq]
        refine List.pairwise_append.mpr ⟨hbefore, List.pairwise_singleton _ _, ?_⟩
        rintro p hp q hq hsame
        obtain rfl : q = packet := by simpa using hq
        exfalso
        rcases hremembers.front with ⟨-, -, hlog⟩ |
          ⟨earlier, last, kept, accepted, hlist, hlog, hlast, hstate⟩
        · simp [hlog] at hp
        · have hne : p ≠ last := by
            rintro rfl
            exact hepoch (by rw [hstate, ← hsame, hlast])
          have hmem : p ∈ earlier := by
            have hp' := hremembers.sublist.subset hp
            rw [hlist] at hp'
            rcases List.mem_append.mp hp' with hmem | hmem
            · exact hmem
            · exact absurd (by simpa using hmem) hne
          have htriple : [p, last, q].Sublist (earlier ++ [last] ++ [q]) := by
            simpa using (List.singleton_sublist.mpr hmem).append (List.Sublist.refl [last, q])
          rw [hlist] at hpackets
          have hreturn := hpackets p last q htriple hsame
          exact hepoch (by rw [hstate, ← hlast, hreturn, hsame])
      · rw [heq]
        exact hbefore
      · -- The open epoch: the last accepted packet bounds the others.
        rw [heq]
        refine List.pairwise_append.mpr ⟨hbefore, List.pairwise_singleton _ _, ?_⟩
        rintro p hp q hq hsame
        obtain rfl : q = packet := by simpa using hq
        rcases hremembers.front with ⟨-, -, hlog⟩ |
          ⟨earlier, last, kept, accepted, -, hlog, -, hstate⟩
        · simp [hlog] at hp
        · rw [hstate] at hepoch hsequence
          rw [hlog] at hp hbefore
          rcases List.mem_append.mp hp with hkept | hlast
          · calc p.sequence < accepted.sequence :=
                  (List.pairwise_append.mp hbefore).2.2 p hkept accepted (by simp)
                    (hsame.trans hepoch.symm)
              _ < q.sequence := hsequence
          · obtain rfl : p = accepted := by simpa using hlast
            exact hsequence

/-- A connection accepts each packet at most once, in order and without going
back to an earlier epoch, exactly when no epoch returns among the packets that
arrive. -/
theorem acceptedInOrder_iff {packets : List KeyboardInputHeader}
    (hnonzero : ∀ packet ∈ packets, packet.inputEpoch ≠ 0) :
    AcceptedInOrder packets ↔ EpochsNeverReturn packets := by
  constructor
  · intro h
    exact epochsNeverReturn_of_accepted hnonzero h.settled
  · intro hpackets
    have hincreasing := increasing_of_epochsNeverReturn hnonzero hpackets
    refine ⟨?_, hincreasing, ?_⟩
    · apply hincreasing.imp
      rintro p q hpq rfl
      exact absurd (hpq rfl) (Nat.lt_irrefl _)
    · exact hpackets.sublist (remembers_receivePackets hnonzero).sublist

theorem acceptedInOrder_iff_two_epochs :
    (∀ packet ∈ [KeyboardInputHeader.mk 1 5, ⟨1, 6⟩, ⟨2, 1⟩], packet.inputEpoch ≠ 0) ∧
      (AcceptedInOrder [⟨1, 5⟩, ⟨1, 6⟩, ⟨2, 1⟩] ↔
        EpochsNeverReturn [⟨1, 5⟩, ⟨1, 6⟩, ⟨2, 1⟩]) :=
  ⟨by decide, acceptedInOrder_iff (by decide)⟩

/-- A delayed packet of the first epoch is accepted a second time. -/
theorem not_acceptedInOrder_of_returning_epoch :
    ¬ ∀ packets : List KeyboardInputHeader,
      (∀ packet ∈ packets, packet.inputEpoch ≠ 0) → AcceptedInOrder packets := by
  intro h
  have hpackets := h [⟨1, 5⟩, ⟨2, 1⟩, ⟨1, 5⟩] (by decide)
  have honce := hpackets.once
  revert honce
  decide

end RustAdmin.Connection
