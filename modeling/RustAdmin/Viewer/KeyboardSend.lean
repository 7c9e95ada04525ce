import Mathlib.Logic.Function.Basic
import RustAdmin.Connection.KeyboardSequence
import RustAdmin.Support.Arith
import RustAdmin.Support.Run

/-!
# The senders of keyboard packets

`src/src/ui_session_interface.rs`: a caller that has a key or a text for the
second keyboard protocol takes a sequence number (`next_keyboard_input`, under
the lock of the send state) and afterwards puts the packet into the channel of
the connection.  Several callers run at once, one for each task of the bridge's
thread pool, and nothing keeps a caller from sending before another that took
its number earlier.  The channel is first in, first out, and its other end is
`update_keyboard_input_sequence` of the host.

`Numbered` orders the allocated packets of a round: within an epoch the sequence grows
with the allocation, and epochs are drawn one after the other.  So packets that are
sent in the order of their numbers arrive in an order that the host accepts
(`receive_follows`), and `InOrder` keeps this along a run.  In the other direction,
sent packets stay sent in their order (`run_sent`), so an overtaken packet shows in
the final list.
-/

namespace RustAdmin.Viewer.KeyboardSend

open RustAdmin.Connection RustAdmin.Support

/-! ## Taking a number -/

/-- `KeyboardInputSendState`, as far as the numbers go. -/
structure KeyboardInputSendState where
  round : ℕ := 0
  epoch : ℕ := 0
  sequence : ℕ := 0
deriving DecidableEq, Repr

/-- The epoch made of a random 128-bit number: its halves folded, and never zero. -/
def epochOf (uuid : ℕ) : ℕ :=
  let epoch := (uuid / 2 ^ 64 % 2 ^ 64) ^^^ (uuid % 2 ^ 64)
  if epoch = 0 then 1 else epoch

theorem epochOf_ne_zero (uuid : ℕ) : epochOf uuid ≠ 0 := by
  unfold epochOf
  dsimp only
  split
  · exact one_ne_zero
  · assumption

/-- `reset_keyboard_input_state_for_round`. -/
def KeyboardInputSendState.resetForRound (state : KeyboardInputSendState) (round : ℕ) :
    KeyboardInputSendState :=
  if state.round ≠ round then { round := round } else state

/-- The numbers have run out, or there were none yet: an epoch is drawn. -/
def KeyboardInputSendState.draws (state : KeyboardInputSendState) : Bool :=
  state.epoch == 0 || state.sequence == usizeMax

/-- The send state after `next_keyboard_input`; its epoch and sequence are those of the packet. -/
def KeyboardInputSendState.next (state : KeyboardInputSendState) (uuid : ℕ) :
    KeyboardInputSendState :=
  let state := if state.draws then { state with epoch := epochOf uuid, sequence := 0 } else state
  { state with sequence := state.sequence + 1 }

/-- The content of a `KeyboardInput`. -/
inductive KeyboardInputUnion
  | physicalKey (usbHidUsage : ℕ) (down repeated : Bool) (modifierMask lockMask : ℕ)
  | committedText (text : String) (deleteBeforeGraphemes deleteAfterGraphemes : ℕ)
      (sourceLanguageTag sourceLayoutType : String) (preferPhysical : Bool)
deriving DecidableEq, Repr

/-- A packet, with the number of its allocation among all of the round. -/
structure Packet where
  header : KeyboardInputHeader
  payload : KeyboardInputUnion
  number : ℕ
deriving DecidableEq, Repr

/-! ## Callers, channel and host -/

structure System (Caller : Type) where
  sendState : KeyboardInputSendState
  held : Caller → Option Packet
  channel : List Packet
  /-- The host, with the headers it has accepted. -/
  host : KeyboardInputReceiveState × List KeyboardInputHeader
  /-- Every packet that was given a number, and every packet that was sent. -/
  allocated : List Packet
  sent : List Packet
  /-- The epochs drawn in the round. -/
  epochs : List ℕ

inductive Event (Caller : Type)
  | allocate (caller : Caller) (payload : KeyboardInputUnion) (uuid : ℕ)
  | send (caller : Caller)
  | receive

variable {Caller : Type} [DecidableEq Caller]

/-- A round begins with the send state an earlier one left, and with a new connection. -/
def System.start (previous : KeyboardInputSendState) : System Caller where
  sendState := previous
  held := fun _ => none
  channel := []
  host := (.default, [])
  allocated := []
  sent := []
  epochs := []

/-- `next_keyboard_input` of a caller. -/
def System.allocate (s : System Caller) (round : ℕ) (caller : Caller)
    (payload : KeyboardInputUnion) (uuid : ℕ) : System Caller :=
  let current := s.sendState.resetForRound round
  let next := current.next uuid
  let packet : Packet := ⟨⟨next.epoch, next.sequence⟩, payload, s.allocated.length⟩
  { s with
    sendState := next
    held := Function.update s.held caller (some packet)
    allocated := s.allocated ++ [packet]
    epochs := if current.draws then s.epochs ++ [epochOf uuid] else s.epochs }

/-- `send_keyboard_input` of a caller with its packet. -/
def System.send (s : System Caller) (caller : Caller) (packet : Packet) : System Caller :=
  { s with
    held := Function.update s.held caller none
    channel := s.channel ++ [packet]
    sent := s.sent ++ [packet] }

/-- The host takes the next packet out of the channel. -/
def System.receive (s : System Caller) (packet : Packet) (rest : List Packet) : System Caller :=
  { s with channel := rest, host := receivePacket s.host packet.header }

/-- One step of the connection round `round`. -/
inductive Step (round : ℕ) : System Caller → Event Caller → System Caller → Prop
  | allocate {s : System Caller} {caller : Caller} {payload : KeyboardInputUnion} {uuid : ℕ}
      (hidle : s.held caller = none) :
      Step round s (.allocate caller payload uuid) (s.allocate round caller payload uuid)
  | send {s : System Caller} {caller : Caller} {packet : Packet}
      (hheld : s.held caller = some packet) : Step round s (.send caller) (s.send caller packet)
  | receive {s : System Caller} {packet : Packet} {rest : List Packet}
      (hchannel : s.channel = packet :: rest) : Step round s .receive (s.receive packet rest)

/-- The host has accepted every packet that has arrived, and the packets were
sent in the order of their numbers. -/
structure System.Intact (s : System Caller) : Prop where
  accepted : s.host.2 ++ s.channel.map Packet.header = s.sent.map Packet.header
  ordered : s.sent.Pairwise fun p q => p.number < q.number

/-- The caller is about to send a packet after one that was given its number later. -/
def System.Overtaken (s : System Caller) : Event Caller → Prop
  | .send caller => ∃ packet ∈ s.held caller, ∃ other ∈ s.sent, packet.number < other.number
  | _ => False

/-- A step in which no overtaken packet is sent. -/
structure OrderedStep (round : ℕ) (s : System Caller) (event : Event Caller)
    (s' : System Caller) : Prop where
  step : Step round s event s'
  inOrder : ¬ s.Overtaken event

/-! ## The numbers -/

/-- The numbers of the packets: within an epoch the sequence grows with the
allocation, and the send state is ahead of all of them. -/
structure Numbered (round : ℕ) (s : System Caller) : Prop where
  fresh : s.allocated = [] ∨ s.sendState.round = round
  number_lt : ∀ p ∈ s.allocated, p.number < s.allocated.length
  unique : ∀ p ∈ s.allocated, ∀ q ∈ s.allocated, p.number = q.number → p = q
  nonzero : ∀ p ∈ s.allocated, p.header.inputEpoch ≠ 0
  drawn : ∀ p ∈ s.allocated, p.header.inputEpoch ∈ s.epochs
  current : s.sendState.round = round → s.sendState.epoch ≠ 0 → s.sendState.epoch ∈ s.epochs
  ahead : ∀ p ∈ s.allocated, p.header.inputEpoch = s.sendState.epoch →
    p.header.sequence ≤ s.sendState.sequence
  increasing : ∀ p ∈ s.allocated, ∀ q ∈ s.allocated, p.number < q.number →
    p.header.inputEpoch = q.header.inputEpoch → p.header.sequence < q.header.sequence
  held : ∀ caller, ∀ p ∈ s.held caller, p ∈ s.allocated ∧ p ∉ s.sent
  apart : ∀ caller other, ∀ p ∈ s.held caller, p ∈ s.held other → caller = other
  sent : ∀ p ∈ s.sent, p ∈ s.allocated

omit [DecidableEq Caller] in
theorem numbered_start (round : ℕ) {previous : KeyboardInputSendState}
    (hround : previous.round ≠ round) : Numbered round (System.start previous : System Caller) where
  fresh := .inl rfl
  number_lt := by simp [System.start]
  unique := by simp [System.start]
  nonzero := by simp [System.start]
  drawn := by simp [System.start]
  current := fun h => absurd h hround
  ahead := by simp [System.start]
  increasing := by simp [System.start]
  held := by simp [System.start]
  apart := by simp [System.start]
  sent := by simp [System.start]

/-- The number after the current one: the next of its epoch, or the first of a new one. -/
theorem next_cases (state : KeyboardInputSendState) (uuid : ℕ) :
    (state.draws = true ∧ (state.next uuid).epoch = epochOf uuid ∧
      (state.next uuid).sequence = 1) ∨
    (state.draws = false ∧ state.epoch ≠ 0 ∧ (state.next uuid).epoch = state.epoch ∧
      (state.next uuid).sequence = state.sequence + 1) := by
  unfold KeyboardInputSendState.next
  cases hdraws : state.draws with
  | true => exact .inl ⟨rfl, rfl, rfl⟩
  | false =>
      simp only [KeyboardInputSendState.draws, Bool.or_eq_false_iff, beq_eq_false_iff_ne] at hdraws
      exact .inr ⟨rfl, hdraws.1, rfl, rfl⟩

@[simp] theorem round_next (state : KeyboardInputSendState) (uuid : ℕ) :
    (state.next uuid).round = state.round := by
  unfold KeyboardInputSendState.next
  dsimp only
  split <;> rfl

@[simp] theorem round_resetForRound (state : KeyboardInputSendState) (round : ℕ) :
    (state.resetForRound round).round = round := by
  unfold KeyboardInputSendState.resetForRound
  split
  · rfl
  · next hround => exact not_not.mp hround

theorem resetForRound_of_round {state : KeyboardInputSendState} {round : ℕ}
    (h : state.round = round) : state.resetForRound round = state := by
  unfold KeyboardInputSendState.resetForRound
  rw [if_neg (not_not.mpr h)]

/-- The first reset of a round leaves no epoch. -/
theorem resetForRound_of_ne {state : KeyboardInputSendState} {round : ℕ}
    (h : state.round ≠ round) : (state.resetForRound round).draws = true := by
  unfold KeyboardInputSendState.resetForRound
  rw [if_pos h]
  rfl

omit [DecidableEq Caller] in
/-- The new packet of an allocation, compared with those before it. -/
theorem Numbered.allocated_new {round : ℕ} {s : System Caller} (h : Numbered round s) (uuid : ℕ)
    (hdistinct : (s.sendState.resetForRound round).draws = true → epochOf uuid ∉ s.epochs) :
    ∀ p ∈ s.allocated,
      p.header.inputEpoch = ((s.sendState.resetForRound round).next uuid).epoch →
        p.header.sequence < ((s.sendState.resetForRound round).next uuid).sequence := by
  intro p hp hepoch
  obtain ⟨hdraws, hnext, -⟩ | ⟨hdraws, -, hnext, hsequence⟩ :=
    next_cases (s.sendState.resetForRound round) uuid
  · -- a packet of the new epoch would have had its epoch drawn before
    refine absurd ?_ (hdistinct hdraws)
    rw [← hnext, ← hepoch]
    exact h.drawn p hp
  · rcases h.fresh with hnone | hround
    · simp [hnone] at hp
    · rw [resetForRound_of_round hround] at hnext hsequence hepoch
      have hahead := h.ahead p hp (hepoch.trans hnext)
      rw [resetForRound_of_round hround, hsequence]
      exact Nat.lt_succ_of_le hahead

theorem epochs_allocate (s : System Caller) (round : ℕ) (caller : Caller)
    (payload : KeyboardInputUnion) (uuid : ℕ) :
    s.epochs <+: (s.allocate round caller payload uuid).epochs := by
  unfold System.allocate
  dsimp only
  split
  · exact List.prefix_append _ _
  · exact List.prefix_refl _

/-- The epoch of the new packet was just drawn, or it was drawn before. -/
theorem Numbered.epoch_new {round : ℕ} {s : System Caller} (h : Numbered round s)
    (caller : Caller) (payload : KeyboardInputUnion) (uuid : ℕ) :
    ((s.sendState.resetForRound round).next uuid).epoch ∈
        (s.allocate round caller payload uuid).epochs ∧
      ((s.sendState.resetForRound round).next uuid).epoch ≠ 0 := by
  obtain ⟨hdraws, hnext, -⟩ | ⟨hdraws, hnonzero, hnext, -⟩ :=
    next_cases (s.sendState.resetForRound round) uuid
  · refine ⟨?_, hnext ▸ epochOf_ne_zero uuid⟩
    simp [System.allocate, hdraws, hnext]
  · have hsame : s.sendState.round = round := by
      by_contra hne
      rw [resetForRound_of_ne hne] at hdraws
      simp at hdraws
    refine ⟨(epochs_allocate s round caller payload uuid).subset ?_, hnext ▸ hnonzero⟩
    rw [hnext]
    rw [resetForRound_of_round hsame] at hnonzero ⊢
    exact h.current hsame hnonzero

/-- The packet that an allocation makes. -/
def System.newPacket (s : System Caller) (round : ℕ) (payload : KeyboardInputUnion) (uuid : ℕ) :
    Packet :=
  let next := (s.sendState.resetForRound round).next uuid
  ⟨⟨next.epoch, next.sequence⟩, payload, s.allocated.length⟩

theorem mem_allocated_allocate {s : System Caller} {round : ℕ} {caller : Caller}
    {payload : KeyboardInputUnion} {uuid : ℕ} {p : Packet} :
    p ∈ (s.allocate round caller payload uuid).allocated ↔
      p ∈ s.allocated ∨ p = s.newPacket round payload uuid := by
  have hallocated : (s.allocate round caller payload uuid).allocated =
      s.allocated ++ [s.newPacket round payload uuid] := rfl
  rw [hallocated, List.mem_append, List.mem_singleton]

/-- The caller holds the new packet, every other caller what it held. -/
theorem held_allocate {s : System Caller} {round : ℕ} {caller other : Caller}
    {payload : KeyboardInputUnion} {uuid : ℕ} {p : Packet}
    (hp : p ∈ (s.allocate round caller payload uuid).held other) :
    other = caller ∧ p = s.newPacket round payload uuid ∨ other ≠ caller ∧ p ∈ s.held other := by
  have hheld : p ∈ Function.update s.held caller (some (s.newPacket round payload uuid)) other := hp
  by_cases hother : other = caller
  · subst hother
    rw [Function.update_self] at hheld
    exact .inl ⟨rfl, (Option.some.inj hheld).symm⟩
  · rw [Function.update_of_ne hother] at hheld
    exact .inr ⟨hother, hheld⟩

/-- A caller that sends its packet holds none. -/
theorem held_send {s : System Caller} {caller other : Caller} {packet p : Packet}
    (hp : p ∈ (s.send caller packet).held other) : other ≠ caller ∧ p ∈ s.held other := by
  have hheld : p ∈ Function.update s.held caller none other := hp
  by_cases hother : other = caller
  · subst hother
    rw [Function.update_self] at hheld
    cases hheld
  · rw [Function.update_of_ne hother] at hheld
    exact ⟨hother, hheld⟩

omit [DecidableEq Caller] in
theorem Numbered.newPacket_not_mem {round : ℕ} {s : System Caller} (h : Numbered round s)
    (payload : KeyboardInputUnion) (uuid : ℕ) : s.newPacket round payload uuid ∉ s.allocated :=
  fun hin => absurd (h.number_lt _ hin) (lt_irrefl _)

theorem allocate_numbered {round : ℕ} {s : System Caller} (h : Numbered round s)
    {caller : Caller} {payload : KeyboardInputUnion} {uuid : ℕ}
    (hdistinct : (s.sendState.resetForRound round).draws = true → epochOf uuid ∉ s.epochs) :
    Numbered round (s.allocate round caller payload uuid) := by
  have hnew := h.allocated_new uuid hdistinct
  have hepochs := (epochs_allocate s round caller payload uuid).subset
  have hepoch := h.epoch_new caller payload uuid
  have hround : ((s.sendState.resetForRound round).next uuid).round = round :=
    (round_next _ _).trans (round_resetForRound _ _)
  have hnumber : ∀ p ∈ s.allocated, p.number < (s.newPacket round payload uuid).number :=
    h.number_lt
  have hlength : (s.allocate round caller payload uuid).allocated.length =
      s.allocated.length + 1 := List.length_append
  refine ⟨.inr hround, ?_, ?_, ?_, ?_, fun _ _ => hepoch.1, ?_, ?_, ?_, ?_, ?_⟩
  · intro p hp
    rw [hlength]
    rcases mem_allocated_allocate.mp hp with hp | rfl
    · exact Nat.lt_succ_of_lt (h.number_lt p hp)
    · exact Nat.lt_succ_self _
  · intro p hp q hq heq
    rcases mem_allocated_allocate.mp hp with hp | rfl <;>
      rcases mem_allocated_allocate.mp hq with hq | rfl
    · exact h.unique p hp q hq heq
    · exact absurd heq (hnumber p hp).ne
    · exact absurd heq (hnumber q hq).ne'
    · rfl
  · intro p hp
    rcases mem_allocated_allocate.mp hp with hp | rfl
    · exact h.nonzero p hp
    · exact hepoch.2
  · intro p hp
    rcases mem_allocated_allocate.mp hp with hp | rfl
    · exact hepochs (h.drawn p hp)
    · exact hepoch.1
  · intro p hp hsame
    rcases mem_allocated_allocate.mp hp with hp | rfl
    · exact (hnew p hp hsame).le
    · exact le_rfl
  · intro p hp q hq hlt hsame
    rcases mem_allocated_allocate.mp hp with hp | rfl <;>
      rcases mem_allocated_allocate.mp hq with hq | rfl
    · exact h.increasing p hp q hq hlt hsame
    · exact hnew p hp hsame
    · exact absurd hlt (hnumber q hq).le.not_gt
    · exact absurd hlt (lt_irrefl _)
  · intro other p hp
    obtain ⟨rfl, rfl⟩ | ⟨-, hheld⟩ := held_allocate hp
    · exact ⟨mem_allocated_allocate.mpr (.inr rfl),
        fun hin => h.newPacket_not_mem payload uuid (h.sent _ hin)⟩
    · exact ⟨mem_allocated_allocate.mpr (.inl (h.held other p hheld).1), (h.held other p hheld).2⟩
  · -- the new packet is not one that another caller holds
    intro first second p hp hq
    obtain ⟨rfl, rfl⟩ | ⟨-, hfirst⟩ := held_allocate hp <;>
      obtain ⟨rfl, hpacket⟩ | ⟨-, hsecond⟩ := held_allocate hq
    · rfl
    · exact absurd (h.held second _ hsecond).1 (h.newPacket_not_mem payload uuid)
    · subst hpacket
      exact absurd (h.held first _ hfirst).1 (h.newPacket_not_mem payload uuid)
    · exact h.apart first second p hfirst hsecond
  · intro p hp
    exact mem_allocated_allocate.mpr (.inl (h.sent p hp))

theorem send_numbered {round : ℕ} {s : System Caller} (h : Numbered round s) {caller : Caller}
    {packet : Packet} (hheld : s.held caller = some packet) :
    Numbered round (s.send caller packet) := by
  have hsent : ∀ p, p ∈ (s.send caller packet).sent ↔ p ∈ s.sent ∨ p = packet := by
    simp [System.send]
  refine ⟨h.fresh, h.number_lt, h.unique, h.nonzero, h.drawn, h.current, h.ahead, h.increasing,
    ?_, ?_, ?_⟩
  · intro other p hp
    obtain ⟨hne, hheld'⟩ := held_send hp
    refine ⟨(h.held other p hheld').1, fun hin => ?_⟩
    rcases (hsent p).mp hin with hin | rfl
    · exact (h.held other p hheld').2 hin
    · exact hne (h.apart other caller p hheld' hheld)
  · intro first second p hp hq
    exact h.apart first second p (held_send hp).2 (held_send hq).2
  · intro p hp
    rcases (hsent p).mp hp with hp | rfl
    · exact h.sent p hp
    · exact (h.held caller p hheld).1

theorem step_epochs {round : ℕ} {s s' : System Caller} {event : Event Caller}
    (step : Step round s event s') : s.epochs <+: s'.epochs := by
  cases step with
  | allocate => exact epochs_allocate _ _ _ _ _
  | send => exact List.prefix_refl _
  | receive => exact List.prefix_refl _

theorem step_numbered {round : ℕ} {s s' : System Caller} {event : Event Caller}
    (h : Numbered round s) (step : Step round s event s') (hdistinct : s'.epochs.Nodup) :
    Numbered round s' := by
  cases step with
  | @allocate caller payload uuid hidle =>
      refine allocate_numbered h fun hdraws => ?_
      have hepochs : (s.epochs ++ [epochOf uuid]).Nodup := by
        simpa [System.allocate, hdraws] using hdistinct
      exact fun hin => (List.nodup_append.mp hepochs).2.2 _ hin _ (by simp) rfl
  | send hheld => exact send_numbered h hheld
  | receive =>
      exact ⟨h.fresh, h.number_lt, h.unique, h.nonzero, h.drawn, h.current, h.ahead,
        h.increasing, h.held, h.apart, h.sent⟩

/-! ## The host -/

/-- The host has accepted all that arrived and remembers the last of it. -/
def Follows (s : System Caller) (arrived : List Packet) : Prop :=
  s.sent = arrived ++ s.channel ∧ s.host.2 = arrived.map Packet.header ∧
    (arrived = [] ∧ s.host.1 = .default ∨
      ∃ earlier last, arrived = earlier ++ [last] ∧
        s.host.1 = ⟨last.header.inputEpoch, last.header.sequence⟩)

omit [DecidableEq Caller] in
/-- A packet that comes in order is accepted. -/
theorem receive_follows {round : ℕ} {s : System Caller} (h : Numbered round s)
    (hordered : s.sent.Pairwise fun p q => p.number < q.number) {arrived : List Packet}
    (hfollows : Follows s arrived) {packet : Packet} {rest : List Packet}
    (hchannel : s.channel = packet :: rest) :
    Follows (s.receive packet rest) (arrived ++ [packet]) := by
  obtain ⟨hsent, hlog, hremembers⟩ := hfollows
  rw [hchannel] at hsent
  have hpacket : packet ∈ s.sent := by simp [hsent]
  have haccepted : receivePacket s.host packet.header =
      (⟨packet.header.inputEpoch, packet.header.sequence⟩, s.host.2 ++ [packet.header]) := by
    obtain ⟨-, heq⟩ | ⟨hepoch, hstale, -⟩ | ⟨-, -, heq⟩ :=
      receivePacket_cases s.host.1 s.host.2 packet.header
    · exact heq
    · -- the host remembers an earlier packet, whose number was lower
      rcases hremembers with ⟨-, hdefault⟩ | ⟨earlier, last, harrived, hlast⟩
      · rw [hdefault] at hepoch
        exact absurd hepoch.symm (h.nonzero packet (h.sent packet hpacket))
      · have hin : last ∈ s.sent := by simp [hsent, harrived]
        have hlt : last.number < packet.number := by
          rw [hsent, harrived] at hordered
          exact (List.pairwise_append.mp hordered).2.2 last (by simp) packet (by simp)
        rw [hlast] at hepoch hstale
        exact absurd hstale
          (h.increasing last (h.sent last hin) packet (h.sent packet hpacket) hlt hepoch).not_ge
    · exact heq
  refine ⟨?_, ?_, .inr ⟨arrived, packet, rfl, ?_⟩⟩
  · rw [System.receive, hsent, List.append_assoc]
    rfl
  · have hnext : (s.receive packet rest).host = receivePacket s.host packet.header := rfl
    rw [hnext, haccepted, List.map_append, hlog]
    rfl
  · have hnext : (s.receive packet rest).host = receivePacket s.host packet.header := rfl
    rw [hnext, haccepted]

/-! ## Runs -/

/-- What holds along a run in which no overtaken packet was sent. -/
structure InOrder (round : ℕ) (s : System Caller) : Prop where
  numbered : Numbered round s
  ordered : s.sent.Pairwise fun p q => p.number < q.number
  follows : ∃ arrived, Follows s arrived

theorem orderedStep_inOrder {round : ℕ} {s s' : System Caller} {event : Event Caller}
    (h : InOrder round s) (step : OrderedStep round s event s') (hdistinct : s'.epochs.Nodup) :
    InOrder round s' := by
  have hnumbered := step_numbered h.numbered step.step hdistinct
  obtain ⟨arrived, hfollows⟩ := h.follows
  obtain ⟨hstep, hovertaken⟩ := step
  cases hstep with
  | allocate => exact ⟨hnumbered, h.ordered, arrived, hfollows⟩
  | @send caller packet hheld =>
      have hlast : ∀ other ∈ s.sent, other.number < packet.number := by
        intro other hother
        have hle : ¬ packet.number < other.number :=
          fun hlt => hovertaken ⟨packet, hheld, other, hother, hlt⟩
        refine lt_of_le_of_ne (Nat.le_of_not_lt hle) fun heq => ?_
        obtain ⟨hallocated, hunsent⟩ := h.numbered.held caller packet hheld
        have hsame :=
          h.numbered.unique other (h.numbered.sent other hother) packet hallocated heq
        exact hunsent (hsame ▸ hother)
      refine ⟨hnumbered, ?_, arrived, ?_, hfollows.2⟩
      · exact List.pairwise_append.mpr ⟨h.ordered, List.pairwise_singleton _ _,
          fun other hother last hin => by rw [List.mem_singleton.mp hin]; exact hlast other hother⟩
      · have hsent : (s.send caller packet).sent = s.sent ++ [packet] := rfl
        have hchannel : (s.send caller packet).channel = s.channel ++ [packet] := rfl
        rw [hsent, hchannel, hfollows.1, List.append_assoc]
  | receive hchannel =>
      exact ⟨hnumbered, h.ordered, _, receive_follows h.numbered h.ordered hfollows hchannel⟩

theorem orderedRun_inOrder {round : ℕ} {s s' : System Caller} {events : List (Event Caller)}
    (h : InOrder round s) (run : Run (OrderedStep round) s events s')
    (hdistinct : s'.epochs.Nodup) : InOrder round s' := by
  have hinv : s'.epochs.Nodup → InOrder round s' := by
    refine run.stateInvariant (fun s => s.epochs.Nodup → InOrder round s) (fun _ => h) ?_
    intro before event after hbefore step hnodup
    exact orderedStep_inOrder (hbefore (hnodup.sublist (step_epochs step.step).sublist)) step hnodup
  exact hinv hdistinct

omit [DecidableEq Caller] in
theorem inOrder_start {round : ℕ} {previous : KeyboardInputSendState}
    (hround : previous.round ≠ round) : InOrder round (System.start previous : System Caller) :=
  ⟨numbered_start round hround, by simp [System.start], [], rfl, rfl, .inl ⟨rfl, rfl⟩⟩

omit [DecidableEq Caller] in
theorem InOrder.intact {round : ℕ} {s : System Caller} (h : InOrder round s) : s.Intact := by
  obtain ⟨arrived, hsent, hlog, -⟩ := h.follows
  refine ⟨?_, h.ordered⟩
  rw [hlog, hsent, List.map_append]

/-- What was sent stays sent, in its order. -/
theorem run_sent {round : ℕ} {s s' : System Caller} {events : List (Event Caller)}
    (run : Run (Step round) s events s') : s.sent <+: s'.sent := by
  refine run.stateInvariant (fun state => s.sent <+: state.sent) (List.prefix_refl _) ?_
  intro before event after hbefore step
  cases step with
  | allocate => exact hbefore
  | send => exact hbefore.trans (List.prefix_append _ _)
  | receive => exact hbefore

/-- Where the packets were sent in the order of their numbers, none was overtaken. -/
theorem orderedRun_of_ordered {round : ℕ} {s s' : System Caller} {events : List (Event Caller)}
    (run : Run (Step round) s events s')
    (hordered : s'.sent.Pairwise fun p q => p.number < q.number) :
    Run (OrderedStep round) s events s' := by
  induction run with
  | nil => exact .nil
  | @snoc events before after event run step ih =>
      have hafter : before.sent <+: after.sent := run_sent (.single step)
      refine (ih (hordered.sublist hafter.sublist)).snoc ⟨step, fun hovertaken => ?_⟩
      cases step with
      | allocate => exact hovertaken
      | receive => exact hovertaken
      | @send caller packet hheld =>
          obtain ⟨held, hin, other, hother, hlt⟩ := hovertaken
          obtain rfl : packet = held := Option.some.inj (hheld.symm.trans hin)
          have hlast := (List.pairwise_append.mp hordered).2.2 other hother packet (by simp)
          exact absurd hlt hlast.not_gt

/-- **Keyboard packets of one round.**  If the drawn epochs are distinct, the host
accepts every packet, in the order of the numbers, exactly in the runs in which
no packet is sent that another one has overtaken. -/
theorem intact_iff_ordered {round : ℕ} {previous : KeyboardInputSendState}
    (hround : previous.round ≠ round) {events : List (Event Caller)} {s : System Caller}
    (run : Run (Step round) (System.start previous) events s) (hdistinct : s.epochs.Nodup) :
    s.Intact ↔ Run (OrderedStep round) (System.start previous) events s := by
  constructor
  · exact fun h => orderedRun_of_ordered run h.ordered
  · exact fun h => (orderedRun_inOrder (inOrder_start hround) h hdistinct).intact

/-- The release of the key with usage 4, and a text. -/
def keyRelease : KeyboardInputUnion := .physicalKey 4 false false 0 0
def text : KeyboardInputUnion := .committedText "a" 0 0 "" "" false

/-- A packet is not overtaken by packets with earlier numbers. -/
theorem orderedStep_send {round : ℕ} {s : System Caller} {caller : Caller} {packet : Packet}
    (hheld : s.held caller = some packet)
    (hlater : ∀ other ∈ s.sent, other.number ≤ packet.number) :
    OrderedStep round s (.send caller) (s.send caller packet) := by
  refine ⟨.send hheld, ?_⟩
  rintro ⟨held, hin, other, hother, hlt⟩
  obtain rfl : packet = held := Option.some.inj (hheld.symm.trans hin)
  exact absurd hlt (hlater other hother).not_gt

/-- Two callers have a number each before the first of them sends, which then takes another
one. -/
def interleaved : List (Event Bool) :=
  [.allocate true keyRelease 7] ++ [.allocate false text 7] ++ [.send true] ++
    [.allocate true keyRelease 7] ++ [.send false] ++ [.receive] ++ [.send true] ++ [.receive] ++
    [.receive]

/-- `intact_iff_ordered` at callers that run at once and send in the order of their numbers. -/
theorem intact_iff_ordered_interleaved :
    ∃ s : System Bool, Run (Step 1) (System.start {}) interleaved s ∧
      s.host.2 = [⟨7, 1⟩, ⟨7, 2⟩, ⟨7, 3⟩] ∧ s.Intact := by
  have hallocated : Run (OrderedStep 1) (System.start {} : System Bool)
      ([.allocate true keyRelease 7] ++ [.allocate false text 7]) _ :=
    .snoc (.single ⟨.allocate rfl, id⟩) ⟨.allocate rfl, id⟩
  have hagain : Run (OrderedStep 1) (System.start {} : System Bool)
      ([.allocate true keyRelease 7] ++ [.allocate false text 7] ++ [.send true] ++
        [.allocate true keyRelease 7]) _ :=
    .snoc (.snoc hallocated (orderedStep_send rfl (by decide))) ⟨.allocate rfl, id⟩
  have hreceived : Run (OrderedStep 1) (System.start {} : System Bool)
      ([.allocate true keyRelease 7] ++ [.allocate false text 7] ++ [.send true] ++
        [.allocate true keyRelease 7] ++ [.send false] ++ [.receive]) _ :=
    .snoc (.snoc hagain (orderedStep_send rfl (by decide))) ⟨.receive rfl, id⟩
  have hordered : Run (OrderedStep 1) (System.start {}) interleaved _ :=
    .snoc (.snoc (.snoc hreceived (orderedStep_send rfl (by decide))) ⟨.receive rfl, id⟩)
      ⟨.receive rfl, id⟩
  have hrun := hordered.mono fun _ _ _ h => h.step
  exact ⟨_, hrun, by decide, (intact_iff_ordered (by decide) hrun (by decide)).mpr hordered⟩

/-- The release takes number 1, the text takes number 2 and is sent first. -/
def releaseOvertaken : List (Event Bool) :=
  [.allocate true keyRelease 7] ++ [.allocate false text 7] ++ [.send false] ++ [.send true] ++
    [.receive] ++ [.receive]

/-- The host has taken the text and refused the release. -/
theorem not_intact_releaseOvertaken :
    ∃ s : System Bool, Run (Step 1) (System.start {}) releaseOvertaken s ∧ s.epochs.Nodup ∧
      s.channel = [] ∧ s.host.2 = [⟨7, 2⟩] ∧ ¬ s.Intact := by
  have hallocated : Run (Step 1) (System.start {} : System Bool)
      ([.allocate true keyRelease 7] ++ [.allocate false text 7]) _ :=
    .snoc (.single (.allocate rfl)) (.allocate rfl)
  have hrun : Run (Step 1) (System.start {}) releaseOvertaken _ :=
    .snoc (.snoc (.snoc (.snoc hallocated (.send rfl)) (.send rfl)) (.receive rfl)) (.receive rfl)
  refine ⟨_, hrun, by decide, rfl, by decide, fun hintact => ?_⟩
  have haccepted := hintact.accepted
  revert haccepted
  decide

end RustAdmin.Viewer.KeyboardSend
