import Mathlib.Algebra.Order.BigOperators.Group.List
import RustAdmin.Keyboard.Dispatcher

/-!
# The text budgets

While the deletion counts of no text overflow when they are added, what is reserved
is the sum over the commands that have not completed, and no budget is exceeded.  A
batch of key actions reserves nothing and is then never refused.

`Covers` says that the reservation is the sum over the commands and that no budget is
exceeded.  It is kept by adding a batch that was admitted (`Covers.add`) and by taking
a command away (`Covers.sub`); the admission itself is arithmetic on one command
(`byteCost_ok`, `editCost_nonneg`).
-/

namespace RustAdmin.Keyboard

open RustAdmin.Support

/-- The sum of two counts, unless one is negative, fits into 64 bits. -/
def EditsFit (before after : ℤ) : Prop := 0 ≤ before → 0 ≤ after → before + after < 2 ^ 63

def DispatchCommand.reservation (command : DispatchCommand) : TextReservation :=
  match command.action with
  | .physical _ => {}
  | .committedText dispatch => ⟨command.cost, 1, dispatch.editCost⟩

/-- The sum of what is reserved for the commands. -/
def reserved (commands : List DispatchCommand) : TextReservation where
  bytes := (commands.map fun command => command.reservation.bytes).sum
  operations := (commands.map fun command => command.reservation.operations).sum
  edits := (commands.map fun command => command.reservation.edits).sum

def TextReservation.Nonneg (reservation : TextReservation) : Prop :=
  0 ≤ reservation.bytes ∧ 0 ≤ reservation.operations ∧ 0 ≤ reservation.edits

/-- The reservation is that of the commands, and no budget is exceeded. -/
structure Covers (reservation : TextReservation) (commands : List DispatchCommand) : Prop where
  total : reservation = reserved commands
  nonneg : ∀ command ∈ commands, command.reservation.Nonneg
  within : ¬ reservation.exceeds

variable {reservation : TextReservation} {command : DispatchCommand}
  {commands more : List DispatchCommand}

/-! ## Sums -/

theorem reserved_append : reserved (commands ++ more) =
    ⟨(reserved commands).bytes + (reserved more).bytes,
      (reserved commands).operations + (reserved more).operations,
      (reserved commands).edits + (reserved more).edits⟩ := by
  simp [reserved]

theorem reserved_cons : reserved (command :: commands) =
    ⟨command.reservation.bytes + (reserved commands).bytes,
      command.reservation.operations + (reserved commands).operations,
      command.reservation.edits + (reserved commands).edits⟩ := by
  simp [reserved]

theorem reserved_nonneg (hnonneg : ∀ command ∈ commands, command.reservation.Nonneg) :
    (reserved commands).Nonneg := by
  induction commands with
  | nil => exact ⟨le_refl _, le_refl _, le_refl _⟩
  | cons command commands ih =>
      obtain ⟨hbytes, hoperations, hedits⟩ := hnonneg command List.mem_cons_self
      obtain ⟨hbytes', hoperations', hedits'⟩ :=
        ih fun other hmem => hnonneg other (List.mem_cons_of_mem _ hmem)
      rw [reserved_cons]
      exact ⟨add_nonneg hbytes hbytes', add_nonneg hoperations hoperations',
        add_nonneg hedits hedits'⟩

theorem not_exceeds_iff : ¬ reservation.exceeds ↔ reservation.bytes ≤ 65536 ∧
    reservation.edits ≤ 65536 ∧ reservation.operations ≤ 64 := by
  unfold TextReservation.exceeds KeyboardTextPolicy.maxPendingBytes
    KeyboardTextPolicy.maxEditGraphemes KeyboardTextPolicy.maxPendingOperations
  push_cast
  omega

theorem Covers.nonneg_total (h : Covers reservation commands) : reservation.Nonneg := by
  rw [h.total]
  exact reserved_nonneg h.nonneg

/-- A command that completes gives back what was reserved for it. -/
theorem Covers.sub (h : Covers reservation (command :: commands)) :
    Covers (reservation.sub command.reservation) commands := by
  obtain ⟨hbytes, hedits, hoperations⟩ := not_exceeds_iff.mp h.within
  obtain ⟨hbytes', hoperations', hedits'⟩ := h.nonneg command List.mem_cons_self
  have hrest : ∀ other ∈ commands, other.reservation.Nonneg :=
    fun other hmem => h.nonneg other (List.mem_cons_of_mem _ hmem)
  obtain ⟨hbytes'', hoperations'', hedits''⟩ := reserved_nonneg hrest
  have htotal := h.total
  rw [reserved_cons] at htotal
  rw [htotal] at hbytes hedits hoperations
  dsimp only at hbytes hedits hoperations
  have hsub : reservation.sub command.reservation = reserved commands := by
    rw [htotal]
    unfold TextReservation.sub
    dsimp only
    rw [add_sub_cancel_left, add_sub_cancel_left, add_sub_cancel_left,
      castI64_of_lt (by omega) (by omega), castI64_of_lt (by omega) (by omega),
      castI64_of_lt (by omega) (by omega)]
  refine ⟨hsub, hrest, ?_⟩
  rw [hsub, not_exceeds_iff]
  exact ⟨by omega, by omega, by omega⟩

/-- A batch that fits is covered with the commands before it. -/
theorem Covers.add (h : Covers reservation commands)
    (hmore : ∀ command ∈ more, command.reservation.Nonneg)
    (hsmall : (reserved more).bytes ≤ 65536 ∧ (reserved more).edits ≤ 65536 ∧
      (reserved more).operations ≤ 64)
    (hfits : ¬ (reservation.add (reserved more)).exceeds) :
    Covers (reservation.add (reserved more)) (commands ++ more) := by
  obtain ⟨hbytes, hedits, hoperations⟩ := not_exceeds_iff.mp h.within
  obtain ⟨hbytes', hoperations', hedits'⟩ := h.nonneg_total
  obtain ⟨hbytes'', hoperations'', hedits''⟩ := reserved_nonneg hmore
  refine ⟨?_, ?_, hfits⟩
  · rw [reserved_append, ← h.total]
    unfold TextReservation.add
    rw [castI64_of_lt (by omega) (by omega), castI64_of_lt (by omega) (by omega),
      castI64_of_lt (by omega) (by omega)]
  · intro command hmem
    rcases List.mem_append.mp hmem with hold | hnew
    · exact h.nonneg command hold
    · exact hmore command hnew

/-! ## Admission -/

/-- What an admitted text costs. -/
theorem byteCost_ok {dispatch : CommittedTextDispatch} {cost : ℤ}
    (h : dispatch.byteCost = .ok cost) :
    (0 ≤ cost ∧ cost ≤ 65536) ∧ 0 ≤ dispatch.deleteBeforeGraphemes ∧
      0 ≤ dispatch.deleteAfterGraphemes ∧ dispatch.editCost ≤ 65536 := by
  unfold CommittedTextDispatch.byteCost at h
  dsimp only at h
  split at h
  · cases h
  · generalize ((KeyboardTextPolicy.inspect dispatch.text).bytes +
      if dispatch.deadKeyAccent.isSome = true then 4 else 0) = byteCost at h
    split_ifs at h with haccent hlarge hedits
    obtain rfl := Except.ok.inj h
    unfold KeyboardTextPolicy.maxOperationBytes at hlarge
    unfold KeyboardTextPolicy.maxEditGraphemes at hedits
    push_cast at hlarge hedits
    omega

theorem editCost_nonneg {dispatch : CommittedTextDispatch}
    (hfit : EditsFit dispatch.deleteBeforeGraphemes dispatch.deleteAfterGraphemes)
    (hbefore : 0 ≤ dispatch.deleteBeforeGraphemes) (hafter : 0 ≤ dispatch.deleteAfterGraphemes) :
    0 ≤ dispatch.editCost := by
  have hlt := hfit hbefore hafter
  rw [CommittedTextDispatch.editCost, castI64_of_lt (by omega) hlt]
  omega

theorem reserveFrom_physicals (dispatches : List PhysicalKeyboardDispatch)
    (reservation : TextReservation) (commands : List DispatchCommand) :
    reserveFrom reservation commands (dispatches.map KeyboardDispatchAction.physical) =
      .ok (reservation, commands ++ dispatches.map fun dispatch => ⟨.physical dispatch, 0⟩) := by
  induction dispatches generalizing commands with
  | nil => simp [reserveFrom]
  | cons dispatch dispatches ih => simp [reserveFrom, ih]

theorem Covers.add_empty (h : Covers reservation commands) : reservation.add {} = reservation := by
  obtain ⟨hbytes, hedits, hoperations⟩ := not_exceeds_iff.mp h.within
  obtain ⟨hbytes', hoperations', hedits'⟩ := h.nonneg_total
  unfold TextReservation.add
  dsimp only
  rw [add_zero, add_zero, add_zero, castI64_of_lt (by omega) (by omega),
    castI64_of_lt (by omega) (by omega), castI64_of_lt (by omega) (by omega)]

namespace KeyboardDispatcherState

variable {d : KeyboardDispatcherState}

/-- A batch of key actions is accepted and reserves nothing. -/
theorem tryDispatchAll_physicals (h : Covers d.pendingText commands)
    (dispatches : List PhysicalKeyboardDispatch) :
    d.tryDispatchAll (dispatches.map KeyboardDispatchAction.physical) =
      (true, d.enqueueAll (dispatches.map fun dispatch => ⟨.physical dispatch, 0⟩)) := by
  unfold tryDispatchAll
  rw [reserveFrom_physicals]
  dsimp only
  rw [h.add_empty, if_neg h.within]
  rfl

/-- A text is refused, or accepted with a reservation of its own. -/
theorem tryDispatchAll_text (h : Covers d.pendingText commands) {dispatch : CommittedTextDispatch}
    (hfit : EditsFit dispatch.deleteBeforeGraphemes dispatch.deleteAfterGraphemes) :
    (∃ reason, d.tryDispatchAll [.committedText dispatch] = (false, d.rejectText reason)) ∨
    ∃ reservation cost, Covers reservation (commands ++ [⟨.committedText dispatch, cost⟩]) ∧
      d.tryDispatchAll [.committedText dispatch] =
        (true, { d with pendingText := reservation }.enqueue
          ⟨.committedText dispatch, cost⟩ false) := by
  unfold tryDispatchAll reserveFrom
  cases hcost : dispatch.byteCost with
  | error reason => exact Or.inl ⟨reason, rfl⟩
  | ok cost =>
      obtain ⟨⟨hcost0, hcostLe⟩, hbefore, hafter, hedits⟩ := byteCost_ok hcost
      have hedits0 := editCost_nonneg hfit hbefore hafter
      have hbatch : TextReservation.add {} ⟨cost, 1, dispatch.editCost⟩ =
          Keyboard.reserved [⟨.committedText dispatch, cost⟩] := by
        unfold TextReservation.add Keyboard.reserved
        simp only [zero_add, List.map_cons, List.map_nil, List.sum_cons, List.sum_nil, add_zero]
        rw [castI64_of_lt (by omega) (by omega), castI64_of_lt (by omega) (by omega),
          castI64_of_lt (by omega) (by omega)]
        rfl
      have hsmall : (Keyboard.reserved [⟨.committedText dispatch, cost⟩]).bytes ≤ 65536 ∧
          (Keyboard.reserved [⟨.committedText dispatch, cost⟩]).edits ≤ 65536 ∧
          (Keyboard.reserved [⟨.committedText dispatch, cost⟩]).operations ≤ 64 := by
        simp only [Keyboard.reserved, List.map_cons, List.map_nil, List.sum_cons, List.sum_nil,
          add_zero, DispatchCommand.reservation]
        omega
      dsimp only
      unfold reserveFrom
      dsimp only
      rw [hbatch]
      split_ifs with hexceeds
      · exact Or.inl ⟨_, rfl⟩
      · refine Or.inr ⟨_, cost, h.add ?_ hsmall hexceeds, rfl⟩
        intro command hmem
        obtain rfl := List.mem_singleton.mp hmem
        exact ⟨hcost0, zero_le_one, hedits0⟩

end KeyboardDispatcherState

end RustAdmin.Keyboard
