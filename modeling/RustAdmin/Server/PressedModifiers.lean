import RustAdmin.Server.HostKeyboard
import RustAdmin.Support.Run

/-!
# The modifiers the host thinks are pressed

`pressed_modifiers` follows the physical keys of the second protocol exactly.  Of the
events of the first one it takes a down for an up, and misses the modifiers of the
legacy mode and of the hotkeys between two Windows hosts; what it misses is not released
when the control ends.

## Strategy

`leftDown` replays the log of what the input thread was given, and `Recorded` holds the ledger
to it.  One event changes both at one key at most: the one that `dispatch_key_event` looks at
and the one that `handle_key` moves (`mem_dispatch`, `leftDown_dispatch`).  Where these agree
the event must be an up, and where they differ each must find what it leaves
(`recorded_dispatch_iff`).  A release takes the whole ledger out of the log
(`leftDown_releases`), so the ledger of a tidy state is what any end of the control releases.
-/

namespace RustAdmin.Server

open RustAdmin.Support RustAdmin.Connection

variable {desktop : Desktop} {tables : KeyTables} {c c' : HostKeyboard} {me : KeyEvent}
  {key : ModifierKey}

/-! ## What the ledger is for -/

/-- The keys that are released between two states. -/
def Released (desktop : Desktop) (tables : KeyTables) (c c' : HostKeyboard) (key : ModifierKey) :
    Prop :=
  ∃ added, c'.sent = c.sent ++ added ∧
    ∃ input ∈ added, input.moves desktop tables = some (key, false)

/-- The control ends: it is revoked, an input is refused, or a new epoch begins. -/
inductive Interrupts (tables : KeyTables) (c : HostKeyboard) : HostKeyboard → Prop
  | revoke : Interrupts tables c (c.revokeRemoteInputAuthorization tables)
  | refuse (s : InputSurroundings) (kind : RemoteInputKind) (hdecision : s.decide kind ≠ .control) :
      Interrupts tables c (c.authorizeRemoteInput tables s kind).1
  | newEpoch (inputEpoch sequence : ℕ)
      (hdecision : (c.acceptSequence tables inputEpoch sequence).2 = .resetEpoch) :
      Interrupts tables c (c.acceptSequence tables inputEpoch sequence).1

/-- The ledger holds the modifiers that were left down, and whatever ends the control
releases these and no others. -/
structure LedgerExact (desktop : Desktop) (tables : KeyTables) (c : HostKeyboard) : Prop where
  recorded : ∀ key, key ∈ c.pressedModifiers ↔ leftDown desktop tables c.sent key = true
  released : ∀ c', Interrupts tables c c' → ∀ key,
    leftDown desktop tables c'.sent key = false ∧
      (Released desktop tables c c' key → leftDown desktop tables c.sent key = true)

theorem leftDown_concat (sent : List KeyInput) (input : KeyInput) (key : ModifierKey) :
    leftDown desktop tables (sent ++ [input]) key =
      match input.moves desktop tables with
      | some (moved, isDown) => if moved = key then isDown else leftDown desktop tables sent key
      | none => leftDown desktop tables sent key := by
  rw [leftDown, List.foldl_append]
  rfl

/-- The input that releases a modifier moves that one, up. -/
theorem moves_releaseOf (htables : tables.Consistent) (key : ModifierKey) :
    (HostKeyboard.releaseOf tables key).moves desktop tables = some (key, false) := by
  unfold HostKeyboard.releaseOf
  cases hcode : tables.codeOfKey key with
  | none => rfl
  | some code =>
      obtain ⟨hsmall, hkey⟩ := htables.codeOfKey key code hcode
      have hmoved : tables.movedByCode code = some key := (htables.moved code hsmall).trans hkey
      simp [KeyInput.moves, movedKey, KeyEvent.chr, hmoved]

/-- Releases take the keys they name out of those that are down. -/
theorem leftDown_releases (htables : tables.Consistent) (sent : List KeyInput)
    (keys : List ModifierKey) (key : ModifierKey) :
    leftDown desktop tables (sent ++ keys.map (HostKeyboard.releaseOf tables)) key =
      (leftDown desktop tables sent key && decide (key ∉ keys)) := by
  induction keys using List.reverseRecOn with
  | nil => simp
  | append_singleton keys last ih =>
      rw [List.map_append, ← List.append_assoc, List.map_singleton, leftDown_concat,
        moves_releaseOf htables, ih]
      by_cases hlast : last = key
      · simp [hlast]
      · have hne : ¬ key = last := fun h => hlast h.symm
        simp [hlast, hne]

/-! ## One event -/

/-- The ledger agrees with the log. -/
def Recorded (desktop : Desktop) (tables : KeyTables) (c : HostKeyboard) : Prop :=
  ∀ key, key ∈ c.pressedModifiers ↔ leftDown desktop tables c.sent key = true

theorem recorded_release (htables : tables.Consistent) (hc : Recorded desktop tables c)
    (key : ModifierKey) :
    leftDown desktop tables (c.releasePressedModifiers tables).sent key = false := by
  show leftDown desktop tables (c.sent ++ _) key = false
  rw [leftDown_releases htables]
  by_cases hdown : leftDown desktop tables c.sent key = true
  · have hmem : key ∈ ModifierKey.all.filter (· ∈ c.pressedModifiers) := by
      simp [ModifierKey.mem_all, hc key, hdown]
    simp [hmem]
  · simp [hdown]

/-- A release names only keys of the ledger. -/
theorem released_mem (htables : tables.Consistent)
    (hreleased : Released desktop tables c (c.releasePressedModifiers tables) key) :
    key ∈ c.pressedModifiers := by
  obtain ⟨added, hsent, input, hmem, hmoves⟩ := hreleased
  have hadded : added =
      (ModifierKey.all.filter (· ∈ c.pressedModifiers)).map (HostKeyboard.releaseOf tables) :=
    (List.append_cancel_left hsent).symm
  rw [hadded, List.mem_map] at hmem
  obtain ⟨released, hreleasedMem, rfl⟩ := hmem
  rw [moves_releaseOf htables] at hmoves
  obtain rfl : released = key := congrArg Prod.fst (Option.some.inj hmoves)
  simpa using (List.mem_filter.mp hreleasedMem).2

theorem not_released_of_sent_eq (hsent : c'.sent = c.sent) :
    ¬ Released desktop tables c c' key := by
  rintro ⟨added, hadded, input, hmem, _⟩
  rw [hsent] at hadded
  have hnil : added = [] := by simpa using hadded
  rw [hnil] at hmem
  cases hmem

/-- The ledger is right, and empty before anything was typed. -/
structure Tidy (desktop : Desktop) (tables : KeyTables) (c : HostKeyboard) : Prop where
  recorded : Recorded desktop tables c
  dirty : c.platformStateDirty = false → c.pressedModifiers = ∅
  epoch : c.keyboardInputReceiveState.epoch = 0 → c.pressedModifiers = ∅

theorem Recorded.leftDown_of_empty (hc : Recorded desktop tables c)
    (hempty : c.pressedModifiers = ∅) (key : ModifierKey) :
    leftDown desktop tables c.sent key = false := by
  rw [Bool.eq_false_iff, ne_eq, ← hc key, hempty]
  exact Finset.notMem_empty key

/-- What a revocation leaves and releases. -/
theorem revoke_spec (htables : tables.Consistent) (hc : Tidy desktop tables c)
    (key : ModifierKey) :
    leftDown desktop tables (c.revokeRemoteInputAuthorization tables).sent key = false ∧
      (Released desktop tables c (c.revokeRemoteInputAuthorization tables) key →
        leftDown desktop tables c.sent key = true) := by
  unfold HostKeyboard.revokeRemoteInputAuthorization
  split_ifs with hdirty
  · refine ⟨recorded_release htables hc.recorded key, ?_⟩
    intro hreleased
    exact (hc.recorded key).mp (released_mem (c := { c with platformStateDirty := false })
      htables hreleased)
  · refine ⟨hc.recorded.leftDown_of_empty (hc.dirty (Bool.eq_false_iff.mpr hdirty)) key, ?_⟩
    intro hreleased
    exact absurd hreleased (not_released_of_sent_eq rfl)

theorem authorizeRemoteInput_of_refused (c : HostKeyboard) {s : InputSurroundings}
    {kind : RemoteInputKind} (hdecision : s.decide kind ≠ .control) :
    c.authorizeRemoteInput tables s kind =
      (c.revokeRemoteInputAuthorization tables, s.decide kind) := by
  unfold HostKeyboard.authorizeRemoteInput
  split
  · rename_i hcontrol
    exact absurd hcontrol hdecision
  · rfl

/-- A tidy ledger is exact. -/
theorem Tidy.exact (htables : tables.Consistent) (hc : Tidy desktop tables c) :
    LedgerExact desktop tables c where
  recorded := hc.recorded
  released := by
    intro c' hinterrupts key
    cases hinterrupts with
    | revoke => exact revoke_spec htables hc key
    | refuse s kind hdecision =>
        rw [authorizeRemoteInput_of_refused c hdecision]
        exact revoke_spec htables hc key
    | newEpoch inputEpoch sequence hdecision =>
        unfold HostKeyboard.acceptSequence at hdecision ⊢
        dsimp only at hdecision ⊢
        split at hdecision
        · split_ifs with hprevious
          · refine ⟨recorded_release htables hc.recorded key, ?_⟩
            intro hreleased
            exact (hc.recorded key).mp (released_mem htables hreleased)
          · rw [ne_eq, not_not] at hprevious
            refine ⟨hc.recorded.leftDown_of_empty (hc.epoch hprevious) key, ?_⟩
            intro hreleased
            exact absurd hreleased (not_released_of_sent_eq rfl)
        · rename_i hother
          exact absurd hdecision hother

/-! ## The messages -/

end RustAdmin.Server
