import Mathlib.Algebra.BigOperators.Ring.Finset
import RustAdmin.Keyboard.TextBudgets
import RustAdmin.Keyboard.TextInspection

/-!
# The bytes that are reserved

The dispatcher reserves for a text what `inspect` has counted.  So what it has reserved
at any time are the bytes in UTF-8 of the texts that are outstanding.
-/

namespace RustAdmin.Keyboard

open RustAdmin.Support KeyboardDispatcherState

/-- The bytes of a text, and those of an accent that does not compose with it. -/
def CommittedTextDispatch.encodedBytes (dispatch : CommittedTextDispatch) : ℕ :=
  (utf8Encode dispatch.text).length + if dispatch.deadKeyAccent.isSome then 4 else 0

def DispatchCommand.encodedBytes (command : DispatchCommand) : ℕ :=
  match command.action with
  | .physical _ => 0
  | .committedText dispatch => dispatch.encodedBytes

/-- A text is one, and costs its bytes. -/
structure DispatchCommand.Costed (command : DispatchCommand) : Prop where
  paired : ∀ dispatch, command.action = .committedText dispatch → SurrogatesPaired dispatch.text
  bytes_eq : command.reservation.bytes = command.encodedBytes

theorem byteCost_encoded {dispatch : CommittedTextDispatch} {cost : ℤ}
    (h : dispatch.byteCost = .ok cost) :
    SurrogatesPaired dispatch.text ∧ cost = dispatch.encodedBytes := by
  unfold CommittedTextDispatch.byteCost at h
  dsimp only at h
  split at h
  · cases h
  · next hnone =>
      obtain ⟨hpaired, -, hbytes⟩ := KeyboardTextPolicy.inspect_accepted hnone
      generalize hcost : (KeyboardTextPolicy.inspect dispatch.text).bytes +
        (if dispatch.deadKeyAccent.isSome = true then 4 else 0) = byteCost at h
      split_ifs at h with haccent hlarge hedits
      obtain rfl := Except.ok.inj h
      rw [hbytes] at hcost
      exact ⟨hpaired, congrArg Nat.cast hcost.symm⟩

/-! ## Runs -/

/-- The commands of an event cost what they are. -/
theorem DispatcherEvent.costed (d : KeyboardDispatcherState) (event : DispatcherEvent) :
    ∀ command ∈ event.admits d, command.Costed := by
  have hphysical : ∀ (dispatch : PhysicalKeyboardDispatch) (cost : ℤ),
      (⟨.physical dispatch, cost⟩ : DispatchCommand).Costed := by
    intro dispatch cost
    refine ⟨fun _ haction => ?_, rfl⟩
    cases haction
  intro command hmem
  cases event with
  | text dispatch hcounts =>
      obtain ⟨cost, hcost, rfl⟩ := mem_admits_text hmem
      obtain ⟨hpaired, hbytes⟩ := byteCost_encoded hcost
      refine ⟨fun other haction => ?_, hbytes⟩
      obtain rfl := KeyboardDispatchAction.committedText.inj haction
      exact hpaired
  | keys dispatches =>
      obtain ⟨action, cost⟩ := command
      cases action with
      | physical dispatch => exact hphysical dispatch cost
      | committedText dispatch => exact absurd hmem not_mem_admits_keys
  | recovery releases =>
      obtain ⟨release, -, rfl⟩ := List.mem_map.mp hmem
      exact hphysical release 0
  | invalidatePending => cases hmem
  | settled settlement => cases hmem
  | canDispatch allowed => cases hmem

theorem costed_run (canDispatch composesDeadKeys : Bool) (events : List DispatcherEvent) :
    ∀ command ∈ (DispatcherTrace.run canDispatch composesDeadKeys events).admitted,
      command.Costed := by
  induction events using List.reverseRecOn with
  | nil =>
      intro command hmem
      cases hmem
  | append_singleton events event ih =>
      rw [DispatcherTrace.run_concat]
      intro command hmem
      rcases List.mem_append.mp hmem with hold | hnew
      · exact ih command hold
      · exact event.costed _ command hnew

/-- What is reserved in a run without an overflow are the bytes of the texts that are
outstanding, and never more than the limit. -/
theorem pendingBytes_run {canDispatch composesDeadKeys : Bool} {events : List DispatcherEvent}
    (h : NoOverflow canDispatch composesDeadKeys events) :
    let d := (DispatcherTrace.run canDispatch composesDeadKeys events).dispatcher
    d.pendingText.bytes = (d.outstanding.map DispatchCommand.encodedBytes).sum ∧
      (d.outstanding.map DispatchCommand.encodedBytes).sum ≤ 65536 := by
  have hbudgeted := (traceSound_run h).budgeted
  obtain ⟨completed, hcompleted⟩ := hbudgeted.completed
  have hcosted := costed_run canDispatch composesDeadKeys events
  generalize DispatcherTrace.run canDispatch composesDeadKeys events = t at *
  have hbytes : t.dispatcher.pendingText.bytes =
      (t.dispatcher.outstanding.map DispatchCommand.encodedBytes).sum := by
    rw [hbudgeted.outstanding]
    have hsame : (t.dispatcher.outstanding.map fun command => command.reservation.bytes) =
        t.dispatcher.outstanding.map fun command => (command.encodedBytes : ℤ) := by
      refine List.map_congr_left fun command hmem => ?_
      exact (hcosted command (hcompleted ▸ List.mem_append_right _ hmem)).bytes_eq
    unfold reserved
    dsimp only
    rw [hsame, Nat.cast_list_sum, List.map_map]
    rfl
  have hle := hbudgeted.bytes
  refine ⟨hbytes, ?_⟩
  rw [hbytes] at hle
  exact_mod_cast hle

end RustAdmin.Keyboard
