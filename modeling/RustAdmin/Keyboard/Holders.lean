import RustAdmin.Keyboard.StateMachine
import RustAdmin.Support.Ledger
import RustAdmin.Support.Simulation

/-!
# Who holds a key

A key is held by its owners with a physical route and by its synthetic modifier
lease.  Seen this way the state machine is a ledger: every function of it is a
path of ledger steps, and what it dispatches is what the ledger says.

`Holder` is one type for both ways to hold a key, so that the ledger of the library
applies.  The routes and the leases are two maps; for each the effect of setting and
removing an entry on `Holds` is computed once (`holders_setRoute`,
`holders_removeLease` and so on), and the `moves_` lemmas name the ledger step in each
situation: the key is held by others or not, and the dispatch speaks for it or not.
-/

namespace RustAdmin.Keyboard

open RustAdmin.Support Relation

inductive Holder
  | owner (o : KeyOwner)
  | lease (k : HidKey)

def Holder.key : Holder → HidKey
  | .owner o => o.key
  | .lease k => k

namespace KeyboardStateMachine

variable {δ : Type*} {D : KeyboardDispatcher δ} {s s' s'' : KeyboardStateMachine δ}

def OwnsPhysically (s : KeyboardStateMachine δ) (owner : KeyOwner) : Prop :=
  ∃ active, s.activeRoutes.get? owner = some active ∧ active.route = .physical

/-- The key has an owner with a physical route. -/
def HasPhysicalOwner (s : KeyboardStateMachine δ) (key : HidKey) : Prop :=
  ∃ owner, s.OwnsPhysically owner ∧ owner.key = key

def HasLease (s : KeyboardStateMachine δ) (key : HidKey) : Prop :=
  ∃ lease, s.syntheticModifierLeases.get? key = some lease

def Holds (s : KeyboardStateMachine δ) : Holder → Prop
  | .owner owner => s.OwnsPhysically owner
  | .lease key => s.HasLease key

def holders (s : KeyboardStateMachine δ) : Set Holder := {holder | s.Holds holder}

/-- The physical actions handed to the dispatcher, with their keys. -/
def physicalLog (s : KeyboardStateMachine δ) : List (HidKey × KeyboardIntentAction) :=
  s.dispatched.filterMap KeyboardDispatchAction.physicalEntry

def ledger (s : KeyboardStateMachine δ) : Ledger HidKey Holder KeyboardIntentAction :=
  ⟨s.holders, s.physicalLog⟩

/-- A bracket may open with a repeat: its down was not seen. -/
abbrev KeyStep : Ledger HidKey Holder KeyboardIntentAction →
    Ledger HidKey Holder KeyboardIntentAction → Prop :=
  Ledger.Step Holder.key (· ≠ .up) (· = .repeat) (· = .up)

abbrev KeyPath : Ledger HidKey Holder KeyboardIntentAction →
    Ledger HidKey Holder KeyboardIntentAction → Prop :=
  ReflTransGen KeyStep

/-- Leases are for the key they are stored under. -/
structure WellKeyed (s : KeyboardStateMachine δ) : Prop where
  route : ∀ owner active, s.activeRoutes.get? owner = some active → active.lease.key = owner.key
  lease : ∀ key lease, s.syntheticModifierLeases.get? key = some lease → lease.key = key
  modifier : ∀ key, s.HasLease key → key.isModifier = true

/-- The later state is reached by ledger steps, and well keyed. -/
abbrev Moves : KeyboardStateMachine δ → KeyboardStateMachine δ → Prop :=
  Simulated WellKeyed ledger KeyStep

/-! ## Readers -/

theorem held_iff {key : HidKey} :
    Ledger.Held Holder.key s.holders key ↔ s.HasPhysicalOwner key ∨ s.HasLease key := by
  constructor
  · rintro ⟨holder, hmem, rfl⟩
    cases holder with
    | owner owner => exact Or.inl ⟨owner, hmem, rfl⟩
    | lease key => exact Or.inr hmem
  · rintro (⟨owner, howns, rfl⟩ | hlease)
    · exact ⟨.owner owner, howns, rfl⟩
    · exact ⟨.lease key, hlease, rfl⟩

theorem physicalRouteFor_eq_some {key : HidKey} {active : ActiveRoute}
    (h : s.physicalRouteFor key = some active) :
    ∃ owner, s.activeRoutes.get? owner = some active ∧ owner.key = key ∧
      active.route = .physical := by
  obtain ⟨⟨owner, active'⟩, hfind, rfl⟩ := Option.map_eq_some_iff.mp h
  have hsome := List.find?_some hfind
  simp only [Bool.and_eq_true, decide_eq_true_eq] at hsome
  exact ⟨owner, LinkedMap.mem_entries_iff.mp (List.mem_of_find?_eq_some hfind), hsome⟩

theorem isSome_physicalRouteFor {key : HidKey} :
    (s.physicalRouteFor key).isSome = true ↔ s.HasPhysicalOwner key := by
  constructor
  · intro h
    obtain ⟨active, hactive⟩ := Option.isSome_iff_exists.mp h
    obtain ⟨owner, hget, hkey, hroute⟩ := physicalRouteFor_eq_some hactive
    exact ⟨owner, ⟨active, hget, hroute⟩, hkey⟩
  · rintro ⟨owner, ⟨active, hget, hroute⟩, hkey⟩
    rw [physicalRouteFor, Option.isSome_map, List.find?_isSome]
    refine ⟨(owner, active), LinkedMap.mem_entries_iff.mpr hget, ?_⟩
    simp [hkey, hroute]

theorem physicalRouteFor_eq_none {key : HidKey} :
    s.physicalRouteFor key = none ↔ ¬ s.HasPhysicalOwner key := by
  rw [← isSome_physicalRouteFor, Bool.not_eq_true, Option.isSome_eq_false_iff,
    Option.isNone_iff_eq_none]

theorem contains_lease {key : HidKey} :
    s.syntheticModifierLeases.contains key = true ↔ s.HasLease key := LinkedMap.contains_iff

/-- The lease of a physical route is for the route's key. -/
theorem WellKeyed.physicalRouteFor (hs : s.WellKeyed) {key : HidKey} {active : ActiveRoute}
    (h : s.physicalRouteFor key = some active) : active.lease.key = key := by
  obtain ⟨owner, hget, hkey, -⟩ := physicalRouteFor_eq_some h
  exact (hs.route owner active hget).trans hkey

theorem mem_physicallyDispatchedKeys {key : HidKey} :
    key ∈ s.physicallyDispatchedKeys ↔ s.HasPhysicalOwner key := by
  simp only [physicallyDispatchedKeys, List.mem_toFinset, List.mem_map, List.mem_filter,
    decide_eq_true_eq]
  constructor
  · rintro ⟨⟨owner, active⟩, ⟨hmem, hroute⟩, rfl⟩
    exact ⟨owner, ⟨active, LinkedMap.mem_entries_iff.mp hmem, hroute⟩, rfl⟩
  · rintro ⟨owner, ⟨active, hget, hroute⟩, rfl⟩
    exact ⟨(owner, active), ⟨LinkedMap.mem_entries_iff.mpr hget, hroute⟩, rfl⟩

theorem hasPhysicalOwner_congr (h : s'.activeRoutes = s.activeRoutes) {key : HidKey} :
    s'.HasPhysicalOwner key ↔ s.HasPhysicalOwner key := by
  simp only [HasPhysicalOwner, OwnsPhysically, h]

theorem hasLease_congr (h : s'.syntheticModifierLeases = s.syntheticModifierLeases)
    {key : HidKey} : s'.HasLease key ↔ s.HasLease key := by
  simp only [HasLease, h]

/-! ## Steps

What a function does to the routes, the leases and the list of dispatched actions
decides which ledger step it is. -/

/-- Neither the holders nor the physical actions change. -/
theorem moves_of_same (hroutes : s'.activeRoutes = s.activeRoutes)
    (hleases : s'.syntheticModifierLeases = s.syntheticModifierLeases)
    (hlog : s'.physicalLog = s.physicalLog) : Moves s s' := by
  intro hs
  have hholders : s'.holders = s.holders := by
    ext holder
    cases holder <;> simp [holders, Holds, OwnsPhysically, HasLease, hroutes, hleases]
  refine ⟨⟨?_, ?_, ?_⟩, ?_⟩
  · rw [hroutes]
    exact hs.route
  · rw [hleases]
    exact hs.lease
  · simpa only [HasLease, hleases] using hs.modifier
  · rw [ledger, ledger, hholders, hlog]

theorem physicalLog_queueActions (actions : List KeyboardDispatchAction) :
    (s.queueActions D actions).2.physicalLog =
      s.physicalLog ++ actions.filterMap KeyboardDispatchAction.physicalEntry :=
  List.filterMap_append

theorem physicalLog_queuePhysical (dispatch : PhysicalKeyboardDispatch) :
    (s.queueActions D [.physical dispatch]).2.physicalLog =
      s.physicalLog ++ [(dispatch.key, dispatch.action)] :=
  physicalLog_queueActions _

@[simp] theorem holders_queueActions (actions : List KeyboardDispatchAction) :
    (s.queueActions D actions).2.holders = s.holders := rfl

theorem moves_text (dispatch : CommittedTextDispatch) :
    Moves s (s.queueActions D [.committedText dispatch]).2 := by
  refine moves_of_same rfl rfl ?_
  rw [physicalLog_queueActions]
  exact List.append_nil _

theorem moves_repeat {dispatch : PhysicalKeyboardDispatch}
    (hheld : s.HasPhysicalOwner dispatch.key ∨ s.HasLease dispatch.key)
    (haction : dispatch.action = .repeat) :
    Moves s (s.queueActions D [.physical dispatch]).2 := by
  intro hs
  refine ⟨⟨hs.route, hs.lease, hs.modifier⟩, .single ?_⟩
  rw [ledger, ledger, physicalLog_queuePhysical]
  exact .touch (held_iff.mpr hheld) haction

theorem queueActions_wellKeyed (hs : s.WellKeyed) (actions : List KeyboardDispatchAction) :
    (s.queueActions D actions).2.WellKeyed :=
  ⟨hs.route, hs.lease, hs.modifier⟩

/-! ### Routes -/

section Routes

variable {owner : KeyOwner} {active : ActiveRoute} {dispatch : PhysicalKeyboardDispatch}

theorem get?_setRoute (o : KeyOwner) : (s.setRoute owner active).activeRoutes.get? o =
    if o = owner then some active else s.activeRoutes.get? o := LinkedMap.get?_set

theorem get?_removeRoute (o : KeyOwner) : (s.removeRoute owner).activeRoutes.get? o =
    if o = owner then none else s.activeRoutes.get? o := LinkedMap.get?_remove

theorem WellKeyed.setRoute (hs : s.WellKeyed) (hkey : active.lease.key = owner.key) :
    (s.setRoute owner active).WellKeyed := by
  refine ⟨?_, hs.lease, hs.modifier⟩
  intro o r hget
  rw [get?_setRoute] at hget
  split_ifs at hget with ho
  · rw [Option.some.injEq] at hget
    rw [ho, ← hget, hkey]
  · exact hs.route o r hget

theorem WellKeyed.removeRoute (hs : s.WellKeyed) (owner : KeyOwner) :
    (s.removeRoute owner).WellKeyed := by
  refine ⟨?_, hs.lease, hs.modifier⟩
  intro o r hget
  rw [get?_removeRoute] at hget
  split_ifs at hget
  exact hs.route o r hget

theorem holders_setRoute (hroute : active.route = .physical) :
    (s.setRoute owner active).holders = insert (.owner owner) s.holders := by
  ext holder
  cases holder with
  | lease k => simp [holders, Holds, HasLease, KeyboardStateMachine.setRoute]
  | owner o =>
      by_cases ho : o = owner <;> simp [holders, Holds, OwnsPhysically, get?_setRoute, ho, hroute]

theorem holders_setRoute_silent (hroute : active.route ≠ .physical)
    (hold : ¬ s.OwnsPhysically owner) : (s.setRoute owner active).holders = s.holders := by
  ext holder
  cases holder with
  | lease k => simp [holders, Holds, HasLease, KeyboardStateMachine.setRoute]
  | owner o =>
      by_cases ho : o = owner
      · subst ho
        simpa [holders, Holds, OwnsPhysically, get?_setRoute, hroute] using hold
      · simp [holders, Holds, OwnsPhysically, get?_setRoute, ho]

theorem holders_removeRoute :
    (s.removeRoute owner).holders = s.holders \ {.owner owner} := by
  ext holder
  cases holder with
  | lease k => simp [holders, Holds, HasLease, KeyboardStateMachine.removeRoute]
  | owner o =>
      by_cases ho : o = owner <;> simp [holders, Holds, OwnsPhysically, get?_removeRoute, ho]

/-- A new owner of a key that is held. -/
theorem moves_shareRoute (hroute : active.route = .physical) (hkey : active.lease.key = owner.key)
    (hheld : s.HasPhysicalOwner owner.key ∨ s.HasLease owner.key) :
    Moves s (s.setRoute owner active) := by
  intro hs
  refine ⟨hs.setRoute hkey, .single ?_⟩
  rw [ledger, ledger, holders_setRoute hroute]
  exact .share (Holder.owner owner) (held_iff.mpr hheld)

/-- The first holder of a key, an owner, speaks for it. -/
theorem moves_takeRoute (hroute : active.route = .physical) (hkey : active.lease.key = owner.key)
    (hfree : ¬ s.HasPhysicalOwner owner.key) (hlease : ¬ s.HasLease owner.key)
    (hdispatch : dispatch.key = owner.key) (haction : dispatch.action ≠ .up) :
    Moves s ((s.setRoute owner active).queueActions D [.physical dispatch]).2 := by
  intro hs
  refine ⟨queueActions_wellKeyed (hs.setRoute hkey) _, .single ?_⟩
  rw [ledger, ledger, physicalLog_queuePhysical, holders_queueActions, holders_setRoute hroute,
    hdispatch]
  refine .take (Holder.owner owner) ?_ haction
  intro hheld
  exact (held_iff.mp hheld).elim hfree hlease

/-- A press that is not routed physically. -/
theorem moves_silentRoute (hroute : active.route ≠ .physical) (hkey : active.lease.key = owner.key)
    (hold : ¬ s.OwnsPhysically owner) : Moves s (s.setRoute owner active) := by
  intro hs
  refine ⟨hs.setRoute hkey, ?_⟩
  rw [ledger, ledger, holders_setRoute_silent hroute hold]
  exact .refl

/-- An owner without a physical route goes. -/
theorem moves_removeSilent (hown : ¬ s.OwnsPhysically owner) : Moves s (s.removeRoute owner) := by
  intro hs
  have hholders : s.holders \ {.owner owner} = s.holders := Set.sdiff_singleton_eq_self hown
  refine ⟨hs.removeRoute owner, ?_⟩
  rw [ledger, ledger, holders_removeRoute, hholders]
  exact .refl

/-- An owner goes while the key is still held. -/
theorem moves_leaveRoute
    (hheld : (s.removeRoute owner).HasPhysicalOwner owner.key ∨ s.HasLease owner.key) :
    Moves s (s.removeRoute owner) := by
  intro hs
  refine ⟨hs.removeRoute owner, .single ?_⟩
  rw [ledger, ledger, holders_removeRoute]
  refine .leave (Holder.owner owner) ?_
  rw [← holders_removeRoute]
  exact held_iff.mpr hheld

/-- The last holder of a key, an owner, lets go of it. -/
theorem moves_closeRoute (hown : s.OwnsPhysically owner)
    (hlast : ¬ (s.removeRoute owner).HasPhysicalOwner owner.key) (hlease : ¬ s.HasLease owner.key)
    (hdispatch : dispatch.key = owner.key) (haction : dispatch.action = .up) :
    Moves s ((s.removeRoute owner).queueActions D [.physical dispatch]).2 := by
  intro hs
  refine ⟨queueActions_wellKeyed (hs.removeRoute owner) _, .single ?_⟩
  have hholders : (s.removeRoute owner).holders = {h ∈ s.holders | h.key ≠ owner.key} := by
    ext holder
    constructor
    · intro hmem
      have hkey : holder.key ≠ owner.key := by
        intro hkey
        exact (held_iff.mp ⟨holder, hmem, hkey⟩).elim hlast hlease
      rw [holders_removeRoute] at hmem
      exact ⟨hmem.1, hkey⟩
    · rintro ⟨hmem, hkey⟩
      rw [holders_removeRoute]
      refine ⟨hmem, ?_⟩
      rintro rfl
      exact hkey rfl
  rw [ledger, ledger, physicalLog_queuePhysical, holders_queueActions, hholders, hdispatch]
  exact .close (held_iff.mpr (Or.inl ⟨owner, hown, rfl⟩)) haction

end Routes

/-! ### Leases -/

section Leases

variable {key : HidKey} {lease : KeyboardPhysicalDispatchLease}
  {dispatch : PhysicalKeyboardDispatch}

theorem get?_setLease (k : HidKey) : (s.setLease key lease).syntheticModifierLeases.get? k =
    if k = key then some lease else s.syntheticModifierLeases.get? k := LinkedMap.get?_set

theorem get?_removeLease (k : HidKey) : (s.removeLease key).syntheticModifierLeases.get? k =
    if k = key then none else s.syntheticModifierLeases.get? k := LinkedMap.get?_remove

theorem WellKeyed.setLease (hs : s.WellKeyed) (hkey : lease.key = key)
    (hmodifier : key.isModifier = true) : (s.setLease key lease).WellKeyed := by
  refine ⟨hs.route, ?_, ?_⟩
  · intro k l hget
    rw [get?_setLease] at hget
    split_ifs at hget with hk
    · rw [Option.some.injEq] at hget
      rw [hk, ← hget, hkey]
    · exact hs.lease k l hget
  · rintro k ⟨l, hget⟩
    rw [get?_setLease] at hget
    split_ifs at hget with hk
    · exact hk ▸ hmodifier
    · exact hs.modifier k ⟨l, hget⟩

theorem WellKeyed.removeLease (hs : s.WellKeyed) (key : HidKey) :
    (s.removeLease key).WellKeyed := by
  refine ⟨hs.route, ?_, ?_⟩
  · intro k l hget
    rw [get?_removeLease] at hget
    split_ifs at hget
    exact hs.lease k l hget
  · rintro k ⟨l, hget⟩
    rw [get?_removeLease] at hget
    split_ifs at hget
    exact hs.modifier k ⟨l, hget⟩

theorem holders_setLease : (s.setLease key lease).holders = insert (.lease key) s.holders := by
  ext holder
  cases holder with
  | lease k => by_cases hk : k = key <;> simp [holders, Holds, HasLease, get?_setLease, hk]
  | owner o => simp [holders, Holds, OwnsPhysically, KeyboardStateMachine.setLease]

theorem holders_removeLease : (s.removeLease key).holders = s.holders \ {.lease key} := by
  ext holder
  cases holder with
  | lease k => by_cases hk : k = key <;> simp [holders, Holds, HasLease, get?_removeLease, hk]
  | owner o => simp [holders, Holds, OwnsPhysically, KeyboardStateMachine.removeLease]

/-- A synthetic modifier joins the owners of its key. -/
theorem moves_shareLease (hkey : lease.key = key) (hmodifier : key.isModifier = true)
    (hheld : s.HasPhysicalOwner key) : Moves s (s.setLease key lease) := by
  intro hs
  refine ⟨hs.setLease hkey hmodifier, .single ?_⟩
  rw [ledger, ledger, holders_setLease]
  exact .share (Holder.lease key) (held_iff.mpr (Or.inl hheld))

/-- The first holder of a key, a synthetic modifier, speaks for it. -/
theorem moves_takeLease (hkey : lease.key = key) (hmodifier : key.isModifier = true)
    (hfree : ¬ s.HasPhysicalOwner key) (hlease : ¬ s.HasLease key)
    (hdispatch : dispatch.key = key) (haction : dispatch.action ≠ .up) :
    Moves s ((s.setLease key lease).queueActions D [.physical dispatch]).2 := by
  intro hs
  refine ⟨queueActions_wellKeyed (hs.setLease hkey hmodifier) _, .single ?_⟩
  rw [ledger, ledger, physicalLog_queuePhysical, holders_queueActions, holders_setLease, hdispatch]
  refine .take (Holder.lease key) ?_ haction
  intro hheld
  exact (held_iff.mp hheld).elim hfree hlease

/-- A synthetic modifier goes while its key has a physical owner. -/
theorem moves_leaveLease (hheld : s.HasPhysicalOwner key) : Moves s (s.removeLease key) := by
  intro hs
  refine ⟨hs.removeLease key, .single ?_⟩
  rw [ledger, ledger, holders_removeLease]
  refine .leave (Holder.lease key) ?_
  rw [← holders_removeLease]
  exact held_iff.mpr (Or.inl hheld)

/-- The last holder of a key, a synthetic modifier, lets go of it. -/
theorem moves_closeLease (hlease : s.HasLease key) (hlast : ¬ s.HasPhysicalOwner key)
    (hdispatch : dispatch.key = key) (haction : dispatch.action = .up) :
    Moves s ((s.removeLease key).queueActions D [.physical dispatch]).2 := by
  intro hs
  refine ⟨queueActions_wellKeyed (hs.removeLease key) _, .single ?_⟩
  have hholders : (s.removeLease key).holders = {h ∈ s.holders | h.key ≠ key} := by
    rw [holders_removeLease]
    ext holder
    cases holder with
    | lease k => simp [Holder.key]
    | owner o =>
        constructor
        · intro hmem
          exact ⟨hmem.1, fun hkey => hlast ⟨o, hmem.1, hkey⟩⟩
        · intro hmem
          exact ⟨hmem.1, by simp⟩
  rw [ledger, ledger, physicalLog_queuePhysical, holders_queueActions, hholders, hdispatch]
  exact .close (held_iff.mpr (Or.inr hlease)) haction

end Leases

end KeyboardStateMachine

end RustAdmin.Keyboard
