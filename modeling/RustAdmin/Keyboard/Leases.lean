import RustAdmin.Keyboard.Brackets
import RustAdmin.Keyboard.Dispatcher
import RustAdmin.Support.Answered

/-!
# Who carries a down

All holders of a key have one lease.  A down or repeat that was handed to the
dispatcher is carried by a holder with its lease, or an up with the same lease was
handed over after it; and the up finds a sink if the down did.

`Leased` is the invariant: the holders of a key agree on its lease, and every press
that was handed over is carried by one of them or was released.  It is kept by each
kind of change (`Change.leased`): one that adds a holder with the lease of the others,
one that removes a holder while another is left, and one that removes the last, which
dispatches the up.  `reset_leased` is separate, since a reset is no path of changes.
-/

namespace RustAdmin.Keyboard

open RustAdmin.Support Relation

def KeyboardDispatchAction.physical? : KeyboardDispatchAction → Option PhysicalKeyboardDispatch
  | .physical dispatch => some dispatch
  | .committedText _ => none

namespace PhysicalKeyboardDispatch

variable {dispatch release : PhysicalKeyboardDispatch} {active : ActiveRoute}

/-- There is a sink for it. -/
def Reaches (dispatch : PhysicalKeyboardDispatch) : Prop := dispatch.sinkCall.isSome = true

/-- A down or repeat that a sink gets. -/
def Presses (dispatch : PhysicalKeyboardDispatch) : Prop := dispatch.action ≠ .up ∧ dispatch.Reaches

/-- An up of the same lease that a sink gets. -/
def ReleasedBy (dispatch release : PhysicalKeyboardDispatch) : Prop :=
  release.lease = dispatch.lease ∧ release.action = .up ∧ release.Reaches

theorem reaches_congr (hlease : release.lease = dispatch.lease)
    (hname : release.legacyName = dispatch.legacyName) : release.Reaches ↔ dispatch.Reaches := by
  unfold Reaches sinkCall key
  rw [hlease, hname]
  cases dispatch.lease.transport <;> simp

/-- Ups press nothing. -/
theorem not_presses_of_ups {releases : List PhysicalKeyboardDispatch}
    (hups : ∀ release ∈ releases, release.action = .up) :
    ∀ release ∈ releases, ¬ release.Presses := by
  intro release hmem hpresses
  exact hpresses.1 (hups release hmem)

/-- There is a sink for every modifier. -/
theorem reaches_of_isModifier (hmodifier : dispatch.key.isModifier = true) : dispatch.Reaches := by
  unfold Reaches sinkCall
  cases dispatch.lease.transport with
  | hid => rfl
  | legacy =>
      dsimp only
      rw [Option.isSome_map]
      exact isSome_legacyNameOf_modifier hmodifier _

end PhysicalKeyboardDispatch

open PhysicalKeyboardDispatch

/-- A dispatch along the route would find a sink. -/
def ActiveRoute.Reaches (active : ActiveRoute) : Prop :=
  ∀ dispatch : PhysicalKeyboardDispatch, dispatch.IsFor active → dispatch.Reaches

theorem ActiveRoute.reaches_of_isFor {active : ActiveRoute} {dispatch : PhysicalKeyboardDispatch}
    (hfor : dispatch.IsFor active) (hreaches : dispatch.Reaches) : active.Reaches := by
  intro other hother
  exact (reaches_congr (hother.1.trans hfor.1.symm) (hother.2.trans hfor.2.symm)).mpr hreaches

namespace KeyboardStateMachine

variable {δ : Type*} {D : KeyboardDispatcher δ} {edits : ℤ → ℤ → Prop}
  {s s' : KeyboardStateMachine δ} {owner : KeyOwner} {active shared : ActiveRoute} {key : HidKey}
  {dispatch : PhysicalKeyboardDispatch}

/-- The physical actions handed to the dispatcher. -/
def physicalDispatches (s : KeyboardStateMachine δ) : List PhysicalKeyboardDispatch :=
  s.dispatched.filterMap KeyboardDispatchAction.physical?

/-- The route of a physical owner of the key. -/
def Routed (s : KeyboardStateMachine δ) (key : HidKey) (active : ActiveRoute) : Prop :=
  ∃ owner, s.activeRoutes.get? owner = some active ∧ owner.key = key ∧ active.route = .physical

/-- A holder has the lease of the dispatch, and its up would find a sink. -/
def Carries (s : KeyboardStateMachine δ) (dispatch : PhysicalKeyboardDispatch) : Prop :=
  (∃ active, s.Routed dispatch.key active ∧ active.lease = dispatch.lease ∧ active.Reaches) ∨
    s.syntheticModifierLeases.get? dispatch.key = some dispatch.lease

/-- The holders of a key have one lease, and what was pressed is carried or released. -/
structure Leased (s : KeyboardStateMachine δ) : Prop where
  routes : ∀ key active shared, s.Routed key active → s.Routed key shared →
    active.lease = shared.lease ∧ active.legacyName = shared.legacyName
  leases : ∀ key active lease, s.Routed key active →
    s.syntheticModifierLeases.get? key = some lease → active.lease = lease
  answered : Answered Presses ReleasedBy s.Carries s.physicalDispatches

/-! ## Routes -/

theorem routed_of_physicalRouteFor (h : s.physicalRouteFor key = some shared) :
    s.Routed key shared := physicalRouteFor_eq_some h

theorem Routed.hasPhysicalOwner (h : s.Routed key active) : s.HasPhysicalOwner key := by
  obtain ⟨owner, hget, hkey, hphysical⟩ := h
  exact ⟨owner, ⟨active, hget, hphysical⟩, hkey⟩

theorem HasPhysicalOwner.routed (h : s.HasPhysicalOwner key) : ∃ active, s.Routed key active := by
  obtain ⟨owner, ⟨active, hget, hphysical⟩, hkey⟩ := h
  exact ⟨active, owner, hget, hkey, hphysical⟩

theorem HasPhysicalOwner.physicalRouteFor (h : s.HasPhysicalOwner key) :
    ∃ shared, s.physicalRouteFor key = some shared :=
  Option.isSome_iff_exists.mp (isSome_physicalRouteFor.mpr h)

theorem WellKeyed.routed (hs : s.WellKeyed) (h : s.Routed key active) : active.lease.key = key := by
  obtain ⟨owner, hget, hkey, -⟩ := h
  exact (hs.route owner active hget).trans hkey

theorem routed_congr (hroutes : s'.activeRoutes = s.activeRoutes) :
    s'.Routed key active ↔ s.Routed key active := by
  unfold Routed
  rw [hroutes]

theorem carries_congr (hroutes : s'.activeRoutes = s.activeRoutes)
    (hleases : s'.syntheticModifierLeases = s.syntheticModifierLeases) :
    s'.Carries dispatch ↔ s.Carries dispatch := by
  unfold Carries
  rw [hleases]
  simp only [routed_congr hroutes]

/-- What the route of a press becomes: the new one, or one that was there. -/
theorem routed_setRoute (h : (s.setRoute owner active).Routed key shared) :
    (key = owner.key ∧ shared = active) ∨ s.Routed key shared := by
  obtain ⟨o, hget, hkey, hphysical⟩ := h
  rw [get?_setRoute] at hget
  split_ifs at hget with ho
  · exact Or.inl ⟨by rw [← hkey, ho], (Option.some.inj hget).symm⟩
  · exact Or.inr ⟨o, hget, hkey, hphysical⟩

theorem routed_setRoute_self (hphysical : active.route = .physical) :
    (s.setRoute owner active).Routed owner.key active := by
  refine ⟨owner, ?_, rfl, hphysical⟩
  rw [get?_setRoute, if_pos rfl]

/-- A route is there still, unless the new one took its place. -/
theorem Routed.setRoute (h : s.Routed key shared) (owner : KeyOwner) (active : ActiveRoute) :
    key = owner.key ∨ (s.setRoute owner active).Routed key shared := by
  obtain ⟨o, hget, hkey, hphysical⟩ := h
  by_cases ho : o = owner
  · exact Or.inl (by rw [← hkey, ho])
  · refine Or.inr ⟨o, ?_, hkey, hphysical⟩
    rw [get?_setRoute, if_neg ho, hget]

theorem routed_of_removeRoute (h : (s.removeRoute owner).Routed key shared) :
    s.Routed key shared := by
  obtain ⟨o, hget, hkey, hphysical⟩ := h
  rw [get?_removeRoute] at hget
  split_ifs at hget
  exact ⟨o, hget, hkey, hphysical⟩

theorem Routed.removeRoute (h : s.Routed key shared) (owner : KeyOwner) :
    key = owner.key ∨ (s.removeRoute owner).Routed key shared := by
  obtain ⟨o, hget, hkey, hphysical⟩ := h
  by_cases ho : o = owner
  · exact Or.inl (by rw [← hkey, ho])
  · refine Or.inr ⟨o, ?_, hkey, hphysical⟩
    rw [get?_removeRoute, if_neg ho, hget]

theorem get?_of_removeLease {lease : KeyboardPhysicalDispatchLease} {k : HidKey}
    (hget : (s.removeLease key).syntheticModifierLeases.get? k = some lease) :
    s.syntheticModifierLeases.get? k = some lease := by
  rw [get?_removeLease] at hget
  split_ifs at hget
  exact hget

theorem physicalDispatches_queuePhysical :
    (s.queueActions D [.physical dispatch]).2.physicalDispatches =
      s.physicalDispatches ++ [dispatch] :=
  List.filterMap_append

theorem physicalDispatches_queueText (text : CommittedTextDispatch) :
    (s.queueActions D [.committedText text]).2.physicalDispatches = s.physicalDispatches := by
  have happend : (s.queueActions D [.committedText text]).2.physicalDispatches =
      s.physicalDispatches ++ [] := List.filterMap_append
  rw [happend, List.append_nil]

/-! ## One change -/

/-- Holders may go, if what they carried is released. -/
theorem Leased.shrink (hl : s.Leased)
    (hroutes : ∀ key active, s'.Routed key active → s.Routed key active)
    (hleases : ∀ key lease, s'.syntheticModifierLeases.get? key = some lease →
      s.syntheticModifierLeases.get? key = some lease)
    (hanswered : Answered Presses ReleasedBy s'.Carries s'.physicalDispatches) : s'.Leased where
  routes := fun key active shared hactive hshared =>
    hl.routes key active shared (hroutes key active hactive) (hroutes key shared hshared)
  leases := fun key active lease hactive hget =>
    hl.leases key active lease (hroutes key active hactive) (hleases key lease hget)
  answered := hanswered

theorem Leased.of_same (hl : s.Leased) (hroutes : s'.activeRoutes = s.activeRoutes)
    (hleases : s'.syntheticModifierLeases = s.syntheticModifierLeases)
    (hdispatches : s'.physicalDispatches = s.physicalDispatches) : s'.Leased := by
  apply hl.shrink
  · exact fun key active => (routed_congr hroutes).mp
  · intro key lease hget
    rwa [hleases] at hget
  · rw [hdispatches]
    exact hl.answered.mono fun x _ => (carries_congr hroutes hleases).mpr

/-- A dispatch that presses is carried. -/
theorem Leased.queuePhysical (hl : s.Leased) (hcarries : dispatch.Presses → s.Carries dispatch) :
    (s.queueActions D [.physical dispatch]).2.Leased := by
  refine ⟨hl.routes, hl.leases, ?_⟩
  rw [physicalDispatches_queuePhysical]
  exact hl.answered.append (fun x _ hx => Or.inl hx) (answered_singleton hcarries)

/-- A dispatch of an owner is carried by it. -/
theorem Routed.carries (h : s.Routed key active) (hs : s.WellKeyed) (hfor : dispatch.IsFor active)
    (hpresses : dispatch.Presses) : s.Carries dispatch := by
  have hkey : dispatch.key = key := by
    rw [PhysicalKeyboardDispatch.key, hfor.1, hs.routed h]
  exact Or.inl ⟨active, hkey ▸ h, hfor.1.symm, ActiveRoute.reaches_of_isFor hfor hpresses.2⟩

/-- An owner comes whose lease and name are those of the other holders. -/
theorem Leased.setRoute (hl : s.Leased) (hphysical : active.route = .physical)
    (hroutes : ∀ shared, s.Routed owner.key shared →
      active.lease = shared.lease ∧ active.legacyName = shared.legacyName)
    (hleases : ∀ lease, s.syntheticModifierLeases.get? owner.key = some lease →
      active.lease = lease) : (s.setRoute owner active).Leased where
  routes := by
    intro key r r' hr hr'
    rcases routed_setRoute hr with ⟨hkey, rfl⟩ | hold
    · rcases routed_setRoute hr' with ⟨_, rfl⟩ | hold'
      · exact ⟨rfl, rfl⟩
      · exact hroutes r' (hkey ▸ hold')
    · rcases routed_setRoute hr' with ⟨hkey, rfl⟩ | hold'
      · obtain ⟨hlease, hname⟩ := hroutes r (hkey ▸ hold)
        exact ⟨hlease.symm, hname.symm⟩
      · exact hl.routes key r r' hold hold'
  leases := by
    intro key r lease hr hget
    rcases routed_setRoute hr with ⟨hkey, rfl⟩ | hold
    · subst hkey
      exact hleases lease hget
    · exact hl.leases key r lease hold hget
  answered := by
    apply hl.answered.mono
    intro x _ hx
    rcases hx with ⟨r, hr, hlease, hreaches⟩ | hget
    · rcases hr.setRoute owner active with hkey | hstill
      · -- the new owner carries what the old one did
        obtain ⟨hleaseEq, hname⟩ := hroutes r (hkey ▸ hr)
        refine Or.inl ⟨active, hkey ▸ routed_setRoute_self hphysical, hleaseEq.trans hlease, ?_⟩
        intro dispatch hfor
        exact hreaches dispatch ⟨hfor.1.trans hleaseEq, hfor.2.trans hname⟩
      · exact Or.inl ⟨r, hstill, hlease, hreaches⟩
    · exact Or.inr hget

/-- A route that agrees with a holder of its key agrees with all. -/
theorem Agrees.routed (hagrees : s.Agrees key active) (hl : s.Leased) (h : s.Routed key shared) :
    active.lease = shared.lease ∧ active.legacyName = shared.legacyName := by
  obtain ⟨first, hfirst⟩ := h.hasPhysicalOwner.physicalRouteFor
  obtain ⟨hlease, hname⟩ := hl.routes key first shared (routed_of_physicalRouteFor hfirst) h
  obtain ⟨hnameFirst, hleaseFirst⟩ := hagrees.shared first hfirst
  refine ⟨?_, hnameFirst.trans hname⟩
  cases hget : s.syntheticModifierLeases.get? key with
  | none => exact (hleaseFirst hget).trans hlease
  | some lease =>
      calc active.lease
          = lease := hagrees.lease lease hget
        _ = shared.lease := (hl.leases key shared lease h hget).symm

/-- A synthetic modifier comes with the lease of its key's owners. -/
theorem Leased.setLease {lease : KeyboardPhysicalDispatchLease} (hl : s.Leased)
    (hroutes : ∀ shared, s.Routed key shared → shared.lease = lease)
    (hleases : ∀ held, s.syntheticModifierLeases.get? key = some held → held = lease) :
    (s.setLease key lease).Leased where
  routes := hl.routes
  leases := by
    intro k r held hr hget
    have hold : s.Routed k r := hr
    rw [get?_setLease] at hget
    split_ifs at hget with hk
    · subst hk
      rw [← Option.some.inj hget]
      exact hroutes r hold
    · exact hl.leases k r held hold hget
  answered := by
    apply hl.answered.mono
    rintro x _ (hrouted | hget)
    · exact Or.inl hrouted
    · refine Or.inr ?_
      rw [get?_setLease]
      split_ifs with hk
      · rw [hleases x.lease (hk ▸ hget)]
      · exact hget

/-- An owner without a physical route carries nothing. -/
theorem Leased.silentRoute (hl : s.Leased) (hroute : active.route ≠ .physical)
    (hold : ¬ s.OwnsPhysically owner) : (s.setRoute owner active).Leased := by
  have hback : ∀ key shared, (s.setRoute owner active).Routed key shared →
      s.Routed key shared := by
    intro key shared h
    rcases routed_setRoute h with ⟨_, rfl⟩ | h'
    · obtain ⟨_, _, _, hphysical⟩ := h
      exact absurd hphysical hroute
    · exact h'
  have hforth : ∀ key shared, s.Routed key shared →
      (s.setRoute owner active).Routed key shared := by
    rintro key shared ⟨o, hget, hkey, hphysical⟩
    refine ⟨o, ?_, hkey, hphysical⟩
    rw [get?_setRoute, if_neg, hget]
    rintro rfl
    exact hold ⟨shared, hget, hphysical⟩
  apply hl.shrink hback (fun _ _ hget => hget)
  apply hl.answered.mono
  rintro x _ (⟨r, hr, hcarries⟩ | hget)
  · exact Or.inl ⟨r, hforth _ r hr, hcarries⟩
  · exact Or.inr hget

theorem Leased.removeSilent (hl : s.Leased) (hown : ¬ s.OwnsPhysically owner) :
    (s.removeRoute owner).Leased := by
  apply hl.shrink (fun _ _ => routed_of_removeRoute) (fun _ _ hget => hget)
  apply hl.answered.mono
  rintro x _ (⟨r, ⟨o, hget, hkey, hphysical⟩, hcarries⟩ | hget)
  · refine Or.inl ⟨r, ⟨o, ?_, hkey, hphysical⟩, hcarries⟩
    rw [get?_removeRoute, if_neg, hget]
    rintro rfl
    exact hown ⟨r, hget, hphysical⟩
  · exact Or.inr hget

/-- Another holder carries on what an owner carried that goes. -/
theorem Leased.leaveRoute (hl : s.Leased)
    (hheld : (s.removeRoute owner).HasPhysicalOwner owner.key ∨ s.HasLease owner.key) :
    (s.removeRoute owner).Leased := by
  apply hl.shrink (fun _ _ => routed_of_removeRoute) (fun _ _ hget => hget)
  apply hl.answered.mono
  rintro x _ (⟨r, hr, hlease, hreaches⟩ | hget)
  · rcases hr.removeRoute owner with hkey | hstill
    · rw [← hkey] at hheld
      rcases hheld with hother | ⟨lease, hget⟩
      · obtain ⟨other, hrouted⟩ := hother.routed
        obtain ⟨hleaseEq, hname⟩ := hl.routes x.key other r (routed_of_removeRoute hrouted) hr
        refine Or.inl ⟨other, hrouted, hleaseEq.trans hlease, ?_⟩
        intro dispatch hfor
        exact hreaches dispatch ⟨hfor.1.trans hleaseEq, hfor.2.trans hname⟩
      · refine Or.inr ?_
        have hleaseEq := hl.leases x.key r lease hr hget
        rw [← hlease, hleaseEq]
        exact hget
    · exact Or.inl ⟨r, hstill, hlease, hreaches⟩
  · exact Or.inr hget

/-- The last holder of a key releases what it carried. -/
theorem Leased.closeRoute (hl : s.Leased) (hget : s.activeRoutes.get? owner = some active)
    (hphysical : active.route = .physical) (hfor : dispatch.IsFor active)
    (haction : dispatch.action = .up) :
    ((s.removeRoute owner).queueActions D [.physical dispatch]).2.Leased := by
  have hactive : s.Routed owner.key active := ⟨owner, hget, rfl, hphysical⟩
  refine Leased.shrink hl (fun _ _ => routed_of_removeRoute) (fun _ _ hget => hget) ?_
  rw [physicalDispatches_queuePhysical]
  refine hl.answered.append ?_ (answered_of_silent (not_presses_of_ups (by simpa using haction)))
  rintro x _ (⟨r, hr, hleaseEq, hreaches⟩ | hgetLease)
  · rcases hr.removeRoute owner with hkey | hstill
    · obtain ⟨hsame, hname⟩ := hl.routes owner.key active r hactive (hkey ▸ hr)
      have hforRoute : dispatch.IsFor r := ⟨hfor.1.trans hsame, hfor.2.trans hname⟩
      exact Or.inr ⟨dispatch, List.mem_singleton_self _, hforRoute.1.trans hleaseEq, haction,
        hreaches dispatch hforRoute⟩
    · exact Or.inl (Or.inl ⟨r, hstill, hleaseEq, hreaches⟩)
  · exact Or.inl (Or.inr hgetLease)

/-- The owners of a key carry on what its synthetic modifier carried. -/
theorem Leased.leaveLease (hl : s.Leased) (hs : s.WellKeyed) (hheld : s.HasPhysicalOwner key) :
    (s.removeLease key).Leased := by
  refine Leased.shrink hl (fun _ _ h => h) (fun _ _ => get?_of_removeLease) ?_
  apply hl.answered.mono
  rintro x _ (hrouted | hget)
  · exact Or.inl hrouted
  · by_cases hkey : x.key = key
    · obtain ⟨r, hr⟩ := hheld.routed
      have hleaseEq : r.lease = x.lease := hl.leases key r x.lease hr (hkey ▸ hget)
      have hmodifier : key.isModifier = true := hs.modifier key ⟨x.lease, hkey ▸ hget⟩
      refine Or.inl ⟨r, hkey ▸ hr, hleaseEq, ?_⟩
      intro dispatch hfor
      apply reaches_of_isModifier
      rw [PhysicalKeyboardDispatch.key, hfor.1, hs.routed hr]
      exact hmodifier
    · refine Or.inr ?_
      rw [get?_removeLease, if_neg hkey]
      exact hget

/-- The last holder of a key, a synthetic modifier, releases what it carried. -/
theorem Leased.closeLease {lease : KeyboardPhysicalDispatchLease} (hl : s.Leased)
    (hs : s.WellKeyed) (hget : s.syntheticModifierLeases.get? key = some lease)
    (hdispatch : dispatch.lease = lease) (haction : dispatch.action = .up) :
    ((s.removeLease key).queueActions D [.physical dispatch]).2.Leased := by
  have hreaches : dispatch.Reaches := by
    apply reaches_of_isModifier
    rw [PhysicalKeyboardDispatch.key, hdispatch, hs.lease key lease hget]
    exact hs.modifier key ⟨lease, hget⟩
  refine Leased.shrink hl (fun _ _ h => h) (fun _ _ => get?_of_removeLease) ?_
  rw [physicalDispatches_queuePhysical]
  refine hl.answered.append ?_ (answered_of_silent (not_presses_of_ups (by simpa using haction)))
  rintro x _ (hrouted | hgetX)
  · exact Or.inl (Or.inl hrouted)
  · by_cases hkey : x.key = key
    · rw [hkey, hget] at hgetX
      exact Or.inr ⟨dispatch, List.mem_singleton_self _,
        hdispatch.trans (Option.some.inj hgetX), haction, hreaches⟩
    · refine Or.inl (Or.inr ?_)
      show (s.removeLease key).syntheticModifierLeases.get? x.key = some x.lease
      rw [get?_removeLease, if_neg hkey]
      exact hgetX

/-- A change keeps the leases. -/
theorem Change.leased (h : Change D edits s s') (hs : s.WellKeyed) (hl : s.Leased) :
    s'.Leased := by
  cases h with
  | quiet hroutes hleases hdispatched hdispatcher =>
      refine hl.of_same hroutes hleases ?_
      rw [physicalDispatches, hdispatched, physicalDispatches]
  | text text hedits => exact hl.of_same rfl rfl (physicalDispatches_queueText text)
  | @repeats owner active dispatch hget hphysical hfor haction =>
      have hrouted : s.Routed owner.key active := ⟨owner, hget, rfl, hphysical⟩
      exact hl.queuePhysical (hrouted.carries hs hfor)
  | shareRoute hphysical hkey hheld hagrees =>
      exact hl.setRoute hphysical (fun shared => hagrees.routed hl) hagrees.lease
  | @takeRoute owner active dispatch hphysical hkey hfree hlease hfor haction =>
      have hset : (s.setRoute owner active).Leased := by
        apply hl.setRoute hphysical
        · exact fun shared hshared => absurd hshared.hasPhysicalOwner hfree
        · exact fun lease hget => absurd ⟨lease, hget⟩ hlease
      exact hset.queuePhysical ((routed_setRoute_self hphysical).carries (hs.setRoute hkey) hfor)
  | silentRoute hroute hkey hold => exact hl.silentRoute hroute hold
  | removeSilent hown => exact hl.removeSilent hown
  | leaveRoute hheld => exact hl.leaveRoute hheld
  | closeRoute hget hphysical hlast hlease hfor haction =>
      exact hl.closeRoute hget hphysical hfor haction
  | @shareLease key shared hmodifier hshared =>
      have hrouted := routed_of_physicalRouteFor hshared
      apply hl.setLease
      · exact fun other hother => (hl.routes key other shared hother hrouted).1
      · exact fun held hget => (hl.leases key shared held hrouted hget).symm
  | @takeLease key lease dispatch hkey hmodifier hfree hlease hdispatch haction =>
      have hset : (s.setLease key lease).Leased := by
        apply hl.setLease
        · exact fun shared hshared => absurd hshared.hasPhysicalOwner hfree
        · exact fun held hget => absurd ⟨held, hget⟩ hlease
      apply hset.queuePhysical
      intro _
      refine Or.inr ?_
      rw [get?_setLease, PhysicalKeyboardDispatch.key, hdispatch, hkey, if_pos rfl]
  | leaveLease hheld => exact hl.leaveLease hs hheld
  | closeLease hget hlast hdispatch haction => exact hl.closeLease hs hget hdispatch haction

theorem leased_of_path (h : ReflTransGen (Change D edits) s s') (hs : s.WellKeyed)
    (hl : s.Leased) : s'.Leased := by
  induction h with
  | refl => exact hl
  | tail hpath hstep ih => exact hstep.leased (moves_of_path hpath hs).1 ih

/-! ## Reset -/

theorem mem_keyReleases {keys : List HidKey} (hmem : key ∈ keys)
    (hroute : s.physicalRouteFor key = some active) :
    ∃ release ∈ s.keyReleases keys, release.IsFor active := by
  unfold keyReleases
  simp only [List.mem_filterMap, Option.map_eq_some_iff]
  exact ⟨_, ⟨key, hmem, active, hroute, rfl⟩, rfl, rfl⟩

theorem mem_modifierReleases {keys : List HidKey} {lease : KeyboardPhysicalDispatchLease}
    (physicalModifiers : SideSpecificModifierState) (hmem : key ∈ keys)
    (hlease : ((s.physicalRouteFor key).map ActiveRoute.lease).or
      (s.syntheticModifierLeases.get? key) = some lease) :
    ∃ release ∈ s.modifierReleases physicalModifiers keys, release.lease = lease := by
  induction keys generalizing physicalModifiers with
  | nil => cases hmem
  | cons k keys ih =>
      unfold modifierReleases
      dsimp only
      rcases List.mem_cons.mp hmem with rfl | hrest
      · rw [hlease]
        exact ⟨_, List.mem_cons_self, rfl⟩
      · obtain ⟨release, hrelease, heq⟩ := ih (physicalModifiers.setPressed k false) hrest
        split
        · exact ⟨release, hrelease, heq⟩
        · exact ⟨release, List.mem_cons_of_mem _ hrelease, heq⟩

theorem releases_up (hs : s.WellKeyed) : ∀ release ∈ s.releases, release.action = .up := by
  intro release hmem
  have hentry : releaseEntry release ∈ s.releases.map releaseEntry := List.mem_map_of_mem hmem
  rw [releases_entries hs] at hentry
  obtain ⟨key, -, heq⟩ := List.mem_map.mp hentry
  exact (congrArg Prod.snd heq).symm

/-- Every lease that carries something is among the releases. -/
theorem mem_releases_of_carries (hs : s.WellKeyed) (hl : s.Leased) (h : s.Carries dispatch) :
    ∃ release ∈ s.releases, dispatch.ReleasedBy release := by
  have hheld : s.HasPhysicalOwner dispatch.key ∨ s.HasLease dispatch.key := by
    rcases h with ⟨active, hrouted, -⟩ | hget
    · exact Or.inl hrouted.hasPhysicalOwner
    · exact Or.inr ⟨_, hget⟩
  unfold releases
  dsimp only
  by_cases hmodifier : dispatch.key.isModifier = true
  · have hmem := mem_modifierKeys.mpr (hheld.imp (fun h => ⟨h, hmodifier⟩) id)
    have hlease : ((s.physicalRouteFor dispatch.key).map ActiveRoute.lease).or
        (s.syntheticModifierLeases.get? dispatch.key) = some dispatch.lease := by
      cases hroute : s.physicalRouteFor dispatch.key with
      | some first =>
          have hfirst := routed_of_physicalRouteFor hroute
          have hfirstLease : first.lease = dispatch.lease := by
            rcases h with ⟨active, hrouted, hlease, -⟩ | hget
            · exact (hl.routes _ first active hfirst hrouted).1.trans hlease
            · exact hl.leases _ first dispatch.lease hfirst hget
          simp [hfirstLease]
      | none =>
          rcases h with ⟨active, hrouted, -⟩ | hget
          · exact absurd hrouted.hasPhysicalOwner (physicalRouteFor_eq_none.mp hroute)
          · simpa using hget
    obtain ⟨release, hrelease, heq⟩ := mem_modifierReleases s.physicalModifiers hmem hlease
    have hall : release ∈ s.releases := List.mem_append_right _ hrelease
    refine ⟨release, List.mem_append_right _ hrelease, heq, releases_up hs release hall, ?_⟩
    apply reaches_of_isModifier
    rw [PhysicalKeyboardDispatch.key, heq]
    exact hmodifier
  · rw [Bool.not_eq_true] at hmodifier
    -- no synthetic modifier holds the key, so an owner carries the dispatch
    rcases h with ⟨active, hrouted, hlease, hreaches⟩ | hget
    · obtain ⟨first, hroute⟩ := hrouted.hasPhysicalOwner.physicalRouteFor
      have hmem := mem_otherKeys.mpr ⟨hrouted.hasPhysicalOwner, hmodifier⟩
      obtain ⟨release, hrelease, hfor⟩ := mem_keyReleases hmem hroute
      obtain ⟨hsame, hname⟩ := hl.routes _ first active (routed_of_physicalRouteFor hroute) hrouted
      have hforActive : release.IsFor active := ⟨hfor.1.trans hsame, hfor.2.trans hname⟩
      have hall : release ∈ s.releases := List.mem_append_left _ hrelease
      exact ⟨release, List.mem_append_left _ hrelease, hforActive.1.trans hlease,
        releases_up hs release hall, hreaches release hforActive⟩
    · rw [hs.modifier _ ⟨_, hget⟩] at hmodifier
      cases hmodifier

theorem Idle.leased (hidle : s.Idle)
    (hanswered : Answered Presses ReleasedBy s.Carries s.physicalDispatches) : s.Leased where
  routes := by
    rintro key active shared ⟨owner, hget, -⟩
    rw [hidle.routes] at hget
    cases hget
  leases := by
    rintro key active lease ⟨owner, hget, -⟩
    rw [hidle.routes] at hget
    cases hget
  answered := hanswered

/-- What a reset hands to the dispatcher. -/
def resetReleases (s : KeyboardStateMachine δ) : List PhysicalKeyboardDispatch :=
  if s.hadState then s.releases else []

/-- A reset may cancel the queue first. -/
theorem reset_true (allowBlockedReleases : Bool) :
    s.reset D true allowBlockedReleases =
      { s with dispatcher := D.invalidatePending s.dispatcher }.reset D false
        allowBlockedReleases := rfl

theorem reset_of_no_state (hstate : s.hadState = false) (allowBlockedReleases : Bool) :
    s.reset D false allowBlockedReleases = s := by
  simp [reset, hstate]

theorem physicalDispatches_reset (allowBlockedReleases : Bool) :
    (s.reset D false allowBlockedReleases).physicalDispatches =
      s.physicalDispatches ++ s.resetReleases := by
  cases hstate : s.hadState with
  | false =>
      rw [reset_of_no_state hstate, resetReleases, hstate]
      exact (List.append_nil _).symm
  | true =>
      have hdispatched : (s.reset D false allowBlockedReleases).dispatched =
          s.dispatched ++ s.releases.map KeyboardDispatchAction.physical := by
        simp [reset, hstate]
      have hreleases : (s.releases.map KeyboardDispatchAction.physical).filterMap
          KeyboardDispatchAction.physical? = s.releases := by
        rw [List.filterMap_map]
        exact List.filterMap_some
      rw [physicalDispatches, hdispatched, List.filterMap_append, hreleases, resetReleases, hstate]
      rfl

theorem resetReleases_up (hs : s.WellKeyed) :
    ∀ release ∈ s.resetReleases, release.action = .up := by
  intro release hmem
  unfold resetReleases at hmem
  split_ifs at hmem
  · exact releases_up hs release hmem
  · cases hmem

/-- A reset releases everything that is carried. -/
theorem reset_leased (hs : s.WellKeyed) (hl : s.Leased) (allowBlockedReleases : Bool) :
    (s.reset D false allowBlockedReleases).Leased := by
  obtain ⟨released, hreset⟩ := @reset_releases δ D s hs false allowBlockedReleases
  apply hreset.idle.leased
  rw [physicalDispatches_reset]
  refine hl.answered.append ?_ (answered_of_silent (not_presses_of_ups (resetReleases_up hs)))
  intro dispatch _ hcarries
  refine Or.inr ?_
  cases hstate : s.hadState with
  | false =>
      -- nothing is held in a state that a reset leaves alone
      have hidle := idle_of_hadState hstate
      rcases hcarries with ⟨active, hrouted, -⟩ | hget
      · exact absurd (Or.inl hrouted.hasPhysicalOwner) (hidle.not_held dispatch.key)
      · exact absurd (Or.inr ⟨_, hget⟩) (hidle.not_held dispatch.key)
  | true =>
      rw [resetReleases, hstate, if_pos rfl]
      exact mem_releases_of_carries hs hl hcarries

end KeyboardStateMachine

end RustAdmin.Keyboard
