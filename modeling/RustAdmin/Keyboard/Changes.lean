import RustAdmin.Keyboard.Holders

/-!
# What the state machine changes

Every function of the state machine but the reset is a path of changes.  A change
says who comes to hold a key or ceases to, and with which lease the dispatcher is
told; seen through the ledger it is a ledger step.

`Change` has one case for each thing that can happen to the holders of a key, and each
is a ledger step (`Change.moves`).  A function of the state machine then gets one
lemma: it is a path of changes from the state it finds.  What a change needs is that
the new owner agrees with the holders that are there (`Agrees`); `leaseFor_agrees`
gives that for a press, and `Opens` keeps it until the route of the press is recorded.
-/

namespace RustAdmin.Keyboard

open RustAdmin.Support Relation

/-- A dispatch for the route: with its lease and its name. -/
def PhysicalKeyboardDispatch.IsFor (dispatch : PhysicalKeyboardDispatch) (active : ActiveRoute) :
    Prop :=
  dispatch.lease = active.lease ∧ dispatch.legacyName = active.legacyName

namespace KeyboardStateMachine

variable {δ : Type*} {D : KeyboardDispatcher δ} {edits : ℤ → ℤ → Prop}
  {s s' s'' : KeyboardStateMachine δ}

/-- A new owner of the key has the lease and the name that its holders have. -/
structure Agrees (s : KeyboardStateMachine δ) (key : HidKey) (active : ActiveRoute) : Prop where
  lease : ∀ lease, s.syntheticModifierLeases.get? key = some lease → active.lease = lease
  shared : ∀ shared, s.physicalRouteFor key = some shared →
    active.legacyName = shared.legacyName ∧
      (s.syntheticModifierLeases.get? key = none → active.lease = shared.lease)

/-- One change.  `edits` are the deletions that a text may ask for. -/
inductive Change (D : KeyboardDispatcher δ) (edits : ℤ → ℤ → Prop) :
    KeyboardStateMachine δ → KeyboardStateMachine δ → Prop
  | quiet {s s' : KeyboardStateMachine δ} (hroutes : s'.activeRoutes = s.activeRoutes)
      (hleases : s'.syntheticModifierLeases = s.syntheticModifierLeases)
      (hdispatched : s'.dispatched = s.dispatched) (hdispatcher : s'.dispatcher = s.dispatcher) :
      Change D edits s s'
  | text {s : KeyboardStateMachine δ} (dispatch : CommittedTextDispatch)
      (hedits : (dispatch.deleteBeforeGraphemes = 0 ∧ dispatch.deleteAfterGraphemes = 0) ∨
        edits dispatch.deleteBeforeGraphemes dispatch.deleteAfterGraphemes) :
      Change D edits s (s.queueActions D [.committedText dispatch]).2
  | repeats {s : KeyboardStateMachine δ} {owner : KeyOwner} {active : ActiveRoute}
      {dispatch : PhysicalKeyboardDispatch} (hget : s.activeRoutes.get? owner = some active)
      (hphysical : active.route = .physical) (hfor : dispatch.IsFor active)
      (haction : dispatch.action = .repeat) :
      Change D edits s (s.queueActions D [.physical dispatch]).2
  | shareRoute {s : KeyboardStateMachine δ} {owner : KeyOwner} {active : ActiveRoute}
      (hphysical : active.route = .physical) (hkey : active.lease.key = owner.key)
      (hheld : s.HasPhysicalOwner owner.key ∨ s.HasLease owner.key)
      (hagrees : s.Agrees owner.key active) : Change D edits s (s.setRoute owner active)
  | takeRoute {s : KeyboardStateMachine δ} {owner : KeyOwner} {active : ActiveRoute}
      {dispatch : PhysicalKeyboardDispatch} (hphysical : active.route = .physical)
      (hkey : active.lease.key = owner.key) (hfree : ¬ s.HasPhysicalOwner owner.key)
      (hlease : ¬ s.HasLease owner.key) (hfor : dispatch.IsFor active)
      (haction : dispatch.action ≠ .up) :
      Change D edits s ((s.setRoute owner active).queueActions D [.physical dispatch]).2
  | silentRoute {s : KeyboardStateMachine δ} {owner : KeyOwner} {active : ActiveRoute}
      (hroute : active.route ≠ .physical) (hkey : active.lease.key = owner.key)
      (hold : ¬ s.OwnsPhysically owner) : Change D edits s (s.setRoute owner active)
  | removeSilent {s : KeyboardStateMachine δ} {owner : KeyOwner}
      (hown : ¬ s.OwnsPhysically owner) : Change D edits s (s.removeRoute owner)
  | leaveRoute {s : KeyboardStateMachine δ} {owner : KeyOwner}
      (hheld : (s.removeRoute owner).HasPhysicalOwner owner.key ∨ s.HasLease owner.key) :
      Change D edits s (s.removeRoute owner)
  | closeRoute {s : KeyboardStateMachine δ} {owner : KeyOwner} {active : ActiveRoute}
      {dispatch : PhysicalKeyboardDispatch} (hget : s.activeRoutes.get? owner = some active)
      (hphysical : active.route = .physical)
      (hlast : ¬ (s.removeRoute owner).HasPhysicalOwner owner.key)
      (hlease : ¬ s.HasLease owner.key) (hfor : dispatch.IsFor active)
      (haction : dispatch.action = .up) :
      Change D edits s ((s.removeRoute owner).queueActions D [.physical dispatch]).2
  | shareLease {s : KeyboardStateMachine δ} {key : HidKey} {shared : ActiveRoute}
      (hmodifier : key.isModifier = true) (hshared : s.physicalRouteFor key = some shared) :
      Change D edits s (s.setLease key shared.lease)
  | takeLease {s : KeyboardStateMachine δ} {key : HidKey} {lease : KeyboardPhysicalDispatchLease}
      {dispatch : PhysicalKeyboardDispatch} (hkey : lease.key = key)
      (hmodifier : key.isModifier = true) (hfree : ¬ s.HasPhysicalOwner key)
      (hlease : ¬ s.HasLease key) (hdispatch : dispatch.lease = lease)
      (haction : dispatch.action ≠ .up) :
      Change D edits s ((s.setLease key lease).queueActions D [.physical dispatch]).2
  | leaveLease {s : KeyboardStateMachine δ} {key : HidKey} (hheld : s.HasPhysicalOwner key) :
      Change D edits s (s.removeLease key)
  | closeLease {s : KeyboardStateMachine δ} {key : HidKey} {lease : KeyboardPhysicalDispatchLease}
      {dispatch : PhysicalKeyboardDispatch}
      (hget : s.syntheticModifierLeases.get? key = some lease) (hlast : ¬ s.HasPhysicalOwner key)
      (hdispatch : dispatch.lease = lease) (haction : dispatch.action = .up) :
      Change D edits s ((s.removeLease key).queueActions D [.physical dispatch]).2

/-- The later state is reached by changes, and well keyed. -/
abbrev Changes (D : KeyboardDispatcher δ) (edits : ℤ → ℤ → Prop) :
    KeyboardStateMachine δ → KeyboardStateMachine δ → Prop :=
  Simulated WellKeyed id (Change D edits)

/-- Seen through the ledger a change is a ledger step, or none. -/
theorem Change.moves (h : Change D edits s s') : Moves s s' := by
  intro hs
  cases h with
  | quiet hroutes hleases hdispatched hdispatcher =>
      exact moves_of_same hroutes hleases (by rw [physicalLog, hdispatched, physicalLog]) hs
  | text dispatch hedits => exact moves_text dispatch hs
  | @repeats owner active dispatch hget hphysical hfor haction =>
      have hkey : owner.key = dispatch.key := by
        rw [PhysicalKeyboardDispatch.key, hfor.1, hs.route owner active hget]
      exact moves_repeat (Or.inl ⟨owner, ⟨active, hget, hphysical⟩, hkey⟩) haction hs
  | shareRoute hphysical hkey hheld hagrees => exact moves_shareRoute hphysical hkey hheld hs
  | @takeRoute owner active dispatch hphysical hkey hfree hlease hfor haction =>
      have hdispatch : dispatch.key = owner.key := by
        rw [PhysicalKeyboardDispatch.key, hfor.1, hkey]
      exact moves_takeRoute hphysical hkey hfree hlease hdispatch haction hs
  | silentRoute hroute hkey hold => exact moves_silentRoute hroute hkey hold hs
  | removeSilent hown => exact moves_removeSilent hown hs
  | leaveRoute hheld => exact moves_leaveRoute hheld hs
  | @closeRoute owner active dispatch hget hphysical hlast hlease hfor haction =>
      have hdispatch : dispatch.key = owner.key := by
        rw [PhysicalKeyboardDispatch.key, hfor.1, hs.route owner active hget]
      exact moves_closeRoute ⟨active, hget, hphysical⟩ hlast hlease hdispatch haction hs
  | shareLease hmodifier hshared =>
      have howner := isSome_physicalRouteFor.mp (Option.isSome_of_mem hshared)
      exact moves_shareLease (hs.physicalRouteFor hshared) hmodifier howner hs
  | @takeLease key lease dispatch hkey hmodifier hfree hlease hdispatch haction =>
      have hdispatchKey : dispatch.key = key := by
        rw [PhysicalKeyboardDispatch.key, hdispatch, hkey]
      exact moves_takeLease hkey hmodifier hfree hlease hdispatchKey haction hs
  | leaveLease hheld => exact moves_leaveLease hheld hs
  | @closeLease key lease dispatch hget hlast hdispatch haction =>
      have hdispatchKey : dispatch.key = key := by
        rw [PhysicalKeyboardDispatch.key, hdispatch, hs.lease key lease hget]
      exact moves_closeLease ⟨lease, hget⟩ hlast hdispatchKey haction hs

theorem moves_of_path (h : ReflTransGen (Change D edits) s s') : Moves s s' := by
  induction h with
  | refl => exact .refl
  | tail _ hstep ih => exact ih.trans hstep.moves

theorem Change.changes (h : Change D edits s s') : Changes D edits s s' := by
  intro hs
  exact ⟨(h.moves hs).1, .single h⟩

theorem Changes.moves (h : Changes D edits s s') : Moves s s' := by
  intro hs
  exact moves_of_path (h hs).2 hs

theorem changes_of_same (hroutes : s'.activeRoutes = s.activeRoutes)
    (hleases : s'.syntheticModifierLeases = s.syntheticModifierLeases)
    (hdispatched : s'.dispatched = s.dispatched) (hdispatcher : s'.dispatcher = s.dispatcher) :
    Changes D edits s s' :=
  (Change.quiet hroutes hleases hdispatched hdispatcher).changes

/-! ## Synthetic modifiers -/

theorem changes_forgetDeadKey : Changes D edits s s.forgetDeadKey :=
  changes_of_same rfl rfl rfl rfl

theorem releaseSyntheticModifier_changes (modifier : MobileModifierKey)
    (remaining : KeyboardModifiers) :
    Changes D edits s (s.releaseSyntheticModifier D modifier remaining) := by
  cases hget : s.syntheticModifierLeases.get? (leftModifierKey modifier) with
  | none =>
      have hsame : s.releaseSyntheticModifier D modifier remaining = s := by
        simp [releaseSyntheticModifier, hget]
      rw [hsame]
      exact .refl
  | some lease =>
      have hphysical : ((s.removeLease (leftModifierKey modifier)).physicalRouteFor
          (leftModifierKey modifier)).isSome = true ↔
          s.HasPhysicalOwner (leftModifierKey modifier) := isSome_physicalRouteFor
      unfold releaseSyntheticModifier
      simp only [hget]
      split_ifs with hshared
      · exact (Change.leaveLease (hphysical.mp hshared)).changes
      · exact (Change.closeLease hget (fun h => hshared (hphysical.mpr h)) rfl rfl).changes

theorem applyMobile_changes
    (change : List MobileModifierRelease × MobileKeyboardModifierController) :
    Changes D edits s (s.applyMobile D change) := by
  have hstore : Changes D edits s { s with mobileModifiers := change.2 } :=
    changes_of_same rfl rfl rfl rfl
  exact hstore.trans (Simulated.foldl (fun _ _ => releaseSyntheticModifier_changes _ _) _ _)

theorem consumeOneShot_changes : Changes D edits s (s.consumeOneShot D) := applyMobile_changes _

theorem pressSyntheticModifier_changes (modifier : MobileModifierKey)
    (context : KeyboardRoutingContext) :
    Changes D edits s (s.pressSyntheticModifier D modifier context) := by
  have hmodifier := isModifier_leftModifierKey modifier
  unfold pressSyntheticModifier
  dsimp only
  split_ifs with hlease
  · exact .refl
  · rw [contains_lease] at hlease
    cases hroute : s.physicalRouteFor (leftModifierKey modifier) with
    | some active => exact (Change.shareLease hmodifier hroute).changes
    | none =>
        have hfree := physicalRouteFor_eq_none.mp hroute
        have hcount : Changes D edits s { s with nextLease := s.nextLease + 1 } :=
          changes_of_same rfl rfl rfl rfl
        refine hcount.trans (Change.takeLease rfl hmodifier hfree hlease rfl ?_).changes
        simp

theorem changeModifier_changes (modifier : MobileModifierKey) (action : SyntheticModifierAction) :
    Changes D edits s (s.changeModifier D modifier action) := by
  cases action with
  | toggle => exact applyMobile_changes _
  | lock => exact applyMobile_changes _
  | release =>
      unfold changeModifier
      split_ifs
      · exact applyMobile_changes _
      · exact .refl

theorem handleSyntheticModifier_changes (intent : SyntheticModifierIntent)
    (context : KeyboardRoutingContext) :
    Changes D edits s (s.handleSyntheticModifier D intent context) := by
  have hchange : Changes D edits s (s.forgetDeadKey.changeModifier D
      (mobileModifier intent.modifier) intent.action) :=
    changes_forgetDeadKey.trans (changeModifier_changes _ _)
  unfold handleSyntheticModifier
  dsimp only
  split_ifs
  · exact hchange.trans (pressSyntheticModifier_changes _ _)
  · exact hchange

/-! ## Owners -/

section Owners

variable {intent : PhysicalKeyboardIntent} {context : KeyboardRoutingContext}

/-- The text of a key press deletes nothing. -/
theorem queueCandidate_changes (active : ActiveRoute) :
    Changes D edits s (s.queueCandidate D intent active context) := by
  have hpending : ∀ pending, Changes D edits s { s with pendingDeadKey := pending } :=
    fun _ => changes_of_same rfl rfl rfl rfl
  unfold queueCandidate
  split
  · exact .refl
  · exact .refl
  · dsimp only
    split
    · exact changes_of_same rfl rfl rfl rfl
    · split_ifs
      · exact (hpending _).trans ((Change.text _ (Or.inl ⟨rfl, rfl⟩)).changes.trans
          (changes_forgetDeadKey.trans consumeOneShot_changes))
      · exact (hpending _).trans (Change.text _ (Or.inl ⟨rfl, rfl⟩)).changes

theorem leaseFor_same (key : HidKey) (transport : KeyboardPhysicalTransport) :
    (s.leaseFor key transport).2.activeRoutes = s.activeRoutes ∧
      (s.leaseFor key transport).2.syntheticModifierLeases = s.syntheticModifierLeases ∧
      (s.leaseFor key transport).2.dispatched = s.dispatched ∧
      (s.leaseFor key transport).2.dispatcher = s.dispatcher := by
  unfold leaseFor
  split <;> exact ⟨rfl, rfl, rfl, rfl⟩

theorem leaseFor_key (hs : s.WellKeyed) (key : HidKey) (transport : KeyboardPhysicalTransport) :
    (s.leaseFor key transport).1.key = key := by
  unfold leaseFor
  split
  · next lease hget => exact hs.lease key lease hget
  · next shared _ hshared => exact hs.physicalRouteFor hshared
  · rfl

/-- The lease of a new owner is that of the holders of its key. -/
theorem leaseFor_agrees (key : HidKey) (transport : KeyboardPhysicalTransport) :
    (∀ lease, s.syntheticModifierLeases.get? key = some lease →
      (s.leaseFor key transport).1 = lease) ∧
    (s.syntheticModifierLeases.get? key = none → ∀ shared, s.physicalRouteFor key = some shared →
      (s.leaseFor key transport).1 = shared.lease) := by
  unfold leaseFor
  cases hlease : s.syntheticModifierLeases.get? key with
  | some held =>
      refine ⟨fun lease heq => Option.some.inj heq, ?_⟩
      intro hnone
      cases hnone
  | none =>
      refine ⟨?_, ?_⟩
      · intro lease hsome
        cases hsome
      · intro _ shared hshared
        rw [hshared]

theorem leaseFor_changes (key : HidKey) (transport : KeyboardPhysicalTransport) :
    Changes D edits s (s.leaseFor key transport).2 := by
  obtain ⟨hroutes, hleases, hdispatched, hdispatcher⟩ := leaseFor_same (s := s) key transport
  exact changes_of_same hroutes hleases hdispatched hdispatcher

theorem physicalRouteFor_congr (h : s'.activeRoutes = s.activeRoutes) (key : HidKey) :
    s'.physicalRouteFor key = s.physicalRouteFor key := by
  rw [physicalRouteFor, h, physicalRouteFor]

/-- What is known of a press before its route is recorded: no holder has changed, and
the route agrees with the holders of its key. -/
structure Opens (D : KeyboardDispatcher δ) (edits : ℤ → ℤ → Prop)
    (s before : KeyboardStateMachine δ) (key : HidKey) (route : ActiveKeyRoute)
    (active : ActiveRoute) : Prop where
  changes : Changes D edits s before
  routes : before.activeRoutes = s.activeRoutes
  leases : before.syntheticModifierLeases = s.syntheticModifierLeases
  route : active.route = route
  agrees : before.Agrees key active
  key : active.lease.key = key

theorem openRoute_spec (hs : s.WellKeyed) (owner : KeyOwner) (route : ActiveKeyRoute) :
    ∃ before : KeyboardStateMachine δ,
      Opens D edits s before intent.key route (s.openRoute intent context owner route).1 ∧
      (s.openRoute intent context owner route).2 =
        before.setRoute owner (s.openRoute intent context owner route).1 := by
  unfold openRoute
  dsimp only
  generalize hpressedEq : (if route = .physical then s.setPressed intent.key true else s) = pressed
  have hpressed : Changes D edits s pressed ∧ pressed.activeRoutes = s.activeRoutes ∧
      pressed.syntheticModifierLeases = s.syntheticModifierLeases := by
    rw [← hpressedEq]
    split_ifs
    · exact ⟨changes_of_same rfl rfl rfl rfl, rfl, rfl⟩
    · exact ⟨.refl, rfl, rfl⟩
  obtain ⟨hchanges, hroutes, hleases⟩ := hpressed
  obtain ⟨hroutes', hleases', -⟩ := leaseFor_same (s := pressed) intent.key
    (selectPhysicalTransport intent context)
  obtain ⟨hlease, hshared⟩ := leaseFor_agrees (s := pressed) intent.key
    (selectPhysicalTransport intent context)
  refine ⟨_, ⟨hchanges.trans (leaseFor_changes intent.key (selectPhysicalTransport intent context)),
    hroutes'.trans hroutes, hleases'.trans hleases, rfl, ?_, leaseFor_key (hchanges hs).1 _ _⟩, rfl⟩
  refine ⟨?_, ?_⟩
  · intro lease hget
    rw [hleases'] at hget
    exact hlease lease hget
  · intro shared hget
    rw [physicalRouteFor_congr hroutes'] at hget
    rw [hget, hleases']
    exact ⟨rfl, fun hnone => hshared hnone shared hget⟩

/-- A press becomes an owner of its key. -/
theorem start_changes {action : KeyboardIntentAction} {owner : KeyOwner}
    {forcedRoute : Option ActiveKeyRoute} (howner : owner.key = intent.key)
    (haction : action ≠ .up)
    (hfresh : forcedRoute.getD (s.selectRoute intent context) = .physical ∨
      ¬ s.OwnsPhysically owner) :
    Changes D edits s (s.start D intent context action owner forcedRoute) := by
  intro hs
  unfold start
  dsimp only
  generalize forcedRoute.getD (s.selectRoute intent context) = route at hfresh ⊢
  obtain ⟨before, hopens, hopened⟩ :=
    @openRoute_spec δ D edits s intent context hs owner route
  generalize (s.openRoute intent context owner route).1 = active at hopens hopened ⊢
  have hownerKey : active.lease.key = owner.key := hopens.key.trans howner.symm
  have hagrees : before.Agrees owner.key active := howner ▸ hopens.agrees
  have hsilent : route ≠ .physical → Changes D edits s (before.setRoute owner active) := by
    intro hne
    have hold : ¬ before.OwnsPhysically owner := by
      simpa only [OwnsPhysically, hopens.routes] using hfresh.resolve_left hne
    exact hopens.changes.trans (Change.silentRoute (hopens.route.trans_ne hne) hownerKey
      hold).changes
  rw [hopened]
  cases route with
  | deferredModifier => exact hsilent (by simp) hs
  | ignored =>
      have hcount : Changes D edits (before.setRoute owner active)
          (before.setRoute owner active).countIgnored := changes_of_same rfl rfl rfl rfl
      exact (hsilent (by simp)).trans hcount hs
  | text => exact (hsilent (by simp)).trans (queueCandidate_changes active) hs
  | physical =>
      have hshared : (s.physicalRouteFor intent.key).isNone = true ↔
          ¬ before.HasPhysicalOwner owner.key := by
        rw [Option.isNone_iff_eq_none, physicalRouteFor_eq_none,
          hasPhysicalOwner_congr hopens.routes, howner]
      have hlease : (before.setRoute owner active).syntheticModifierLeases.contains intent.key =
          true ↔ before.HasLease owner.key := by
        rw [howner]
        exact contains_lease
      dsimp only
      -- a key that is held is told a repeat, unless it is a modifier or leased
      split_ifs with hemit hnone
      · simp only [Bool.and_eq_true, Bool.not_eq_true', ← Bool.not_eq_true, hlease] at hemit
        exact hopens.changes.trans (Change.takeRoute hopens.route hownerKey (hshared.mp hnone)
          hemit.1 ⟨rfl, rfl⟩ haction).changes hs
      · have howned : before.HasPhysicalOwner owner.key := by
          rw [hshared, not_not] at hnone
          exact hnone
        have hset : (before.setRoute owner active).activeRoutes.get? owner = some active := by
          rw [get?_setRoute, if_pos rfl]
        have hshare : Change D edits before (before.setRoute owner active) :=
          Change.shareRoute hopens.route hownerKey (Or.inl howned) hagrees
        exact hopens.changes.trans (hshare.changes.trans
          (Change.repeats hset hopens.route ⟨rfl, rfl⟩ rfl).changes) hs
      · have hheld : before.HasPhysicalOwner owner.key ∨ before.HasLease owner.key := by
          by_contra hfree
          rw [not_or, ← hshared, ← hlease] at hfree
          simp [hfree] at hemit
        exact hopens.changes.trans (Change.shareRoute hopens.route hownerKey hheld
          hagrees).changes hs

/-- A repeat speaks for an owner that is there. -/
theorem repeatKey_changes {owner : KeyOwner} {active : ActiveRoute}
    (hget : active.route = .physical → s.activeRoutes.get? owner = some active) :
    Changes D edits s (s.repeatKey D intent active context) := by
  unfold repeatKey
  cases hroute : active.route with
  | physical =>
      have hget' := hget hroute
      dsimp only
      split_ifs
      · have hforget : s.forgetDeadKey.activeRoutes.get? owner = some active := hget'
        exact changes_forgetDeadKey.trans
          (Change.repeats hforget hroute ⟨rfl, rfl⟩ rfl).changes
      · exact (Change.repeats hget' hroute ⟨rfl, rfl⟩ rfl).changes
  | text => exact queueCandidate_changes active
  | ignored => exact changes_of_same rfl rfl rfl rfl
  | deferredModifier => exact .refl

/-- An owner lets go of its key. -/
theorem closeRoute_changes {owner : KeyOwner} {active : ActiveRoute}
    (howner : owner.key = intent.key) (hget : s.activeRoutes.get? owner = some active) :
    Changes D edits s (s.closeRoute D intent owner active) := by
  have hlast : ((s.removeRoute owner).physicalRouteFor intent.key).isNone = true ↔
      ¬ (s.removeRoute owner).HasPhysicalOwner owner.key := by
    rw [Option.isNone_iff_eq_none, physicalRouteFor_eq_none, howner]
  have hlease : (s.removeRoute owner).syntheticModifierLeases.contains intent.key = true ↔
      s.HasLease owner.key := by
    rw [howner]
    exact contains_lease
  have hpressed : Changes D edits s (s.setPressed intent.key false) :=
    changes_of_same rfl rfl rfl rfl
  by_cases hphysical : active.route = .physical
  · unfold closeRoute
    dsimp only
    split_ifs with hclose hkept
    · exact hpressed.trans (Change.leaveRoute (s := s.setPressed intent.key false)
        (Or.inr (hlease.mp hkept))).changes
    · simp only [Bool.and_eq_true, hlast] at hclose
      exact hpressed.trans (Change.closeRoute (s := s.setPressed intent.key false) hget hphysical
        hclose.1 (fun h => hkept (hlease.mpr h)) ⟨rfl, rfl⟩ rfl).changes
    · have hheld : (s.removeRoute owner).HasPhysicalOwner owner.key := by
        by_contra hnone
        have hlastTrue := hlast.mpr hnone
        simp [hphysical, hlastTrue] at hclose
      exact (Change.leaveRoute (Or.inl hheld)).changes
  · have hsilent : ¬ s.OwnsPhysically owner := by
      rintro ⟨active', hget', hroute⟩
      rw [hget, Option.some.injEq] at hget'
      exact hphysical (hget' ▸ hroute)
    have hsame : s.closeRoute D intent owner active = s.removeRoute owner := by
      simp [closeRoute, hphysical]
    rw [hsame]
    exact (Change.removeSilent hsilent).changes

theorem finish_changes {owner : KeyOwner} (howner : owner.key = intent.key) :
    Changes D edits s (s.finish D intent owner) := by
  unfold finish
  cases hget : s.activeRoutes.get? owner with
  | none => exact changes_of_same rfl rfl rfl rfl
  | some active =>
      dsimp only
      split_ifs
      · exact (closeRoute_changes howner hget).trans consumeOneShot_changes
      · exact closeRoute_changes howner hget

/-- The modifiers of an input method have no physical route before this. -/
theorem promoteImeModifiers_changes : Changes D edits s (s.promoteImeModifiers D context) := by
  apply Simulated.foldl
  intro s entry
  exact start_changes rfl (by simp) (Or.inl rfl)

end Owners

end KeyboardStateMachine

end RustAdmin.Keyboard
