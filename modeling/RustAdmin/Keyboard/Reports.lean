import RustAdmin.Keyboard.Changes

/-!
# Reported modifiers

A modifier that other keys' events report is an owner of its key like a press,
but it is made and ended by `reconcileReportedModifiers` alone.  This module says
which functions leave the routes and the reports as they are.

Most functions leave the routes of all other owners and the reports as they were
(`Unrouted`), so their effect on reported modifiers needs no proof of its own.  The
reconciliation is a fold that drops and a fold that adds; `Reconciles` is kept along
both, and `reconcileReportedModifiers_spec` is their sum.
-/

namespace RustAdmin.Keyboard

open RustAdmin.Support

namespace KeyboardStateMachine

variable {δ : Type*} {D : KeyboardDispatcher δ} {edits : ℤ → ℤ → Prop}
  {s s' s'' : KeyboardStateMachine δ}
variable {intent : PhysicalKeyboardIntent} {context : KeyboardRoutingContext}

/-! ## Functions that route nothing -/

/-- Neither the routes nor the reports change. -/
structure Unrouted (s s' : KeyboardStateMachine δ) : Prop where
  routes : s'.activeRoutes = s.activeRoutes
  synthetic : s'.reportedSyntheticModifiers = s.reportedSyntheticModifiers
  byKey : s'.reportedModifiersByKey = s.reportedModifiersByKey

theorem Unrouted.refl : Unrouted s s := ⟨rfl, rfl, rfl⟩

theorem Unrouted.trans (first : Unrouted s s') (second : Unrouted s' s'') : Unrouted s s'' :=
  ⟨second.routes.trans first.routes, second.synthetic.trans first.synthetic,
    second.byKey.trans first.byKey⟩

theorem releaseSyntheticModifier_unrouted (modifier : MobileModifierKey)
    (remaining : KeyboardModifiers) :
    Unrouted s (s.releaseSyntheticModifier D modifier remaining) := by
  unfold releaseSyntheticModifier
  dsimp only
  split
  · exact .refl
  · split_ifs <;> exact ⟨rfl, rfl, rfl⟩

theorem applyMobile_unrouted
    (change : List MobileModifierRelease × MobileKeyboardModifierController) :
    Unrouted s (s.applyMobile D change) := by
  obtain ⟨releases, mobile⟩ := change
  have hstore : Unrouted s { s with mobileModifiers := mobile } := ⟨rfl, rfl, rfl⟩
  refine hstore.trans ?_
  unfold applyMobile
  generalize { s with mobileModifiers := mobile } = stored
  dsimp only
  induction releases generalizing stored with
  | nil => exact .refl
  | cons release releases ih => exact (releaseSyntheticModifier_unrouted _ _).trans (ih _)

theorem consumeOneShot_unrouted : Unrouted s (s.consumeOneShot D) := applyMobile_unrouted _

theorem pressSyntheticModifier_unrouted (modifier : MobileModifierKey) :
    Unrouted s (s.pressSyntheticModifier D modifier context) := by
  unfold pressSyntheticModifier
  dsimp only
  split_ifs
  · exact .refl
  · split <;> exact ⟨rfl, rfl, rfl⟩

theorem handleSyntheticModifier_unrouted (intent : SyntheticModifierIntent) :
    Unrouted s (s.handleSyntheticModifier D intent context) := by
  have hforget : Unrouted s s.forgetDeadKey := ⟨rfl, rfl, rfl⟩
  have hchange : Unrouted s.forgetDeadKey (s.forgetDeadKey.changeModifier D
      (mobileModifier intent.modifier) intent.action) := by
    cases intent.action with
    | toggle => exact applyMobile_unrouted _
    | lock => exact applyMobile_unrouted _
    | release =>
        unfold changeModifier
        split_ifs
        · exact applyMobile_unrouted _
        · exact .refl
  unfold handleSyntheticModifier
  dsimp only
  split_ifs
  · exact hforget.trans (hchange.trans (pressSyntheticModifier_unrouted _))
  · exact hforget.trans hchange

theorem queueCandidate_unrouted (active : ActiveRoute) :
    Unrouted s (s.queueCandidate D intent active context) := by
  unfold queueCandidate
  split
  · exact .refl
  · exact .refl
  · dsimp only
    split
    · exact ⟨rfl, rfl, rfl⟩
    · split_ifs
      · refine Unrouted.trans ?_ consumeOneShot_unrouted
        exact ⟨rfl, rfl, rfl⟩
      · exact ⟨rfl, rfl, rfl⟩

theorem repeatKey_unrouted (active : ActiveRoute) :
    Unrouted s (s.repeatKey D intent active context) := by
  unfold repeatKey
  split
  · dsimp only
    split_ifs <;> exact ⟨rfl, rfl, rfl⟩
  · exact queueCandidate_unrouted active
  · exact ⟨rfl, rfl, rfl⟩
  · exact .refl

theorem dropDeadKey_unrouted (existing : Option ActiveRoute) :
    Unrouted s (s.dropDeadKey existing intent context) := by
  unfold dropDeadKey
  dsimp only
  split
  · exact .refl
  · split <;> split_ifs <;> exact ⟨rfl, rfl, rfl⟩

/-! ## Owners -/

/-- A press is recorded under its owner and under no other. -/
theorem start_unrouted (action : KeyboardIntentAction) (owner : KeyOwner)
    (forcedRoute : Option ActiveKeyRoute) :
    ∃ active, active.route = forcedRoute.getD (s.selectRoute intent context) ∧
      Unrouted (s.setRoute owner active) (s.start D intent context action owner forcedRoute) := by
  unfold start
  dsimp only
  generalize forcedRoute.getD (s.selectRoute intent context) = route
  refine ⟨(s.openRoute intent context owner route).1, rfl, ?_⟩
  have hopen : Unrouted (s.setRoute owner (s.openRoute intent context owner route).1)
      (s.openRoute intent context owner route).2 := by
    unfold openRoute leaseFor
    dsimp only
    split <;> split_ifs <;> exact ⟨rfl, rfl, rfl⟩
  refine hopen.trans ?_
  cases route with
  | physical =>
      dsimp only
      split_ifs <;> exact ⟨rfl, rfl, rfl⟩
  | text => exact queueCandidate_unrouted _
  | ignored => exact ⟨rfl, rfl, rfl⟩
  | deferredModifier => exact .refl

theorem finish_unrouted (owner : KeyOwner) :
    Unrouted (s.removeRoute owner) (s.finish D intent owner) := by
  unfold finish
  cases hget : s.activeRoutes.get? owner with
  | none => exact ⟨(LinkedMap.remove_of_get?_eq_none hget).symm, rfl, rfl⟩
  | some active =>
      have hclose : Unrouted (s.removeRoute owner) (s.closeRoute D intent owner active) := by
        unfold closeRoute
        dsimp only
        split_ifs <;> exact ⟨rfl, rfl, rfl⟩
      dsimp only
      split_ifs
      · exact hclose.trans consumeOneShot_unrouted
      · exact hclose

/-! ## Reported owners -/

/-- An owner may be recorded: it is a press, or a modifier that is reported. -/
def MayOwn (s : KeyboardStateMachine δ) (owner : KeyOwner) : Prop :=
  owner.reported = true →
    owner = reportedOwner owner.key ∧ owner.key ∈ s.reportedSyntheticModifiers

/-- Every recorded owner is a press or a modifier that is reported. -/
def ReportedOwners (s : KeyboardStateMachine δ) : Prop :=
  ∀ owner, s.activeRoutes.get? owner ≠ none → s.MayOwn owner

theorem mayOwn_intent : s.MayOwn intent.owner := by
  intro h
  cases h

theorem Unrouted.get? (h : Unrouted s s') (owner : KeyOwner) :
    s'.activeRoutes.get? owner = s.activeRoutes.get? owner := by
  rw [h.routes]

theorem Unrouted.mayOwn (h : Unrouted s s') {owner : KeyOwner} (howner : s.MayOwn owner) :
    s'.MayOwn owner := by
  unfold MayOwn
  rw [h.synthetic]
  exact howner

theorem Unrouted.reportedOwners (h : Unrouted s s') (hs : s.ReportedOwners) :
    s'.ReportedOwners := by
  intro owner hget
  rw [h.get?] at hget
  exact h.mayOwn (hs owner hget)

theorem ReportedOwners.setRoute (hs : s.ReportedOwners) {owner : KeyOwner} (active : ActiveRoute)
    (howner : s.MayOwn owner) : (s.setRoute owner active).ReportedOwners := by
  intro o hget
  rw [get?_setRoute] at hget
  by_cases ho : o = owner
  · exact ho ▸ howner
  · rw [if_neg ho] at hget
    exact hs o hget

theorem ReportedOwners.removeRoute (hs : s.ReportedOwners) (owner : KeyOwner) :
    (s.removeRoute owner).ReportedOwners := by
  intro o hget
  rw [get?_removeRoute] at hget
  by_cases ho : o = owner
  · rw [if_pos ho] at hget
    exact absurd rfl hget
  · rw [if_neg ho] at hget
    exact hs o hget

theorem ReportedOwners.start (hs : s.ReportedOwners) (action : KeyboardIntentAction)
    {owner : KeyOwner} (forcedRoute : Option ActiveKeyRoute) (howner : s.MayOwn owner) :
    (s.start D intent context action owner forcedRoute).ReportedOwners := by
  obtain ⟨active, -, hrouted⟩ := @start_unrouted δ D s intent context action owner
    forcedRoute
  exact hrouted.reportedOwners (hs.setRoute active howner)

theorem ReportedOwners.finish (hs : s.ReportedOwners) (owner : KeyOwner) :
    (s.finish D intent owner).ReportedOwners :=
  (finish_unrouted owner).reportedOwners (hs.removeRoute owner)

/-! ## Promotion -/

/-- Only the routes of some owners changed, and those had one. -/
structure Rerouted (owners : List KeyOwner) (s s' : KeyboardStateMachine δ) : Prop where
  others : ∀ o ∉ owners, s'.activeRoutes.get? o = s.activeRoutes.get? o
  synthetic : s'.reportedSyntheticModifiers = s.reportedSyntheticModifiers
  byKey : s'.reportedModifiersByKey = s.reportedModifiersByKey

theorem promoteEntry_rerouted (entry : KeyOwner × ActiveRoute) :
    Rerouted [entry.1] s (s.promoteEntry D context entry) := by
  obtain ⟨active, -, hrouted⟩ := @start_unrouted δ D s (deferredEvent entry) context .down entry.1
    (some .physical)
  refine ⟨?_, hrouted.synthetic, hrouted.byKey⟩
  intro o ho
  rw [List.mem_singleton] at ho
  have hget := hrouted.get? o
  rwa [get?_setRoute, if_neg ho] at hget

theorem foldl_promoteEntry_rerouted (entries : List (KeyOwner × ActiveRoute))
    (s : KeyboardStateMachine δ) : Rerouted (entries.map Prod.fst) s
      (entries.foldl (fun s entry => s.promoteEntry D context entry) s) := by
  induction entries generalizing s with
  | nil => exact ⟨fun _ _ => rfl, rfl, rfl⟩
  | cons entry entries ih =>
      have hfirst := @promoteEntry_rerouted δ D s context entry
      have hrest := ih (s.promoteEntry D context entry)
      refine ⟨?_, hrest.synthetic.trans hfirst.synthetic, hrest.byKey.trans hfirst.byKey⟩
      intro o ho
      rw [List.map_cons, List.mem_cons, not_or] at ho
      exact (hrest.others o ho.2).trans (hfirst.others o (by simpa using ho.1))

/-- A promotion changes deferred modifiers and nothing else. -/
theorem promoteImeModifiers_rerouted :
    ∃ owners, (∀ o ∈ owners, ∃ active, s.activeRoutes.get? o = some active ∧
        active.route = .deferredModifier) ∧
      Rerouted owners s (s.promoteImeModifiers D context) := by
  refine ⟨_, ?_, foldl_promoteEntry_rerouted _ s⟩
  intro o ho
  obtain ⟨⟨owner, active⟩, hmem, rfl⟩ := List.mem_map.mp ho
  rw [List.mem_insertionSort, List.mem_filter, decide_eq_true_eq] at hmem
  exact ⟨active, LinkedMap.mem_entries_iff.mp hmem.1, hmem.2⟩

theorem promoteImeModifiers_get?_none {o : KeyOwner} (h : s.activeRoutes.get? o = none) :
    (s.promoteImeModifiers D context).activeRoutes.get? o = none := by
  obtain ⟨owners, howners, hrouted⟩ := @promoteImeModifiers_rerouted δ D s context
  rw [hrouted.others o, h]
  intro hmem
  obtain ⟨active, hget, -⟩ := howners o hmem
  rw [h] at hget
  cases hget

/-- Physical routes stay. -/
theorem promoteImeModifiers_get?_physical {o : KeyOwner} {active : ActiveRoute}
    (h : s.activeRoutes.get? o = some active) (hphysical : active.route = .physical) :
    (s.promoteImeModifiers D context).activeRoutes.get? o = some active := by
  obtain ⟨owners, howners, hrouted⟩ := @promoteImeModifiers_rerouted δ D s context
  rw [hrouted.others o, h]
  intro hmem
  obtain ⟨active', hget, hdeferred⟩ := howners o hmem
  rw [h, Option.some.injEq] at hget
  rw [← hget, hphysical] at hdeferred
  cases hdeferred

theorem ReportedOwners.promoteImeModifiers (hs : s.ReportedOwners) :
    (s.promoteImeModifiers D context).ReportedOwners := by
  obtain ⟨owners, -, hrouted⟩ := @promoteImeModifiers_rerouted δ D s context
  intro o hget
  have hbefore : s.activeRoutes.get? o ≠ none := by
    intro hnone
    exact hget (promoteImeModifiers_get?_none hnone)
  have howner := hs o hbefore
  unfold MayOwn at howner ⊢
  rwa [hrouted.synthetic]

/-! ## Reconciliation -/

/-- Modifiers that are reported have come or gone, and no other owner changed. -/
structure Reconciled (changed : List HidKey) (s s' : KeyboardStateMachine δ) : Prop where
  moves : Moves s s'
  owners : s'.ReportedOwners
  byKey : s'.reportedModifiersByKey = s.reportedModifiersByKey
  others : ∀ o, (∀ key ∈ changed, o ≠ reportedOwner key) →
    s'.activeRoutes.get? o = s.activeRoutes.get? o

/-- The same, with the changes that lead there. -/
structure Reconciles (D : KeyboardDispatcher δ) (edits : ℤ → ℤ → Prop) (changed : List HidKey)
    (s s' : KeyboardStateMachine δ) : Prop extends Reconciled changed s s' where
  changes : Changes D edits s s'

theorem Reconciles.of_changes {changed : List HidKey} (hchanges : Changes D edits s s')
    (howners : s'.ReportedOwners) (hbyKey : s'.reportedModifiersByKey = s.reportedModifiersByKey)
    (hothers : ∀ o, (∀ key ∈ changed, o ≠ reportedOwner key) →
      s'.activeRoutes.get? o = s.activeRoutes.get? o) : Reconciles D edits changed s s' :=
  ⟨⟨hchanges.moves, howners, hbyKey, hothers⟩, hchanges⟩

theorem Reconciles.refl (hs : s.ReportedOwners) : Reconciles D edits [] s s :=
  .of_changes .refl hs rfl (fun _ _ => rfl)

theorem Reconciles.trans {changed changed' : List HidKey} (first : Reconciles D edits changed s s')
    (second : Reconciles D edits changed' s' s'') :
    Reconciles D edits (changed ++ changed') s s'' := by
  apply Reconciles.of_changes (first.changes.trans second.changes) second.owners
    (second.byKey.trans first.byKey)
  intro o ho
  rw [second.others o fun key hkey => ho key (List.mem_append_right _ hkey)]
  exact first.others o fun key hkey => ho key (List.mem_append_left _ hkey)

theorem dropReported_synthetic (key : HidKey) :
    (s.dropReported D key).reportedSyntheticModifiers = s.reportedSyntheticModifiers.erase key :=
  (finish_unrouted _).synthetic

theorem dropReported_reconciles (hs : s.ReportedOwners) (key : HidKey) :
    Reconciles D edits [key] s (s.dropReported D key) := by
  let erased : KeyboardStateMachine δ :=
    { s with reportedSyntheticModifiers := s.reportedSyntheticModifiers.erase key }
  have hunrouted : Unrouted (erased.removeRoute (reportedOwner key)) (s.dropReported D key) :=
    finish_unrouted _
  refine .of_changes ?_ (hunrouted.reportedOwners ?_) hunrouted.byKey ?_
  · have herase : Changes D edits s erased := changes_of_same rfl rfl rfl rfl
    exact herase.trans (finish_changes rfl)
  · intro o hget hreported
    rw [get?_removeRoute] at hget
    split_ifs at hget with ho
    · exact absurd rfl hget
    · obtain ⟨heq, hmem⟩ := hs o hget hreported
      refine ⟨heq, Finset.mem_erase.mpr ⟨?_, hmem⟩⟩
      intro hkey
      exact ho (hkey ▸ heq)
  · intro o ho
    rw [hunrouted.get?, get?_removeRoute, if_neg (ho key (by simp))]

theorem addReported_synthetic (key : HidKey) :
    (s.addReported D context key).reportedSyntheticModifiers =
      insert key s.reportedSyntheticModifiers := by
  obtain ⟨active, -, hunrouted⟩ := @start_unrouted δ D
    { s with reportedSyntheticModifiers := insert key s.reportedSyntheticModifiers }
    (reportedEvent key .down) context .down (reportedOwner key) none
  exact hunrouted.synthetic

theorem addReported_reconciles (hs : s.ReportedOwners) {key : HidKey}
    (hkey : key ∉ s.reportedSyntheticModifiers) :
    Reconciles D edits [key] s (s.addReported D context key) := by
  let inserted : KeyboardStateMachine δ :=
    { s with reportedSyntheticModifiers := insert key s.reportedSyntheticModifiers }
  obtain ⟨active, -, hunrouted⟩ := @start_unrouted δ D inserted (reportedEvent key .down) context
    .down (reportedOwner key) none
  have howners : inserted.ReportedOwners := by
    intro o hget hreported
    obtain ⟨heq, hmem⟩ := hs o hget hreported
    exact ⟨heq, Finset.mem_insert_of_mem hmem⟩
  refine .of_changes ?_ (hunrouted.reportedOwners (howners.setRoute active ?_)) hunrouted.byKey ?_
  · have hinsert : Changes D edits s inserted := changes_of_same rfl rfl rfl rfl
    -- a route of the owner would mean that the key was reported before
    have hfresh : ¬ inserted.OwnsPhysically (reportedOwner key) := by
      rintro ⟨active, hget, -⟩
      have hsome : s.activeRoutes.get? (reportedOwner key) ≠ none := by
        rw [show s.activeRoutes.get? (reportedOwner key) = some active from hget]
        simp
      exact hkey (hs _ hsome rfl).2
    exact hinsert.trans (start_changes rfl (by simp) (Or.inr hfresh))
  · intro _
    exact ⟨rfl, Finset.mem_insert_self _ _⟩
  · intro o ho
    have hget := hunrouted.get? o
    rwa [get?_setRoute, if_neg (ho key (by simp))] at hget

theorem foldl_dropReported (keys : List HidKey) (hs : s.ReportedOwners) :
    Reconciles D edits keys s (keys.foldl (fun s key => s.dropReported D key) s) ∧
      (keys.foldl (fun s key => s.dropReported D key) s).reportedSyntheticModifiers =
        s.reportedSyntheticModifiers \ keys.toFinset := by
  induction keys generalizing s with
  | nil => exact ⟨.refl hs, by simp⟩
  | cons key keys ih =>
      have hfirst := @dropReported_reconciles δ D edits s hs key
      obtain ⟨hrest, hsynthetic⟩ := ih hfirst.owners
      refine ⟨hfirst.trans hrest, ?_⟩
      rw [List.foldl_cons, hsynthetic, dropReported_synthetic, List.toFinset_cons]
      ext k
      simp only [Finset.mem_sdiff, Finset.mem_erase, Finset.mem_insert]
      tauto

theorem foldl_addReported (keys : List HidKey) (hs : s.ReportedOwners) (hnodup : keys.Nodup)
    (hkeys : ∀ key ∈ keys, key ∉ s.reportedSyntheticModifiers) :
    Reconciles D edits keys s (keys.foldl (fun s key => s.addReported D context key) s) ∧
      (keys.foldl (fun s key => s.addReported D context key) s).reportedSyntheticModifiers =
        s.reportedSyntheticModifiers ∪ keys.toFinset := by
  induction keys generalizing s with
  | nil => exact ⟨.refl hs, by simp⟩
  | cons key keys ih =>
      obtain ⟨hnot, hnodup⟩ := List.nodup_cons.mp hnodup
      have hfirst := @addReported_reconciles δ D edits s context hs key (hkeys key (by simp))
      -- the other keys are still new after this one
      have hfresh : ∀ k ∈ keys, k ∉ (s.addReported D context key).reportedSyntheticModifiers := by
        intro k hk
        rw [addReported_synthetic, Finset.mem_insert, not_or]
        exact ⟨fun heq => hnot (heq ▸ hk), hkeys k (by simp [hk])⟩
      obtain ⟨hrest, hsynthetic⟩ := ih hfirst.owners hnodup hfresh
      refine ⟨hfirst.trans hrest, ?_⟩
      rw [List.foldl_cons, hsynthetic, addReported_synthetic, List.toFinset_cons]
      ext k
      simp only [Finset.mem_union, Finset.mem_insert]
      tauto

/-- A reconciliation leaves exactly the given modifiers reported. -/
theorem reconcileReportedModifiers_spec (hs : s.ReportedOwners) (reported : Finset HidKey) :
    (∃ changed, (∀ key ∈ changed, ¬ (key ∈ reported ∧ key ∈ s.reportedSyntheticModifiers)) ∧
      Reconciles D edits changed s (s.reconcileReportedModifiers D reported context)) ∧
    (s.reconcileReportedModifiers D reported context).reportedSyntheticModifiers = reported := by
  -- what is no longer reported goes first, then what is new is added
  obtain ⟨hdrop, hdropped⟩ := @foldl_dropReported δ D edits s
    (sortedList (s.reportedSyntheticModifiers \ reported)) hs
  obtain ⟨hadd, hadded⟩ := @foldl_addReported δ D edits _ context
    (sortedList (reported \ s.reportedSyntheticModifiers)) hdrop.owners (nodup_sortedList _) (by
      intro key hkey
      rw [mem_sortedList, Finset.mem_sdiff] at hkey
      rw [hdropped, Finset.mem_sdiff]
      exact fun h => hkey.2 h.1)
  refine ⟨⟨_, ?_, hdrop.trans hadd⟩, ?_⟩
  · intro key hkey
    simp only [List.mem_append, mem_sortedList, Finset.mem_sdiff] at hkey
    tauto
  · unfold reconcileReportedModifiers
    dsimp only
    rw [hadded, hdropped]
    ext key
    simp only [Finset.mem_union, Finset.mem_sdiff, List.mem_toFinset, mem_sortedList]
    tauto

/-- Nothing is done when the reported modifiers are those already held. -/
theorem reconcileReportedModifiers_self :
    s.reconcileReportedModifiers D s.reportedSyntheticModifiers context = s := by
  unfold reconcileReportedModifiers
  rw [sdiff_self]
  rfl

end KeyboardStateMachine

end RustAdmin.Keyboard
