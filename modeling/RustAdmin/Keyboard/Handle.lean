import RustAdmin.Keyboard.Reports

/-!
# What handling an intent does to the keys

Every intent is a path of changes that keeps the invariant between calls:
leases fit their keys, and the modifiers that are held as reported are those the
stored reports name.

`Follows` says that a function leads from a sound state to a sound one along changes.
It composes, so each part of a key event has one such lemma, and `handle_follows`
chains them in the order of the source.  The stored reports are out of step with the
held modifiers in the middle of an event; `reconcile_sound` is where they meet again.
-/

namespace RustAdmin.Keyboard

open RustAdmin.Support Relation

namespace KeyboardStateMachine

variable {δ : Type*} {D : KeyboardDispatcher δ} {edits : ℤ → ℤ → Prop}
  {s s' s'' : KeyboardStateMachine δ}
variable {intent : PhysicalKeyboardIntent} {context : KeyboardRoutingContext}

/-- The invariant between calls. -/
structure Sound (s : KeyboardStateMachine δ) : Prop where
  keyed : s.WellKeyed
  owners : s.ReportedOwners
  reported : s.reportedSyntheticModifiers = s.reportedModifierUnion

theorem reportedModifierUnion_congr
    (h : s'.reportedModifiersByKey = s.reportedModifiersByKey) :
    s'.reportedModifierUnion = s.reportedModifierUnion := by
  rw [reportedModifierUnion, h, reportedModifierUnion]

/-- From a sound state ledger steps lead to a sound state. -/
abbrev Keeps : KeyboardStateMachine δ → KeyboardStateMachine δ → Prop :=
  Simulated Sound ledger KeyStep

/-- From a sound state changes lead to a sound state. -/
abbrev Follows (D : KeyboardDispatcher δ) (edits : ℤ → ℤ → Prop) :
    KeyboardStateMachine δ → KeyboardStateMachine δ → Prop :=
  Simulated Sound id (Change D edits)

theorem Follows.keeps (h : Follows D edits s s') : Keeps s s' := by
  intro hs
  obtain ⟨hs', hpath⟩ := h hs
  exact ⟨hs', (moves_of_path hpath hs.keyed).2⟩

theorem follows_of_changes (hchanges : s.Sound → Changes D edits s s')
    (howners : s.Sound → s'.ReportedOwners)
    (hsynthetic : s'.reportedSyntheticModifiers = s.reportedSyntheticModifiers)
    (hbyKey : s'.reportedModifiersByKey = s.reportedModifiersByKey) : Follows D edits s s' := by
  intro hs
  obtain ⟨hkeyed, hpath⟩ := hchanges hs hs.keyed
  refine ⟨⟨hkeyed, howners hs, ?_⟩, hpath⟩
  rw [hsynthetic, hs.reported, reportedModifierUnion_congr hbyKey]

theorem Unrouted.follows (h : Unrouted s s') (hchanges : Changes D edits s s') :
    Follows D edits s s' :=
  follows_of_changes (fun _ => hchanges) (fun hs => h.reportedOwners hs.owners) h.synthetic h.byKey

/-! ## Parts of a key event -/

/-- The press of an owner stays as it is: there is none, or it is physical. -/
structure KeepsPress (owner : KeyOwner) (s s' : KeyboardStateMachine δ) : Prop where
  none : s.activeRoutes.get? owner = none → s'.activeRoutes.get? owner = none
  physical : ∀ active, s.activeRoutes.get? owner = some active → active.route = .physical →
    s'.activeRoutes.get? owner = some active

theorem KeepsPress.of_eq {owner : KeyOwner}
    (h : s'.activeRoutes.get? owner = s.activeRoutes.get? owner) : KeepsPress owner s s' :=
  ⟨fun hget => h.trans hget, fun _ hget _ => h.trans hget⟩

theorem KeepsPress.trans {owner : KeyOwner} (first : KeepsPress owner s s')
    (second : KeepsPress owner s' s'') : KeepsPress owner s s'' :=
  ⟨fun hget => second.none (first.none hget),
    fun active hget hphysical => second.physical active (first.physical active hget hphysical)
      hphysical⟩

theorem dropDeadKey_changes (existing : Option ActiveRoute) :
    Changes D edits s (s.dropDeadKey existing intent context) := by
  unfold dropDeadKey
  dsimp only
  split
  · exact .refl
  · split <;> split_ifs
    · exact changes_forgetDeadKey
    · exact .refl
    · exact changes_forgetDeadKey
    · exact .refl

theorem promoteImeModifiers_follows : Follows D edits s (s.promoteImeModifiers D context) := by
  obtain ⟨owners, -, hrouted⟩ := @promoteImeModifiers_rerouted δ D s context
  exact follows_of_changes (fun _ => promoteImeModifiers_changes)
    (fun hs => hs.owners.promoteImeModifiers) hrouted.synthetic hrouted.byKey

theorem promoteImeModifiers_keepsPress (owner : KeyOwner) :
    KeepsPress owner s (s.promoteImeModifiers D context) :=
  ⟨promoteImeModifiers_get?_none, fun _ => promoteImeModifiers_get?_physical⟩

/-- A reconciliation with the stored reports makes a state sound whose reports have
changed. -/
theorem reconcile_sound (hkeyed : s.WellKeyed) (howners : s.ReportedOwners) :
    (s.reconcileReportedModifiers D s.reportedModifierUnion context).Sound ∧
      ReflTransGen (Change D edits) s
        (s.reconcileReportedModifiers D s.reportedModifierUnion context) := by
  obtain ⟨⟨changed, -, hreconciled⟩, hsynthetic⟩ :=
    @reconcileReportedModifiers_spec δ D edits s context howners s.reportedModifierUnion
  obtain ⟨hkeyed', hpath⟩ := hreconciled.changes hkeyed
  refine ⟨⟨hkeyed', hreconciled.owners, ?_⟩, hpath⟩
  exact hsynthetic.trans (reportedModifierUnion_congr hreconciled.byKey).symm

/-- The reports of a sound state change, and a reconciliation follows. -/
theorem reconcile_follows {stored : KeyboardStateMachine δ} (hs : s.Sound)
    (hroutes : stored.activeRoutes = s.activeRoutes)
    (hleases : stored.syntheticModifierLeases = s.syntheticModifierLeases)
    (hdispatched : stored.dispatched = s.dispatched)
    (hdispatcher : stored.dispatcher = s.dispatcher)
    (hsynthetic : stored.reportedSyntheticModifiers = s.reportedSyntheticModifiers) :
    (stored.reconcileReportedModifiers D stored.reportedModifierUnion context).Sound ∧
      ReflTransGen (Change D edits) s
        (stored.reconcileReportedModifiers D stored.reportedModifierUnion context) := by
  obtain ⟨hkeyed, hstore⟩ := @changes_of_same δ D edits s stored hroutes hleases hdispatched
    hdispatcher hs.keyed
  have howners : stored.ReportedOwners := by
    intro owner hget
    rw [hroutes] at hget
    unfold MayOwn
    rw [hsynthetic]
    exact hs.owners owner hget
  obtain ⟨hsound, hpath⟩ := @reconcile_sound δ D edits stored context hkeyed howners
  exact ⟨hsound, hstore.trans hpath⟩

theorem reconcile_get? (howners : s.ReportedOwners) (reported : Finset HidKey) {owner : KeyOwner}
    (howner : owner.reported = false) :
    (s.reconcileReportedModifiers D reported context).activeRoutes.get? owner =
      s.activeRoutes.get? owner := by
  obtain ⟨⟨changed, -, hreconciled⟩, -⟩ :=
    @reconcileReportedModifiers_spec δ D (fun _ _ => True) s context howners reported
  apply hreconciled.others
  rintro key - rfl
  cases howner

theorem promoteForIme_follows (existing : Option ActiveRoute) :
    Follows D edits s (s.promoteForIme D existing intent context) := by
  unfold promoteForIme
  split_ifs
  · exact promoteImeModifiers_follows
  · exact .refl

theorem promoteForIme_keepsPress (existing : Option ActiveRoute) (owner : KeyOwner) :
    KeepsPress owner s (s.promoteForIme D existing intent context) := by
  unfold promoteForIme
  split_ifs
  · exact promoteImeModifiers_keepsPress owner
  · exact .of_eq rfl

theorem recordReport_follows (existing : Option ActiveRoute) :
    Follows D edits s (s.recordReport D existing intent context) := by
  intro hs
  unfold recordReport
  split_ifs
  · exact reconcile_follows hs rfl rfl rfl rfl rfl
  · exact Simulated.refl hs

theorem recordReport_get? (hs : s.ReportedOwners) (existing : Option ActiveRoute) {owner : KeyOwner}
    (howner : owner.reported = false) :
    (s.recordReport D existing intent context).activeRoutes.get? owner =
      s.activeRoutes.get? owner := by
  unfold recordReport
  split_ifs
  · let stored : KeyboardStateMachine δ := { s with
      reportedModifiersByKey := s.reportedModifiersByKey.set intent.owner intent.reportedModifiers }
    have hstored : stored.ReportedOwners := hs
    exact reconcile_get? hstored _ howner
  · rfl

theorem forgetReport_follows : Follows D edits s (s.forgetReport D intent context) := by
  intro hs
  unfold forgetReport
  split_ifs
  · exact reconcile_follows hs rfl rfl rfl rfl rfl
  · exact Simulated.refl hs

theorem start_follows (action : KeyboardIntentAction) (forcedRoute : Option ActiveKeyRoute)
    (haction : action ≠ .up) (hfresh : s.activeRoutes.get? intent.owner = none) :
    Follows D edits s (s.start D intent context action intent.owner forcedRoute) := by
  obtain ⟨active, -, hunrouted⟩ := @start_unrouted δ D s intent context action intent.owner
    forcedRoute
  -- the owner has no route yet, so the press opens one
  have hnot : ¬ s.OwnsPhysically intent.owner := by
    rintro ⟨active, hget, -⟩
    rw [hfresh] at hget
    cases hget
  exact follows_of_changes (fun _ => start_changes rfl haction (Or.inr hnot))
    (fun hs => hs.owners.start action forcedRoute mayOwn_intent) hunrouted.synthetic hunrouted.byKey

theorem repeatKey_follows {owner : KeyOwner} {active : ActiveRoute}
    (hget : active.route = .physical → s.activeRoutes.get? owner = some active) :
    Follows D edits s (s.repeatKey D intent active context) :=
  (repeatKey_unrouted active).follows (repeatKey_changes hget)

theorem finish_follows : Follows D edits s (s.finish D intent intent.owner) :=
  follows_of_changes (fun _ => finish_changes rfl) (fun hs => hs.owners.finish intent.owner)
    (finish_unrouted intent.owner).synthetic (finish_unrouted intent.owner).byKey

theorem dispatchPhysical_follows (existing : Option ActiveRoute)
    (hnone : existing = none → s.activeRoutes.get? intent.owner = none)
    (hphysical : ∀ active, existing = some active → active.route = .physical →
      s.activeRoutes.get? intent.owner = some active)
    (hdown : intent.action = .down → existing = none) :
    Follows D edits s (s.dispatchPhysical D existing intent context) := by
  unfold dispatchPhysical
  split
  · next haction => exact start_follows _ _ (by simp) (hnone (hdown haction))
  · exact start_follows _ _ (by simp) (hnone rfl)
  · next active _ => exact repeatKey_follows (hphysical active rfl)
  · exact finish_follows

/-! ## Events -/

theorem cancelsDeadKey_existing {existing : Option ActiveRoute}
    (h : s.cancelsDeadKey existing intent = true) : existing = none := by
  unfold cancelsDeadKey at h
  split at h
  · cases h
  · simp only [Bool.and_eq_true, Option.isNone_iff_eq_none] at h
    tauto

theorem handlePhysical_follows : Follows D edits s (s.handlePhysical D intent context) := by
  intro hs
  unfold handlePhysical
  generalize hexisting : s.activeRoutes.get? intent.owner = existing
  dsimp only
  split_ifs with hduplicate hcancel
  · exact Unrouted.follows ⟨rfl, rfl, rfl⟩ (changes_of_same rfl rfl rfl rfl) hs
  · have hforget : Unrouted s s.forgetDeadKey := ⟨rfl, rfl, rfl⟩
    have hfresh : s.forgetDeadKey.activeRoutes.get? intent.owner = none :=
      hexisting.trans (cancelsDeadKey_existing hcancel.2)
    exact (hforget.follows changes_forgetDeadKey).trans (start_follows _ _ hcancel.1 hfresh) hs
  · -- the press found at the start is still there when its action is dispatched.
    have hdropped := @dropDeadKey_unrouted δ s intent context existing
    generalize hdropEq : s.dropDeadKey existing intent context = dropped at hdropped ⊢
    have hpress : KeepsPress intent.owner s (dropped.promoteForIme D existing intent context) :=
      (KeepsPress.of_eq (hdropped.get? _)).trans (promoteForIme_keepsPress existing _)
    have hpromoted : Follows D edits s (dropped.promoteForIme D existing intent context) :=
      (hdropped.follows (hdropEq ▸ dropDeadKey_changes existing)).trans
        (promoteForIme_follows existing)
    generalize dropped.promoteForIme D existing intent context = promoted at hpress hpromoted ⊢
    have hrecorded : Follows D edits s (promoted.recordReport D existing intent context) :=
      hpromoted.trans (recordReport_follows existing)
    have hpress' : KeepsPress intent.owner s (promoted.recordReport D existing intent context) :=
      hpress.trans (.of_eq (recordReport_get? (hpromoted hs).1.owners existing rfl))
    refine (hrecorded.trans
      (dispatchPhysical_follows existing ?_ ?_ ?_)).trans forgetReport_follows hs
    · rintro rfl
      exact hpress'.none hexisting
    · rintro active rfl hphysical
      exact hpress'.physical active hexisting hphysical
    · intro hdown
      by_contra hsome
      exact hduplicate ⟨hdown, Option.isSome_iff_ne_none.mpr hsome⟩

/-! ## Batches -/

section Batches

variable {batch : PhysicalKeyPressBatchIntent} {active : ActiveRoute} {owner : KeyOwner}

theorem batchRoute_owner (h : s.batchRoute batch context = some active) :
    ∃ owner, s.activeRoutes.get? owner = some active := by
  unfold batchRoute at h
  rw [Option.or_eq_some_iff] at h
  rcases h with hown | ⟨-, hshared⟩
  · exact ⟨_, hown⟩
  · split_ifs at hshared
    obtain ⟨owner, hget, -⟩ := physicalRouteFor_eq_some hshared
    exact ⟨owner, hget⟩

theorem repeatInBatch_unrouted : Unrouted s (s.repeatInBatch D batch active context) := by
  unfold repeatInBatch
  dsimp only
  split_ifs
  · exact (repeatKey_unrouted active).trans consumeOneShot_unrouted
  · exact repeatKey_unrouted active

theorem repeatInBatch_changes
    (hget : active.route = .physical → s.activeRoutes.get? owner = some active) :
    Changes D edits s (s.repeatInBatch D batch active context) := by
  unfold repeatInBatch
  dsimp only
  split_ifs
  · exact (repeatKey_changes hget).trans consumeOneShot_changes
  · exact repeatKey_changes hget

/-- The repeats of a batch speak for a key that is held, and route nothing. -/
theorem iterate_repeatInBatch (n : ℕ)
    (hget : active.route = .physical → s.activeRoutes.get? owner = some active) :
    Changes D edits s ((fun s => repeatInBatch D s batch active context)^[n] s) ∧
      Unrouted s ((fun s => repeatInBatch D s batch active context)^[n] s) := by
  induction n generalizing s with
  | zero => exact ⟨.refl, .refl⟩
  | succ n ih =>
      obtain ⟨hchanges, hunrouted⟩ := @ih (s.repeatInBatch D batch active context) (by
        intro hphysical
        rw [repeatInBatch_unrouted.get?, hget hphysical])
      exact ⟨(repeatInBatch_changes hget).trans hchanges, repeatInBatch_unrouted.trans hunrouted⟩

/-- Borrowing reported modifiers takes no owner away. -/
theorem borrow_keepsPress (hs : s.Sound) (borrowed : Finset HidKey)
    (hget : s.activeRoutes.get? owner = some active) :
    (s.reconcileReportedModifiers D (s.reportedModifierUnion ∪ borrowed) context
      ).activeRoutes.get? owner = some active := by
  obtain ⟨⟨changed, hchanged, hreconciled⟩, -⟩ := @reconcileReportedModifiers_spec δ D
    (fun _ _ => True) s context hs.owners (s.reportedModifierUnion ∪ borrowed)
  rw [hreconciled.others owner, hget]
  rintro key hkey rfl
  have hreported := (hs.owners _ (by rw [hget]; simp) rfl).2
  refine hchanged key hkey ⟨?_, hreported⟩
  rw [← hs.reported]
  exact Finset.mem_union_left _ hreported

theorem repeatBatch_follows (hget : s.activeRoutes.get? owner = some active) :
    Follows D edits s (s.repeatBatch D batch active context) := by
  intro hs
  unfold repeatBatch
  dsimp only
  generalize hpromoted : (if (active.route == .physical && batch.origin == .ime) = true then
    s.promoteImeModifiers D context else s) = promoted
  have hfollows : Follows D edits s promoted := by
    rw [← hpromoted]
    split_ifs
    · exact promoteImeModifiers_follows
    · exact .refl
  have hget' : active.route = .physical → promoted.activeRoutes.get? owner = some active := by
    intro hphysical
    rw [← hpromoted]
    split_ifs
    · exact (promoteImeModifiers_keepsPress owner).physical active hget hphysical
    · exact hget
  obtain ⟨hsound, hpath⟩ := hfollows hs
  split_ifs with hreconciles
  · -- the modifiers are borrowed before the repeats and returned after them.
    have hphysical : active.route = .physical := by
      rw [Bool.and_eq_true, beq_iff_eq] at hreconciles
      exact hreconciles.2
    obtain ⟨⟨changed, -, hborrow⟩, -⟩ := @reconcileReportedModifiers_spec δ D edits promoted context
      hsound.owners (promoted.reportedModifierUnion ∪ batch.reportedModifiers)
    obtain ⟨hkeyed', hpath'⟩ := hborrow.changes hsound.keyed
    obtain ⟨hchanges, hunrouted⟩ := @iterate_repeatInBatch δ D edits _ context batch active owner
      batch.count.toNat fun _ => borrow_keepsPress hsound batch.reportedModifiers (hget' hphysical)
    obtain ⟨hkeyed'', hpath''⟩ := hchanges hkeyed'
    obtain ⟨hreturned, hreturn⟩ :=
      reconcile_sound hkeyed'' (hunrouted.reportedOwners hborrow.owners)
    exact ⟨hreturned, ((hpath.trans hpath').trans hpath'').trans hreturn⟩
  · obtain ⟨hchanges, hunrouted⟩ := @iterate_repeatInBatch δ D edits promoted context batch active
      owner batch.count.toNat hget'
    exact (hfollows.trans (hunrouted.follows hchanges)) hs

theorem handlePressBatch_follows : Follows D edits s (s.handlePressBatch D batch context) := by
  have hcount : Follows D edits s s.countIgnored :=
    Unrouted.follows ⟨rfl, rfl, rfl⟩ (changes_of_same rfl rfl rfl rfl)
  unfold handlePressBatch
  split_ifs
  · exact hcount
  · cases hroute : s.batchRoute batch context with
    | some active =>
        obtain ⟨owner, hget⟩ := batchRoute_owner hroute
        dsimp only
        split_ifs
        · exact hcount
        · exact repeatBatch_follows hget
    | none =>
        apply Simulated.iterate
        intro s
        exact handlePhysical_follows.trans handlePhysical_follows

end Batches

/-! ## Intents -/

theorem handleCommittedText_follows {intent : CommittedTextIntent}
    (hedits : edits intent.deleteBeforeGraphemes intent.deleteAfterGraphemes) :
    Follows D edits s (s.handleCommittedText D intent context) := by
  have hforget : Follows D edits s s.forgetDeadKey :=
    Unrouted.follows ⟨rfl, rfl, rfl⟩ changes_forgetDeadKey
  have hqueue : ∀ dispatch : CommittedTextDispatch,
      dispatch.deleteBeforeGraphemes = intent.deleteBeforeGraphemes →
      dispatch.deleteAfterGraphemes = intent.deleteAfterGraphemes →
      Follows D edits s.forgetDeadKey
        (s.forgetDeadKey.queueActions D [.committedText dispatch]).2 := by
    intro dispatch hbefore hafter
    have htext := Change.text (D := D) (s := s.forgetDeadKey) dispatch
      (Or.inr (hbefore.symm ▸ hafter.symm ▸ hedits))
    exact Unrouted.follows ⟨rfl, rfl, rfl⟩ htext.changes
  unfold handleCommittedText
  dsimp only
  generalize (if (intent.allowMobileShortcut && s.forgetDeadKey.mobileModifiers.state.hasActive)
    = true then modifiedTextEdit intent else []) = keys
  split_ifs
  · exact hforget
  · exact hforget.trans (Simulated.foldl (fun _ _ => handlePhysical_follows) _ _)
  · exact hforget.trans ((hqueue _ rfl rfl).trans
      (consumeOneShot_unrouted.follows consumeOneShot_changes))
  · exact hforget.trans (hqueue _ rfl rfl)

/-- What an intent forgets before it is handled. -/
theorem forgetDeadKey_follows (p : Prop) [Decidable p] :
    Follows D edits s (if p then s.forgetDeadKey else s) := by
  split_ifs
  · exact Unrouted.follows ⟨rfl, rfl, rfl⟩ changes_forgetDeadKey
  · exact .refl

/-- An intent other than a reset. -/
theorem handle_follows {intent : KeyboardIntent} (hreset : ∀ reason, intent ≠ .reset reason)
    (hedits : ∀ text, intent = .committedText text →
      edits text.deleteBeforeGraphemes text.deleteAfterGraphemes) :
    Follows D edits s (s.handle D intent context) := by
  unfold handle
  refine (forgetDeadKey_follows
    (s.pendingDeadKey.map PendingDeadKey.mode ≠ some context.inputMode)).trans ?_
  cases intent with
  | physical intent => exact handlePhysical_follows
  | pressBatch batch => exact handlePressBatch_follows
  | committedText intent => exact handleCommittedText_follows (hedits intent rfl)
  | reset reason => exact absurd rfl (hreset reason)
  | syntheticModifier intent =>
      exact (handleSyntheticModifier_unrouted intent).follows (handleSyntheticModifier_changes _ _)

end KeyboardStateMachine

end RustAdmin.Keyboard
