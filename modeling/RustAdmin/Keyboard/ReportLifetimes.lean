import RustAdmin.Keyboard.Brackets
import RustAdmin.Keyboard.Dispatcher
import RustAdmin.Support.Run

/-!
# How long a report lasts

A press of the Android adapter stores the modifiers its event reports under its
owner, and its up takes them back.  An owner is a key with its origin: an up of
another source ends the press too, but leaves its report.

`ReportsHeld` says that every report belongs to a press that is active.  The lemmas go
from one key event to a call: a press stores at most a report of its own owner
(`Pressed`), and an up takes the owner away and, from the adapter, its report
(`handlePhysical_ended`).  An up of another source is the one call that leaves a
report behind, and `call_left` shows that it always does.  So the runs without such an
up are exactly the sound ones.
-/

namespace RustAdmin.Keyboard

open RustAdmin.Support

namespace KeyboardStateMachine

variable {δ : Type*} {D : KeyboardDispatcher δ} {s s' s'' : KeyboardStateMachine δ}
variable {intent : PhysicalKeyboardIntent} {context : KeyboardRoutingContext}

/-- Every report belongs to an active owner, and the modifiers held for the reports
are those they name. -/
structure ReportsSound (s : KeyboardStateMachine δ) : Prop where
  active : ∀ owner, s.reportedModifiersByKey.contains owner = true →
    s.activeRoutes.contains owner = true
  union : s.reportedSyntheticModifiers = s.reportedModifierUnion

/-- An up of another source than the Android adapter, for a press with a report. -/
def EndsUnreconciled (s : KeyboardStateMachine δ) (intent : PhysicalKeyboardIntent) : Prop :=
  intent.action = .up ∧ intent.source ≠ .androidHardwareKeyboard ∧
    s.reportedModifiersByKey.contains intent.owner = true

/-- The call is such an up, or a text edit that the toolbar turns into one. -/
def CallEndsUnreconciled (s : KeyboardStateMachine δ) : Call δ → Prop
  | .handle (.physical intent) _ => s.EndsUnreconciled intent
  | .handle (.committedText edit) _ =>
      edit.allowMobileShortcut = true ∧ s.mobileModifiers.state.hasActive = true ∧
        ∃ intent ∈ modifiedTextEdit edit, s.EndsUnreconciled intent
  | _ => False

/-! ## Owners and reports -/

/-- The same owners are active, and the same reports are stored. -/
structure SameOwners (s s' : KeyboardStateMachine δ) : Prop where
  active : ∀ owner, owner.reported = false →
    s'.activeRoutes.contains owner = s.activeRoutes.contains owner
  byKey : s'.reportedModifiersByKey = s.reportedModifiersByKey

theorem SameOwners.refl : SameOwners s s := ⟨fun _ _ => rfl, rfl⟩

theorem SameOwners.trans (first : SameOwners s s') (second : SameOwners s' s'') :
    SameOwners s s'' :=
  ⟨fun owner howner => (second.active owner howner).trans (first.active owner howner),
    second.byKey.trans first.byKey⟩

theorem Unrouted.sameOwners (h : Unrouted s s') : SameOwners s s' :=
  ⟨fun _ _ => by rw [h.routes], h.byKey⟩

theorem reconcile_sameOwners (hs : s.ReportedOwners) (reported : Finset HidKey) :
    SameOwners s (s.reconcileReportedModifiers D reported context) := by
  obtain ⟨⟨changed, -, hreconciled⟩, -⟩ :=
    @reconcileReportedModifiers_spec δ D (fun _ _ => True) s context hs reported
  refine ⟨fun owner howner => ?_, hreconciled.byKey⟩
  unfold LinkedMap.contains
  rw [reconcile_get? hs reported howner]

/-- A promotion gives an owner a new route, and takes none away. -/
theorem promoteEntry_contains (entry : KeyOwner × ActiveRoute) (owner : KeyOwner) :
    (s.promoteEntry D context entry).activeRoutes.contains owner = true ↔
      owner = entry.1 ∨ s.activeRoutes.contains owner = true := by
  obtain ⟨active, -, hrouted⟩ := @start_unrouted δ D s (deferredEvent entry) context .down entry.1
    (some .physical)
  unfold LinkedMap.contains promoteEntry
  rw [hrouted.get?, get?_setRoute]
  by_cases howner : owner = entry.1 <;> simp [howner]

theorem foldl_promoteEntry_contains (entries : List (KeyOwner × ActiveRoute))
    (s : KeyboardStateMachine δ) (owner : KeyOwner) :
    (entries.foldl (fun s entry => s.promoteEntry D context entry) s).activeRoutes.contains owner
        = true ↔
      owner ∈ entries.map Prod.fst ∨ s.activeRoutes.contains owner = true := by
  induction entries generalizing s with
  | nil => simp
  | cons entry entries ih =>
      rw [List.foldl_cons, ih, promoteEntry_contains, List.map_cons, List.mem_cons]
      tauto

theorem promoteImeModifiers_sameOwners : SameOwners s (s.promoteImeModifiers D context) := by
  obtain ⟨owners, -, hrouted⟩ := @promoteImeModifiers_rerouted δ D s context
  refine ⟨fun owner _ => ?_, hrouted.byKey⟩
  unfold promoteImeModifiers
  dsimp only
  rw [Bool.eq_iff_iff, foldl_promoteEntry_contains, or_iff_right_iff_imp]
  -- those that are promoted had a route before
  intro hmem
  obtain ⟨⟨o, active⟩, hentry, rfl⟩ := List.mem_map.mp hmem
  rw [List.mem_insertionSort, List.mem_filter] at hentry
  exact LinkedMap.contains_iff.mpr ⟨active, LinkedMap.mem_entries_iff.mp hentry.1⟩

theorem promoteForIme_sameOwners (existing : Option ActiveRoute) :
    SameOwners s (s.promoteForIme D existing intent context) := by
  unfold promoteForIme
  split_ifs
  · exact promoteImeModifiers_sameOwners
  · exact .refl

/-! ## One key event -/

/-- The owner is active besides those that were, and no report changes. -/
structure Opened (owner : KeyOwner) (s s' : KeyboardStateMachine δ) : Prop where
  active : ∀ other, other.reported = false →
    (s'.activeRoutes.contains other = true ↔
      other = owner ∨ s.activeRoutes.contains other = true)
  byKey : s'.reportedModifiersByKey = s.reportedModifiersByKey

theorem SameOwners.opened (h : SameOwners s s') {owner : KeyOwner}
    (hactive : s.activeRoutes.contains owner = true) : Opened owner s s' := by
  refine ⟨fun other hother => ?_, h.byKey⟩
  rw [h.active other hother, iff_or_self]
  rintro rfl
  exact hactive

theorem Opened.of_sameOwners {owner : KeyOwner} (h : SameOwners s s')
    (hopened : Opened owner s' s'') : Opened owner s s'' := by
  refine ⟨fun other hother => ?_, hopened.byKey.trans h.byKey⟩
  rw [hopened.active other hother, h.active other hother]

theorem start_opened (action : KeyboardIntentAction) (owner : KeyOwner)
    (forcedRoute : Option ActiveKeyRoute) :
    Opened owner s (s.start D intent context action owner forcedRoute) := by
  obtain ⟨active, -, hrouted⟩ :=
    @start_unrouted δ D s intent context action owner forcedRoute
  refine ⟨fun other _ => ?_, hrouted.byKey⟩
  unfold LinkedMap.contains
  rw [hrouted.get?, get?_setRoute]
  by_cases hother : other = owner <;> simp [hother]

theorem dispatchPhysical_opened {existing : Option ActiveRoute} (haction : intent.action ≠ .up)
    (hexisting : existing.isSome = true → s.activeRoutes.contains intent.owner = true) :
    Opened intent.owner s (s.dispatchPhysical D existing intent context) := by
  unfold dispatchPhysical
  split
  · exact start_opened _ _ _
  · exact start_opened _ _ _
  · exact (repeatKey_unrouted _).sameOwners.opened (hexisting rfl)
  · next hup => exact absurd hup haction

/-- No report changes, or that of the event is stored. -/
def Stores (intent : PhysicalKeyboardIntent) (s s' : KeyboardStateMachine δ) : Prop :=
  s'.reportedModifiersByKey = s.reportedModifiersByKey ∨
    (intent.source = .androidHardwareKeyboard ∧ intent.key.isModifier = false ∧
      s'.reportedModifiersByKey =
        s.reportedModifiersByKey.set intent.owner intent.reportedModifiers)

theorem recordReport_stores (hs : s.ReportedOwners) (existing : Option ActiveRoute) :
    Stores intent s (s.recordReport D existing intent context) := by
  unfold recordReport
  split_ifs with hrecords
  · let stored : KeyboardStateMachine δ := { s with
      reportedModifiersByKey := s.reportedModifiersByKey.set intent.owner intent.reportedModifiers }
    have hstored : stored.ReportedOwners := hs
    have hsame := @reconcile_sameOwners δ D stored context hstored stored.reportedModifierUnion
    simp only [reconcilesAndroidModifiers, Bool.and_eq_true, beq_iff_eq,
      Bool.not_eq_true'] at hrecords
    exact Or.inr ⟨hrecords.1.1.1, hrecords.1.1.2, hsame.byKey⟩
  · exact Or.inl rfl

/-- A down or a repeat leaves its owner active, and stores at most a report of its own. -/
structure Pressed (intent : PhysicalKeyboardIntent) (s s' : KeyboardStateMachine δ) : Prop where
  active : ∀ owner, owner.reported = false →
    (s'.activeRoutes.contains owner = true ↔
      owner = intent.owner ∨ s.activeRoutes.contains owner = true)
  stores : Stores intent s s'

theorem Opened.pressed (h : Opened intent.owner s s') : Pressed intent s s' :=
  ⟨h.active, Or.inl h.byKey⟩

theorem handlePhysical_pressed (hs : s.ReportedOwners) (haction : intent.action ≠ .up) :
    Pressed intent s (s.handlePhysical D intent context) := by
  unfold handlePhysical
  generalize hexisting : s.activeRoutes.get? intent.owner = existing
  have hactive : existing.isSome = s.activeRoutes.contains intent.owner := by
    rw [← hexisting, LinkedMap.contains]
  dsimp only
  split_ifs with hduplicate hcancel
  · have hcount : Unrouted s
        { s with diagnostics.duplicateDowns := s.diagnostics.duplicateDowns + 1 } :=
      ⟨rfl, rfl, rfl⟩
    exact (hcount.sameOwners.opened (hactive ▸ hduplicate.2)).pressed
  · have hforget : Unrouted s s.forgetDeadKey := ⟨rfl, rfl, rfl⟩
    exact (Opened.of_sameOwners hforget.sameOwners (start_opened _ _ _)).pressed
  · have hdrop := @dropDeadKey_unrouted δ s intent context existing
    have howners := hdrop.reportedOwners hs
    have hdropped := hdrop.sameOwners
    generalize s.dropDeadKey existing intent context = dropped at hdropped howners ⊢
    have hpromoted := hdropped.trans
      (@promoteForIme_sameOwners δ D dropped intent context existing)
    have howners' : (dropped.promoteForIme D existing intent context).ReportedOwners := by
      unfold promoteForIme
      split_ifs
      · exact howners.promoteImeModifiers
      · exact howners
    generalize dropped.promoteForIme D existing intent context = promoted at hpromoted howners' ⊢
    have hkept : ∀ owner, owner.reported = false →
        (promoted.recordReport D existing intent context).activeRoutes.contains owner =
          s.activeRoutes.contains owner := by
      intro owner howner
      rw [← hpromoted.active owner howner]
      unfold LinkedMap.contains
      rw [recordReport_get? howners' existing howner]
    have hstores := @recordReport_stores δ D promoted intent context howners' existing
    generalize promoted.recordReport D existing intent context = recorded at hkept hstores ⊢
    have hexists : existing.isSome = true →
        recorded.activeRoutes.contains intent.owner = true := by
      intro hsome
      rw [hkept _ rfl, ← hactive]
      exact hsome
    have hopened := @dispatchPhysical_opened δ D recorded intent context existing haction hexists
    have hforget : forgetReport D (recorded.dispatchPhysical D existing intent context) intent
        context = recorded.dispatchPhysical D existing intent context := by
      simp [forgetReport, haction]
    rw [hforget]
    refine ⟨fun owner howner => ?_, ?_⟩
    · rw [hopened.active owner howner, hkept owner howner]
    · unfold Stores at hstores ⊢
      rw [hopened.byKey, ← hpromoted.byKey]
      exact hstores

theorem handlePhysical_up (haction : intent.action = .up) :
    s.handlePhysical D intent context =
      (s.finish D intent intent.owner).forgetReport D intent context := by
  simp [handlePhysical, dropDeadKey, promoteForIme, recordReport, dispatchPhysical, haction]

/-- An up leaves its owner inactive, and takes its report back if it is of the adapter. -/
theorem handlePhysical_ended (hs : s.ReportedOwners) (haction : intent.action = .up) :
    (∀ owner, owner.reported = false →
      ((s.handlePhysical D intent context).activeRoutes.contains owner = true ↔
        owner ≠ intent.owner ∧ s.activeRoutes.contains owner = true)) ∧
    (s.handlePhysical D intent context).reportedModifiersByKey =
      if reconcilesAndroidModifiers intent = true then
        s.reportedModifiersByKey.remove intent.owner
      else s.reportedModifiersByKey := by
  have hfinish := @finish_unrouted δ D s intent intent.owner
  have howners := hfinish.reportedOwners (hs.removeRoute intent.owner)
  rw [handlePhysical_up haction]
  generalize s.finish D intent intent.owner = finished at hfinish howners ⊢
  have hactive : ∀ owner, (finished.activeRoutes.contains owner = true ↔
      owner ≠ intent.owner ∧ s.activeRoutes.contains owner = true) := by
    intro owner
    unfold LinkedMap.contains
    rw [hfinish.get?, get?_removeRoute]
    by_cases howner : owner = intent.owner <;> simp [howner]
  have hbyKey : finished.reportedModifiersByKey = s.reportedModifiersByKey := hfinish.byKey
  unfold forgetReport
  by_cases hreconciles : reconcilesAndroidModifiers intent = true
  · let stored : KeyboardStateMachine δ := { finished with
      reportedModifiersByKey := finished.reportedModifiersByKey.remove intent.owner }
    have hstored : stored.ReportedOwners := howners
    have hsame := @reconcile_sameOwners δ D stored context hstored stored.reportedModifierUnion
    rw [if_pos hreconciles, if_pos (by simp [hreconciles, haction])]
    refine ⟨fun owner howner => ?_, ?_⟩
    · exact (Bool.eq_iff_iff.mp (hsame.active owner howner)).trans (hactive owner)
    · exact hsame.byKey.trans (by rw [← hbyKey])
  · rw [if_neg hreconciles, if_neg (by simp [hreconciles])]
    exact ⟨fun owner _ => hactive owner, hbyKey⟩

/-! ## Reports of active owners -/

/-- Reports belong to keys that are no modifiers and whose press is active. -/
structure ReportsHeld (s : KeyboardStateMachine δ) : Prop where
  press : ∀ owner, s.reportedModifiersByKey.contains owner = true →
    owner.reported = false ∧ owner.key.isModifier = false
  active : ∀ owner, s.reportedModifiersByKey.contains owner = true →
    s.activeRoutes.contains owner = true

theorem ReportsHeld.of_empty (h : s.reportedModifiersByKey = ∅) : s.ReportsHeld := by
  constructor <;> simp [h]

theorem SameOwners.reportsHeld (h : SameOwners s s') (hheld : s.ReportsHeld) : s'.ReportsHeld := by
  refine ⟨fun owner howner => ?_, fun owner howner => ?_⟩ <;> rw [h.byKey] at howner
  · exact hheld.press owner howner
  · rw [h.active owner (hheld.press owner howner).1]
    exact hheld.active owner howner

theorem Pressed.reportsHeld (h : Pressed intent s s') (hheld : s.ReportsHeld) : s'.ReportsHeld := by
  have hstored : ∀ owner, s'.reportedModifiersByKey.contains owner = true →
      s.reportedModifiersByKey.contains owner = true ∨
        (owner = intent.owner ∧ intent.key.isModifier = false) := by
    intro owner howner
    rcases h.stores with hsame | ⟨-, hmodifier, hset⟩
    · exact Or.inl (hsame ▸ howner)
    · rw [hset, LinkedMap.contains, LinkedMap.get?_set] at howner
      split_ifs at howner with heq
      · exact Or.inr ⟨heq, hmodifier⟩
      · exact Or.inl howner
  refine ⟨fun owner howner => ?_, fun owner howner => ?_⟩
  · rcases hstored owner howner with hbefore | ⟨rfl, hmodifier⟩
    · exact hheld.press owner hbefore
    · exact ⟨rfl, hmodifier⟩
  · rcases hstored owner howner with hbefore | ⟨rfl, -⟩
    · rw [h.active owner (hheld.press owner hbefore).1]
      exact Or.inr (hheld.active owner hbefore)
    · exact (h.active _ rfl).mpr (Or.inl rfl)

/-- An up that does not leave its report behind. -/
theorem handlePhysical_up_held (hs : s.ReportedOwners) (hheld : s.ReportsHeld)
    (haction : intent.action = .up) (hends : ¬ s.EndsUnreconciled intent) :
    (s.handlePhysical D intent context).ReportsHeld ∧
      (s.handlePhysical D intent context).reportedModifiersByKey.contains intent.owner = false := by
  obtain ⟨hactive, hbyKey⟩ := @handlePhysical_ended δ D s intent context hs haction
  generalize s.handlePhysical D intent context = ended at hactive hbyKey ⊢
  -- an event that takes nothing back finds no report of its owner
  have hkept : ∀ owner, ended.reportedModifiersByKey.contains owner = true →
      owner ≠ intent.owner ∧ s.reportedModifiersByKey.contains owner = true := by
    intro owner howner
    rw [hbyKey] at howner
    split_ifs at howner with hreconciles
    · rw [LinkedMap.contains, LinkedMap.get?_remove] at howner
      split_ifs at howner with heq
      · cases howner
      · exact ⟨heq, howner⟩
    · refine ⟨?_, howner⟩
      rintro rfl
      have hmodifier : intent.key.isModifier = false := (hheld.press _ howner).2
      refine hends ⟨haction, fun hsource => hreconciles ?_, howner⟩
      simp [reconcilesAndroidModifiers, hsource, hmodifier]
  refine ⟨⟨fun owner howner => hheld.press owner (hkept owner howner).2, fun owner howner => ?_⟩,
    ?_⟩
  · obtain ⟨hother, hbefore⟩ := hkept owner howner
    exact (hactive owner (hheld.press owner hbefore).1).mpr ⟨hother, hheld.active owner hbefore⟩
  · rw [← Bool.not_eq_true]
    exact fun howner => (hkept _ howner).1 rfl

/-- One that does leaves the report of an owner that is not active. -/
theorem handlePhysical_left (hs : s.ReportedOwners) (hends : s.EndsUnreconciled intent) :
    (s.handlePhysical D intent context).reportedModifiersByKey.contains intent.owner = true ∧
      (s.handlePhysical D intent context).activeRoutes.contains intent.owner = false := by
  obtain ⟨haction, hsource, hreport⟩ := hends
  obtain ⟨hactive, hbyKey⟩ := @handlePhysical_ended δ D s intent context hs haction
  refine ⟨?_, ?_⟩
  · rw [hbyKey, if_neg (by simp [reconcilesAndroidModifiers, hsource])]
    exact hreport
  · rw [← Bool.not_eq_true, hactive _ rfl]
    exact fun h => h.1 rfl

theorem handlePhysical_held (hs : s.ReportedOwners) (hheld : s.ReportsHeld)
    (hends : ¬ s.EndsUnreconciled intent) : (s.handlePhysical D intent context).ReportsHeld := by
  by_cases haction : intent.action = .up
  · exact (handlePhysical_up_held hs hheld haction hends).1
  · exact (handlePhysical_pressed hs haction).reportsHeld hheld

/-- A click of one source leaves no report of its own. -/
theorem click_held {down up : PhysicalKeyboardIntent} (hs : s.Sound) (hheld : s.ReportsHeld)
    (hdown : down.action = .down) (hup : up.action = .up) (hsource : down.source = up.source)
    (hfree : s.reportedModifiersByKey.contains up.owner = false) :
    ((s.handlePhysical D down context).handlePhysical D up context).ReportsHeld ∧
      ((s.handlePhysical D down context).handlePhysical D up
        context).reportedModifiersByKey.contains up.owner = false := by
  have hpressed := @handlePhysical_pressed δ D s down context hs.owners (by simp [hdown])
  have hsound := (@handlePhysical_follows δ D (fun _ _ => True) s down context hs).1
  refine handlePhysical_up_held hsound.owners (hpressed.reportsHeld hheld) hup ?_
  rintro ⟨-, hother, hreport⟩
  rcases hpressed.stores with hsame | ⟨hadapter, -, -⟩
  · rw [hsame, hfree] at hreport
    cases hreport
  · exact hother (hsource ▸ hadapter)

/-! ## Calls -/

section Batches

variable {batch : PhysicalKeyPressBatchIntent} {active : ActiveRoute}

theorem reconcile_reportedOwners (hs : s.ReportedOwners) (reported : Finset HidKey) :
    (s.reconcileReportedModifiers D reported context).ReportedOwners := by
  obtain ⟨⟨changed, -, hreconciled⟩, -⟩ :=
    @reconcileReportedModifiers_spec δ D (fun _ _ => True) s context hs reported
  exact hreconciled.owners

theorem iterate_repeatInBatch_unrouted (n : ℕ) (s : KeyboardStateMachine δ) :
    Unrouted s ((fun s => repeatInBatch D s batch active context)^[n] s) := by
  induction n generalizing s with
  | zero => exact .refl
  | succ n ih => exact repeatInBatch_unrouted.trans (ih _)

/-- A batch for a key that is held opens and closes no press. -/
theorem repeatBatch_sameOwners (hs : s.ReportedOwners) :
    SameOwners s (s.repeatBatch D batch active context) := by
  unfold repeatBatch
  dsimp only
  generalize hpromoted : (if (active.route == .physical && batch.origin == .ime) = true then
    s.promoteImeModifiers D context else s) = promoted
  have hsame : SameOwners s promoted ∧ promoted.ReportedOwners := by
    rw [← hpromoted]
    split_ifs
    · exact ⟨promoteImeModifiers_sameOwners, hs.promoteImeModifiers⟩
    · exact ⟨.refl, hs⟩
  split_ifs
  · have howners := @reconcile_reportedOwners δ D promoted context hsame.2
      (promoted.reportedModifierUnion ∪ batch.reportedModifiers)
    have hborrowed := @reconcile_sameOwners δ D promoted context hsame.2
      (promoted.reportedModifierUnion ∪ batch.reportedModifiers)
    have hrepeats := @iterate_repeatInBatch_unrouted δ D context batch active batch.count.toNat
      (promoted.reconcileReportedModifiers D
        (promoted.reportedModifierUnion ∪ batch.reportedModifiers) context)
    exact ((hsame.1.trans hborrowed).trans hrepeats.sameOwners).trans
      (reconcile_sameOwners (hrepeats.reportedOwners howners) _)
  · exact hsame.1.trans (iterate_repeatInBatch_unrouted _ _).sameOwners

theorem handlePressBatch_held (hs : s.Sound) (hheld : s.ReportsHeld) :
    (s.handlePressBatch D batch context).ReportsHeld := by
  have hcount : Unrouted s s.countIgnored := ⟨rfl, rfl, rfl⟩
  unfold handlePressBatch
  split_ifs
  · exact hcount.sameOwners.reportsHeld hheld
  · cases hroute : s.batchRoute batch context with
    | some active =>
        dsimp only
        split_ifs
        · exact hcount.sameOwners.reportsHeld hheld
        · exact (repeatBatch_sameOwners hs.owners).reportsHeld hheld
    | none =>
        -- the key has no press, so no report, and each click of the batch leaves none
        have hfree : s.reportedModifiersByKey.contains (batchEvent batch .up).owner = false := by
          rw [← Bool.not_eq_true]
          intro hreport
          have hactive := hheld.active _ hreport
          unfold batchRoute at hroute
          rw [Option.or_eq_none_iff] at hroute
          have hnone : s.activeRoutes.get? (batchEvent batch .up).owner = none := hroute.1
          simp [LinkedMap.contains, hnone] at hactive
        clear hroute hcount
        dsimp only
        induction batch.count.toNat generalizing s with
        | zero => exact hheld
        | succ n ih =>
            obtain ⟨hclicked, hfree'⟩ := @click_held δ D s context (batchEvent batch .down)
              (batchEvent batch .up) hs hheld rfl rfl rfl hfree
            have hfollows : Follows D (fun _ _ => True) s (pressInBatch D s batch context) :=
              handlePhysical_follows.trans handlePhysical_follows
            have hsound := (hfollows hs).1
            exact ih hsound hclicked hfree'

end Batches

theorem modifiedTextEdit_eq (edit : CommittedTextIntent) :
    modifiedTextEdit edit = [] ∨ ∃ key, modifiedTextEdit edit = modifiedClick key := by
  unfold modifiedTextEdit
  split
  · split_ifs
    · exact Or.inr ⟨_, rfl⟩
    · exact Or.inr ⟨_, rfl⟩
    · exact Or.inl rfl
  · split_ifs
    · exact Or.inl rfl
    · exact Or.inl rfl
    · split
      · exact Or.inr ⟨_, rfl⟩
      · exact Or.inl rfl
  · exact Or.inl rfl

/-- The presses a text edit is turned into. -/
def editKeys (s : KeyboardStateMachine δ) (edit : CommittedTextIntent) :
    List PhysicalKeyboardIntent :=
  if edit.allowMobileShortcut && s.mobileModifiers.state.hasActive then modifiedTextEdit edit
  else []

theorem editKeys_eq (edit : CommittedTextIntent) :
    s.editKeys edit = [] ∨ ∃ key, s.editKeys edit = modifiedClick key := by
  unfold editKeys
  split_ifs
  · exact modifiedTextEdit_eq edit
  · exact Or.inl rfl

theorem callEndsUnreconciled_edit {edit : CommittedTextIntent} :
    s.CallEndsUnreconciled (.handle (.committedText edit) context) ↔
      ∃ intent ∈ s.editKeys edit, s.EndsUnreconciled intent := by
  unfold CallEndsUnreconciled editKeys
  by_cases h : (edit.allowMobileShortcut && s.mobileModifiers.state.hasActive) = true
  · rw [if_pos h]
    rw [Bool.and_eq_true] at h
    simp [h]
  · rw [if_neg h]
    rw [Bool.and_eq_true, not_and] at h
    simpa using fun hallow hactive => absurd hactive (h hallow)

/-- A text edit is a click of the toolbar, or opens and closes no press. -/
theorem handleCommittedText_cases (edit : CommittedTextIntent) :
    (s.editKeys edit = [] ∧ Unrouted s (s.handleCommittedText D edit context)) ∨
    ∃ down up, s.editKeys edit = [down, up] ∧ down.action = .down ∧ up.action = .up ∧
      down.source = .mobileToolbar ∧ up.source = .mobileToolbar ∧ down.owner = up.owner ∧
      s.handleCommittedText D edit context =
        (s.forgetDeadKey.handlePhysical D down context).handlePhysical D up context := by
  have hkeys : (if (edit.allowMobileShortcut && s.forgetDeadKey.mobileModifiers.state.hasActive)
      = true then modifiedTextEdit edit else []) = s.editKeys edit := rfl
  have hforget : Unrouted s s.forgetDeadKey := ⟨rfl, rfl, rfl⟩
  unfold handleCommittedText
  dsimp only
  rw [hkeys]
  rcases editKeys_eq (s := s) edit with hnone | ⟨key, hclick⟩
  · refine Or.inl ⟨hnone, ?_⟩
    rw [if_neg (not_not.mpr hnone)]
    split_ifs
    · exact hforget
    · refine Unrouted.trans ?_ consumeOneShot_unrouted
      exact ⟨rfl, rfl, rfl⟩
    · exact ⟨rfl, rfl, rfl⟩
  · have hedit : ¬ (edit.text = [] ∧ edit.deleteBeforeGraphemes = 0 ∧
        edit.deleteAfterGraphemes = 0) := by
      rintro ⟨htext, hbefore, hafter⟩
      have hempty : s.editKeys edit = [] := by
        simp [editKeys, modifiedTextEdit, htext, hbefore, hafter]
      rw [hempty] at hclick
      cases hclick
    refine Or.inr ⟨_, _, hclick, rfl, rfl, rfl, rfl, rfl, ?_⟩
    rw [if_neg hedit, hclick, if_pos (by simp [modifiedClick])]
    rfl

theorem handleCommittedText_held (hs : s.Sound) (hheld : s.ReportsHeld)
    (edit : CommittedTextIntent) (hends : ¬ ∃ intent ∈ s.editKeys edit, s.EndsUnreconciled intent) :
    (s.handleCommittedText D edit context).ReportsHeld := by
  rcases @handleCommittedText_cases δ D s context edit with
    ⟨-, hunrouted⟩ | ⟨down, up, hkeys, hdown, hup, hsource, hsource', -, heq⟩
  · exact hunrouted.sameOwners.reportsHeld hheld
  · have hforget : Unrouted s s.forgetDeadKey := ⟨rfl, rfl, rfl⟩
    have hfollows : Follows D (fun _ _ => True) s s.forgetDeadKey :=
      hforget.follows changes_forgetDeadKey
    have hsound := (hfollows hs).1
    have hfree : s.reportedModifiersByKey.contains up.owner = false := by
      rw [← Bool.not_eq_true]
      intro hreport
      refine hends ⟨up, by simp [hkeys], hup, ?_, hreport⟩
      simp [hsource']
    rw [heq]
    exact (click_held hsound (hforget.sameOwners.reportsHeld hheld) hdown hup
      (hsource.trans hsource'.symm) hfree).1

/-- The down of a click whose key has a report is a duplicate, and its up leaves the
report. -/
theorem handleCommittedText_left (hs : s.Sound)
    {edit : CommittedTextIntent} (hends : ∃ intent ∈ s.editKeys edit, s.EndsUnreconciled intent) :
    ∃ owner, (s.handleCommittedText D edit context).reportedModifiersByKey.contains owner = true ∧
      (s.handleCommittedText D edit context).activeRoutes.contains owner = false := by
  obtain ⟨intent, hmem, hends⟩ := hends
  rcases @handleCommittedText_cases δ D s context edit with
    ⟨hnone, -⟩ | ⟨down, up, hkeys, hdown, hup, hsource, -, howner, heq⟩
  · simp [hnone] at hmem
  · have hforget : Unrouted s s.forgetDeadKey := ⟨rfl, rfl, rfl⟩
    have hfollows : Follows D (fun _ _ => True) s s.forgetDeadKey :=
      hforget.follows changes_forgetDeadKey
    have hsound := (hfollows hs).1
    have hintent : intent = up := by
      rw [hkeys, List.mem_pair] at hmem
      rcases hmem with rfl | rfl
      · rw [hends.1] at hdown
        cases hdown
      · rfl
    subst hintent
    have hpressed := @handlePhysical_pressed δ D s.forgetDeadKey down context hsound.owners
      (by simp [hdown])
    have hdownSound := (@handlePhysical_follows δ D (fun _ _ => True) s.forgetDeadKey down context
      hsound).1
    have hreport : (s.forgetDeadKey.handlePhysical D down context).EndsUnreconciled intent := by
      refine ⟨hends.1, hends.2.1, ?_⟩
      rcases hpressed.stores with hsame | ⟨hadapter, -, -⟩
      · rw [hsame]
        exact hends.2.2
      · rw [hsource] at hadapter
        cases hadapter
    rw [heq]
    exact ⟨intent.owner, handlePhysical_left hdownSound.owners hreport⟩

theorem reset_held (hheld : s.ReportsHeld) (invalidatePending allowBlockedReleases : Bool) :
    (s.reset D invalidatePending allowBlockedReleases).ReportsHeld := by
  have hcancel : ∀ d, Unrouted s { s with dispatcher := d } := fun _ => ⟨rfl, rfl, rfl⟩
  unfold reset
  dsimp only
  split_ifs
  · exact (hcancel _).sameOwners.reportsHeld hheld
  · exact .of_empty rfl
  · exact .of_empty rfl
  · exact hheld
  · exact .of_empty rfl
  · exact .of_empty rfl

/-- What an intent finds: an accent of another mode is forgotten before it. -/
theorem handle_eq (hs : s.Sound) (intent : KeyboardIntent) :
    ∃ s₀ : KeyboardStateMachine δ, s₀.Sound ∧ Unrouted s s₀ ∧
      s₀.mobileModifiers = s.mobileModifiers ∧
      s.handle D intent context =
        match intent with
        | .physical intent => s₀.handlePhysical D intent context
        | .pressBatch batch => s₀.handlePressBatch D batch context
        | .committedText intent => s₀.handleCommittedText D intent context
        | .reset _ => s₀.reset D true true
        | .syntheticModifier intent => s₀.handleSyntheticModifier D intent context := by
  have hfollows : Follows D (fun _ _ => True) s
      (if s.pendingDeadKey.map PendingDeadKey.mode ≠ some context.inputMode then s.forgetDeadKey
        else s) :=
    forgetDeadKey_follows _
  refine ⟨_, (hfollows hs).1, ?_, ?_, rfl⟩
  · split_ifs
    · exact ⟨rfl, rfl, rfl⟩
    · exact .refl
  · split_ifs <;> rfl

theorem endsUnreconciled_congr (h : s'.reportedModifiersByKey = s.reportedModifiersByKey) :
    s'.EndsUnreconciled intent ↔ s.EndsUnreconciled intent := by
  unfold EndsUnreconciled
  rw [h]

theorem editKeys_congr (h : s'.mobileModifiers = s.mobileModifiers) (edit : CommittedTextIntent) :
    s'.editKeys edit = s.editKeys edit := by
  unfold editKeys
  rw [h]

theorem handle_held (hs : s.Sound) (hheld : s.ReportsHeld) {intent : KeyboardIntent}
    (hends : ¬ s.CallEndsUnreconciled (.handle intent context)) :
    (s.handle D intent context).ReportsHeld := by
  obtain ⟨s₀, hsound, hunrouted, hmobile, heq⟩ := @handle_eq δ D s context hs intent
  have hheld₀ := hunrouted.sameOwners.reportsHeld hheld
  rw [heq]
  cases intent with
  | physical intent =>
      have hends₀ := mt (endsUnreconciled_congr hunrouted.byKey).mp hends
      exact handlePhysical_held hsound.owners hheld₀ hends₀
  | pressBatch batch => exact handlePressBatch_held hsound hheld₀
  | committedText edit =>
      refine handleCommittedText_held hsound hheld₀ edit ?_
      rw [editKeys_congr hmobile]
      simp only [endsUnreconciled_congr hunrouted.byKey]
      rwa [← callEndsUnreconciled_edit]
  | reset reason => exact reset_held hheld₀ true true
  | syntheticModifier intent =>
      exact (handleSyntheticModifier_unrouted intent).sameOwners.reportsHeld hheld₀

/-- A call that ends a press and leaves its report. -/
theorem call_left (hs : s.Sound) {c : Call δ} (hends : s.CallEndsUnreconciled c) :
    ∃ owner, (s.call D c).reportedModifiersByKey.contains owner = true ∧
      (s.call D c).activeRoutes.contains owner = false := by
  cases c with
  | handle intent context =>
      obtain ⟨s₀, hsound, hunrouted, hmobile, heq⟩ := @handle_eq δ D s context hs intent
      have hcall : s.call D (.handle intent context) = s.handle D intent context := rfl
      rw [hcall, heq]
      cases intent with
      | physical intent =>
          have hends₀ := (endsUnreconciled_congr hunrouted.byKey).mpr hends
          exact ⟨intent.owner, handlePhysical_left hsound.owners hends₀⟩
      | committedText edit =>
          refine handleCommittedText_left hsound ?_
          rw [editKeys_congr hmobile]
          simp only [endsUnreconciled_congr hunrouted.byKey]
          exact callEndsUnreconciled_edit.mp hends
      | pressBatch batch => exact hends.elim
      | reset reason => exact hends.elim
      | syntheticModifier intent => exact hends.elim
  | reset cancels allowBlockedReleases => exact hends.elim
  | setLegacyPhysicalModifier modifier pressed => exact hends.elim
  | consumeOneShotModifiers => exact hends.elim
  | invalidatePending => exact hends.elim
  | dispatcherMoved dispatcher => exact hends.elim

theorem call_held (hs : s.Sound) (hheld : s.ReportsHeld) {c : Call δ}
    (hends : ¬ s.CallEndsUnreconciled c) : (s.call D c).ReportsHeld := by
  cases c with
  | handle intent context => exact handle_held hs hheld hends
  | reset cancels allowBlockedReleases => exact reset_held hheld _ _
  | setLegacyPhysicalModifier modifier pressed =>
      have hset : Unrouted s (s.call D (.setLegacyPhysicalModifier modifier pressed)) :=
        ⟨rfl, rfl, rfl⟩
      exact hset.sameOwners.reportsHeld hheld
  | consumeOneShotModifiers => exact consumeOneShot_unrouted.sameOwners.reportsHeld hheld
  | invalidatePending =>
      have hcancel : Unrouted s (s.call D .invalidatePending) := ⟨rfl, rfl, rfl⟩
      exact hcancel.sameOwners.reportsHeld hheld
  | dispatcherMoved dispatcher =>
      have hmoved : Unrouted s (s.call D (.dispatcherMoved dispatcher)) := ⟨rfl, rfl, rfl⟩
      exact hmoved.sameOwners.reportsHeld hheld

/-- After the up of a key, of whatever source, it has no report. -/
theorem call_up_forgets (hs : s.Sound) (hheld : s.ReportsHeld)
    (hends : ¬ s.CallEndsUnreconciled (.handle (.physical intent) context))
    (haction : intent.action = .up) :
    (s.call D (.handle (.physical intent) context)).reportedModifiersByKey.contains intent.owner =
      false := by
  obtain ⟨s₀, hsound, hunrouted, -, heq⟩ := @handle_eq δ D s context hs (.physical intent)
  have hends₀ := mt (endsUnreconciled_congr hunrouted.byKey).mp hends
  have hcall : s.call D (.handle (.physical intent) context) =
      s₀.handlePhysical D intent context := heq
  rw [hcall]
  exact (handlePhysical_up_held hsound.owners (hunrouted.sameOwners.reportsHeld hheld) haction
    hends₀).2

/-! ## Runs -/

variable (D) in
/-- After each call every report is of an active owner, the modifiers held for the
reports are those they name, and a key whose up was the call has no report. -/
def ReportsLast (dispatcher : δ) : List (Call δ) → Prop :=
  Always fun before c =>
    (afterCalls D dispatcher (before ++ [c])).ReportsSound ∧
    ∀ intent context, c = .handle (.physical intent) context → intent.action = .up →
      (afterCalls D dispatcher (before ++ [c])).reportedModifiersByKey.contains intent.owner =
        false

variable (D) in
/-- No call ends a press with a report by an up of another source. -/
def UpsReconcile (dispatcher : δ) : List (Call δ) → Prop :=
  Always fun before c => ¬ (afterCalls D dispatcher before).CallEndsUnreconciled c

theorem afterCalls_concat (dispatcher : δ) (calls : List (Call δ)) (c : Call δ) :
    afterCalls D dispatcher (calls ++ [c]) = (afterCalls D dispatcher calls).call D c := by
  simp [afterCalls]

theorem afterCalls_held {dispatcher : δ} {calls : List (Call δ)}
    (h : UpsReconcile D dispatcher calls) : (afterCalls D dispatcher calls).ReportsHeld := by
  induction calls using List.reverseRecOn with
  | nil => exact .of_empty rfl
  | append_singleton calls c ih =>
      obtain ⟨hbefore, hends⟩ := always_concat.mp h
      rw [afterCalls_concat]
      exact call_held (afterCalls_sound dispatcher calls).1 (ih hbefore) hends

/-- Reported modifiers never outlive their key exactly in the runs in which no up of
another source than the Android adapter ends a press with a report. -/
theorem reportsLast_iff (D : KeyboardDispatcher δ) (dispatcher : δ) (calls : List (Call δ)) :
    ReportsLast D dispatcher calls ↔ UpsReconcile D dispatcher calls := by
  induction calls using List.reverseRecOn with
  | nil => exact iff_of_true always_nil always_nil
  | append_singleton calls c ih =>
      have hsound := (afterCalls_sound (D := D) dispatcher calls).1
      have hsound' := (afterCalls_sound (D := D) dispatcher (calls ++ [c])).1
      unfold ReportsLast UpsReconcile at ih ⊢
      rw [always_concat, always_concat]
      constructor
      · rintro ⟨hbefore, hlast, -⟩
        refine ⟨ih.mp hbefore, fun hends => ?_⟩
        obtain ⟨owner, hreport, hinactive⟩ := call_left (D := D) hsound hends
        rw [← afterCalls_concat] at hreport hinactive
        have hactive := hlast.active owner hreport
        rw [hinactive] at hactive
        cases hactive
      · rintro ⟨hbefore, hends⟩
        have hheld := afterCalls_held hbefore
        refine ⟨ih.mpr hbefore, ⟨?_, hsound'.reported⟩, ?_⟩
        · rw [afterCalls_concat]
          exact (call_held hsound hheld hends).active
        · rintro intent context rfl haction
          rw [afterCalls_concat]
          exact call_up_forgets hsound hheld hends haction

/-- A key goes down on the Android adapter with the left Control reported, and up as a
plain key event. -/
def otherSourceUp : List (Call KeyboardDispatcherState) :=
  [.handle (.physical {
      key := ⟨7, 0x04⟩
      action := .down
      source := .androidHardwareKeyboard
      reportedModifiers := {.controlLeft} }) desktopMap,
    .handle (.physical { key := ⟨7, 0x04⟩, action := .up, source := .flutterKeyEvent }) desktopMap]

/-- The key is up, and its Control is still held. -/
theorem not_reportsLast_otherSource :
    ¬ ReportsLast keyboardDispatcher { canDispatch := true, composesDeadKeys := false }
      otherSourceUp ∧
    HidKey.controlLeft ∈ (afterCalls keyboardDispatcher
      { canDispatch := true, composesDeadKeys := false }
        otherSourceUp).reportedSyntheticModifiers := by
  refine ⟨?_, by decide⟩
  intro h
  have hup := (h [_] _ [] rfl).2 _ _ rfl rfl
  revert hup
  decide

end KeyboardStateMachine

end RustAdmin.Keyboard
