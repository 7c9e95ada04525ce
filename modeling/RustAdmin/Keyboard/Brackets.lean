import RustAdmin.Keyboard.Handle

/-!
# No stuck and no phantom key

Over every sequence of calls the physical actions of a key are brackets, open
exactly while the key is held.  A reset closes all of them, the modifiers last.

A reset is followed entry by entry: `keyReleases_entries` and
`modifierReleases_entries` give its dispatches as a list, and `reset_releases` shows
them to be one release for every key that was held.  All other calls are paths of
ledger steps by the lemmas of the modules before this one (`call_keeps`), so
`afterCalls_sound` keeps the ledger, and brackets are what the ledger says of one key.
-/

namespace RustAdmin.Keyboard

open RustAdmin.Support

namespace KeyboardStateMachine

variable {δ : Type*} {D : KeyboardDispatcher δ} {s : KeyboardStateMachine δ}
variable {context : KeyboardRoutingContext}

/-! ## Reset -/

/-- The key and the action of a release. -/
def releaseEntry (dispatch : PhysicalKeyboardDispatch) : HidKey × KeyboardIntentAction :=
  (dispatch.key, dispatch.action)

theorem keyReleases_entries (hs : s.WellKeyed) {keys : List HidKey}
    (hkeys : ∀ key ∈ keys, s.HasPhysicalOwner key) :
    (s.keyReleases keys).map releaseEntry = keys.map fun key => (key, .up) := by
  induction keys with
  | nil => rfl
  | cons key keys ih =>
      have hrest := ih fun k hk => hkeys k (List.mem_cons_of_mem _ hk)
      obtain ⟨active, hactive⟩ := Option.isSome_iff_exists.mp
        (isSome_physicalRouteFor.mpr (hkeys key List.mem_cons_self))
      have hkey : active.lease.key = key := hs.physicalRouteFor hactive
      unfold keyReleases at hrest ⊢
      simp only [List.filterMap_cons, hactive, Option.map_some, List.map_cons, hrest]
      simp [releaseEntry, PhysicalKeyboardDispatch.key, hkey]

theorem modifierReleases_entries (hs : s.WellKeyed) {keys : List HidKey}
    (hkeys : ∀ key ∈ keys, s.HasPhysicalOwner key ∨ s.HasLease key)
    (physicalModifiers : SideSpecificModifierState) :
    (s.modifierReleases physicalModifiers keys).map releaseEntry =
      keys.map fun key => (key, .up) := by
  induction keys generalizing physicalModifiers with
  | nil => rfl
  | cons key keys ih =>
      have hrest := ih fun k hk => hkeys k (List.mem_cons_of_mem _ hk)
      have hlease : ∃ lease, ((s.physicalRouteFor key).map ActiveRoute.lease).or
          (s.syntheticModifierLeases.get? key) = some lease ∧ lease.key = key := by
        cases hroute : s.physicalRouteFor key with
        | some active => exact ⟨active.lease, rfl, hs.physicalRouteFor hroute⟩
        -- a modifier without an owner is released under its synthetic lease
        | none =>
            have hfree := physicalRouteFor_eq_none.mp hroute
            obtain ⟨lease, hget⟩ := (hkeys key List.mem_cons_self).resolve_left hfree
            exact ⟨lease, by simp [hget], hs.lease key lease hget⟩
      obtain ⟨lease, heq, hkey⟩ := hlease
      unfold modifierReleases
      simp only [heq, List.map_cons, hrest]
      simp [releaseEntry, PhysicalKeyboardDispatch.key, hkey]

/-- The keys a reset releases, in their order. -/
def releasedKeys (s : KeyboardStateMachine δ) : List HidKey :=
  ((sortedList s.physicallyDispatchedKeys).filter fun key => !key.isModifier) ++
    sortedList (((sortedList s.physicallyDispatchedKeys).filter HidKey.isModifier).toFinset ∪
      s.syntheticModifierLeases.keys.toFinset)

theorem mem_leaseKeys {key : HidKey} :
    key ∈ s.syntheticModifierLeases.keys ↔ s.HasLease key := LinkedMap.mem_keys_iff

theorem mem_modifierKeys {key : HidKey} :
    key ∈ sortedList (((sortedList s.physicallyDispatchedKeys).filter
      HidKey.isModifier).toFinset ∪ s.syntheticModifierLeases.keys.toFinset) ↔
      (s.HasPhysicalOwner key ∧ key.isModifier = true) ∨ s.HasLease key := by
  simp only [mem_sortedList, Finset.mem_union, List.mem_toFinset, List.mem_filter,
    mem_physicallyDispatchedKeys, mem_leaseKeys]

theorem mem_otherKeys {key : HidKey} :
    (key ∈ (sortedList s.physicallyDispatchedKeys).filter fun key => !key.isModifier) ↔
      s.HasPhysicalOwner key ∧ key.isModifier = false := by
  simp only [List.mem_filter, mem_sortedList, mem_physicallyDispatchedKeys, Bool.not_eq_true']

theorem releases_entries (hs : s.WellKeyed) :
    s.releases.map releaseEntry = s.releasedKeys.map fun key => (key, .up) := by
  unfold releases releasedKeys
  dsimp only
  rw [List.map_append, List.map_append]
  congr 1
  · apply keyReleases_entries hs
    intro key hkey
    exact (mem_otherKeys.mp hkey).1
  · apply modifierReleases_entries hs
    intro key hkey
    exact (mem_modifierKeys.mp hkey).imp And.left id

theorem mem_releasedKeys {key : HidKey} :
    key ∈ s.releasedKeys ↔ s.HasPhysicalOwner key ∨ s.HasLease key := by
  rw [releasedKeys, List.mem_append, mem_otherKeys, mem_modifierKeys]
  cases key.isModifier <;> tauto

theorem nodup_releasedKeys (hs : s.WellKeyed) : s.releasedKeys.Nodup := by
  unfold releasedKeys
  refine List.Nodup.append ((nodup_sortedList _).filter _) (nodup_sortedList _) ?_
  intro key hother hmodifier
  have hnot := (mem_otherKeys.mp hother).2
  have his : key.isModifier = true :=
    (mem_modifierKeys.mp hmodifier).elim And.right (hs.modifier key)
  rw [hnot] at his
  cases his

/-- The modifiers come last. -/
theorem pairwise_releasedKeys (hs : s.WellKeyed) :
    s.releasedKeys.Pairwise fun a b => a.isModifier = true → b.isModifier = true := by
  have hmodifiers : ∀ key ∈ sortedList (((sortedList s.physicallyDispatchedKeys).filter
      HidKey.isModifier).toFinset ∪ s.syntheticModifierLeases.keys.toFinset),
      key.isModifier = true :=
    fun key hkey => (mem_modifierKeys.mp hkey).elim And.right (hs.modifier key)
  unfold releasedKeys
  rw [List.pairwise_append]
  refine ⟨?_, ?_, ?_⟩
  · apply List.pairwise_of_forall_mem_list
    intro a ha b _ hmodifier
    rw [(mem_otherKeys.mp ha).2] at hmodifier
    cases hmodifier
  · apply List.pairwise_of_forall_mem_list
    intro a _ b hb _
    exact hmodifiers b hb
  · intro a _ b hb _
    exact hmodifiers b hb

/-- No owner and no lease is left. -/
structure Idle (s : KeyboardStateMachine δ) : Prop where
  routes : ∀ owner, s.activeRoutes.get? owner = none
  leases : ∀ key, s.syntheticModifierLeases.get? key = none

theorem Idle.not_held (hidle : s.Idle) (key : HidKey) :
    ¬ (s.HasPhysicalOwner key ∨ s.HasLease key) := by
  rintro (⟨owner, ⟨active, hget, -⟩, -⟩ | ⟨lease, hget⟩)
  · rw [hidle.routes] at hget
    cases hget
  · rw [hidle.leases] at hget
    cases hget

theorem idle_of_hadState (h : s.hadState = false) : s.Idle := by
  simp only [hadState, Bool.or_eq_false_iff, Bool.not_eq_false', List.isEmpty_iff] at h
  have hroutes : s.activeRoutes = ∅ := LinkedMap.ext (by tauto)
  have hleases : s.syntheticModifierLeases = ∅ := LinkedMap.ext (by tauto)
  refine ⟨fun owner => ?_, fun key => ?_⟩
  · rw [hroutes, LinkedMap.get?_empty]
  · rw [hleases, LinkedMap.get?_empty]

/-- What a reset does: one release for every key that is held, the modifiers last. -/
structure ResetReleases (s s' : KeyboardStateMachine δ) (released : List HidKey) : Prop where
  idle : s'.Idle
  log : s'.physicalLog = s.physicalLog ++ released.map fun key => (key, .up)
  nodup : released.Nodup
  held : ∀ key, key ∈ released ↔ s.HasPhysicalOwner key ∨ s.HasLease key
  order : released.Pairwise fun a b => a.isModifier = true → b.isModifier = true

theorem physicalEntries_releases (dispatches : List PhysicalKeyboardDispatch) :
    (dispatches.map KeyboardDispatchAction.physical).filterMap
      KeyboardDispatchAction.physicalEntry = dispatches.map releaseEntry := by
  rw [List.filterMap_map, ← List.filterMap_eq_map]
  rfl

theorem reset_releases (hs : s.WellKeyed) (invalidatePending allowBlockedReleases : Bool) :
    ∃ released, ResetReleases s (s.reset D invalidatePending allowBlockedReleases) released := by
  unfold reset
  generalize hstart : (if invalidatePending = true then
    { s with dispatcher := D.invalidatePending s.dispatcher } else s) = start
  have hsame : start.activeRoutes = s.activeRoutes ∧
      start.syntheticModifierLeases = s.syntheticModifierLeases ∧
      start.physicalLog = s.physicalLog ∧ start.WellKeyed := by
    rw [← hstart]
    split_ifs
    · exact ⟨rfl, rfl, rfl, hs.route, hs.lease, hs.modifier⟩
    · exact ⟨rfl, rfl, rfl, hs⟩
  obtain ⟨hroutes, hleases, hlog, hkeyed⟩ := hsame
  have hheld : ∀ key, start.HasPhysicalOwner key ∨ start.HasLease key ↔
      s.HasPhysicalOwner key ∨ s.HasLease key := by
    intro key
    rw [hasPhysicalOwner_congr hroutes, hasLease_congr hleases]
  dsimp only
  split_ifs with hstate
  · rw [Bool.not_eq_true'] at hstate
    have hidle := idle_of_hadState hstate
    refine ⟨[], hidle, ?_, List.nodup_nil, ?_, List.Pairwise.nil⟩
    · simpa using hlog
    · intro key
      have hnone := hidle.not_held key
      rw [hheld] at hnone
      simpa using hnone
  all_goals
    refine ⟨start.releasedKeys, ⟨fun _ => rfl, fun _ => rfl⟩, ?_, nodup_releasedKeys hkeyed, ?_,
      pairwise_releasedKeys hkeyed⟩
    · rw [physicalLog, List.filterMap_append, physicalEntries_releases, releases_entries hkeyed,
        ← hlog]
      rfl
    · intro key
      rw [mem_releasedKeys, hheld]

theorem ResetReleases.path {s' : KeyboardStateMachine δ} {released : List HidKey}
    (h : ResetReleases s s' released) : KeyPath s.ledger s'.ledger := by
  have hholders : s'.holders = {holder ∈ s.holders | holder.key ∉ released} := by
    ext holder
    constructor
    · intro hmem
      exact absurd (held_iff.mp ⟨holder, hmem, rfl⟩) (h.idle.not_held holder.key)
    · rintro ⟨hmem, hkey⟩
      exact absurd ((h.held holder.key).mpr (held_iff.mp ⟨holder, hmem, rfl⟩)) hkey
  rw [ledger, ledger, h.log, hholders]
  apply Ledger.path_closeAll _ released h.nodup
  · intro key hkey
    exact held_iff.mpr ((h.held key).mp hkey)
  · rfl

theorem Idle.wellKeyed (hidle : s.Idle) : s.WellKeyed := by
  refine ⟨?_, ?_, ?_⟩
  · intro owner active hget
    rw [hidle.routes] at hget
    cases hget
  · intro key lease hget
    rw [hidle.leases] at hget
    cases hget
  · rintro key ⟨lease, hget⟩
    rw [hidle.leases] at hget
    cases hget

theorem Idle.reportedOwners (hidle : s.Idle) : s.ReportedOwners :=
  fun owner hget => absurd (hidle.routes owner) hget

theorem reset_reported (hs : s.reportedSyntheticModifiers = s.reportedModifierUnion)
    (invalidatePending allowBlockedReleases : Bool) :
    (s.reset D invalidatePending allowBlockedReleases).reportedSyntheticModifiers =
      (s.reset D invalidatePending allowBlockedReleases).reportedModifierUnion := by
  unfold reset
  generalize hstart : (if invalidatePending = true then
    { s with dispatcher := D.invalidatePending s.dispatcher } else s) = start
  have hreported : start.reportedSyntheticModifiers = start.reportedModifierUnion := by
    rw [← hstart]
    split_ifs <;> exact hs
  dsimp only
  split
  · exact hreported
  · rfl

theorem reset_keeps (invalidatePending allowBlockedReleases : Bool) :
    Keeps s (s.reset D invalidatePending allowBlockedReleases) := by
  intro hs
  obtain ⟨released, hreset⟩ := @reset_releases δ D s hs.keyed invalidatePending allowBlockedReleases
  exact ⟨⟨hreset.idle.wellKeyed, hreset.idle.reportedOwners,
    reset_reported hs.reported invalidatePending allowBlockedReleases⟩, hreset.path⟩

/-! ## Calls -/

theorem handle_keeps (intent : KeyboardIntent) : Keeps s (s.handle D intent context) := by
  by_cases hreset : ∃ reason, intent = .reset reason
  · obtain ⟨reason, rfl⟩ := hreset
    have hforget := @forgetDeadKey_follows δ D (fun _ _ => True) s
      (s.pendingDeadKey.map PendingDeadKey.mode ≠ some context.inputMode) _
    exact hforget.keeps.trans (reset_keeps true true)
  · push Not at hreset
    have hfollows : Follows D (fun _ _ => True) s (s.handle D intent context) :=
      handle_follows hreset fun _ _ => trivial
    exact hfollows.keeps

/-- A call of the state machine, or progress the dispatcher makes by itself.  The
input mode is part of the context of every intent, so it may change at any call. -/
inductive Call (δ : Type*)
  | handle (intent : KeyboardIntent) (context : KeyboardRoutingContext)
  | reset (invalidatePending allowBlockedReleases : Bool)
  | setLegacyPhysicalModifier (modifier : MobileModifierKey) (pressed : Bool)
  | consumeOneShotModifiers
  | invalidatePending
  | dispatcherMoved (dispatcher : δ)

variable (D) in
def call (s : KeyboardStateMachine δ) : Call δ → KeyboardStateMachine δ
  | .handle intent context => s.handle D intent context
  | .reset invalidatePending allowBlockedReleases =>
      s.reset D invalidatePending allowBlockedReleases
  | .setLegacyPhysicalModifier modifier pressed =>
      { s with physicalModifiers := s.physicalModifiers.setAggregate modifier pressed }
  | .consumeOneShotModifiers => s.consumeOneShot D
  | .invalidatePending => { s with dispatcher := D.invalidatePending s.dispatcher }
  | .dispatcherMoved dispatcher => { s with dispatcher := dispatcher }

variable (D) in
/-- The state after a sequence of calls on a new state machine. -/
def afterCalls (dispatcher : δ) (calls : List (Call δ)) : KeyboardStateMachine δ :=
  calls.foldl (call D) { dispatcher := dispatcher }

theorem withDispatcher_keeps (dispatcher : δ) : Keeps s { s with dispatcher := dispatcher } := by
  intro hs
  exact ⟨⟨⟨hs.keyed.route, hs.keyed.lease, hs.keyed.modifier⟩, hs.owners, hs.reported⟩, .refl⟩

theorem call_keeps (c : Call δ) : Keeps s (s.call D c) := by
  cases c with
  | handle intent context => exact handle_keeps intent
  | reset invalidatePending allowBlockedReleases => exact reset_keeps _ _
  | setLegacyPhysicalModifier modifier pressed =>
      have hfollows : Follows D (fun _ _ => True) s
          (s.call D (.setLegacyPhysicalModifier modifier pressed)) :=
        Unrouted.follows ⟨rfl, rfl, rfl⟩ (changes_of_same rfl rfl rfl rfl)
      exact hfollows.keeps
  | consumeOneShotModifiers =>
      have hfollows : Follows D (fun _ _ => True) s (s.consumeOneShot D) :=
        consumeOneShot_unrouted.follows consumeOneShot_changes
      exact hfollows.keeps
  | invalidatePending => exact withDispatcher_keeps _
  | dispatcherMoved dispatcher => exact withDispatcher_keeps dispatcher

theorem idle_created (dispatcher : δ) :
    Idle ({ dispatcher := dispatcher } : KeyboardStateMachine δ) :=
  ⟨fun _ => rfl, fun _ => rfl⟩

theorem afterCalls_sound (dispatcher : δ) (calls : List (Call δ)) :
    (afterCalls D dispatcher calls).Sound ∧
      Ledger.Sound Holder.key (· ≠ .up) (· = .repeat) (· = .up)
        (afterCalls D dispatcher calls).ledger := by
  have hcreated := idle_created dispatcher
  have hstart : Sound ({ dispatcher := dispatcher } : KeyboardStateMachine δ) :=
    ⟨hcreated.wellKeyed, hcreated.reportedOwners, rfl⟩
  obtain ⟨hsound, hpath⟩ := Simulated.foldl (fun _ c => call_keeps (D := D) c) calls _ hstart
  refine ⟨hsound, Ledger.Path.sound hpath ?_⟩
  -- a new state machine holds nothing and has dispatched nothing
  have hempty : ({ dispatcher := dispatcher } : KeyboardStateMachine δ).ledger = ⟨∅, []⟩ := by
    have hholders : ({ dispatcher := dispatcher } : KeyboardStateMachine δ).holders = ∅ := by
      ext holder
      simp only [Set.mem_empty_iff_false, iff_false]
      intro hmem
      exact hcreated.not_held holder.key (held_iff.mp ⟨holder, hmem, rfl⟩)
    rw [ledger, hholders]
    rfl
  rw [hempty]
  exact Ledger.sound_empty

/-- An owner without a stored report has nothing to take back. -/
theorem forgetReport_none {intent : PhysicalKeyboardIntent}
    (hs : s.reportedSyntheticModifiers = s.reportedModifierUnion)
    (hreport : s.reportedModifiersByKey.get? intent.owner = none) :
    s.forgetReport D intent context = s := by
  unfold forgetReport
  split_ifs
  · dsimp only
    rw [LinkedMap.remove_of_get?_eq_none hreport]
    calc
      s.reconcileReportedModifiers D s.reportedModifierUnion context
      _ = s.reconcileReportedModifiers D s.reportedSyntheticModifiers context := by rw [hs]
      _ = s := reconcileReportedModifiers_self
  · rfl

/-- An owner without a physical route goes silently. -/
theorem finish_silent {intent : PhysicalKeyboardIntent} {active : ActiveRoute}
    (hget : s.activeRoutes.get? intent.owner = some active) (hroute : active.route ≠ .physical) :
    s.finish D intent intent.owner = s.removeRoute intent.owner := by
  simp [finish, hget, closeRoute, hroute]

/-- The up of a press without a physical route dispatches nothing, unless a report
of an earlier press of the owner is still stored. -/
theorem handlePhysical_up_silent (hs : s.reportedSyntheticModifiers = s.reportedModifierUnion)
    {intent : PhysicalKeyboardIntent} {active : ActiveRoute} (haction : intent.action = .up)
    (hget : s.activeRoutes.get? intent.owner = some active) (hroute : active.route ≠ .physical)
    (hreport : s.reportedModifiersByKey.get? intent.owner = none) :
    (s.handlePhysical D intent context).dispatched = s.dispatched := by
  -- an up takes none of the branches in front of its dispatch
  have hpromote : s.promoteForIme D (some active) intent context = s := by
    simp [promoteForIme, haction]
  have hrecord : s.recordReport D (some active) intent context = s := by
    simp [recordReport, haction]
  have hdispatch : s.dispatchPhysical D (some active) intent context =
      s.removeRoute intent.owner := by
    simpa [dispatchPhysical, haction] using finish_silent hget hroute
  have hforget : (s.removeRoute intent.owner).forgetReport D intent context =
      s.removeRoute intent.owner := forgetReport_none hs hreport
  have hhandle : s.handlePhysical D intent context = s.removeRoute intent.owner := by
    simp [handlePhysical, haction, hget, dropDeadKey, hpromote, hrecord, hdispatch, hforget]
  rw [hhandle]
  rfl

theorem handle_up_silent (hs : s.Sound) {intent : PhysicalKeyboardIntent} {active : ActiveRoute}
    (haction : intent.action = .up) (hget : s.activeRoutes.get? intent.owner = some active)
    (hroute : active.route ≠ .physical)
    (hreport : s.reportedModifiersByKey.get? intent.owner = none) :
    (s.handle D (.physical intent) context).dispatched = s.dispatched := by
  unfold handle
  dsimp only
  split_ifs
  · have hreported : s.forgetDeadKey.reportedSyntheticModifiers =
        s.forgetDeadKey.reportedModifierUnion := hs.reported
    exact handlePhysical_up_silent hreported haction hget hroute hreport
  · exact handlePhysical_up_silent hs.reported haction hget hroute hreport

/-- The physical actions dispatched for a key. -/
def actionsOf (s : KeyboardStateMachine δ) (key : HidKey) : List KeyboardIntentAction :=
  Ledger.actions s.physicalLog key

/-- The call is a reset, by its name or as an intent. -/
def Call.IsReset : Call δ → Prop
  | .handle (.reset _) _ => True
  | .reset _ _ => True
  | _ => False

theorem call_reset (hs : s.WellKeyed) {c : Call δ} (hreset : c.IsReset) :
    ∃ released, ResetReleases s (s.call D c) released := by
  cases c with
  | reset invalidatePending allowBlockedReleases => exact reset_releases hs _ _
  | handle intent context =>
      cases intent with
      | reset reason =>
          simp only [call, handle]
          split_ifs
          · have hforget : s.forgetDeadKey.WellKeyed := ⟨hs.route, hs.lease, hs.modifier⟩
            obtain ⟨released, h⟩ := @reset_releases δ D s.forgetDeadKey hforget true true
            exact ⟨released, h.idle, h.log, h.nodup, h.held, h.order⟩
          · exact reset_releases hs true true
      | _ => exact absurd hreset id
  | _ => exact absurd hreset id

/-- **No stuck and no phantom key.**  After any calls every key's physical actions
are brackets, the last one open exactly if the key has a physical owner or a lease.
The up of a press routed otherwise dispatches nothing while no report of an earlier
press of its owner is stored.  A reset releases every key with an open bracket
once, the modifiers last, and leaves no owner and no lease. -/
theorem afterCalls_bracketed (D : KeyboardDispatcher δ) (dispatcher : δ) (calls : List (Call δ)) :
    (∀ key, ∃ isOpen,
      Bracketed (· ≠ .up) (· = .repeat) (· = .up)
        ((afterCalls D dispatcher calls).actionsOf key) isOpen ∧
      (isOpen = true ↔ (afterCalls D dispatcher calls).HasPhysicalOwner key ∨
        (afterCalls D dispatcher calls).HasLease key)) ∧
    (∀ (intent : PhysicalKeyboardIntent) (context : KeyboardRoutingContext) (active : ActiveRoute),
      intent.action = .up →
      (afterCalls D dispatcher calls).activeRoutes.get? intent.owner = some active →
      active.route ≠ .physical →
      (afterCalls D dispatcher calls).reportedModifiersByKey.get? intent.owner = none →
      ((afterCalls D dispatcher calls).handle D (.physical intent) context).dispatched =
        (afterCalls D dispatcher calls).dispatched) ∧
    (∀ c : Call δ, c.IsReset → ∃ released,
      ResetReleases (afterCalls D dispatcher calls) ((afterCalls D dispatcher calls).call D c)
        released) := by
  obtain ⟨hsound, hledger⟩ := @afterCalls_sound δ D dispatcher calls
  refine ⟨?_, ?_, ?_⟩
  · intro key
    obtain ⟨isOpen, hbracketed, hopen⟩ := hledger key
    exact ⟨isOpen, hbracketed, hopen.trans held_iff⟩
  · intro intent context active haction hget hroute hreport
    exact handle_up_silent hsound haction hget hroute hreport
  · intro c hreset
    exact call_reset hsound.keyed hreset

/-! ## What the brackets are not -/

/-- A dispatcher that accepts everything. -/
def acceptAll : KeyboardDispatcher Unit where
  tryDispatchAll _ _ := (true, ())
  dispatchRecoveryReleases _ _ := ()
  invalidatePending _ := ()

def desktopMap : KeyboardRoutingContext where
  keyboardMode := .map
  inputMode := .physical
  clientKind := .desktop
  peerIsAndroid := false

/-- A held key whose down went to another window. -/
def unseenDown : List (Call Unit) :=
  [.handle (.physical { key := .shiftRight, action := .repeat, source := .flutterKeyEvent })
    desktopMap]

/-- A key of an Android keyboard is pressed with shift and goes up as the key of
another source; it is pressed again, as text. -/
def staleReport : List (Call Unit) :=
  [.handle (.physical {
      key := ⟨7, 0x04⟩
      action := .down
      source := .androidHardwareKeyboard
      reportedModifiers := {.shiftLeft} }) desktopMap,
    .handle (.physical { key := ⟨7, 0x04⟩, action := .up, source := .flutterKeyEvent }) desktopMap,
    .handle (.physical {
      key := ⟨7, 0x04⟩
      action := .down
      source := .androidHardwareKeyboard
      textCandidate := some [0x61] }) { desktopMap with inputMode := .text }]

def staleUp : PhysicalKeyboardIntent where
  key := ⟨7, 0x04⟩
  action := .up
  source := .androidHardwareKeyboard

/-- Brackets do not all begin with a down, and the up of a press routed as text may
release a modifier. -/
theorem repeat_opens_bracket :
    (¬ ∃ isOpen, Bracketed (· = .down) (· = .repeat) (· = .up)
      ((afterCalls acceptAll () unseenDown).actionsOf .shiftRight) isOpen) ∧
    ((afterCalls acceptAll () staleReport).activeRoutes.get? staleUp.owner).map ActiveRoute.route =
      some .text ∧
    ((afterCalls acceptAll () staleReport).handle acceptAll (.physical staleUp) desktopMap
      ).physicalLog = (afterCalls acceptAll () staleReport).physicalLog ++ [(.shiftLeft, .up)] := by
  refine ⟨?_, by decide, by decide⟩
  rintro ⟨isOpen, hbracketed⟩
  have hhead := hbracketed.opening_head .repeat (by decide)
  cases hhead

end KeyboardStateMachine

end RustAdmin.Keyboard
