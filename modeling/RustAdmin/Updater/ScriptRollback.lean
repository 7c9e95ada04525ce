import RustAdmin.Updater.ScriptOutcome

/-!
# The rollback of the update script

The trap puts the app that was installed back and starts the services again.  What it cannot
undo it reports, with the directory of the backup that still holds the app.

The trap finds the app where `Held` says and moves it back where nothing is in its
place (`keeps_moveBack`).  `Settled` has the two ways in which that can end: `Back`,
or `Stays` with a report that names the backup; every part of the trap that follows
keeps it.
-/

namespace RustAdmin.Updater

open RustAdmin.Support

variable {κ : Type} {w₀ w : World κ} {vars : ScriptVars}

/-! ## The target -/

/-- The app that was installed is in its place again. -/
structure Back (w₀ : World κ) (vars : ScriptVars) (w : World κ) : Prop where
  known : Known w₀ vars w
  target : w.apps .target = w₀.apps .target
  quiet : w.failures = w₀.failures

/-- A backup of this run holds the app that was installed, and a report names it. -/
def BackupNamed (w₀ w : World κ) (root : TempRoot) : Prop :=
  root.kind = .backup ∧ w₀.made ≤ root.index ∧ w.apps (.inRoot root) = w₀.apps .target ∧
    ∃ failure, Report.failure failure (some root) ∈ w.reports

/-- The app stays in the backup. -/
structure Stays (w₀ : World κ) (vars : ScriptVars) (w : World κ) : Prop where
  known : Known w₀ vars w
  named : ∃ root, vars.backupRoot = some root ∧ BackupNamed w₀ w root
  reported : ∃ failure, failure ≠ RollbackFailure.backupMissing ∧
    w.failures = w₀.failures ++ [failure]

/-- What the trap has come to, by whether the target is back. -/
def Settled (w₀ : World κ) (vars : ScriptVars) (back : Bool) (w : World κ) : Prop :=
  if back then Back w₀ vars w else Stays w₀ vars w

theorem Settled.known {back : Bool} (h : Settled w₀ vars back w) : Known w₀ vars w := by
  cases back with
  | true => exact Back.known h
  | false => exact Stays.known h

theorem Settled.safe {back : Bool} (h : Settled w₀ vars back w) : Safe w₀ w := by
  refine ⟨h.known.frame, ?_⟩
  cases back with
  | true => exact .inl (Back.target h)
  | false =>
      obtain ⟨root, -, hkind, hmade, happ, -⟩ := Stays.named h
      exact .inr (.inl ⟨root, hkind, hmade, happ⟩)

theorem Settled.setService {back : Bool} (h : Settled w₀ vars back w) {service : Service}
    (hservice : service ∈ vars.running) (state : ServiceState) :
    Settled w₀ vars back (w.setService service state) := by
  have hknown := h.known.setService hservice state
  cases back with
  | true =>
      have hback : Back w₀ vars w := h
      exact ⟨hknown, hback.target, hback.quiet⟩
  | false =>
      have hstays : Stays w₀ vars w := h
      exact ⟨hknown, hstays.named, hstays.reported⟩

theorem Ongoing.backup (h : Ongoing w₀ vars w) (hmoved : vars.targetMoved = true) :
    ∃ root, vars.backupRoot = some root ∧ root.Own w₀ .backup w ∧
      w.apps (.inRoot root) = w₀.apps .target := by
  have hheld := h.held
  rw [Held, if_pos hmoved] at hheld
  obtain ⟨root, hroot, happ⟩ := hheld
  exact ⟨root, hroot, h.known.backup root hroot, happ⟩

/-- A failure that is reported while the backup holds the app. -/
theorem Ongoing.stays (h : Ongoing w₀ vars w) (hmoved : vars.targetMoved = true)
    {backup : TempRoot} (hbackup : vars.backupRoot = some backup) {failure : RollbackFailure}
    (hfailure : failure ≠ .backupMissing) :
    Stays w₀ vars { w with reports := w.reports ++ [.failure failure (some backup)] } := by
  obtain ⟨root, hroot, hown, happ⟩ := h.backup hmoved
  obtain rfl := Option.some.inj (hroot.symm.trans hbackup)
  refine ⟨h.known.report _, ⟨root, hroot, hown.1, hown.2.1, happ, failure, by simp⟩,
    failure, hfailure, ?_⟩
  rw [World.failures_failure, h.quiet]

theorem keeps_report {ε : Type} {Exit : ε → World κ → Prop} {Pre : World κ → Prop}
    {Post : Bool → World κ → Prop} {failure : RollbackFailure} {backup : Option TempRoot}
    (hsafe : ∀ w, Pre w → Safe w₀ w)
    (hnext : ∀ w, Pre w →
      Post false { w with reports := w.reports ++ [.failure failure backup] })
    (hstop : ∀ w, Post false w → Safe w₀ w) :
    Keeps w₀ Pre (report failure backup) Post Exit :=
  keeps_echo hsafe hnext (Exits.ret hstop fun _ hw => hw)

/-- A command with whose status the part ends. -/
theorem keeps_performed {ε : Type} {Exit : ε → World κ → Prop} {Pre : World κ → Prop}
    {action : Action} {Post : Bool → World κ → Prop}
    (hsafe : ∀ w, Pre w → Allowed w₀ (.act action) w)
    (hnext : ∀ fault w, Pre w → Post (w.act fault action).1 (w.act fault action).2)
    (hstop : ∀ ok w, Post ok w → Safe w₀ w) : Keeps w₀ Pre (perform action) Post Exit := by
  refine Exits.call (fun w hw => (hsafe w hw).1) hsafe fun fault w hw => Exits.ret ?_ ?_
  · rintro _ rfl
    exact hstop _ _ (hnext fault w hw)
  · rintro _ rfl
    exact hnext fault w hw

/-- The replacement is removed, if there is one. -/
theorem keeps_rmTarget {ε : Type} {Exit : ε → World κ → Prop} (hmoved : vars.targetMoved = true)
    (seen : World κ) :
    Keeps w₀ (fun w => Ongoing w₀ vars w ∧ w = seen)
      (if (seen.apps .target).isSome then perform .rmTarget else .ret true)
      (fun removed w => Ongoing w₀ vars w ∧ (removed = true → w.apps .target = none)) Exit := by
  refine Exits.ite (fun _ => ?_) fun hnone => ?_
  · refine keeps_performed ?_ ?_ fun _ w hw => hw.1.safe
    · exact fun w hw => allowed_of_still (by simp [Command.Still]) hw.1.safe
    · intro fault w hw
      unfold World.act
      dsimp only
      split
      · exact ⟨hw.1.setApp_target hmoved _, fun hremoved => by cases hremoved⟩
      · exact ⟨hw.1.setApp_target hmoved none, fun _ => w.setApp_self _ _⟩
  · refine Exits.ret (fun w hw => hw.1.safe) ?_
    rintro w ⟨hw, rfl⟩
    exact ⟨hw, fun _ => by simpa using hnone⟩

/-- The move of the backup, which is a rename. -/
theorem act_mv_backup (h : Ongoing w₀ vars w) (hmoved : vars.targetMoved = true)
    {backup : TempRoot} (hbackup : vars.backupRoot = some backup)
    (htarget : w.apps .target = none) (fault : Fault κ) :
    (w.act fault (.mv (.inRoot backup) .target)).1 = true ∧
        Back w₀ vars (w.act fault (.mv (.inRoot backup) .target)).2 ∨
      (w.act fault (.mv (.inRoot backup) .target)).1 = false ∧
        Ongoing w₀ vars (w.act fault (.mv (.inRoot backup) .target)).2 := by
  obtain ⟨root, hroot, hown, happ⟩ := h.backup hmoved
  obtain rfl := Option.some.inj (hroot.symm.trans hbackup)
  rcases mv_cases fault htarget with ⟨bundle, hbundle, heq⟩ | heq | ⟨hrenames, -⟩
  · refine .inl ?_
    rw [World.act, heq]
    refine ⟨rfl, ?_, ?_, h.quiet⟩
    · exact (h.known.setApp_inRoot hown none).setApp_target _
    · exact (World.setApp_self _ _ _).trans (hbundle.symm.trans happ)
  · refine .inr ?_
    rw [World.act, heq]
    exact ⟨rfl, h⟩
  · have hkind := hown.1
    simp [renames, hkind] at hrenames

/-- The backup goes back where nothing is in its place. -/
theorem keeps_moveBack {ε : Type} {Exit : ε → World κ → Prop}
    (hinstalled : (w₀.apps .target).isSome) (hmoved : vars.targetMoved = true)
    {backup : TempRoot} (hbackup : vars.backupRoot = some backup) :
    Keeps w₀ (fun w => Ongoing w₀ vars w ∧ w.apps .target = none)
      (look.bind fun w =>
        if (w.apps (.inRoot backup)).isNone then report .backupMissing (some backup)
        else (perform (.mv (.inRoot backup) .target)).bind fun ok =>
          if ok then .ret true else report .backupStays (some backup))
      (Settled w₀ vars) Exit := by
  refine keeps_look (fun w hw => hw.1.safe) fun seen => Exits.ite (fun hmissing => ?_) fun _ => ?_
  · -- the backup is there
    have hthere : ∀ w, (Ongoing w₀ vars w ∧ w.apps .target = none) ∧ w = seen → False := by
      rintro w ⟨⟨hw, -⟩, rfl⟩
      obtain ⟨root, hroot, -, happ⟩ := hw.backup hmoved
      obtain rfl := Option.some.inj (hroot.symm.trans hbackup)
      rw [happ, Option.isNone_iff_eq_none] at hmissing
      rw [hmissing] at hinstalled
      cases hinstalled
    exact Exits.assuming hthere False.elim
  refine keeps_perform (Q := fun ok w => if ok then Back w₀ vars w else Ongoing w₀ vars w)
    ?_ ?_ fun ok => ?_
  · exact fun w hw => allowed_mv hw.1.1.safe hw.1.2
  · intro fault w hw
    rcases act_mv_backup hw.1.1 hmoved hbackup hw.1.2 fault with ⟨hok, hback⟩ | ⟨hok, hongoing⟩
    · rw [hok]
      exact hback
    · rw [hok]
      exact hongoing
  · cases ok with
    | true =>
        refine Exits.ret (fun w hw => ?_) fun w hw => hw
        have hsettled : Settled w₀ vars true w := hw
        exact hsettled.safe
    | false =>
        exact keeps_report (fun w hw => Ongoing.safe hw)
          (fun w hw => Ongoing.stays hw hmoved hbackup (by decide)) fun w hw => Settled.safe hw

theorem keeps_restoreTarget (hinstalled : (w₀.apps .target).isSome) :
    Keeps w₀ (Ongoing w₀ vars) (restoreTarget vars) (Settled w₀ vars) (fun _ _ => False) := by
  unfold restoreTarget
  refine Exits.ite (fun hunmoved => ?_) fun hmoved => ?_
  · refine Exits.ret (fun w hw => hw.safe) fun w hw => ?_
    have hheld := hw.held
    rw [Held, if_neg (by simpa using hunmoved)] at hheld
    exact Back.mk hw.known hheld.1 hw.quiet
  have hmoved : vars.targetMoved = true := by simpa using hmoved
  cases hbackup : vars.backupRoot with
  | none =>
      refine Exits.fail (fun w hw => hw.safe) fun w hw => ?_
      obtain ⟨root, hroot, -⟩ := hw.backup hmoved
      rw [hbackup] at hroot
      cases hroot
  | some backup =>
      refine keeps_look (fun w hw => hw.safe) fun seen => ?_
      refine Exits.bind (keeps_rmTarget hmoved seen) (fun removed => ?_) fun _ _ hfalse =>
        hfalse.elim
      refine Exits.ite (fun _ => ?_) fun hremoved => ?_
      · exact keeps_report (fun w hw => hw.1.safe)
          (fun w hw => hw.1.stays hmoved hbackup (by decide)) fun w hw => Settled.safe hw
      · exact (keeps_moveBack hinstalled hmoved hbackup).consequence _
          fun w hw => ⟨hw.1, hw.2 (by simpa using hremoved)⟩

end RustAdmin.Updater
