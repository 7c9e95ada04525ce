import RustAdmin.Updater.ScriptRollback

/-!
# What a run of the update script comes to

A run that returns has installed the update, started the services that ran and removed its
directories.  A run that fails has undone all of this, or has reported what it could not undo.

The three ways in which a failed run can end (`Undone`, `Reported`, `Uncleaned`) are
the cases of `Failed`.  `keeps_rollback` gives them for the trap, and
`keeps_privilegedUpdate` joins the transaction with it by the rule for handlers: an
exit under the trap leaves the trap what `Left` says.
-/

namespace RustAdmin.Updater

open RustAdmin.Support

variable {κ : Type} {w₀ w : World κ} {vars : ScriptVars}

/-- The update is installed, the services that were found running run, and nothing else of the
run is left. -/
structure Updated (w₀ w : World κ) : Prop where
  complete : Complete w₀ w
  services : ServicesKept w₀ w
  up : ∀ service ∈ (discovered w₀ {}).running, Up service w
  quiet : w.failures = w₀.failures
  cleaned : ∀ root : TempRoot, w₀.made ≤ root.index → w.roots root = false

/-- The app that was installed is in its place, and no failed rollback is reported. -/
structure Undone (w₀ w : World κ) : Prop where
  target : w.apps .target = w₀.apps .target
  services : ServicesKept w₀ w
  quiet : w.failures = w₀.failures

/-- A failed rollback is reported; the app that was installed is in its place, or in the backup
that a report names. -/
structure Reported (w₀ w : World κ) : Prop where
  held : w.apps .target = w₀.apps .target ∨ ∃ root, BackupNamed w₀ w root
  printed : ∃ printed, printed ≠ [] ∧ RollbackFailure.backupMissing ∉ printed ∧
    w.failures = w₀.failures ++ printed

/-- The update is installed, and only the removal of the directories has failed. -/
structure Uncleaned (w₀ w : World κ) : Prop where
  complete : Complete w₀ w
  services : ServicesKept w₀ w
  up : ∀ service ∈ (discovered w₀ {}).running, Up service w
  quiet : w.failures = w₀.failures

/-- Where the script ends with a status other than zero. -/
structure Failed (w₀ : World κ) (status : ℕ) (w : World κ) : Prop where
  status : status ≠ 0
  frame : Frame w₀ w
  outcome : Undone w₀ w ∨ Reported w₀ w ∨ Uncleaned w₀ w

theorem Failed.safe {status : ℕ} (h : Failed w₀ status w) : Safe w₀ w := by
  refine ⟨h.frame, ?_⟩
  rcases h.outcome with hundone | hreported | huncleaned
  · exact .inl hundone.target
  · rcases hreported.held with htarget | ⟨root, hkind, hmade, happ, -⟩
    · exact .inl htarget
    · exact .inr (.inl ⟨root, hkind, hmade, happ⟩)
  · exact .inr (.inr huncleaned.complete.installed)

/-! ## The trap -/

/-- All is undone but the directories. -/
structure Restored (w₀ : World κ) (vars : ScriptVars) (w : World κ) : Prop where
  back : Back w₀ vars w
  up : ∀ service ∈ vars.running, Up service w

theorem Restored.safe (h : Restored w₀ vars w) : Safe w₀ w :=
  ⟨h.back.known.frame, .inl h.back.target⟩

theorem Restored.cleaned (h : Restored w₀ vars w) {root : TempRoot}
    (hroot : vars.stagingRoot = some root ∨ vars.backupRoot = some root)
    (app : Option (Bundle κ)) (there : Bool) : Restored w₀ vars (w.cleaned root app there) where
  back := ⟨h.back.known.cleaned hroot app there,
    (w.cleaned_target root app there).trans h.back.target, h.back.quiet⟩
  up := h.up

theorem Restored.failed (h : Restored w₀ vars w) {status : ℕ} (hstatus : status ≠ 0) :
    Failed w₀ status w :=
  ⟨hstatus, h.back.known.frame, .inl ⟨h.back.target, h.back.known.servicesKept h.up, h.back.quiet⟩⟩

/-- The rollback has failed, and has said so. -/
structure Broken (w₀ : World κ) (vars : ScriptVars) (w : World κ) : Prop where
  known : Known w₀ vars w
  held : w.apps .target = w₀.apps .target ∨
    ∃ root, vars.backupRoot = some root ∧ BackupNamed w₀ w root
  printed : ∃ printed, printed ≠ [] ∧ RollbackFailure.backupMissing ∉ printed ∧
    w.failures = w₀.failures ++ printed

theorem Broken.failed (h : Broken w₀ vars w) : Failed w₀ 1 w := by
  refine ⟨Nat.one_ne_zero, h.known.frame, .inr (.inl ⟨?_, h.printed⟩)⟩
  rcases h.held with htarget | ⟨root, -, hnamed⟩
  · exact .inl htarget
  · exact .inr ⟨root, hnamed⟩

/-- The copy may go, the backup stays. -/
theorem Broken.cleaned (h : Broken w₀ vars w) {root : TempRoot}
    (hroot : vars.stagingRoot = some root) (app : Option (Bundle κ)) (there : Bool) :
    Broken w₀ vars (w.cleaned root app there) := by
  refine ⟨h.known.cleaned (.inl hroot) app there, ?_, h.printed⟩
  rcases h.held with htarget | ⟨backup, hbackup, hkind, hmade, happ, hreport⟩
  · exact .inl ((w.cleaned_target root app there).trans htarget)
  · refine .inr ⟨backup, hbackup, hkind, hmade, ?_, hreport⟩
    have hne := Place.inRoot_ne (h.known.staging root hroot).1 hkind
    exact (w.setApp_of_ne app hne.symm).trans happ

theorem Stays.broken (h : Stays w₀ vars w) : Broken w₀ vars w := by
  obtain ⟨failure, hfailure, hfailures⟩ := h.reported
  exact ⟨h.known, .inr h.named, [failure], by simp, by simpa using hfailure.symm, hfailures⟩

theorem BackupNamed.report {root : TempRoot} (h : BackupNamed w₀ w root) (report : Report) :
    BackupNamed w₀ { w with reports := w.reports ++ [report] } root := by
  obtain ⟨hkind, hmade, happ, failure, hreport⟩ := h
  exact ⟨hkind, hmade, happ, failure, List.mem_append_left _ hreport⟩

theorem Broken.servicesDown (h : Broken w₀ vars w) :
    Broken w₀ vars { w with reports := w.reports ++ [.failure .servicesDown none] } := by
  refine ⟨h.known.report _, h.held.imp id ?_, ?_⟩
  · rintro ⟨root, hroot, hnamed⟩
    exact ⟨root, hroot, hnamed.report _⟩
  · obtain ⟨printed, -, hmissing, hfailures⟩ := h.printed
    refine ⟨printed ++ [.servicesDown], by simp, by simp [hmissing], ?_⟩
    rw [World.failures_failure, hfailures, List.append_assoc]

theorem Back.servicesDown (h : Back w₀ vars w) :
    Broken w₀ vars { w with reports := w.reports ++ [.failure .servicesDown none] } := by
  refine ⟨h.known.report _, .inl h.target, [.servicesDown], by simp, by simp, ?_⟩
  rw [World.failures_failure, h.quiet]

/-- What the trap knows before it removes the directories. -/
def Tried (w₀ : World κ) (vars : ScriptVars) (undone : Bool) (w : World κ) : Prop :=
  if undone then Restored w₀ vars w else Broken w₀ vars w

theorem Tried.safe {undone : Bool} (h : Tried w₀ vars undone w) : Safe w₀ w := by
  cases undone with
  | true => exact Restored.safe h
  | false => exact (Broken.failed h).safe

theorem keeps_tried {back restored : Bool} :
    Keeps w₀
      (fun w => Settled w₀ vars back w ∧
        (restored = true → ∀ service ∈ vars.running, Up service w))
      (if restored then .ret true else report .servicesDown none)
      (fun _ => Tried w₀ vars (back && restored)) (Failed w₀) := by
  cases restored with
  | true =>
      have htried : ∀ w, Settled w₀ vars back w ∧
          (true = true → ∀ service ∈ vars.running, Up service w) →
          Tried w₀ vars (back && true) w := by
        rintro w ⟨hsettled, hup⟩
        cases back with
        | true => exact Restored.mk hsettled (hup rfl)
        | false => exact Stays.broken hsettled
      exact Exits.ret (fun w hw => (htried w hw).safe) htried
  | false =>
      have hnot : (back && false) = false := Bool.and_false back
      rw [hnot]
      refine keeps_report (fun w hw => hw.1.safe) (fun w hw => ?_) fun w hw => Tried.safe hw
      cases back with
      | true => exact Back.servicesDown hw.1
      | false => exact (Stays.broken hw.1).servicesDown

theorem keeps_rollback (hinstalled : (w₀.apps .target).isSome) (exit : ScriptExit) :
    Keeps w₀ (Left w₀ exit) (rollback exit) (fun _ _ => False) (Failed w₀) := by
  refine Exits.assuming (fun w hw => hw.1) fun hstatus => ?_
  refine Exits.consequence (Ongoing w₀ exit.vars) (fun w hw => hw.2) ?_
  have hsafe : ∀ e w, Failed w₀ e w → Safe w₀ w := fun _ _ hw => hw.safe
  have htarget : Keeps w₀ (Ongoing w₀ exit.vars) (restoreTarget exit.vars)
      (Settled w₀ exit.vars) (Failed w₀) :=
    (keeps_restoreTarget hinstalled).weaken (fun _ _ hw => hw) fun _ _ hfalse => hfalse.elim
  refine Exits.bind htarget (fun back => ?_) hsafe
  refine Exits.bind (keeps_restoreServices (fun w hw => hw.safe)
    (fun service hservice w state hw => hw.setService hservice state) hsafe)
    (fun restored => ?_) hsafe
  refine Exits.bind keeps_tried (fun _ => ?_) hsafe
  refine Exits.ite (fun hundone => ?_) fun hbroken => ?_
  · rw [hundone]
    have hclean : Keeps w₀ (Restored w₀ exit.vars) (cleanupFiles exit.vars)
        (fun _ => Restored w₀ exit.vars) (Failed w₀) :=
      (keeps_cleanupFiles (fun w hw => hw.safe) (fun w hw => hw.back.known)
        fun root hroot w app there hw => hw.cleaned hroot app there).weaken
        (fun _ w hw => hw.1) fun _ w hw => hw.2.failed hw.1
    exact Exits.bind hclean (fun _ => Exits.fail (fun w hw => hw.safe)
      fun w hw => hw.failed hstatus) hsafe
  · have hfalse : (back && restored) = false := by simpa using hbroken
    rw [hfalse]
    have hclean : Keeps w₀ (Broken w₀ exit.vars) (cleanup exit.vars.stagingRoot)
        (fun _ => Broken w₀ exit.vars) (Failed w₀) :=
      (keeps_cleanup (fun w hw => hw.failed.safe)
        fun root hroot w app there hw => hw.cleaned hroot app there).weaken
        (fun _ w hw => hw.1) fun status w hw =>
          ⟨hw.1, hw.2.failed.frame, hw.2.failed.outcome⟩
    exact Exits.bind hclean (fun _ => Exits.fail (fun w hw => hw.failed.safe)
      fun w hw => hw.failed) hsafe

/-! ## The script -/

theorem refusal_none {args : ScriptArguments} (h : refusal args w = none) :
    ∀ check ∈ pathChecks w ++ identityChecks args w, check.1 = false := by
  intro check hcheck
  have hfind := List.find?_eq_none.mp (Option.map_eq_none_iff.mp h) check hcheck
  simpa using hfind

theorem installed_of_refusal {args : ScriptArguments} (h : refusal args w = none) :
    (w.apps .target).isSome := by
  have hcheck := refusal_none h ((w.apps .target).isNone,
    "Installed RustAdmin disappeared before authorization.") (by simp [pathChecks])
  simpa [Option.isSome_iff_ne_none] using hcheck

theorem frame_refl (h : w₀.Fresh) : Frame w₀ w₀ :=
  ⟨rfl, fun _ _ => rfl, le_rfl, h, rfl, rfl, rfl⟩

theorem ongoing_start (h : w₀.Fresh) : Ongoing w₀ {} w₀ where
  known :=
    { frame := frame_refl h
      staging := fun _ hroot => by cases hroot
      backup := fun _ hroot => by cases hroot
      only := fun root hle htrue => by
        rw [(h root hle).2] at htrue
        cases htrue
      others := fun _ _ => rfl
      running := .inr ⟨rfl, rfl⟩ }
  held := ⟨rfl, fun _ hroot => by cases hroot⟩
  quiet := rfl

theorem Undone.refused (h : w₀.Fresh) (message : String) :
    Failed w₀ 1 { w₀ with reports := w₀.reports ++ [.error message] } :=
  ⟨Nat.one_ne_zero, (frame_refl h).report _, .inl ⟨rfl, ⟨fun _ hloaded => hloaded, .inl rfl⟩,
    w₀.failures_error message⟩⟩

theorem keeps_privilegedUpdate (args : ScriptArguments) (h : w₀.Fresh) :
    Keeps w₀ (fun w => w = w₀) (privilegedUpdate args) (fun _ => Updated w₀) (Failed w₀) := by
  have hstart : Safe w₀ w₀ := (ongoing_start h).safe
  refine keeps_look (fun w hw => hw ▸ hstart) fun seen => ?_
  refine Exits.assuming (fun w hw => hw.2.symm.trans hw.1) fun hseen => ?_
  subst hseen
  cases hrefusal : refusal args seen with
  | some message =>
      refine keeps_echo (Q := fun w => Failed seen 1 w) (fun w hw => hw.1 ▸ hstart)
        (fun w hw => hw.1 ▸ Undone.refused h message) ?_
      exact Exits.fail (fun w hw => hw.safe) fun w hw => hw
  | none =>
      have htransaction : Keeps seen (fun w => w = seen ∧ w = seen) transaction (Finished seen)
          (Left seen) := by
        refine keeps_transaction.consequence _ ?_
        rintro _ ⟨rfl, -⟩
        exact ⟨ongoing_start h, rfl⟩
      refine htransaction.handled (fun vars => ?_) fun exit => ?_
      · refine (keeps_cleanupFiles (fun w hw => hw.safe) (fun w hw => hw.known)
          fun root hroot w app there hw => hw.cleaned hroot app there).weaken
          (fun _ w hw => ?_) fun status w hw => ?_
        · exact ⟨hw.1.complete, hw.1.services, hw.1.up, hw.1.quiet, hw.2⟩
        · exact ⟨hw.1, hw.2.known.frame,
            .inr (.inr ⟨hw.2.complete, hw.2.services, hw.2.up, hw.2.quiet⟩)⟩
      · exact (keeps_rollback (installed_of_refusal hrefusal) exit).weaken
          (fun _ _ hfalse => hfalse.elim) fun _ _ hw => hw

end RustAdmin.Updater
