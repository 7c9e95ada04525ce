import RustAdmin.Updater.ScriptParts

/-!
# How the update script ends

It returns only with the update complete and the services that ran running.  Where it fails,
the app that was installed is back, or a failed rollback was reported and the app is in the
backup, or only the removal of the script's own directories has failed.

`keeps_transaction` chains the triples of the parts up to `Finished`.  The removal of
the directories comes after everything else, on every way out of the script, so
`keeps_cleanup` is proved for any condition that does not depend on them.
-/

namespace RustAdmin.Updater

open RustAdmin.Support

variable {κ : Type} {w₀ w : World κ} {vars : ScriptVars}

/-- What becomes of the services: none that was loaded is unloaded, and those that the script
has found running run. -/
def ServicesKept (w₀ w : World κ) : Prop :=
  (∀ service, (w₀.services service).loaded = true → (w.services service).loaded = true) ∧
    (w.services = w₀.services ∨ ∀ service ∈ (discovered w₀ {}).running, Up service w)

theorem Known.servicesKept (h : Known w₀ vars w) (hup : ∀ service ∈ vars.running, Up service w) :
    ServicesKept w₀ w := by
  constructor
  · intro service hloaded
    by_cases hservice : service ∈ vars.running
    · rw [hup service hservice]
    · rw [h.others service hservice, hloaded]
  · rcases h.running with hrunning | ⟨-, hsame⟩
    · exact .inr (hrunning ▸ hup)
    · exact .inl hsame

/-! ## The transaction -/

/-- All is done but the removal of the directories. -/
structure Finished (w₀ : World κ) (vars : ScriptVars) (w : World κ) : Prop where
  known : Known w₀ vars w
  complete : Complete w₀ w
  quiet : w.failures = w₀.failures
  services : ServicesKept w₀ w
  up : ∀ service ∈ (discovered w₀ {}).running, Up service w

theorem Finished.safe (h : Finished w₀ vars w) : Safe w₀ w :=
  ⟨h.known.frame, .inr (.inr h.complete.installed)⟩

theorem keeps_replacement {staging backup : TempRoot} :
    Keeps w₀ (Ready w₀ vars staging backup)
      ((stopServices vars).bind fun _ => (perform .kill).bind fun _ =>
        (replaceApp vars staging backup).bind fun vars =>
          (restoreServices vars).bind fun restored =>
            if restored then .ret vars
            else die vars "Could not restore one or more previously running RustAdmin services.")
      (Finished w₀) (Left w₀) := by
  refine Exits.bind keeps_stopServices (fun _ => ?_) fun _ _ => left_safe
  refine keeps_perform (Q := fun _ => Ready w₀ vars staging backup) ?_ (fun _ w hw => hw.kill)
    fun _ => ?_
  · exact fun w hw => allowed_of_still (by simp [Command.Still]) hw.ongoing.safe
  refine Exits.bind keeps_replaceApp (fun vars => ?_) fun _ _ => left_safe
  refine Exits.bind (keeps_restoreServices (fun w hw => hw.1.ongoing.safe) ?_
    fun _ _ => left_safe) (fun restored => ?_) fun _ _ => left_safe
  · intro service hservice w state hw
    exact ⟨hw.1.setService hservice state, hw.2⟩
  refine Exits.ite (fun hrestored => ?_) fun _ => ?_
  · refine Exits.ret (fun w hw => hw.1.1.ongoing.safe) fun w hw => ?_
    obtain ⟨⟨hreplacing, hcomplete⟩, hup⟩ := hw
    exact ⟨hreplacing.ongoing.known, hcomplete, hreplacing.ongoing.quiet,
      hreplacing.ongoing.known.servicesKept (hup hrestored), hreplacing.running ▸ hup hrestored⟩
  · exact (keeps_die vars _).consequence _ fun w hw => hw.1.1.ongoing

theorem keeps_transaction :
    Keeps w₀ (fun w => Ongoing w₀ {} w ∧ w.services = w₀.services) transaction (Finished w₀)
      (Left w₀) := by
  refine Exits.bind keeps_prepareCopy ?_ fun _ _ => left_safe
  rintro ⟨staging, backup⟩
  refine keeps_look (fun w hw => hw.ongoing.safe) fun seen => ?_
  refine keeps_replacement.consequence _ ?_
  rintro _ ⟨hw, rfl⟩
  exact hw.ready

/-! ## The directories -/

/-- The world after a removal of a directory, which may have failed. -/
def World.cleaned (w : World κ) (root : TempRoot) (app : Option (Bundle κ)) (there : Bool) :
    World κ :=
  { w.setApp (.inRoot root) app with roots := Function.update w.roots root there }

@[simp] theorem World.cleaned_target (w : World κ) (root : TempRoot) (app : Option (Bundle κ))
    (there : Bool) : (w.cleaned root app there).apps .target = w.apps .target := by
  have hne : Place.target ≠ .inRoot root := by simp
  exact w.setApp_of_ne app hne

theorem act_rmRoot (fault : Fault κ) (w : World κ) (root : TempRoot) :
    ∃ app there, (w.act fault (.rmRoot root)).2 = w.cleaned root app there ∧
      ((w.act fault (.rmRoot root)).1 = true → there = false) := by
  unfold World.act
  dsimp only
  split
  · exact ⟨_, _, rfl, fun hok => by cases hok⟩
  · exact ⟨_, _, rfl, fun _ => rfl⟩

theorem Known.own (h : Known w₀ vars w) {root : TempRoot}
    (hroot : vars.stagingRoot = some root ∨ vars.backupRoot = some root) :
    ∃ kind, root.Own w₀ kind w := by
  rcases hroot with hroot | hroot
  · exact ⟨_, h.staging root hroot⟩
  · exact ⟨_, h.backup root hroot⟩

theorem Known.cleaned (h : Known w₀ vars w) {root : TempRoot}
    (hroot : vars.stagingRoot = some root ∨ vars.backupRoot = some root)
    (app : Option (Bundle κ)) (there : Bool) : Known w₀ vars (w.cleaned root app there) := by
  obtain ⟨kind, hown⟩ := h.own hroot
  have hframe := h.frame.setApp_inRoot hown app
  refine ⟨⟨hframe.source, hframe.earlier, hframe.made, fun other hother => ?_, hframe.daemonPlist,
    hframe.agentPlist, hframe.uid⟩, h.staging, h.backup, fun other hle htrue => ?_, h.others,
    h.running⟩
  · refine ⟨(hframe.fresh other hother).1, ?_⟩
    have hne : other ≠ root := by
      rintro rfl
      exact absurd hown.2.2 (not_lt.mpr hother)
    exact (Function.update_of_ne hne ..).trans (h.frame.fresh other hother).2
  · by_cases heq : other = root
    · exact heq ▸ hroot
    · have hroots : (w.cleaned root app there).roots other = w.roots other :=
        Function.update_of_ne heq ..
      exact h.only other hle (hroots ▸ htrue)

/-- What does not depend on the directories is kept by their removal. -/
theorem keeps_cleanup {root : Option TempRoot} {J : World κ → Prop}
    (hsafe : ∀ w, J w → Safe w₀ w)
    (hkeep : ∀ directory, root = some directory → ∀ w app there, J w →
      J (w.cleaned directory app there)) :
    Keeps w₀ J (cleanup root)
      (fun _ w => J w ∧ ∀ directory, root = some directory → w.roots directory = false)
      (fun status w => status ≠ 0 ∧ J w) := by
  cases root with
  | none => exact Exits.ret hsafe fun w hw => ⟨hw, fun _ hnone => by cases hnone⟩
  | some root =>
      refine keeps_look hsafe fun seen => Exits.ite (fun _ => ?_) fun habsent => ?_
      · refine keeps_perform (Q := fun ok w => J w ∧ (ok = true → w.roots root = false)) ?_ ?_
          fun ok => Exits.ite (fun hok => ?_) fun _ => ?_
        · exact fun w hw => allowed_of_still (by simp [Command.Still]) (hsafe w hw.1)
        · intro fault w hw
          obtain ⟨app, there, hset, hgone⟩ := act_rmRoot fault w root
          rw [hset]
          exact ⟨hkeep root rfl w app there hw.1,
            fun hok => (Function.update_self ..).trans (hgone hok)⟩
        · refine Exits.ret (fun w hw => hsafe w hw.1) fun w hw => ⟨hw.1, fun directory heq => ?_⟩
          obtain rfl := Option.some.inj heq
          exact hw.2 hok
        · exact Exits.fail (fun w hw => hsafe w hw.1) fun w hw => ⟨Nat.one_ne_zero, hw.1⟩
      · refine Exits.ret (fun w hw => hsafe w hw.1) ?_
        rintro w ⟨hw, rfl⟩
        refine ⟨hw, fun directory heq => ?_⟩
        obtain rfl := Option.some.inj heq
        simpa using habsent

theorem keeps_cleanupFiles {J : World κ → Prop} (hsafe : ∀ w, J w → Safe w₀ w)
    (hknown : ∀ w, J w → Known w₀ vars w)
    (hkeep : ∀ root, vars.stagingRoot = some root ∨ vars.backupRoot = some root →
      ∀ w app there, J w → J (w.cleaned root app there)) :
    Keeps w₀ J (cleanupFiles vars)
      (fun _ w => J w ∧ ∀ root : TempRoot, w₀.made ≤ root.index → w.roots root = false)
      (fun status w => status ≠ 0 ∧ J w) := by
  refine Exits.bind (keeps_cleanup hsafe fun root hroot => hkeep root (.inl hroot))
    (fun _ => ?_) fun _ w hw => hsafe w hw.2
  have hkept : ∀ root, vars.backupRoot = some root → ∀ w app there,
      (J w ∧ ∀ root, vars.stagingRoot = some root → w.roots root = false) →
      J (w.cleaned root app there) ∧ ∀ other, vars.stagingRoot = some other →
        (w.cleaned root app there).roots other = false := by
    intro root hroot w app there hw
    refine ⟨hkeep root (.inr hroot) w app there hw.1, fun staging hstaging => ?_⟩
    have hne : staging ≠ root :=
      TempRoot.ne_of_kind ((hknown w hw.1).staging staging hstaging).1
        ((hknown w hw.1).backup root hroot).1
    exact (Function.update_of_ne hne ..).trans (hw.2 staging hstaging)
  refine (keeps_cleanup (fun w hw => hsafe w hw.1) hkept).weaken
    (fun _ w hw => ⟨hw.1.1, fun root hroot => ?_⟩) fun _ w hw => ⟨hw.1, hw.2.1⟩
  by_contra htrue
  rcases (hknown w hw.1.1).only root hroot (by simpa using htrue) with hstaging | hbackup
  · exact htrue (hw.1.2 root hstaging)
  · exact htrue (hw.2 root hbackup)

theorem Finished.cleaned (h : Finished w₀ vars w) {root : TempRoot}
    (hroot : vars.stagingRoot = some root ∨ vars.backupRoot = some root)
    (app : Option (Bundle κ)) (there : Bool) : Finished w₀ vars (w.cleaned root app there) where
  known := h.known.cleaned hroot app there
  complete := by
    obtain ⟨bundle, update, htarget, hrest⟩ := h.complete
    exact ⟨bundle, update, (w.cleaned_target root app there).trans htarget, hrest⟩
  quiet := h.quiet
  services := h.services
  up := h.up

end RustAdmin.Updater
