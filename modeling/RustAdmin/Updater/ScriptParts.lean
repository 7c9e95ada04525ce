import Mathlib.Data.List.Nodup
import RustAdmin.Updater.ScriptSteps

/-!
# The parts of the update script

The copy of the update, the services that are stopped and started again, and the app that is
replaced: each part keeps what is known of the variables, and leaves to the trap where the
app that was installed is.

Each part has one triple and its own condition behind it: `Staging` and `Prepared` for
the copy, `Ready` once the services are discovered, `Replacing` while the target is in
the backup, and `Complete` for the app in its place.  `keeps_allOf` is the rule for a
list of services, which are stopped and started in turn.
-/

namespace RustAdmin.Updater

open RustAdmin.Support

variable {κ : Type} {w₀ w : World κ} {vars : ScriptVars} {staging backup : TempRoot}

/-! ## The copy -/

theorem Ongoing.setApp_staging (h : Ongoing w₀ vars w) {root : TempRoot}
    (hroot : root.Own w₀ .staging w) (bundle : Option (Bundle κ)) :
    Ongoing w₀ vars (w.setApp (.inRoot root) bundle) where
  known := h.known.setApp_inRoot hroot bundle
  held := by
    have hother : ∀ other, vars.backupRoot = some other →
        (w.setApp (.inRoot root) bundle).apps (.inRoot other) = w.apps (.inRoot other) := by
      intro other hbackup
      exact w.setApp_of_ne bundle
        (Place.inRoot_ne hroot.1 (h.known.backup other hbackup).1).symm
    have hheld := h.held
    unfold Held at hheld ⊢
    split
    · next hmoved =>
        rw [if_pos hmoved] at hheld
        obtain ⟨other, hbackup, happ⟩ := hheld
        exact ⟨other, hbackup, (hother other hbackup).trans happ⟩
    · next hmoved =>
        rw [if_neg hmoved] at hheld
        exact ⟨(w.setApp_of_ne bundle (by simp)).trans hheld.1,
          fun other hbackup => (hother other hbackup).trans (hheld.2 other hbackup)⟩
  quiet := h.quiet

theorem act_ditto (fault : Fault κ) (w : World κ) (root : TempRoot) :
    ∃ bundle, (w.act fault (.ditto root)).2 = w.setApp (.inRoot root) bundle ∧
      ((w.act fault (.ditto root)).1 = true → bundle = w.apps .source) := by
  unfold World.act
  dsimp only
  cases hsource : w.apps .source with
  | none => exact ⟨_, rfl, fun h => by cases h⟩
  | some bundle =>
      dsimp only
      split
      · exact ⟨_, rfl, fun h => by cases h⟩
      · exact ⟨_, rfl, fun _ => rfl⟩

/-- The directory of the copy is there, with or without the copy. -/
structure Staging (w₀ : World κ) (staging : TempRoot) (w : World κ) : Prop where
  ongoing : Ongoing w₀ { stagingRoot := some staging } w
  services : w.services = w₀.services

/-- The update is copied, and the directory of the backup is there. -/
structure Prepared (w₀ : World κ) (staging backup : TempRoot) (w : World κ) : Prop where
  ongoing : Ongoing w₀ { stagingRoot := some staging, backupRoot := some backup } w
  services : w.services = w₀.services
  copied : w.apps (.inRoot staging) = w₀.apps .source

theorem Ongoing.mktemp_staging (h : Ongoing w₀ {} w) (hservices : w.services = w₀.services) :
    Staging w₀ (w.newRoot .staging) (w.mktemp .staging) where
  ongoing :=
    { known := h.known.mktemp .staging (fun root hroot => .inr ⟨rfl, (Option.some.inj hroot).symm⟩)
        (fun root hroot => by cases hroot)
        (fun root hroot => by
          rcases hroot with rfl | hnone | hnone
          · exact .inl rfl
          · cases hnone
          · cases hnone) rfl
      held := ⟨(w.mktemp_of_ne _ (by simp)).trans h.held.1,
        fun root hroot => by cases hroot⟩
      quiet := h.quiet }
  services := hservices

theorem Staging.mktemp_backup (h : Staging w₀ staging w)
    (hcopied : w.apps (.inRoot staging) = w₀.apps .source) :
    Prepared w₀ staging (w.newRoot .backup) (w.mktemp .backup) where
  ongoing :=
    { known := h.ongoing.known.mktemp .backup (fun root hroot => .inl hroot)
        (fun root hroot => .inr ⟨rfl, (Option.some.inj hroot).symm⟩)
        (fun root hroot => by
          rcases hroot with rfl | hold | hnone
          · exact .inr rfl
          · exact .inl hold
          · cases hnone) rfl
      held := by
        refine ⟨(w.mktemp_of_ne _ (by simp)).trans h.ongoing.held.1, ?_⟩
        intro root hroot
        obtain rfl := Option.some.inj hroot
        exact w.setApp_self _ none
      quiet := h.ongoing.quiet }
  services := h.services
  copied := by
    have hkind := (h.ongoing.known.staging staging rfl).1
    exact (w.mktemp_of_ne _ (Place.inRoot_ne hkind rfl)).trans hcopied

theorem keeps_stage :
    Keeps w₀ (Staging w₀ staging)
      (require { stagingRoot := some staging } (.ditto staging)
        "Could not stage the update payload.")
      (fun _ w => Staging w₀ staging w ∧ w.apps (.inRoot staging) = w₀.apps .source)
      (Left w₀) := by
  refine keeps_require ?_ ?_ ?_ fun w hw => hw.1.ongoing.safe
  · exact fun w hw => allowed_of_still (by simp [Command.Still]) hw.ongoing.safe
  · intro fault w hw hok
    obtain ⟨bundle, hset, hcopied⟩ := act_ditto fault w staging
    obtain rfl := hcopied hok
    rw [hset]
    have hown := hw.ongoing.known.staging staging rfl
    refine ⟨⟨hw.ongoing.setApp_staging hown _, hw.services⟩, ?_⟩
    exact (w.setApp_self _ _).trans hw.ongoing.known.frame.source
  · intro fault w hw _
    obtain ⟨bundle, hset, -⟩ := act_ditto fault w staging
    rw [hset]
    exact hw.ongoing.setApp_staging (hw.ongoing.known.staging staging rfl) _

theorem keeps_prepareCopy :
    Keeps w₀ (fun w => Ongoing w₀ {} w ∧ w.services = w₀.services) prepareCopy
      (fun roots => Prepared w₀ roots.1 roots.2) (Left w₀) := by
  refine keeps_mktemp (Q := Staging w₀) (fun w hw => hw.1.safe)
    (fun w hw => hw.1.mktemp_staging hw.2) ?_ fun staging => ?_
  · exact Exits.fail (fun w hw => hw.1.safe) fun w hw => ⟨Nat.one_ne_zero, hw.1⟩
  refine Exits.bind keeps_stage (fun _ => ?_) fun e w hw => hw.2.safe
  refine keeps_look (fun w hw => hw.1.ongoing.safe) fun seen => Exits.ite (fun _ => ?_) fun _ => ?_
  · exact (keeps_die _ _).consequence _ fun w hw => hw.1.1.ongoing
  · refine keeps_mktemp (Q := fun backup => Prepared w₀ staging backup)
      (fun w hw => hw.1.1.ongoing.safe) (fun w hw => hw.1.1.mktemp_backup hw.1.2) ?_
      fun backup => ?_
    · exact Exits.fail (fun w hw => hw.1.1.ongoing.safe)
        fun w hw => ⟨Nat.one_ne_zero, hw.1.1.ongoing⟩
    · exact Exits.ret (fun w hw => hw.ongoing.safe) fun w hw => hw

/-! ## The services -/

/-- The state is discovered. -/
structure Ready (w₀ : World κ) (vars : ScriptVars) (staging backup : TempRoot) (w : World κ) :
    Prop where
  ongoing : Ongoing w₀ vars w
  running : vars.running = (discovered w₀ {}).running
  stagingRoot : vars.stagingRoot = some staging
  backupRoot : vars.backupRoot = some backup
  unmoved : vars.targetMoved = false
  copied : w.apps (.inRoot staging) = w₀.apps .source

theorem Prepared.ready (h : Prepared w₀ staging backup w) :
    Ready w₀ (discovered w { stagingRoot := some staging, backupRoot := some backup }) staging
      backup w := by
  have hframe := h.ongoing.known.frame
  have hrunning :
      (discovered w { stagingRoot := some staging, backupRoot := some backup }).running =
        (discovered w₀ {}).running := by
    unfold discovered ScriptVars.running
    rw [h.services, hframe.daemonPlist, hframe.agentPlist, hframe.uid]
  refine ⟨⟨⟨hframe, h.ongoing.known.staging, h.ongoing.known.backup, h.ongoing.known.only, ?_,
    .inl hrunning⟩, h.ongoing.held, h.ongoing.quiet⟩, hrunning, rfl, rfl, rfl, h.copied⟩
  exact fun service _ => by rw [h.services]

theorem nodup_running (vars : ScriptVars) : vars.running.Nodup := by
  unfold ScriptVars.running
  cases vars.agentDomain <;> split <;> simp

/-- An action on a service that ran. -/
def Action.On (service : Service) (action : Action) : Prop :=
  action = .bootout service ∨ action = .unload service ∨ action = .bootstrap service ∨
    action = .load service ∨ action = .kickstart service

theorem act_on {service : Service} {action : Action} (h : action.On service) (fault : Fault κ)
    (w : World κ) : ∃ state, (w.act fault action).2 = w.setService service state := by
  rcases h with rfl | rfl | rfl | rfl | rfl <;> unfold World.act <;> dsimp only <;> split <;>
    exact ⟨_, rfl⟩

/-- A service runs. -/
def Up (service : Service) (w : World κ) : Prop := w.services service = ⟨true, true⟩

theorem up_kickstart {fault : Fault κ} {service : Service}
    (h : (w.act fault (.kickstart service)).1 = true) :
    Up service (w.act fault (.kickstart service)).2 := by
  unfold World.act at h ⊢
  dsimp only at h ⊢
  split at h
  · cases h
  · next hok =>
      rw [if_neg hok]
      have hloaded : (w.services service).loaded = true := by
        simp only [Bool.or_eq_true, not_or, Bool.not_eq_true', Bool.not_eq_false] at hok
        exact hok.2
      simp [Up, World.setService, hloaded]

/-- What is done of a list of services, which are taken in turn. -/
theorem keeps_allOf {ε : Type} (P : List Service → World κ → Prop)
    (program : Service → Script κ ε Bool) {Exit : ε → World κ → Prop}
    (services done : List Service) (hsafe : ∀ done w, P done w → Safe w₀ w)
    (hstep : ∀ done, ∀ service ∈ services, service ∉ done →
      Keeps w₀ (P done) (program service) (fun ok => P (if ok then service :: done else done)) Exit)
    (hexit : ∀ e w, Exit e w → Safe w₀ w) (hnodup : services.Nodup)
    (hnew : ∀ service ∈ services, service ∉ done) :
    Keeps w₀ (P done) (allOf program services)
      (fun ok w => ∃ done', P done' w ∧ done ⊆ done' ∧ (ok = true → services ⊆ done')) Exit := by
  induction services generalizing done with
  | nil => exact Exits.ret (hsafe done) fun w hw => ⟨done, hw, fun _ h => h, fun _ => by simp⟩
  | cons service services ih =>
      obtain ⟨hservice, hrest⟩ := List.nodup_cons.mp hnodup
      refine Exits.bind (hstep done service List.mem_cons_self (hnew service List.mem_cons_self))
        (fun ok => ?_) hexit
      have hnew' : ∀ other ∈ services, other ∉ (if ok then service :: done else done) := by
        intro other hother
        have hne : other ≠ service := fun heq => hservice (heq ▸ hother)
        have hold := hnew other (List.mem_cons_of_mem _ hother)
        split
        · simp [hne, hold]
        · exact hold
      refine Exits.bind (ih _ (fun done' other hother => hstep done' other
        (List.mem_cons_of_mem _ hother)) hrest hnew') (fun others => ?_) hexit
      refine Exits.ret ?_ ?_
      · rintro w ⟨done', hw, -, -⟩
        exact hsafe done' w hw
      · rintro w ⟨done', hw, hsub, hall⟩
        refine ⟨done', hw, fun other hother => hsub ?_, fun hok => ?_⟩
        · split
          · exact List.mem_cons_of_mem _ hother
          · exact hother
        · obtain ⟨rfl, rfl⟩ := Bool.and_eq_true_iff.mp hok
          intro other hother
          rcases List.mem_cons.mp hother with rfl | hother
          · exact hsub (by simp)
          · exact hall rfl hother

/-- An action on a service keeps what any change to it keeps. -/
theorem keeps_act {ε : Type} {Exit : ε → World κ → Prop} {P : World κ → Prop} {service : Service}
    {action : Action} (hsafe : ∀ w, P w → Safe w₀ w) (hon : action.On service)
    (hkeep : ∀ w state, P w → P (w.setService service state)) :
    Keeps w₀ P (perform action) (fun _ => P) Exit := by
  refine Exits.call hsafe (fun w hw => allowed_of_still ?_ (hsafe w hw)) fun fault w hw => ?_
  · rintro src dst ⟨⟩
    simp [Action.On] at hon
  · obtain ⟨state, hset⟩ := act_on hon fault w
    refine Exits.ret ?_ ?_
    · rintro _ rfl
      exact hsafe _ (hset ▸ hkeep w state hw)
    · rintro _ rfl
      exact hset ▸ hkeep w state hw

theorem keeps_either {ε : Type} {Exit : ε → World κ → Prop} {P : World κ → Prop}
    {service : Service} {first second : Action} (hsafe : ∀ w, P w → Safe w₀ w)
    (hfirst : first.On service) (hsecond : second.On service)
    (hkeep : ∀ w state, P w → P (w.setService service state))
    (hexit : ∀ e w, Exit e w → Safe w₀ w) :
    Keeps w₀ P (either first second) (fun _ => P) Exit := by
  refine Exits.bind (keeps_act hsafe hfirst hkeep) (fun ok => Exits.ite (fun _ => ?_) fun _ => ?_)
    hexit
  · exact Exits.ret hsafe fun w hw => hw
  · exact keeps_act hsafe hsecond hkeep

theorem Ready.setService (h : Ready w₀ vars staging backup w) {service : Service}
    (hservice : service ∈ vars.running) (state : ServiceState) :
    Ready w₀ vars staging backup (w.setService service state) :=
  ⟨h.ongoing.setService hservice state, h.running, h.stagingRoot, h.backupRoot,
    h.unmoved, h.copied⟩

theorem left_safe {exit : ScriptExit} (h : Left w₀ exit w) : Safe w₀ w := h.2.safe

theorem keeps_stopServices :
    Keeps w₀ (Ready w₀ vars staging backup) (stopServices vars)
      (fun _ => Ready w₀ vars staging backup) (Left w₀) := by
  have hsafe : ∀ w, Ready w₀ vars staging backup w → Safe w₀ w := fun w hw => hw.ongoing.safe
  refine Exits.bind (keeps_allOf (fun _ => Ready w₀ vars staging backup) stopService
    vars.running.reverse [] (fun _ => hsafe) ?_ (fun _ _ => left_safe)
    (List.nodup_reverse.mpr (nodup_running vars)) fun _ _ => List.not_mem_nil) (fun ok => ?_)
    fun _ _ => left_safe
  · intro done service hservice _
    refine keeps_either hsafe (.inl rfl) (.inr (.inl rfl)) (fun w state hw => ?_)
      fun _ _ => left_safe
    exact hw.setService (List.mem_reverse.mp hservice) state
  · refine Exits.consequence (Ready w₀ vars staging backup) ?_
      (Exits.ite (fun _ => ?_) fun _ => ?_)
    · rintro w ⟨-, hw, -⟩
      exact hw
    · exact Exits.ret hsafe fun w hw => hw
    · exact (keeps_die vars _).consequence _ fun w hw => hw.ongoing

/-- Where the update has got to `Base`, with these services started again. -/
def StartedAgain (Base : World κ → Prop) (done : List Service) (w : World κ) : Prop :=
  Base w ∧ ∀ service ∈ done, Up service w

section

variable {ε : Type} {Exit : ε → World κ → Prop} {Base : World κ → Prop}

theorem StartedAgain.setService
    (hkeep : ∀ service ∈ vars.running, ∀ w state, Base w → Base (w.setService service state))
    {done : List Service} (h : StartedAgain Base done w) {service : Service}
    (hservice : service ∈ vars.running) (hnew : service ∉ done) (state : ServiceState) :
    StartedAgain Base done (w.setService service state) := by
  refine ⟨hkeep service hservice w state h.1, fun other hother => ?_⟩
  have hne : other ≠ service := fun heq => hnew (heq ▸ hother)
  exact (Function.update_of_ne hne ..).trans (h.2 other hother)

theorem keeps_restoreService (hsafe : ∀ w, Base w → Safe w₀ w)
    (hkeep : ∀ service ∈ vars.running, ∀ w state, Base w → Base (w.setService service state))
    (hexit : ∀ e w, Exit e w → Safe w₀ w) {done : List Service} {service : Service}
    (hservice : service ∈ vars.running) (hnew : service ∉ done) :
    Keeps w₀ (StartedAgain Base done) (restoreService service)
      (fun ok => StartedAgain Base (if ok then service :: done else done)) Exit := by
  have hstep : ∀ w state, StartedAgain Base done w →
      StartedAgain Base done (w.setService service state) :=
    fun w state hw => hw.setService hkeep hservice hnew state
  refine Exits.bind (keeps_either (fun w hw => hsafe w hw.1) (.inr (.inr (.inl rfl)))
    (.inr (.inr (.inr (.inl rfl)))) hstep hexit) (fun loaded => ?_) hexit
  refine keeps_perform (Q := fun ok => StartedAgain Base (if ok then service :: done else done))
    ?_ ?_ fun started => ?_
  · exact fun w hw => allowed_of_still (by simp [Command.Still]) (hsafe w hw.1)
  · intro fault w hw
    obtain ⟨state, hset⟩ := act_on (.inr (.inr (.inr (.inr rfl)))) fault w
    have hkept := hset ▸ hstep w state hw
    split
    · next hok =>
        refine ⟨hkept.1, fun other hother => ?_⟩
        rcases List.mem_cons.mp hother with rfl | hother
        · exact up_kickstart hok
        · exact hkept.2 other hother
    · exact hkept
  · refine Exits.ret (fun w hw => hsafe w hw.1) fun w hw => ⟨hw.1, fun other hother => ?_⟩
    apply hw.2
    cases started <;> cases loaded <;> simp_all

/-- The services are started again where the update has got to `Base`. -/
theorem keeps_restoreServices (hsafe : ∀ w, Base w → Safe w₀ w)
    (hkeep : ∀ service ∈ vars.running, ∀ w state, Base w → Base (w.setService service state))
    (hexit : ∀ e w, Exit e w → Safe w₀ w) :
    Keeps w₀ Base (restoreServices vars)
      (fun ok w => Base w ∧ (ok = true → ∀ service ∈ vars.running, Up service w)) Exit := by
  have hall := keeps_allOf (StartedAgain Base) restoreService vars.running []
    (fun _ w hw => hsafe w hw.1)
    (fun _ _ hservice hnew => keeps_restoreService hsafe hkeep hexit hservice hnew)
    hexit (nodup_running vars) fun _ _ => List.not_mem_nil
  refine (hall.weaken (fun ok w => ?_) fun _ _ hw => hw).consequence (StartedAgain Base []) ?_
  · rintro ⟨done, hw, -, hdone⟩
    exact ⟨hw.1, fun hok service hservice => hw.2 service (hdone hok hservice)⟩
  · exact fun w hw => ⟨hw, fun _ hnone => by cases hnone⟩

end

/-! ## The app -/

theorem mv_cases (fault : Fault κ) {src dst : Place} (hdst : w.apps dst = none) :
    (∃ bundle, w.apps src = some bundle ∧
      w.mv fault src dst = (true, (w.setApp src none).setApp dst (some bundle))) ∨
    w.mv fault src dst = (false, w) ∨
    renames src dst = false ∧
      ∃ rest left, w.mv fault src dst = (false, (w.setApp src rest).setApp dst left) := by
  unfold World.mv
  cases hsrc : w.apps src with
  | none => exact .inr (.inl rfl)
  | some bundle =>
      dsimp only
      rw [if_neg (by simp [hdst])]
      split
      · exact .inl ⟨bundle, rfl, rfl⟩
      · split
        · exact .inr (.inl rfl)
        · next hrenames => exact .inr (.inr ⟨by simpa using hrenames, _, _, rfl⟩)

theorem Ongoing.setApp_target (h : Ongoing w₀ vars w) (hmoved : vars.targetMoved = true)
    (bundle : Option (Bundle κ)) : Ongoing w₀ vars (w.setApp .target bundle) where
  known := h.known.setApp_target bundle
  held := by
    have hheld := h.held
    unfold Held at hheld ⊢
    rw [if_pos hmoved] at hheld ⊢
    obtain ⟨root, hroot, happ⟩ := hheld
    exact ⟨root, hroot, (w.setApp_of_ne bundle (by simp)).trans happ⟩
  quiet := h.quiet

/-- The target is moved to the backup. -/
structure Replacing (w₀ : World κ) (vars : ScriptVars) (staging : TempRoot) (w : World κ) :
    Prop where
  ongoing : Ongoing w₀ vars w
  running : vars.running = (discovered w₀ {}).running
  stagingRoot : vars.stagingRoot = some staging
  moved : vars.targetMoved = true

theorem Replacing.setApp_target (h : Replacing w₀ vars staging w) (bundle : Option (Bundle κ)) :
    Replacing w₀ vars staging (w.setApp .target bundle) :=
  ⟨h.ongoing.setApp_target h.moved bundle, h.running, h.stagingRoot, h.moved⟩

theorem Replacing.setApp_staging (h : Replacing w₀ vars staging w) (bundle : Option (Bundle κ)) :
    Replacing w₀ vars staging (w.setApp (.inRoot staging) bundle) :=
  ⟨h.ongoing.setApp_staging (h.ongoing.known.staging staging h.stagingRoot) bundle, h.running,
    h.stagingRoot, h.moved⟩

theorem Replacing.setService (h : Replacing w₀ vars staging w) {service : Service}
    (hservice : service ∈ vars.running) (state : ServiceState) :
    Replacing w₀ vars staging (w.setService service state) :=
  ⟨h.ongoing.setService hservice state, h.running, h.stagingRoot, h.moved⟩

theorem Ready.own_backup (h : Ready w₀ vars staging backup w) : backup.Own w₀ .backup w :=
  h.ongoing.known.backup backup h.backupRoot

theorem Ready.held (h : Ready w₀ vars staging backup w) :
    w.apps .target = w₀.apps .target ∧ w.apps (.inRoot backup) = none := by
  have hheld := h.ongoing.held
  rw [Held, if_neg (by simp [h.unmoved])] at hheld
  exact ⟨hheld.1, hheld.2 backup h.backupRoot⟩

theorem Ready.staging_ne (h : Ready w₀ vars staging backup w) :
    Place.inRoot staging ≠ .inRoot backup :=
  Place.inRoot_ne (h.ongoing.known.staging staging h.stagingRoot).1 h.own_backup.1

theorem Ready.replacing (h : Ready w₀ vars staging backup w) {bundle : Bundle κ}
    (hbundle : w.apps .target = some bundle) :
    Replacing w₀ { vars with targetMoved := true } staging
      ((w.setApp .target none).setApp (.inRoot backup) (some bundle)) where
  ongoing :=
    { known := by
        have hown : backup.Own w₀ .backup (w.setApp .target none) := h.own_backup
        have hknown := (h.ongoing.known.setApp_target none).setApp_inRoot hown (some bundle)
        exact ⟨hknown.frame, hknown.staging, hknown.backup, hknown.only, hknown.others,
          hknown.running⟩
      held := ⟨backup, h.backupRoot,
        (World.setApp_self _ _ _).trans (hbundle.symm.trans h.held.1)⟩
      quiet := h.ongoing.quiet }
  running := h.running
  stagingRoot := h.stagingRoot
  moved := rfl

theorem Ready.kill (h : Ready w₀ vars staging backup w) :
    Ready w₀ vars staging backup { w with
      services := fun service => { w.services service with started := false } } where
  ongoing :=
    { known := ⟨⟨h.ongoing.known.frame.source, h.ongoing.known.frame.earlier,
        h.ongoing.known.frame.made, h.ongoing.known.frame.fresh,
        h.ongoing.known.frame.daemonPlist, h.ongoing.known.frame.agentPlist,
        h.ongoing.known.frame.uid⟩, h.ongoing.known.staging, h.ongoing.known.backup,
        h.ongoing.known.only, h.ongoing.known.others, .inl h.running⟩
      held := h.ongoing.held
      quiet := h.ongoing.quiet }
  running := h.running
  stagingRoot := h.stagingRoot
  backupRoot := h.backupRoot
  unmoved := h.unmoved
  copied := h.copied

/-- The update is complete, and its files belong to the user. -/
def Complete (w₀ w : World κ) : Prop :=
  ∃ bundle update, w.apps .target = some bundle ∧ w₀.apps .source = some update ∧
    bundle.payload = update.payload ∧ bundle.owned = true

theorem Complete.installed (h : Complete w₀ w) : Installed w₀ w := by
  obtain ⟨bundle, update, htarget, hsource, hpayload, -⟩ := h
  exact ⟨bundle, update, htarget, hsource, hpayload⟩

theorem act_chown (fault : Fault κ) {bundle : Bundle κ} (h : w.apps .target = some bundle) :
    ∃ owned, (w.act fault .chown).2 = w.setApp .target (some { bundle with owned }) ∧
      ((w.act fault .chown).1 = true → owned = true) := by
  unfold World.act
  dsimp only
  rw [h]
  dsimp only
  split
  · exact ⟨_, rfl, fun hok => by cases hok⟩
  · exact ⟨_, rfl, fun _ => rfl⟩

theorem complete_xattr (fault : Fault κ) (h : Complete w₀ w) :
    ∃ bundle, (w.act fault .xattr).2 = w.setApp .target (some bundle) ∧
      Complete w₀ (w.setApp .target (some bundle)) := by
  obtain ⟨bundle, update, htarget, hsource, hpayload, howned⟩ := h
  unfold World.act
  dsimp only
  rw [htarget]
  exact ⟨_, rfl, _, update, w.setApp_self _ _, hsource, hpayload, howned⟩

theorem keeps_preserve :
    Keeps w₀ (Ready w₀ vars staging backup)
      (require vars (.mv .target (.inRoot backup))
        "Could not preserve the installed RustAdmin app.")
      (fun _ w => Replacing w₀ { vars with targetMoved := true } staging w ∧
        w.apps .target = none ∧ w.apps (.inRoot staging) = w₀.apps .source) (Left w₀) := by
  refine keeps_require ?_ ?_ ?_ fun w hw => hw.1.ongoing.safe
  · exact fun w hw => allowed_mv hw.ongoing.safe hw.held.2
  · intro fault w hw hok
    rcases mv_cases fault hw.held.2 with ⟨bundle, hbundle, heq⟩ | heq | ⟨-, rest, left, heq⟩
    · change Replacing w₀ _ _ (w.mv fault .target (.inRoot backup)).2 ∧ _
      rw [World.act, heq]
      refine ⟨hw.replacing hbundle, ?_, ?_⟩
      · exact (World.setApp_of_ne _ _ (by simp)).trans (w.setApp_self _ _)
      · exact ((World.setApp_of_ne _ _ hw.staging_ne).trans
          (w.setApp_of_ne _ (by simp))).trans hw.copied
    · rw [World.act, heq] at hok
      cases hok
    · rw [World.act, heq] at hok
      cases hok
  · intro fault w hw hfailed
    rcases mv_cases fault hw.held.2 with ⟨bundle, hbundle, heq⟩ | heq | ⟨hrenames, -⟩
    · rw [World.act, heq] at hfailed
      cases hfailed
    · rw [World.act, heq]
      exact hw.ongoing
    · have hkind := hw.own_backup.1
      simp [renames, hkind] at hrenames

theorem keeps_install :
    Keeps w₀ (fun w => Replacing w₀ vars staging w ∧ w.apps .target = none ∧
        w.apps (.inRoot staging) = w₀.apps .source)
      (require vars (.mv (.inRoot staging) .target)
        "Could not install the staged RustAdmin app.")
      (fun _ w => Replacing w₀ vars staging w ∧ Installed w₀ w) (Left w₀) := by
  have hne : Place.target ≠ .inRoot staging := by simp
  refine keeps_require ?_ ?_ ?_ fun w hw => hw.1.ongoing.safe
  · exact fun w hw => allowed_mv hw.1.ongoing.safe hw.2.1
  · intro fault w hw hok
    obtain ⟨hreplacing, htarget, hcopied⟩ := hw
    rcases mv_cases fault htarget with ⟨bundle, hbundle, heq⟩ | heq | ⟨-, rest, left, heq⟩
    · rw [World.act, heq]
      refine ⟨(hreplacing.setApp_staging none).setApp_target (some bundle), bundle, bundle,
        World.setApp_self _ _ _, ?_, rfl⟩
      exact hcopied.symm.trans hbundle
    · rw [World.act, heq] at hok
      cases hok
    · rw [World.act, heq] at hok
      cases hok
  · intro fault w hw hfailed
    obtain ⟨hreplacing, htarget, hcopied⟩ := hw
    rcases mv_cases fault htarget with ⟨bundle, hbundle, heq⟩ | heq | ⟨-, rest, left, heq⟩
    · rw [World.act, heq] at hfailed
      cases hfailed
    · rw [World.act, heq]
      exact hreplacing.ongoing
    · rw [World.act, heq]
      exact ((hreplacing.setApp_staging rest).setApp_target left).ongoing

theorem keeps_own :
    Keeps w₀ (fun w => Replacing w₀ vars staging w ∧ Installed w₀ w)
      (require vars .chown "Could not set ownership on the installed RustAdmin app.")
      (fun _ w => Replacing w₀ vars staging w ∧ Complete w₀ w) (Left w₀) := by
  refine keeps_require ?_ ?_ ?_ fun w hw => hw.1.ongoing.safe
  · exact fun w hw => allowed_of_still (by simp [Command.Still]) hw.1.ongoing.safe
  · intro fault w hw hok
    obtain ⟨hreplacing, bundle, update, htarget, hsource, hpayload⟩ := hw
    obtain ⟨owned, hset, howned⟩ := act_chown fault htarget
    rw [hset]
    exact ⟨hreplacing.setApp_target _, _, update, w.setApp_self _ _, hsource, hpayload, howned hok⟩
  · intro fault w hw _
    obtain ⟨hreplacing, bundle, update, htarget, -⟩ := hw
    obtain ⟨owned, hset, -⟩ := act_chown fault htarget
    rw [hset]
    exact (hreplacing.setApp_target _).ongoing

theorem keeps_replaceApp :
    Keeps w₀ (Ready w₀ vars staging backup) (replaceApp vars staging backup)
      (fun vars w => Replacing w₀ vars staging w ∧ Complete w₀ w) (Left w₀) := by
  refine Exits.bind keeps_preserve (fun _ => ?_) fun _ _ => left_safe
  refine Exits.bind keeps_install (fun _ => ?_) fun _ _ => left_safe
  refine Exits.bind keeps_own (fun _ => ?_) fun _ _ => left_safe
  refine keeps_perform (Q := fun _ w =>
    Replacing w₀ { vars with targetMoved := true } staging w ∧ Complete w₀ w) ?_ ?_ fun _ => ?_
  · exact fun w hw => allowed_of_still (by simp [Command.Still]) hw.1.ongoing.safe
  · intro fault w hw
    obtain ⟨bundle, hset, hcomplete⟩ := complete_xattr fault hw.2
    rw [hset]
    exact ⟨hw.1.setApp_target _, hcomplete⟩
  · exact Exits.ret (fun w hw => hw.1.ongoing.safe) fun w hw => hw

end RustAdmin.Updater
