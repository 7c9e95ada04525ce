import RustAdmin.Updater.UpdateOutcome

/-!
# Attempts to update

An attempt may be cut at any command, and may be made again on what another has left.  Over
any attempts with one source, the app that was installed is in its place or whole in a backup
until the update is in its place; from then on every attempt is refused.

`privilegedUpdate_outcome` is the triple of the script, read as a statement on one
run.  A run that is cut leaves the app whole (`Safe`), and `Safe.attempt` adds one
more run to that: by cases on where the app was left, it begins as the first one did,
leaves alone a directory that is not its own, or is refused.  From then on `Installed`
is kept, since a refused script changes no app (`refused_apps`), and every request
that could be made has other texts than what is installed
(`UpdateRequest.texts_ne_of_make`).
-/

namespace RustAdmin.Updater

open RustAdmin.Support

variable {κ : Type} {w₀ w : World κ}

/-- One run of the script: every command finds the app that was installed whole, a run that
returns has installed the update, and one that fails has undone it or said why it could not. -/
theorem privilegedUpdate_outcome (args : ScriptArguments) (h : w₀.Fresh)
    (faults : List (Fault κ)) :
    (∀ call ∈ ((privilegedUpdate args).run machine faults w₀).calls,
        Allowed w₀ call.2 call.1) ∧
      Safe w₀ ((privilegedUpdate args).run machine faults w₀).last ∧
      (((privilegedUpdate args).run machine faults w₀).outcome = .returned () →
        Updated w₀ ((privilegedUpdate args).run machine faults w₀).last) ∧
      ∀ status, ((privilegedUpdate args).run machine faults w₀).outcome = .failed status →
        Failed w₀ status ((privilegedUpdate args).run machine faults w₀).last := by
  obtain ⟨hholds, hexits⟩ := keeps_privilegedUpdate args h
  obtain ⟨hcalls, hlast, hreturned⟩ := hholds faults w₀ rfl
  exact ⟨hcalls, hlast, hreturned (), hexits faults w₀ rfl⟩

/-- The release that an image holds, and an older one that is installed and runs. -/
def imageMounted : World Unit where
  apps
    | .source => some (UpdateRequest.releaseOf "2.0.6" "184")
    | .target => some (UpdateRequest.releaseOf "2.0.5" "182")
    | .inRoot _ => none
  roots := fun _ => false
  made := 0
  sourceReal := some "/Volumes/RustAdmin/RustAdmin.app"
  targetReal := some "/Applications/RustAdmin.app"
  daemonPlist := true
  agentPlist := true
  uid := some "501"
  services := fun service =>
    ⟨decide (service ≠ .agent .user), decide (service ≠ .agent .user)⟩
  reports := []

theorem fresh_imageMounted : imageMounted.Fresh := fun _ _ => ⟨rfl, rfl⟩

/-- The request of the release that the image holds. -/
def imageRequest : UpdateRequest where
  product := UpdaterProduct.rustAdmin
  sourceInfo := ⟨UpdaterProduct.rustAdmin.bundleIdentifier, UpdaterProduct.rustAdmin.appName,
    "2.0.6", "184", ⟨⟨[2, 0, 6], by decide, by decide⟩, 184, "2.0.6", "184"⟩⟩
  targetInfo := ⟨UpdaterProduct.rustAdmin.bundleIdentifier, UpdaterProduct.rustAdmin.appName,
    "2.0.5", "182", ⟨⟨[2, 0, 5], by decide, by decide⟩, 182, "2.0.5", "182"⟩⟩

/-- A command that does what it is for. -/
def Fault.none : Fault Unit := ⟨false, false, .none, .none⟩

theorem privilegedUpdate_outcome_image :
    Updated imageMounted ((privilegedUpdate imageRequest.arguments).run machine
      (List.replicate 40 Fault.none) imageMounted).last :=
  (privilegedUpdate_outcome imageRequest.arguments fresh_imageMounted
    (List.replicate 40 Fault.none)).2.2.1 (by decide +kernel)

/-! ## Refused attempts -/

theorem texts_of_refusal {args : ScriptArguments} (h : refusal args w = none) :
    (printKey (w.apps .source) (·.shortVersionString) = args.expectedSourceVersion ∧
        printRevision (w.apps .source) = args.expectedSourceRevision) ∧
      printKey (w.apps .target) (·.shortVersionString) = args.expectedTargetVersion ∧
        printRevision (w.apps .target) = args.expectedTargetRevision := by
  have hcheck := refusal_none h (_, "RustAdmin version metadata changed before authorization.")
    (List.mem_append_right _ (List.mem_of_getElem? (i := 6) rfl))
  simp only [decide_eq_false_iff_not, not_or, not_not] at hcheck
  exact ⟨⟨hcheck.1, hcheck.2.1⟩, hcheck.2.2⟩

/-- Where the update is in its place, no request for it is carried out. -/
theorem refused_of_installed {args : ScriptArguments} (h : Installed w w)
    (htexts : ¬ (args.expectedSourceVersion = args.expectedTargetVersion ∧
      args.expectedSourceRevision = args.expectedTargetRevision)) :
    refusal args w ≠ none := by
  intro hnone
  obtain ⟨bundle, update, htarget, hsource, hpayload⟩ := h
  have hinfo : bundle.info = update.info := congrArg Prod.fst hpayload
  have hkey : ∀ key, printKey (w.apps .target) key = printKey (w.apps .source) key := by
    intro key
    rw [htarget, hsource, printKey, printKey, Option.bind_some, Option.bind_some, hinfo]
  obtain ⟨⟨hversion, hrevision⟩, hversion', hrevision'⟩ := texts_of_refusal hnone
  apply htexts
  rw [← hversion, ← hrevision, ← hversion', ← hrevision', hkey]
  exact ⟨rfl, (hkey _).symm⟩

/-- A refused script changes no app, and does not return. -/
theorem refused_apps {args : ScriptArguments} (h : refusal args w₀ ≠ none) :
    Exits machine (fun _ w => w.apps = w₀.apps) (fun w : World κ => w.apps = w₀.apps)
      (fun w => w = w₀) (privilegedUpdate args) (fun _ _ => False) fun _ _ => True := by
  refine Exits.ask (Q := fun seen w => w = w₀ ∧ seen = w₀) (fun w hw => hw ▸ rfl)
    (fun w hw => hw ▸ rfl) (fun _ w hw => ⟨hw, hw⟩) fun seen => ?_
  refine Exits.assuming (fun w hw => hw.2) fun hseen => ?_
  subst hseen
  cases hrefusal : refusal args seen with
  | none => exact absurd hrefusal h
  | some message =>
      exact Exits.ask (Q := fun _ w => w.apps = seen.apps) (fun w hw => hw.1 ▸ rfl)
        (fun w hw => hw.1 ▸ rfl) (fun _ w hw => hw.1 ▸ rfl)
        fun _ => Exits.fail (fun _ hw => hw) fun _ _ => trivial

/-! ## Attempts -/

/-- An attempt: the request of the updater, and how the commands of its script go. -/
structure Attempt (κ : Type) where
  request : UpdateRequest
  /-- It was made of what was then at the source and at the target. -/
  made : ∃ (samePath : Bool) (source target : Option (Bundle κ)) (product : UpdaterProduct),
    UpdateRequest.make samePath source target product = .ok request
  faults : List (Fault κ)

namespace Attempt

def run (attempt : Attempt κ) (w : World κ) :
    Execution Command ℕ Unit (World κ) :=
  (privilegedUpdate attempt.request.arguments).run machine attempt.faults w

/-- The worlds that its commands find, and the one that it leaves. -/
def worlds (attempt : Attempt κ) (w : World κ) : List (World κ) :=
  (attempt.run w).calls.map Prod.fst ++ [(attempt.run w).last]

theorem last_mem (attempt : Attempt κ) (w : World κ) : (attempt.run w).last ∈ attempt.worlds w :=
  List.mem_append_right _ (List.mem_singleton_self _)

variable {attempt : Attempt κ}

theorem forall_worlds {P : World κ → Prop}
    (hcalls : ∀ call ∈ (attempt.run w).calls, P call.1) (hlast : P (attempt.run w).last) :
    ∀ w' ∈ attempt.worlds w, P w' := by
  intro w' hw'
  rcases List.mem_append.mp hw' with hcall | heq
  · obtain ⟨call, hmem, rfl⟩ := List.mem_map.mp hcall
    exact hcalls call hmem
  · exact List.mem_singleton.mp heq ▸ hlast

/-- What an attempt keeps where the update is not yet in its place. -/
theorem safe (h : w.Fresh) : ∀ w' ∈ attempt.worlds w, Safe w w' := by
  obtain ⟨hcalls, hlast, -⟩ := privilegedUpdate_outcome attempt.request.arguments h attempt.faults
  exact forall_worlds (fun call hcall => (hcalls call hcall).1) hlast

/-- The script says why it is refused and exits, if it is not cut before. -/
def Refused (attempt : Attempt κ) (w : World κ) : Prop :=
  ∃ message, refusal attempt.request.arguments w = some message ∧
    ((attempt.run w).outcome = .crashed ∨
      (attempt.run w).outcome = .failed 1 ∧
        (attempt.run w).last.reports = w.reports ++ [.error message])

theorem refused_of_refusal (h : refusal attempt.request.arguments w ≠ none) :
    attempt.Refused w := by
  obtain ⟨message, hmessage⟩ := Option.ne_none_iff_exists'.mp h
  refine ⟨message, hmessage, ?_⟩
  unfold Attempt.run privilegedUpdate
  -- the look at the world, the report and the exit each take a fault
  rcases attempt.faults with _ | ⟨fault, _ | ⟨fault', faults⟩⟩
  · exact .inl rfl
  · exact .inl (by simp [look, Program.ask, Program.bind, Program.run])
  · simp only [look, Program.ask, Program.bind, Program.run, machine, hmessage, echo]
    rcases faults with _ | ⟨fault'', faults⟩
    · exact .inl rfl
    · exact .inr ⟨rfl, rfl⟩

theorem refusal_of_installed (h : Installed w w) :
    refusal attempt.request.arguments w ≠ none := by
  obtain ⟨samePath, source, target, product, hmake⟩ := attempt.made
  exact refused_of_installed h (UpdateRequest.texts_ne_of_make hmake)

/-- Where the update is in its place, the attempt changes no app. -/
theorem apps_eq (h : Installed w w) : ∀ w' ∈ attempt.worlds w, w'.apps = w.apps := by
  obtain ⟨hcalls, hlast, -⟩ := (refused_apps (refusal_of_installed h)).1 attempt.faults w rfl
  exact forall_worlds hcalls hlast

end Attempt

/-- The worlds of attempts that follow one another. -/
def worlds : World κ → List (Attempt κ) → List (World κ)
  | w, [] => [w]
  | w, attempt :: rest => attempt.worlds w ++ worlds (attempt.run w).last rest

/-- Attempts that follow one another, each with the world it begins in. -/
def begun : World κ → List (Attempt κ) → List (Attempt κ × World κ)
  | _, [] => []
  | w, attempt :: rest => (attempt, w) :: begun (attempt.run w).last rest

theorem Frame.trans {w' : World κ} (h : Frame w₀ w) (h' : Frame w w') : Frame w₀ w' where
  source := h'.source.trans h.source
  earlier := fun root hroot =>
    (h'.earlier root (hroot.trans_le h.made)).trans (h.earlier root hroot)
  made := h.made.trans h'.made
  fresh := h'.fresh
  daemonPlist := h'.daemonPlist.trans h.daemonPlist
  agentPlist := h'.agentPlist.trans h.agentPlist
  uid := h'.uid.trans h.uid

theorem Installed.of_apps {w' : World κ} (h : Installed w₀ w)
    (htarget : w'.apps .target = w.apps .target) : Installed w₀ w' := by
  obtain ⟨bundle, update, happ, hrest⟩ := h
  exact ⟨bundle, update, htarget.trans happ, hrest⟩

/-- The update is in its place, and so is its source. -/
theorem Installed.self (h : Installed w₀ w) (hframe : Frame w₀ w) : Installed w w := by
  obtain ⟨bundle, update, htarget, hsource, hpayload⟩ := h
  exact ⟨bundle, update, htarget, hframe.source.trans hsource, hpayload⟩

/-- One more attempt, on what others have left. -/
theorem Safe.attempt (hinstalled : (w₀.apps .target).isSome) (h : Safe w₀ w)
    {attempt : Attempt κ} : ∀ w' ∈ attempt.worlds w, Safe w₀ w' := by
  intro w' hw'
  obtain ⟨hframe, hwhole⟩ := h
  obtain ⟨hframe', hwhole'⟩ := Attempt.safe hframe.fresh w' hw'
  refine ⟨hframe.trans hframe', ?_⟩
  rcases hwhole with htarget | ⟨root, hkind, hmade, happ⟩ | hupdated
  · -- the app was in its place when the attempt began
    rcases hwhole' with htarget' | ⟨root, hkind, hmade, happ⟩ | hupdated
    · exact .inl (htarget'.trans htarget)
    · exact .inr (.inl ⟨root, hkind, hframe.made.trans hmade, happ.trans htarget⟩)
    · obtain ⟨bundle, update, happ, hsource, hpayload⟩ := hupdated
      exact .inr (.inr ⟨bundle, update, happ, hframe.source.symm.trans hsource, hpayload⟩)
  · -- a directory that another attempt has made is not touched
    have hearlier : root.index < w.made := by
      by_contra hlater
      rw [← happ, (hframe.fresh root (not_lt.mp hlater)).1] at hinstalled
      cases hinstalled
    exact .inr (.inl ⟨root, hkind, hmade, (hframe'.earlier root hearlier).trans happ⟩)
  · have happs := Attempt.apps_eq (hupdated.self hframe) w' hw'
    exact .inr (.inr (hupdated.of_apps (congrFun happs .target)))

/-- Over any attempts, each with any failures and cut anywhere, the app that was installed is
in its place or whole in a backup, or the update is in its place. -/
theorem attempts_safe (hfresh : w₀.Fresh) (hinstalled : (w₀.apps .target).isSome)
    (attempts : List (Attempt κ)) : ∀ w ∈ worlds w₀ attempts, Safe w₀ w := by
  have hrun : ∀ w, Safe w₀ w → ∀ w' ∈ worlds w attempts, Safe w₀ w' := by
    induction attempts with
    | nil =>
        intro w hw w' hw'
        exact List.mem_singleton.mp hw' ▸ hw
    | cons attempt rest ih =>
        intro w hw w' hw'
        rcases List.mem_append.mp hw' with hattempt | hrest
        · exact hw.attempt hinstalled w' hattempt
        · exact ih _ (hw.attempt hinstalled _ (attempt.last_mem w)) w' hrest
  exact hrun w₀ ⟨frame_refl hfresh, .inl rfl⟩

/-- An attempt to install the release that the image holds. -/
def imageAttempt (faults : List (Fault Unit)) : Attempt Unit where
  request := imageRequest
  made := ⟨false, imageMounted.apps .source, imageMounted.apps .target,
    UpdaterProduct.rustAdmin, rfl⟩
  faults := faults

/-- An attempt that is cut where the target is moved away, and one that follows it. -/
theorem attempts_safe_image :
    Safe imageMounted ((imageAttempt (List.replicate 40 Fault.none)).run
      ((imageAttempt (List.replicate 14 Fault.none)).run imageMounted).last).last :=
  attempts_safe fresh_imageMounted rfl
    [imageAttempt (List.replicate 14 Fault.none), imageAttempt (List.replicate 40 Fault.none)] _
    (List.mem_append_right _ (List.mem_append_left _ (Attempt.last_mem _ _)))

/-- Once a run has returned, every later attempt is refused, and no app changes. -/
theorem attempts_after_update (hfresh : w₀.Fresh) (first : Attempt κ)
    (hreturned : (first.run w₀).outcome = .returned ()) (attempts : List (Attempt κ)) :
    Updated w₀ (first.run w₀).last ∧
      (∀ later ∈ begun (first.run w₀).last attempts, later.1.Refused later.2) ∧
      ∀ w ∈ worlds (first.run w₀).last attempts, w.apps = (first.run w₀).last.apps := by
  obtain ⟨-, hsafe, hupdated, -⟩ :=
    privilegedUpdate_outcome first.request.arguments hfresh first.faults
  have hdone := hupdated hreturned
  refine ⟨hdone, ?_⟩
  have hrun : ∀ w, Installed w w → (∀ later ∈ begun w attempts, later.1.Refused later.2) ∧
      ∀ w' ∈ worlds w attempts, w'.apps = w.apps := by
    induction attempts with
    | nil =>
        refine fun w _ => ⟨fun later hlater => (List.not_mem_nil hlater).elim, fun w' hw' => ?_⟩
        rw [List.mem_singleton.mp hw']
    | cons attempt rest ih =>
        intro w hw
        have happs := Attempt.apps_eq hw _ (attempt.last_mem w)
        have hstill : Installed (attempt.run w).last (attempt.run w).last := by
          obtain ⟨bundle, update, htarget, hsource, hpayload⟩ := hw
          exact ⟨bundle, update, (congrFun happs _).trans htarget,
            (congrFun happs _).trans hsource, hpayload⟩
        obtain ⟨hrefused, hsame⟩ := ih _ hstill
        refine ⟨List.forall_mem_cons.mpr
          ⟨Attempt.refused_of_refusal (Attempt.refusal_of_installed hw), hrefused⟩, ?_⟩
        intro w' hw'
        rcases List.mem_append.mp hw' with hattempt | hrest
        · exact Attempt.apps_eq hw w' hattempt
        · exact (hsame w' hrest).trans happs
  exact hrun _ (hdone.complete.installed.self hsafe.1)

theorem attempts_after_update_image :
    (imageAttempt (List.replicate 40 Fault.none)).Refused
        ((imageAttempt (List.replicate 40 Fault.none)).run imageMounted).last ∧
      ((imageAttempt (List.replicate 40 Fault.none)).run
        ((imageAttempt (List.replicate 40 Fault.none)).run imageMounted).last).last.apps =
      ((imageAttempt (List.replicate 40 Fault.none)).run imageMounted).last.apps := by
  obtain ⟨-, hrefused, hsame⟩ := attempts_after_update fresh_imageMounted
    (imageAttempt (List.replicate 40 Fault.none)) (by decide +kernel)
    [imageAttempt (List.replicate 40 Fault.none)]
  exact ⟨hrefused (_, _) List.mem_cons_self,
    hsame _ (List.mem_append_left _ (Attempt.last_mem _ _))⟩

end RustAdmin.Updater
