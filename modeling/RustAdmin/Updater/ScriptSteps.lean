import RustAdmin.Updater.PrivilegedScript

/-!
# What the update script keeps

From the world `w₀` in which the script starts: it touches nothing but the target and the
directories it has made, and until the update is complete the app that was installed is at
the target or in the backup.

`Frame` is what the script never touches, `Known` what its variables say of the world,
and `Held` where the app that was installed is.  A state in which nothing has gone
wrong for good is `Ongoing`; wherever it is cut, it is `Safe`.  `Keeps` is the triple
of a part of the script, with `Left` for its exits under the trap, and each command
gets its rule here, from what a change of one place or one service keeps.
-/

namespace RustAdmin.Updater

open RustAdmin.Support

variable {κ : Type}

theorem TempRoot.ne_of_kind {staging backup : TempRoot} (hstaging : staging.kind = .staging)
    (hbackup : backup.kind = .backup) : staging ≠ backup := by
  rintro rfl
  rw [hstaging] at hbackup
  cases hbackup

theorem Place.inRoot_ne {staging backup : TempRoot} (hstaging : staging.kind = .staging)
    (hbackup : backup.kind = .backup) : Place.inRoot staging ≠ .inRoot backup :=
  fun heq => TempRoot.ne_of_kind hstaging hbackup (Place.inRoot.inj heq)

namespace World

@[simp] theorem setApp_self (w : World κ) (place : Place) (bundle : Option (Bundle κ)) :
    (w.setApp place bundle).apps place = bundle :=
  Function.update_self ..

theorem setApp_of_ne (w : World κ) {place other : Place} (bundle : Option (Bundle κ))
    (h : other ≠ place) : (w.setApp place bundle).apps other = w.apps other :=
  Function.update_of_ne h ..

theorem mktemp_of_ne (w : World κ) (kind : TempKind) {place : Place}
    (h : place ≠ .inRoot (w.newRoot kind)) : (w.mktemp kind).apps place = w.apps place :=
  w.setApp_of_ne none h

theorem failures_error (w : World κ) (message : String) :
    World.failures { w with reports := w.reports ++ [.error message] } = w.failures := by
  simp [World.failures]

theorem failures_failure (w : World κ) (failure : RollbackFailure) (backup : Option TempRoot) :
    World.failures { w with reports := w.reports ++ [.failure failure backup] } =
      w.failures ++ [failure] := by
  simp [World.failures]

/-- No directory has a name that `mktemp` will make. -/
def Fresh (w : World κ) : Prop :=
  ∀ root : TempRoot, w.made ≤ root.index → w.apps (.inRoot root) = none ∧ w.roots root = false

end World

variable (w₀ : World κ)

/-- What the script never touches. -/
structure Frame (w : World κ) : Prop where
  source : w.apps .source = w₀.apps .source
  earlier : ∀ root : TempRoot, root.index < w₀.made →
    w.apps (.inRoot root) = w₀.apps (.inRoot root)
  made : w₀.made ≤ w.made
  fresh : w.Fresh
  daemonPlist : w.daemonPlist = w₀.daemonPlist
  agentPlist : w.agentPlist = w₀.agentPlist
  uid : w.uid = w₀.uid

/-- The update is complete at the target. -/
def Installed (w : World κ) : Prop :=
  ∃ bundle update, w.apps .target = some bundle ∧ w₀.apps .source = some update ∧
    bundle.payload = update.payload

/-- The app that was installed is somewhere, or the update is complete. -/
def Whole (w : World κ) : Prop :=
  w.apps .target = w₀.apps .target ∨
    (∃ root : TempRoot, root.kind = .backup ∧ w₀.made ≤ root.index ∧
      w.apps (.inRoot root) = w₀.apps .target) ∨
    Installed w₀ w

/-- Wherever the script is cut. -/
def Safe (w : World κ) : Prop := Frame w₀ w ∧ Whole w₀ w

/-- Every command is given where it is safe, and a move never meets a bundle at its end. -/
def Allowed (command : Command) (w : World κ) : Prop :=
  Safe w₀ w ∧ ∀ src dst, command = .act (.mv src dst) → w.apps dst = none

/-- A directory of this run. -/
def TempRoot.Own (root : TempRoot) (kind : TempKind) (w : World κ) : Prop :=
  root.kind = kind ∧ w₀.made ≤ root.index ∧ root.index < w.made

/-- The variables, and what they say of the world. -/
structure Known (vars : ScriptVars) (w : World κ) : Prop where
  frame : Frame w₀ w
  staging : ∀ root, vars.stagingRoot = some root → root.Own w₀ .staging w
  backup : ∀ root, vars.backupRoot = some root → root.Own w₀ .backup w
  only : ∀ root : TempRoot, w₀.made ≤ root.index → w.roots root = true →
    vars.stagingRoot = some root ∨ vars.backupRoot = some root
  others : ∀ service, service ∉ vars.running →
    (w.services service).loaded = (w₀.services service).loaded
  running : vars.running = (discovered w₀ {}).running ∨
    vars.running = [] ∧ w.services = w₀.services

/-- Where the app that was installed is. -/
def Held (vars : ScriptVars) (w : World κ) : Prop :=
  if vars.targetMoved then
    ∃ root, vars.backupRoot = some root ∧ w.apps (.inRoot root) = w₀.apps .target
  else
    w.apps .target = w₀.apps .target ∧
      ∀ root, vars.backupRoot = some root → w.apps (.inRoot root) = none

/-- Before anything has gone wrong for good. -/
structure Ongoing (vars : ScriptVars) (w : World κ) : Prop where
  known : Known w₀ vars w
  held : Held w₀ vars w
  quiet : w.failures = w₀.failures

variable {w₀} {w : World κ} {vars : ScriptVars}

/-! ## What a single change keeps -/

theorem Frame.setApp_target (h : Frame w₀ w) (bundle : Option (Bundle κ)) :
    Frame w₀ (w.setApp .target bundle) where
  source := (w.setApp_of_ne bundle (by decide)).trans h.source
  earlier := fun root hroot => (w.setApp_of_ne bundle (by simp)).trans (h.earlier root hroot)
  made := h.made
  fresh := fun root hroot => by
    rw [w.setApp_of_ne bundle (by simp)]
    exact h.fresh root hroot
  daemonPlist := h.daemonPlist
  agentPlist := h.agentPlist
  uid := h.uid

theorem Frame.setApp_inRoot (h : Frame w₀ w) {root : TempRoot} {kind : TempKind}
    (hroot : root.Own w₀ kind w) (bundle : Option (Bundle κ)) :
    Frame w₀ (w.setApp (.inRoot root) bundle) where
  source := (w.setApp_of_ne bundle (by simp)).trans h.source
  earlier := by
    intro other hother
    have hne : Place.inRoot other ≠ .inRoot root := by
      rintro ⟨⟩
      exact absurd hother (not_lt.mpr hroot.2.1)
    exact (w.setApp_of_ne bundle hne).trans (h.earlier other hother)
  made := h.made
  fresh := by
    intro other hother
    have hne : Place.inRoot other ≠ .inRoot root := by
      rintro ⟨⟩
      exact absurd hroot.2.2 (not_lt.mpr hother)
    exact ⟨(w.setApp_of_ne bundle hne).trans (h.fresh other hother).1, (h.fresh other hother).2⟩
  daemonPlist := h.daemonPlist
  agentPlist := h.agentPlist
  uid := h.uid

/-- The rest of what is known is of other parts of the world. -/
theorem Known.of_frame {w' : World κ} (h : Known w₀ vars w) (hframe : Frame w₀ w')
    (hmade : w'.made = w.made) (hroots : ∀ root, w'.roots root = true → w.roots root = true)
    (hservices : w'.services = w.services) : Known w₀ vars w' where
  frame := hframe
  staging := fun root hroot => by
    rw [TempRoot.Own, hmade]
    exact h.staging root hroot
  backup := fun root hroot => by
    rw [TempRoot.Own, hmade]
    exact h.backup root hroot
  only := fun root hle htrue => h.only root hle (hroots root htrue)
  others := by rw [hservices]; exact h.others
  running := by rw [hservices]; exact h.running

theorem Known.setApp_target (h : Known w₀ vars w) (bundle : Option (Bundle κ)) :
    Known w₀ vars (w.setApp .target bundle) :=
  h.of_frame (h.frame.setApp_target bundle) rfl (fun _ htrue => htrue) rfl

theorem Known.setApp_inRoot (h : Known w₀ vars w) {root : TempRoot} {kind : TempKind}
    (hroot : root.Own w₀ kind w) (bundle : Option (Bundle κ)) :
    Known w₀ vars (w.setApp (.inRoot root) bundle) :=
  h.of_frame (h.frame.setApp_inRoot hroot bundle) rfl (fun _ htrue => htrue) rfl

theorem Frame.report (h : Frame w₀ w) (report : Report) :
    Frame w₀ { w with reports := w.reports ++ [report] } :=
  ⟨h.source, h.earlier, h.made, h.fresh, h.daemonPlist, h.agentPlist, h.uid⟩

theorem Known.report (h : Known w₀ vars w) (report : Report) :
    Known w₀ vars { w with reports := w.reports ++ [report] } :=
  h.of_frame (h.frame.report report) rfl (fun _ htrue => htrue) rfl

theorem Ongoing.error (h : Ongoing w₀ vars w) (message : String) :
    Ongoing w₀ vars { w with reports := w.reports ++ [.error message] } :=
  ⟨h.known.report _, h.held, (w.failures_error message).trans h.quiet⟩

/-- A service that ran may be changed. -/
theorem Known.setService (h : Known w₀ vars w) {service : Service}
    (hservice : service ∈ vars.running) (state : ServiceState) :
    Known w₀ vars (w.setService service state) where
  frame := ⟨h.frame.source, h.frame.earlier, h.frame.made, h.frame.fresh, h.frame.daemonPlist,
    h.frame.agentPlist, h.frame.uid⟩
  staging := h.staging
  backup := h.backup
  only := h.only
  others := by
    intro other hother
    have hne : other ≠ service := fun heq => hother (heq ▸ hservice)
    calc ((w.setService service state).services other).loaded = (w.services other).loaded :=
          congrArg _ (Function.update_of_ne hne ..)
      _ = (w₀.services other).loaded := h.others other hother
  running := by
    rcases h.running with hrunning | ⟨hnone, -⟩
    · exact .inl hrunning
    · rw [hnone] at hservice
      cases hservice

theorem Ongoing.setService (h : Ongoing w₀ vars w) {service : Service}
    (hservice : service ∈ vars.running) (state : ServiceState) :
    Ongoing w₀ vars (w.setService service state) :=
  ⟨h.known.setService hservice state, h.held, h.quiet⟩

theorem Ongoing.whole (h : Ongoing w₀ vars w) : Whole w₀ w := by
  have hheld := h.held
  unfold Held at hheld
  split at hheld
  · obtain ⟨root, hroot, happ⟩ := hheld
    obtain ⟨hkind, hmade, -⟩ := h.known.backup root hroot
    exact .inr (.inl ⟨root, hkind, hmade, happ⟩)
  · exact .inl hheld.1

theorem Ongoing.safe (h : Ongoing w₀ vars w) : Safe w₀ w := ⟨h.known.frame, h.whole⟩

/-! ## Directories -/

theorem Frame.mktemp (h : Frame w₀ w) (kind : TempKind) : Frame w₀ (w.mktemp kind) where
  source := (w.mktemp_of_ne kind (by simp)).trans h.source
  earlier := by
    intro root hroot
    have hne : Place.inRoot root ≠ .inRoot (w.newRoot kind) := by
      rintro ⟨⟩
      exact absurd hroot (not_lt.mpr h.made)
    exact (w.mktemp_of_ne kind hne).trans (h.earlier root hroot)
  made := h.made.trans (Nat.le_succ _)
  fresh := by
    intro root hroot
    have hne : root ≠ w.newRoot kind := by
      rintro rfl
      exact absurd hroot (Nat.not_succ_le_self _)
    have hroots : (w.mktemp kind).roots root = w.roots root := Function.update_of_ne hne ..
    rw [hroots]
    have hfresh := h.fresh root (Nat.le_of_succ_le hroot)
    have hplace : Place.inRoot root ≠ .inRoot (w.newRoot kind) :=
      fun heq => hne (Place.inRoot.inj heq)
    exact ⟨(w.mktemp_of_ne kind hplace).trans hfresh.1, hfresh.2⟩
  daemonPlist := h.daemonPlist
  agentPlist := h.agentPlist
  uid := h.uid

theorem own_newRoot (h : Frame w₀ w) (kind : TempKind) :
    (w.newRoot kind).Own w₀ kind (w.mktemp kind) :=
  ⟨rfl, h.made, Nat.lt_succ_self _⟩

theorem TempRoot.Own.mktemp {root : TempRoot} {kind : TempKind} (h : root.Own w₀ kind w)
    (other : TempKind) : root.Own w₀ kind (w.mktemp other) :=
  ⟨h.1, h.2.1, h.2.2.trans (Nat.lt_succ_self _)⟩

/-- The new directory joins those of the variables. -/
theorem Known.mktemp {vars' : ScriptVars} (h : Known w₀ vars w) (kind : TempKind)
    (hstaging : ∀ root, vars'.stagingRoot = some root →
      vars.stagingRoot = some root ∨ kind = .staging ∧ root = w.newRoot kind)
    (hbackup : ∀ root, vars'.backupRoot = some root →
      vars.backupRoot = some root ∨ kind = .backup ∧ root = w.newRoot kind)
    (honly : ∀ root, root = w.newRoot kind ∨ vars.stagingRoot = some root ∨
      vars.backupRoot = some root → vars'.stagingRoot = some root ∨ vars'.backupRoot = some root)
    (hrunning : vars'.running = vars.running) : Known w₀ vars' (w.mktemp kind) where
  frame := h.frame.mktemp kind
  staging := by
    intro root hroot
    rcases hstaging root hroot with hold | ⟨rfl, rfl⟩
    · exact (h.staging root hold).mktemp kind
    · exact own_newRoot h.frame _
  backup := by
    intro root hroot
    rcases hbackup root hroot with hold | ⟨rfl, rfl⟩
    · exact (h.backup root hold).mktemp kind
    · exact own_newRoot h.frame _
  only := by
    intro root hle htrue
    apply honly
    by_cases hnew : root = w.newRoot kind
    · exact .inl hnew
    · have hroots : (w.mktemp kind).roots root = w.roots root := Function.update_of_ne hnew ..
      exact .inr (h.only root hle (hroots ▸ htrue))
  others := by rw [hrunning]; exact h.others
  running := by rw [hrunning]; exact h.running

/-! ## Triples -/

/-- A command that is no move. -/
def Command.Still (command : Command) : Prop :=
  ∀ src dst, command ≠ .act (.mv src dst)

theorem allowed_of_still {command : Command} (hstill : command.Still) (h : Safe w₀ w) :
    Allowed w₀ command w :=
  ⟨h, fun src dst heq => absurd heq (hstill src dst)⟩

theorem allowed_mv {src dst : Place} (h : Safe w₀ w) (hdst : w.apps dst = none) :
    Allowed w₀ (.act (.mv src dst)) w := by
  refine ⟨h, fun src' dst' heq => ?_⟩
  obtain ⟨rfl, rfl⟩ := Action.mv.inj (Command.act.inj heq)
  exact hdst

/-- The triple of a part of the script. -/
abbrev Keeps {ε α : Type} (w₀ : World κ) (Pre : World κ → Prop) (p : Script κ ε α)
    (Post : α → World κ → Prop) (Exit : ε → World κ → Prop) : Prop :=
  Exits machine (Allowed w₀) (Safe w₀) Pre p Post Exit

section

variable {ε α : Type} {Pre : World κ → Prop} {Post : α → World κ → Prop}
  {Exit : ε → World κ → Prop}

theorem keeps_look {f : World κ → Script κ ε α} (hsafe : ∀ w, Pre w → Safe w₀ w)
    (hf : ∀ seen, Keeps w₀ (fun w => Pre w ∧ w = seen) (f seen) Post Exit) :
    Keeps w₀ Pre (look.bind f) Post Exit :=
  Exits.ask hsafe (fun w hw => allowed_of_still (by simp [Command.Still]) (hsafe w hw))
    (fun _ _ hw => ⟨hw, rfl⟩) hf

theorem keeps_echo {f : Unit → Script κ ε α} {report : Report} {Q : World κ → Prop}
    (hsafe : ∀ w, Pre w → Safe w₀ w)
    (hnext : ∀ w, Pre w → Q { w with reports := w.reports ++ [report] })
    (hf : Keeps w₀ Q (f ()) Post Exit) : Keeps w₀ Pre ((echo report).bind f) Post Exit :=
  Exits.ask hsafe (fun w hw => allowed_of_still (by simp [Command.Still]) (hsafe w hw))
    (fun _ w hw => hnext w hw) fun _ => hf

theorem keeps_perform {f : Bool → Script κ ε α} {action : Action} {Q : Bool → World κ → Prop}
    (hsafe : ∀ w, Pre w → Allowed w₀ (.act action) w)
    (hnext : ∀ fault w, Pre w → Q (w.act fault action).1 (w.act fault action).2)
    (hf : ∀ ok, Keeps w₀ (Q ok) (f ok) Post Exit) :
    Keeps w₀ Pre ((perform action).bind f) Post Exit :=
  Exits.ask (fun w hw => (hsafe w hw).1) hsafe hnext hf

theorem keeps_mktemp {f : Option TempRoot → Script κ ε α} {kind : TempKind}
    {Q : TempRoot → World κ → Prop} (hsafe : ∀ w, Pre w → Safe w₀ w)
    (hnext : ∀ w, Pre w → Q (w.newRoot kind) (w.mktemp kind))
    (hnone : Keeps w₀ Pre (f none) Post Exit)
    (hsome : ∀ root, Keeps w₀ (Q root) (f (some root)) Post Exit) :
    Keeps w₀ Pre ((mktemp kind).bind f) Post Exit := by
  refine Exits.ask (Q := fun made w => match made with | none => Pre w | some root => Q root w)
    hsafe (fun w hw => allowed_of_still (by simp [Command.Still]) (hsafe w hw)) ?_ ?_
  · intro fault w hw
    by_cases hfails : fault.fails = true
    · simpa only [machine, if_pos hfails] using hw
    · simpa only [machine, if_neg hfails] using hnext w hw
  · intro made
    cases made with
    | none => exact hnone
    | some root => exact hsome root

end

/-- What an exit leaves to the trap. -/
def Left (w₀ : World κ) (exit : ScriptExit) (w : World κ) : Prop :=
  exit.status ≠ 0 ∧ Ongoing w₀ exit.vars w

theorem keeps_die {α : Type} {Post : α → World κ → Prop} (vars : ScriptVars) (message : String) :
    Keeps w₀ (Ongoing w₀ vars) (die vars message) Post (Left w₀) :=
  keeps_echo (fun _ hw => hw.safe) (fun _ hw => hw.error message)
    (Exits.fail (fun _ hw => hw.safe) fun _ hw => ⟨Nat.one_ne_zero, hw⟩)

theorem keeps_require {Pre : World κ → Prop} {Q : World κ → Prop} {vars : ScriptVars}
    {action : Action} {message : String}
    (hsafe : ∀ w, Pre w → Allowed w₀ (.act action) w)
    (hok : ∀ fault w, Pre w → (w.act fault action).1 = true → Q (w.act fault action).2)
    (hquit : ∀ fault w, Pre w → (w.act fault action).1 = false →
      Ongoing w₀ vars (w.act fault action).2) (hstop : ∀ w, Q w → Safe w₀ w) :
    Keeps w₀ Pre (require vars action message) (fun _ => Q) (Left w₀) := by
  refine keeps_perform (Q := fun ok w => if ok then Q w else Ongoing w₀ vars w) hsafe ?_ ?_
  · intro fault w hw
    cases hresult : (w.act fault action).1 with
    | true => exact hok fault w hw hresult
    | false => exact hquit fault w hw hresult
  · intro ok
    cases ok with
    | true => exact Exits.ret hstop fun _ hw => hw
    | false => exact keeps_die vars message

end RustAdmin.Updater
