import RustAdmin.Updater.UpdateAttempts

/-!
# Updates in which nothing fails

Where the script is not refused and none of its commands fails, it comes to its end with the
update installed.

`Reaches` is the same triple with one fault that fails nothing and no exit, so it says
that a part returns.  Each part gets one lemma, from `Updatable` on, and
`privilegedUpdate_returns` runs the chain on enough faults.
-/

namespace RustAdmin.Updater

open RustAdmin.Support

variable {κ : Type} {ε α β : Type} {w₀ w : World κ} {vars : ScriptVars}
  {staging backup : TempRoot} {fault : Fault κ}

/-- The triple of a part of the script that never exits, with one fault throughout. -/
abbrev Reaches (fault : Fault κ) (Pre : World κ → Prop) (p : Script κ ε α)
    (Post : α → World κ → Prop) : Prop :=
  Exits (fun command (_ : Unit) w => machine command fault w) (fun _ _ => True) (fun _ => True)
    Pre p Post (fun _ _ => False)

theorem reaches_ret {Pre : World κ → Prop} {a : α} {Post : α → World κ → Prop}
    (h : ∀ w, Pre w → Post a w) : Reaches fault Pre (.ret a : Script κ ε α) Post :=
  Exits.ret (fun _ _ => trivial) h

theorem reaches_bind {Pre : World κ → Prop} {p : Script κ ε β} {f : β → Script κ ε α}
    {Q : β → World κ → Prop} {Post : α → World κ → Prop} (h : Reaches fault Pre p Q)
    (hf : ∀ b, Reaches fault (Q b) (f b) Post) : Reaches fault Pre (p.bind f) Post :=
  Exits.bind h hf fun _ _ _ => trivial

theorem reaches_look {Pre : World κ → Prop} {f : World κ → Script κ ε α}
    {Post : α → World κ → Prop} (hf : ∀ seen, Pre seen → Reaches fault Pre (f seen) Post) :
    Reaches fault Pre (look.bind f) Post := by
  refine Exits.ask (Q := fun seen w => Pre w ∧ Pre seen) (fun _ _ => trivial)
    (fun _ _ => trivial) (fun _ _ hw => ⟨hw, hw⟩) fun seen => ?_
  exact Exits.assuming (fun w hw => hw.2) fun hseen => (hf seen hseen).consequence _
    fun w hw => hw.1

theorem reaches_perform {Pre : World κ → Prop} {action : Action} {Q : Bool → World κ → Prop}
    (h : ∀ w, Pre w → Q (w.act fault action).1 (w.act fault action).2) :
    Reaches fault Pre (perform action : Script κ ε Bool) Q :=
  Exits.call (fun _ _ => trivial) (fun _ _ => trivial) fun _ w hw => reaches_ret fun _ hw' =>
    hw' ▸ h w hw

theorem reaches_require {Pre Q : World κ → Prop} {action : Action} {message : String}
    (h : ∀ w, Pre w → (w.act fault action).1 = true ∧ Q (w.act fault action).2) :
    Reaches fault Pre (require vars action message) fun _ => Q := by
  refine reaches_bind (Q := fun ok w => ok = true ∧ Q w) (reaches_perform h) fun ok => ?_
  refine Exits.assuming (fun w hw => hw.1) fun hok => ?_
  subst hok
  exact reaches_ret fun w hw => hw.2

theorem reaches_mktemp (hfault : fault.fails = false) {Pre : World κ → Prop} {kind : TempKind}
    {f : Option TempRoot → Script κ ε α} {Q : TempRoot → World κ → Prop}
    {Post : α → World κ → Prop} (h : ∀ w, Pre w → Q (w.newRoot kind) (w.mktemp kind))
    (hf : ∀ root, Reaches fault (Q root) (f (some root)) Post) :
    Reaches fault Pre ((mktemp kind).bind f) Post := by
  refine Exits.ask (Q := fun made w => ∃ root, made = some root ∧ Q root w) (fun _ _ => trivial)
    (fun _ _ => trivial) (fun _ w hw => ?_) fun made => ?_
  · simp only [machine, hfault]
    exact ⟨_, rfl, h w hw⟩
  · have hsome : ∀ w, (∃ root, made = some root ∧ Q root w) → made.isSome = true := by
      rintro w ⟨root, rfl, -⟩
      rfl
    refine Exits.assuming hsome fun hmade => ?_
    obtain ⟨root, rfl⟩ := Option.isSome_iff_exists.mp hmade
    refine (hf root).consequence _ ?_
    rintro w ⟨other, heq, hw⟩
    exact Option.some.inj heq ▸ hw

/-! ## The services -/

theorem reaches_allOf {J : World κ → Prop} {program : Service → Script κ ε Bool}
    (h : ∀ service, Reaches fault J (program service) fun ok w => ok = true ∧ J w)
    (services : List Service) :
    Reaches fault J (allOf program services) fun ok w => ok = true ∧ J w := by
  induction services with
  | nil => exact reaches_ret fun w hw => ⟨rfl, hw⟩
  | cons service services ih =>
      refine reaches_bind (h service) fun ok => ?_
      refine Exits.assuming (fun w hw => hw.1) fun hok => ?_
      subst hok
      refine reaches_bind (ih.consequence _ fun w hw => hw.2) fun others => ?_
      exact reaches_ret fun w hw => ⟨by simp [hw.1], hw.2⟩

theorem reaches_stopServices (hfault : fault.fails = false) {J : World κ → Prop}
    (hkeep : ∀ w service state, J w → J (w.setService service state)) :
    Reaches fault J (stopServices vars) fun _ => J := by
  refine reaches_bind (reaches_allOf (fun service => ?_) _) fun ok => ?_
  · refine reaches_bind (Q := fun ok w => ok = true ∧ J w) (reaches_perform fun w hw => ?_)
      fun ok => ?_
    · simp only [World.act, hfault]
      exact ⟨rfl, hkeep w service _ hw⟩
    · refine Exits.assuming (fun w hw => hw.1) fun hok => ?_
      subst hok
      exact reaches_ret fun w hw => hw
  · refine Exits.assuming (fun w hw => hw.1) fun hok => ?_
    subst hok
    exact reaches_ret fun w hw => hw.2

theorem reaches_restoreServices (hfault : fault.fails = false) {J : World κ → Prop}
    (hkeep : ∀ w service state, J w → J (w.setService service state)) :
    Reaches fault J (restoreServices vars : Script κ ε Bool) fun ok w => ok = true ∧ J w := by
  refine reaches_allOf (fun service => ?_) _
  refine reaches_bind (Q := fun loaded w =>
    loaded = true ∧ J w ∧ (w.services service).loaded = true) ?_ fun loaded => ?_
  · refine reaches_bind (Q := fun ok w => ok = true ∧ J w ∧ (w.services service).loaded = true)
      (reaches_perform fun w hw => ?_) fun ok => ?_
    · simp only [World.act, hfault]
      exact ⟨rfl, hkeep w service _ hw, by simp [World.setService]⟩
    · refine Exits.assuming (fun w hw => hw.1) fun hok => ?_
      subst hok
      exact reaches_ret fun w hw => hw
  · refine Exits.assuming (fun w hw => hw.1) fun hloaded => ?_
    subst hloaded
    refine reaches_bind (Q := fun started w => started = true ∧ J w)
      (reaches_perform fun w hw => ?_) fun started => ?_
    · simp only [World.act, hfault, hw.2.2]
      exact ⟨rfl, hkeep w service _ hw.2.1⟩
    · exact reaches_ret fun w hw => ⟨by simp [hw.1], hw.2⟩

/-! ## The app -/

/-- There is a target, and an update with its executable. -/
structure Updatable (w : World κ) : Prop where
  source : ∃ update, w.apps .source = some update ∧ update.executable = true
  target : (w.apps .target).isSome

/-- The copy is in its directory. -/
structure Copied (staging : TempRoot) (w : World κ) : Prop where
  kind : staging.kind = .staging
  copy : ∃ update, w.apps (.inRoot staging) = some update ∧ update.executable = true
  target : (w.apps .target).isSome

theorem Copied.setService (h : Copied staging w) (service : Service) (state : ServiceState) :
    Copied staging (w.setService service state) :=
  ⟨h.kind, h.copy, h.target⟩

theorem updatable_of_refusal {args : ScriptArguments} (h : refusal args w = none) :
    Updatable w := by
  refine ⟨?_, installed_of_refusal h⟩
  have hsource := refusal_none h ((w.apps .source).isNone,
    "Update source disappeared before authorization.") (by simp [pathChecks])
  have hexecutable := refusal_none h ((w.apps .source).all (!·.executable),
    "Update source executable is missing.") (by simp [pathChecks])
  cases hupdate : w.apps .source with
  | none => simp [hupdate] at hsource
  | some update => exact ⟨update, rfl, by simpa [hupdate] using hexecutable⟩

theorem reaches_prepareCopy (hfault : fault.fails = false) :
    Reaches fault Updatable prepareCopy fun roots w =>
      Copied roots.1 w ∧ w.apps (.inRoot roots.2) = none ∧ roots.2.kind = .backup := by
  refine reaches_mktemp hfault (Q := fun root w => Updatable w ∧ root.kind = .staging) ?_
    fun staging => ?_
  · intro w hw
    refine ⟨⟨?_, ?_⟩, rfl⟩
    · rw [w.mktemp_of_ne _ (by simp)]
      exact hw.source
    · rw [w.mktemp_of_ne _ (by simp)]
      exact hw.target
  refine reaches_bind (Q := fun _ w => Copied staging w) (reaches_require fun w hw => ?_)
    fun _ => ?_
  · obtain ⟨⟨⟨update, hsource, hexecutable⟩, htarget⟩, hkind⟩ := hw
    simp only [World.act, hsource, hfault]
    refine ⟨rfl, hkind, ⟨update, w.setApp_self _ _, hexecutable⟩, ?_⟩
    rw [if_neg Bool.false_ne_true, w.setApp_of_ne _ (by simp)]
    exact htarget
  refine reaches_look fun seen hseen => ?_
  obtain ⟨update, hcopy, hexecutable⟩ := hseen.copy
  rw [if_neg (by simp [hcopy, hexecutable])]
  refine reaches_mktemp hfault (Q := fun backup w => Copied staging w ∧
    w.apps (.inRoot backup) = none ∧ backup.kind = .backup) ?_ fun backup => reaches_ret
      fun w hw => hw
  intro w hw
  have hne : Place.inRoot staging ≠ .inRoot (w.newRoot .backup) := Place.inRoot_ne hw.kind rfl
  refine ⟨⟨hw.kind, ?_, ?_⟩, w.setApp_self _ none, rfl⟩
  · rw [w.mktemp_of_ne _ hne]
    exact hw.copy
  · rw [w.mktemp_of_ne _ (by simp)]
    exact hw.target

theorem reaches_replaceApp (hfault : fault.fails = false) :
    Reaches fault (fun w => Copied staging w ∧ w.apps (.inRoot backup) = none ∧
      backup.kind = .backup) (replaceApp vars staging backup) fun _ _ => True := by
  refine reaches_bind (Q := fun _ w => w.apps .target = none ∧
    ∃ update, w.apps (.inRoot staging) = some update) (reaches_require fun w hw => ?_) fun _ => ?_
  · obtain ⟨⟨hkind, ⟨update, hcopy, -⟩, htarget⟩, hbackup, hbackupKind⟩ := hw
    obtain ⟨bundle, hbundle⟩ := Option.isSome_iff_exists.mp htarget
    have hne := Place.inRoot_ne hkind hbackupKind
    simp only [World.act, World.mv, hbundle, hbackup, hfault]
    refine ⟨rfl, ?_, update, ?_⟩
    · exact (World.setApp_of_ne _ _ (by simp)).trans (w.setApp_self _ _)
    · exact ((World.setApp_of_ne _ _ hne).trans (w.setApp_of_ne _ (by simp))).trans hcopy
  refine reaches_bind (Q := fun _ w => (w.apps .target).isSome) (reaches_require fun w hw => ?_)
    fun _ => ?_
  · obtain ⟨htarget, update, hcopy⟩ := hw
    simp only [World.act, World.mv, hcopy, htarget, hfault]
    exact ⟨rfl, by simp⟩
  refine reaches_bind (Q := fun _ _ => True) (reaches_require fun w hw => ?_) fun _ => ?_
  · obtain ⟨bundle, hbundle⟩ := Option.isSome_iff_exists.mp hw
    simp [World.act, hbundle, hfault]
  · exact reaches_bind (Q := fun _ _ => True) (reaches_perform fun _ _ => trivial) fun _ =>
      reaches_ret fun _ _ => trivial

theorem reaches_cleanup (hfault : fault.fails = false) (root : Option TempRoot) :
    Reaches fault (fun _ => True) (cleanup root) fun _ _ => True := by
  cases root with
  | none => exact reaches_ret fun _ _ => trivial
  | some root =>
      refine reaches_look fun seen _ => Exits.ite (fun _ => ?_) fun _ => reaches_ret
        fun _ _ => trivial
      refine reaches_bind (Q := fun ok _ => ok = true) (reaches_perform fun w _ => ?_) fun ok => ?_
      · simp [World.act, hfault]
      · refine Exits.assuming (fun w hw => hw) fun hok => ?_
        subst hok
        exact reaches_ret fun _ _ => trivial

theorem reaches_transaction (hfault : fault.fails = false) :
    Reaches fault Updatable transaction fun _ _ => True := by
  refine reaches_bind (reaches_prepareCopy hfault) ?_
  rintro ⟨staging, backup⟩
  refine reaches_look fun seen _ => ?_
  refine reaches_bind (reaches_stopServices hfault fun w service state hw =>
    ⟨hw.1.setService service state, hw.2⟩) fun _ => ?_
  refine reaches_bind (Q := fun _ w => Copied staging w ∧ w.apps (.inRoot backup) = none ∧
    backup.kind = .backup) (reaches_perform fun w hw => ?_) fun _ => ?_
  · exact ⟨⟨hw.1.kind, hw.1.copy, hw.1.target⟩, hw.2⟩
  refine reaches_bind (reaches_replaceApp hfault) fun vars => ?_
  refine reaches_bind (reaches_restoreServices hfault fun w service state hw => hw)
    fun restored => ?_
  refine Exits.assuming (fun w hw => hw.1) fun hrestored => ?_
  subst hrestored
  exact reaches_ret fun _ _ => trivial

theorem reaches_privilegedUpdate (hfault : fault.fails = false) {args : ScriptArguments}
    (h : refusal args w₀ = none) :
    Reaches fault (fun w => w = w₀) (privilegedUpdate args) fun _ _ => True := by
  refine reaches_look ?_
  rintro _ rfl
  rw [h]
  refine Exits.handled ((reaches_transaction hfault).consequence _ fun w hw =>
    hw ▸ updatable_of_refusal h) (fun vars => ?_) fun _ => Exits.assuming (fun _ hfalse => hfalse)
      False.elim
  exact reaches_bind (reaches_cleanup hfault _) fun _ => reaches_cleanup hfault _

/-- A script that is not refused and none of whose commands fails installs the update. -/
theorem privilegedUpdate_returns {args : ScriptArguments} (hfresh : w₀.Fresh)
    (h : refusal args w₀ = none) (hfault : fault.fails = false) :
    ∃ n, ((privilegedUpdate args).run machine (List.replicate n fault) w₀).outcome =
        .returned () ∧
      Updated w₀ ((privilegedUpdate args).run machine (List.replicate n fault) w₀).last := by
  have hreaches := reaches_privilegedUpdate hfault h
  obtain ⟨m, -, hm⟩ := Program.run_replicate (fun command (_ : Unit) w => machine command fault w)
    () (privilegedUpdate args) w₀
  obtain ⟨n, -, hn⟩ := Program.run_replicate machine fault (privilegedUpdate args) w₀
  cases hexec : ((privilegedUpdate args).exec (fun command => machine command fault) w₀).1 with
  | error status =>
      rw [hexec] at hm
      exact (hreaches.2 _ w₀ rfl status hm).elim
  | ok value =>
      rw [hexec] at hn
      obtain ⟨-, -, hupdated, -⟩ :=
        privilegedUpdate_outcome args hfresh (List.replicate n fault)
      exact ⟨n, hn, hupdated hn⟩

theorem privilegedUpdate_returns_image :
    ∃ n, ((privilegedUpdate imageRequest.arguments).run machine
        (List.replicate n Fault.none) imageMounted).outcome = .returned () ∧
      Updated imageMounted ((privilegedUpdate imageRequest.arguments).run machine
        (List.replicate n Fault.none) imageMounted).last :=
  privilegedUpdate_returns fresh_imageMounted (by decide +kernel) rfl

end RustAdmin.Updater
