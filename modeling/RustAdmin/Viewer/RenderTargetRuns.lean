import Mathlib.Algebra.Order.Group.Multiset
import Mathlib.Tactic.Abel
import RustAdmin.Viewer.RenderTarget

/-!
# Textures are conserved and the last intent wins

Every texture has one holder: the controller, an operation or the retirement that
releases it.  A creation checks that its request is still the current one before
it publishes; a refresh that fails checks the target alone, and a second retire
during a retirement leaves the calls deferred before it in force.

`Kept` holds in every run that meets the condition.  Its first part counts: each
texture is with the controller, an operation or the retirement, and a step of one
operation conserves them where its own balance is even (`conserved_of_balance`).  Its
second part ties the snapshot to the last call.  The steps that publish check that
their request is current; `OrderedStep.snapshot_of_earlier` is the case of an earlier
request, which leaves the snapshot.
-/

namespace RustAdmin.Viewer.RenderTarget

open RustAdmin.Support

/-! ## Textures -/

@[simp] theorem textures_none : textures none = 0 := rfl

@[simp] theorem textures_some (texture : Texture) : textures (some texture) = {texture} := rfl

namespace Controller

/-- The textures released by all but one operation. -/
def releasingBut (s : Controller) (operation : Operation) : Multiset Texture :=
  (s.operations.erase operation).filterMap Operation.releasing +
    textures (s.retireFuture.bind Retirement.releasing)

theorem releasing_eq {s : Controller} {operation : Operation} (h : operation ∈ s.operations) :
    s.releasing = textures operation.releasing + s.releasingBut operation := by
  have hsplit : s.operations = operation ::ₘ s.operations.erase operation :=
    (Multiset.cons_erase h).symm
  rw [releasing, releasingBut, hsplit, Multiset.filterMap_cons, ← hsplit]
  exact add_assoc _ _ _

/-- What an operation releases at another stage. -/
theorem releasing_setStage (s : Controller) (operation : Operation) (stage : Stage) :
    (s.setStage operation stage).releasing =
      textures ({ operation with stage := stage } : Operation).releasing +
        s.releasingBut operation := by
  rw [releasing, releasingBut, setStage, Multiset.filterMap_cons]
  exact add_assoc _ _ _

theorem ownedTexture_some {s : Controller} {target : AndroidTextureTarget} {textureId : ℤ}
    (htarget : s.ownedTarget = some target) (htexture : s.ownedTextureId = some textureId) :
    s.ownedTexture = some ⟨target, textureId⟩ := by
  simp [ownedTexture, htarget, htexture]

theorem Idle.ownedTexture {s : Controller} (h : s.Idle) : s.ownedTexture = none := by
  simp [Controller.ownedTexture, h.ownedTarget]

end Controller

/-! ## What holds in every run -/

/-- The textures and the snapshot, and what a retirement leaves. -/
structure Kept (s : Controller) : Prop where
  owned : s.ownedTarget.isSome = s.ownedTextureId.isSome
  conserved : s.Conserved
  shown : s.Shown
  blank : s.snapshot.phase = .none → s.snapshot = .none
  retiring : s.retireFuture ≠ none → s.Idle
  settled : s.lastCall ≠ some .requireTarget → s.Idle

theorem start_kept : Kept {} where
  owned := rfl
  conserved := rfl
  shown := nofun
  blank := fun _ => rfl
  retiring := fun h => absurd rfl h
  settled := fun _ => ⟨rfl, rfl, rfl, rfl⟩

/-- A step that changes neither what is desired, nor what is owned or shown. -/
theorem Kept.frame {s s' : Controller} (h : Kept s) (hdesired : s'.desiredTarget = s.desiredTarget)
    (htarget : s'.ownedTarget = s.ownedTarget) (htexture : s'.ownedTextureId = s.ownedTextureId)
    (hsnapshot : s'.snapshot = s.snapshot)
    (hretiring : s'.retireFuture ≠ none → s.retireFuture ≠ none)
    (hsettled : s'.lastCall ≠ some .requireTarget → s.Idle) (hconserved : s'.Conserved) :
    Kept s' := by
  have hidle : s.Idle → s'.Idle := fun hidle =>
    ⟨hdesired.trans hidle.desiredTarget, htarget.trans hidle.ownedTarget,
      htexture.trans hidle.ownedTextureId, hsnapshot.trans hidle.snapshot⟩
  refine ⟨?_, hconserved, ?_, ?_, fun hretire => hidle (h.retiring (hretiring hretire)),
    fun hlast => hidle (hsettled hlast)⟩
  · rw [htarget, htexture]
    exact h.owned
  · unfold Controller.Shown Controller.ownedTexture
    rw [hdesired, htarget, htexture, hsnapshot]
    exact h.shown
  · rw [hsnapshot]
    exact h.blank

/-- Where a target is desired there is no retirement, and the last call asked for one. -/
theorem Kept.publish {s s' : Controller} (h : Kept s) {target : AndroidTextureTarget}
    (hdesired : s.desiredTarget = some target)
    (howned : s'.ownedTarget.isSome = s'.ownedTextureId.isSome) (hconserved : s'.Conserved)
    (hshown : s'.Shown) (hphase : s'.snapshot.phase ≠ .none)
    (hretire : s'.retireFuture = s.retireFuture) (hcall : s'.lastCall = s.lastCall) : Kept s' := by
  have hbusy : ¬ s.Idle := fun hidle => by simp [hidle.desiredTarget] at hdesired
  exact ⟨howned, hconserved, hshown, fun hnone => absurd hnone hphase,
    fun hretiring => absurd (h.retiring (hretire ▸ hretiring)) hbusy,
    fun hlast => absurd (h.settled (hcall ▸ hlast)) hbusy⟩

theorem accepts_iff {s : Controller} {generation : ℕ} {target : AndroidTextureTarget} :
    s.accepts generation target = true ↔
      generation = s.generation ∧ s.desiredTarget = some target := by
  simp [Controller.accepts]

/-! ## The operations -/

section Operations

variable {s : Controller} {operation : Operation}

/-- A step of one operation conserves the textures where its own balance is even. -/
theorem conserved_of_balance {s' : Controller} {stage : Stage} (h : s.Conserved)
    (hoperation : operation ∈ s.operations)
    (hoperations : s'.operations = (s.setStage operation stage).operations)
    (hretire : s'.retireFuture = s.retireFuture)
    (hbalance : s'.created + (textures s.ownedTexture + textures operation.releasing + s.released) =
      s.created + (textures s'.ownedTexture +
        textures ({ operation with stage := stage } : Operation).releasing + s'.released)) :
    s'.Conserved := by
  have hreleasing : s'.releasing = (s.setStage operation stage).releasing := by
    unfold Controller.releasing
    rw [hoperations, hretire]
    rfl
  unfold Controller.Conserved at h ⊢
  rw [Controller.releasing_eq hoperation] at h
  rw [hreleasing, Controller.releasing_setStage]
  refine add_right_cancel (hbalance.trans ?_)
  rw [h]
  abel

/-- A change of stage that leaves what is released. -/
theorem Kept.setStage (h : Kept s) (hoperation : operation ∈ s.operations) {stage : Stage}
    (hreleasing : ({ operation with stage := stage } : Operation).releasing =
      operation.releasing) : Kept (s.setStage operation stage) := by
  refine h.frame rfl rfl rfl rfl id h.settled
    (conserved_of_balance h.conserved hoperation rfl rfl ?_)
  rw [hreleasing]
  rfl

/-- A failed snapshot holds no texture. -/
theorem Kept.publishFailed {target : AndroidTextureTarget} (h : Kept s)
    (hdesired : s.desiredTarget = some target) : Kept (s.publishFailed target) :=
  h.publish hdesired h.owned h.conserved nofun nofun rfl rfl

theorem releasing_creating (hstage : operation.stage = .creating) : operation.releasing = none := by
  simp [Operation.releasing, hstage]

theorem releasing_refreshing (hstage : operation.stage = .refreshing) :
    operation.releasing = none := by
  simp [Operation.releasing, hstage]

theorem Kept.createdTexture (h : Kept s) (hoperation : operation ∈ s.operations)
    (hstage : operation.stage = .creating) (textureId : ℤ) :
    Kept (s.createdTexture operation textureId) := by
  have hcreating := releasing_creating hstage
  let new : Texture := ⟨operation.target, textureId⟩
  unfold Controller.createdTexture
  dsimp only
  split
  · next haccepts =>
      have hdesired := (accepts_iff.mp haccepts).2
      split
      · next old howned =>
          refine h.publish hdesired rfl ?_ (fun _ => ⟨rfl, hdesired.symm, rfl, rfl⟩) nofun
            rfl rfl
          refine conserved_of_balance h.conserved hoperation rfl rfl ?_
          rw [hcreating, howned]
          change new ::ₘ s.created + ({old} + 0 + s.released) =
            s.created + ({new} + {old} + s.released)
          rw [← Multiset.singleton_add]
          abel
      · next howned =>
          refine h.publish hdesired rfl ?_ (fun _ => ⟨rfl, hdesired.symm, rfl, rfl⟩) nofun
            rfl rfl
          refine conserved_of_balance h.conserved hoperation rfl rfl ?_
          rw [hcreating, howned]
          change new ::ₘ s.created + (0 + 0 + s.released) = s.created + ({new} + 0 + s.released)
          rw [← Multiset.singleton_add]
          abel
  · refine h.frame rfl rfl rfl rfl id h.settled ?_
    refine conserved_of_balance h.conserved hoperation rfl rfl ?_
    rw [hcreating]
    change new ::ₘ s.created + (textures s.ownedTexture + 0 + s.released) =
      s.created + (textures s.ownedTexture + {new} + s.released)
    rw [← Multiset.singleton_add]
    abel

theorem Kept.createdNothing (h : Kept s) (hoperation : operation ∈ s.operations)
    (hstage : operation.stage = .creating) : Kept (s.createdNothing operation) := by
  have hended : Kept (s.setStage operation .ended) :=
    h.setStage hoperation (releasing_creating hstage).symm
  unfold Controller.createdNothing
  dsimp only
  split
  · next haccepts => exact hended.publishFailed (accepts_iff.mp haccepts).2
  · exact hended

theorem Kept.releasedTexture (h : Kept s) (hoperation : operation ∈ s.operations)
    {texture : Texture} (hreleasing : operation.releasing = some texture) :
    Kept (s.releasedTexture operation texture) := by
  have hgiven : ∀ stage, ({ operation with stage := stage } : Operation).releasing = none →
      Kept (Controller.setStage { s with released := texture ::ₘ s.released } operation stage) := by
    intro stage hstage
    refine h.frame rfl rfl rfl rfl id h.settled ?_
    refine conserved_of_balance h.conserved hoperation rfl rfl ?_
    rw [hreleasing, hstage]
    change s.created + (textures s.ownedTexture + {texture} + s.released) =
      s.created + (textures s.ownedTexture + 0 + texture ::ₘ s.released)
    rw [← Multiset.singleton_add]
    abel
  unfold Controller.releasedTexture
  dsimp only
  split
  · split
    · exact hgiven _ rfl
    · exact hgiven _ rfl
  · exact hgiven _ rfl

theorem Kept.refreshed (h : Kept s) (hoperation : operation ∈ s.operations)
    (hstage : operation.stage = .refreshing) : Kept (s.refreshed operation) :=
  h.setStage hoperation (releasing_refreshing hstage).symm

theorem Kept.refreshFailed (h : Kept s) (hoperation : operation ∈ s.operations)
    (hstage : operation.stage = .refreshing) : Kept (s.refreshFailed operation) := by
  have hended : Kept (s.setStage operation .ended) :=
    h.setStage hoperation (releasing_refreshing hstage).symm
  unfold Controller.refreshFailed
  dsimp only
  split
  · next hdesired => exact hended.publishFailed hdesired
  · exact hended

theorem Kept.finish (h : Kept s) (hoperation : operation ∈ s.operations)
    (hstage : operation.stage = .ended) : Kept (s.finish operation) := by
  refine h.frame rfl rfl rfl rfl id h.settled ?_
  have hconserved := h.conserved
  have hended : operation.releasing = none := by simp [Operation.releasing, hstage]
  unfold Controller.Conserved at hconserved ⊢
  rw [Controller.releasing_eq hoperation, hended, textures_none, zero_add] at hconserved
  exact hconserved

end Operations

/-! ## The calls -/

section Calls

variable {s : Controller}

theorem Kept.retirementReleased (h : Kept s) {retirement : Retirement} {texture : Texture}
    (hretirement : s.retireFuture = some retirement)
    (hreleasing : retirement.releasing = some texture) :
    Kept (s.retirementReleased retirement texture) := by
  refine h.frame rfl rfl rfl rfl (fun _ => by simp [hretirement]) h.settled ?_
  have hconserved := h.conserved
  unfold Controller.Conserved Controller.releasing at hconserved ⊢
  rw [hretirement, Option.bind_some, hreleasing] at hconserved
  change s.created = textures s.ownedTexture +
    (s.operations.filterMap Operation.releasing + 0) + texture ::ₘ s.released
  rw [hconserved, ← Multiset.singleton_add, textures_some]
  abel

theorem Kept.retired (h : Kept s) {retirement : Retirement}
    (hretirement : s.retireFuture = some retirement) (hreleasing : retirement.releasing = none) :
    Kept s.retired := by
  refine h.frame rfl rfl rfl rfl (fun hnone => absurd rfl hnone) h.settled ?_
  have hconserved := h.conserved
  unfold Controller.Conserved Controller.releasing at hconserved ⊢
  rw [hretirement, Option.bind_some, hreleasing] at hconserved
  exact hconserved

theorem Kept.setProducerReady (h : Kept s) (hphase : s.snapshot.phase ≠ .none)
    (producerReady : Bool) :
    Kept { s with snapshot := { s.snapshot with producerReady := producerReady } } := by
  have hbusy : ¬ s.Idle := fun hidle => hphase (by rw [hidle.snapshot]; rfl)
  exact ⟨h.owned, h.conserved, h.shown, fun hnone => absurd hnone hphase,
    fun hretiring => absurd (h.retiring hretiring) hbusy,
    fun hlast => absurd (h.settled hlast) hbusy⟩

theorem Kept.producerFrame (h : Kept s) (display width height : ℤ) (active : Bool) :
    Kept (s.producerFrame display width height active).2 := by
  unfold Controller.producerFrame
  split
  · split
    · exact h
    · next hready =>
        refine h.setProducerReady (fun hphase => hready ?_) false
        rw [h.blank hphase]
        rfl
  · split
    · exact h
    · split
      · exact h
      · next hframe =>
          have hphase := not_not.mp (not_or.mp hframe).1
          exact h.setProducerReady (by simp [hphase]) true

theorem Kept.idle_of_none (h : Kept s) (hdesired : s.desiredTarget = none)
    (htexture : s.ownedTextureId = none) (hphase : s.snapshot.phase = .none) : s.Idle := by
  have howned := h.owned
  rw [htexture] at howned
  exact ⟨hdesired, by simpa using howned, htexture, h.blank hphase⟩

theorem Kept.retire (h : Kept s) (intentEpoch : Option ℕ) :
    Kept ((s.noteCall .retire intentEpoch).retire intentEpoch).2 := by
  unfold Controller.noteCall Controller.retire
  split
  · exact h
  · next hrefuses =>
      split
      · next hagain => exact absurd hagain hrefuses
      split
      · next retirement hretire =>
          have hactive : s.retireFuture = some retirement := hretire
          have hidle := h.retiring (by simp [hactive])
          exact h.frame rfl rfl rfl rfl id (fun _ => hidle) h.conserved
      · next hretire =>
          split
          · next hnothing =>
              obtain ⟨hdesired, htexture, -, hphase⟩ := hnothing
              have hidle := h.idle_of_none hdesired htexture hphase
              exact h.frame rfl rfl rfl rfl id (fun _ => hidle) h.conserved
          · have hconserved := h.conserved
            refine ⟨rfl, ?_, nofun, fun _ => rfl, fun _ => ⟨rfl, rfl, rfl, rfl⟩,
              fun _ => ⟨rfl, rfl, rfl, rfl⟩⟩
            unfold Controller.Conserved Controller.releasing at hconserved
            rw [hretire] at hconserved
            change s.created = 0 + (s.operations.filterMap Operation.releasing +
              textures s.ownedTexture) + s.released
            rw [hconserved, Option.bind_none, textures_none]
            abel

theorem conserved_cons {s' : Controller} {operation : Operation} (h : s.Conserved)
    (hreleasing : operation.releasing = none)
    (hoperations : s'.operations = operation ::ₘ s.operations)
    (hretire : s'.retireFuture = s.retireFuture) (howned : s'.ownedTexture = s.ownedTexture)
    (hcreated : s'.created = s.created) (hreleased : s'.released = s.released) : s'.Conserved := by
  unfold Controller.Conserved Controller.releasing at h ⊢
  rw [hoperations, Multiset.filterMap_cons_none _ _ hreleasing, hretire, howned, hcreated,
    hreleased]
  exact h

/-- A call that takes effect only where the last call asks for a target. -/
theorem Kept.requireTarget (h : Kept s) (target : AndroidTextureTarget) (intentEpoch : Option ℕ)
    (hcall : s.refuses intentEpoch = false → s.retireFuture = none →
      s.lastCall = some .requireTarget) : Kept (s.requireTarget target intentEpoch).2 := by
  unfold Controller.requireTarget
  split
  · exact h
  · next hrefuses =>
      split
      · exact h.frame rfl rfl rfl rfl id h.settled h.conserved
      · next hretire =>
          have hlast := hcall (by simpa using hrefuses) hretire
          have hasked : ∀ {s' : Controller}, s'.retireFuture = s.retireFuture →
              s'.lastCall = s.lastCall → s'.ownedTarget.isSome = s'.ownedTextureId.isSome →
              s'.Conserved → s'.Shown → s'.snapshot.phase ≠ .none → Kept s' := by
            intro s' hretire' hcall' howned hconserved hshown hphase
            exact ⟨howned, hconserved, hshown, fun hnone => absurd hnone hphase,
              fun hretiring => absurd (hretire'.trans hretire) hretiring,
              fun hother => absurd (hcall'.trans hlast) hother⟩
          split
          · exact h
          · dsimp only
            split
            · next howned =>
                refine hasked rfl rfl h.owned (conserved_cons h.conserved rfl rfl rfl rfl rfl rfl)
                  ?_ nofun
                obtain ⟨textureId, htexture⟩ := Option.isSome_iff_exists.mp howned.2
                have hsome := Controller.ownedTexture_some howned.1 htexture
                exact fun _ => ⟨Option.isSome_iff_exists.mpr ⟨_, hsome⟩, rfl, howned.1.symm, rfl⟩
            · exact hasked rfl rfl h.owned (conserved_cons h.conserved rfl rfl rfl rfl rfl rfl)
                nofun nofun

theorem Kept.noteRequire (h : Kept s) (target : AndroidTextureTarget) (intentEpoch : Option ℕ) :
    Kept ((s.noteCall .requireTarget intentEpoch).requireTarget target intentEpoch).2 := by
  unfold Controller.noteCall
  split
  · next hrefuses =>
      exact h.requireTarget target intentEpoch fun hnot => by simp [hrefuses] at hnot
  · have hnoted : Kept { s with lastCall := some .requireTarget } :=
      h.frame rfl rfl rfl rfl id (fun hother => absurd rfl hother) h.conserved
    exact hnoted.requireTarget target intentEpoch fun _ _ => rfl

theorem Kept.resume (h : Kept s) {call : Deferred} (hordered : ¬ s.Overtaken (.resume call)) :
    Kept (s.resume call) := by
  have hwaiting : Kept { s with deferred := s.deferred.erase call } :=
    h.frame rfl rfl rfl rfl id h.settled h.conserved
  refine hwaiting.requireTarget call.target call.intentEpoch fun hrefuses hretire => ?_
  by_contra hlast
  exact hordered ⟨call, rfl, hrefuses, hretire, hlast⟩

end Calls

theorem OrderedStep.kept {s s' : Controller} {event : Event} (h : OrderedStep s event s')
    (hkept : Kept s) : Kept s' := by
  have hovertaken := h.overtaken
  cases h.step with
  | requireTarget => exact hkept.noteRequire _ _
  | retire => exact hkept.retire _
  | producerFrame => exact hkept.producerFrame _ _ _ _
  | createdTexture hoperation hstage => exact hkept.createdTexture hoperation hstage _
  | createdNothing hoperation hstage => exact hkept.createdNothing hoperation hstage
  | releasedTexture hoperation hreleasing => exact hkept.releasedTexture hoperation hreleasing
  | refreshed hoperation hstage => exact hkept.refreshed hoperation hstage
  | refreshFailed hoperation hstage => exact hkept.refreshFailed hoperation hstage
  | finish hoperation hstage => exact hkept.finish hoperation hstage
  | retirementReleased hretirement hreleasing =>
      exact hkept.retirementReleased hretirement hreleasing
  | retired hretirement hreleasing => exact hkept.retired hretirement hreleasing
  | resume => exact hkept.resume hovertaken

/-! ## Earlier requests -/

/-- What an operation of an earlier request leaves. -/
theorem OrderedStep.snapshot_of_earlier {s s' : Controller} {event : Event}
    (h : OrderedStep s event s') {operation : Operation} (hoperation : operation ∈ event.operation)
    (hearlier : operation.generation ≠ s.generation) : s'.snapshot = s.snapshot := by
  have hrevisited := h.revisited
  have haccepts : ¬ s.accepts operation.generation operation.target = true :=
    fun haccepts => hearlier (accepts_iff.mp haccepts).1
  cases h.step with
  | createdTexture =>
      obtain rfl := Option.some.inj hoperation
      unfold Controller.createdTexture
      rw [if_neg haccepts]
      rfl
  | createdNothing =>
      obtain rfl := Option.some.inj hoperation
      unfold Controller.createdNothing
      rw [if_neg haccepts]
      rfl
  | releasedTexture =>
      obtain rfl := Option.some.inj hoperation
      unfold Controller.releasedTexture
      dsimp only
      split
      · rw [if_neg haccepts]
        rfl
      · rfl
  | refreshed => rfl
  | refreshFailed =>
      obtain rfl := Option.some.inj hoperation
      unfold Controller.refreshFailed
      rw [if_neg fun hdesired => hrevisited ⟨_, rfl, hearlier, hdesired⟩]
      rfl
  | finish => rfl
  | _ => cases hoperation

/-! ## Every run -/

theorem OrderedStep.sound {s s' : Controller} {event : Event} (h : OrderedStep s event s')
    (hkept : Kept s) : SoundStep s event s' := by
  have hkept' := h.kept hkept
  refine ⟨h.step, hkept'.conserved, hkept'.shown, fun _ => h.snapshot_of_earlier, fun _ hbusy => ?_,
    fun _ hretired => ?_⟩
  · by_contra hlast
    have hidle := hkept'.settled hlast
    exact hbusy.elim (fun hdesired => hdesired hidle.desiredTarget)
      fun howned => howned hidle.ownedTexture
  · have hidle := hkept'.settled (by simp [hretired])
    exact ⟨hidle.ownedTexture, hidle.snapshot⟩

theorem orderedRun_kept {last : Controller} {events : List Event}
    (run : Run OrderedStep {} events last) : Kept last :=
  run.stateInvariant Kept start_kept fun _ _ _ hkept step => step.kept hkept

/-- Textures are conserved and the last intent wins in every run in which no
refresh of an earlier request fails on a target that is desired again and no
deferred call is overtaken by a retire. -/
theorem orderedRun_sound {last : Controller} {events : List Event}
    (run : Run OrderedStep {} events last) : Run SoundStep {} events last := by
  induction run with
  | nil => exact .nil
  | snoc run step ih => exact ih.snoc (step.sound (orderedRun_kept run))

/-- A call that is no deferred one, or finds the last call to be its own, is not overtaken. -/
theorem orderedStep_of_step {s s' : Controller} {event : Event} (step : Step s event s')
    (hrefresh : ∀ operation, event ≠ .refreshFailed operation)
    (hresume : ∀ call, event = .resume call → s.lastCall = some .requireTarget) :
    OrderedStep s event s' :=
  ⟨step, fun ⟨operation, h, _⟩ => hrefresh operation h,
    fun ⟨call, h, _, _, hlast⟩ => hlast (hresume call h)⟩

/-- A texture is required, created, refreshed and retired; another one is required during the
retirement and created after it. -/
theorem orderedRun_sound_resumed :
    let first : AndroidTextureTarget := ⟨0, 1920, 1080⟩
    let second : AndroidTextureTarget := ⟨1, 1280, 720⟩
    ∃ last : Controller, last.released = {⟨first, 7⟩} ∧ last.ownedTexture = some ⟨second, 8⟩ ∧
      last.Quiet ∧
      Run SoundStep {} [.requireTarget first none, .createdTexture ⟨0, 1, first, .creating⟩ 7,
        .refreshed ⟨0, 1, first, .refreshing⟩, .finish ⟨0, 1, first, .ended⟩, .retire none,
        .requireTarget second none, .retirementReleased, .retired, .resume ⟨second, none, 1⟩,
        .createdTexture ⟨2, 3, second, .creating⟩ 8, .refreshed ⟨2, 3, second, .refreshing⟩,
        .finish ⟨2, 3, second, .ended⟩] last := by
  intro first second
  let required : Controller := (Controller.requireTarget { lastCall := some .requireTarget }
    first none).2
  let created : Controller := required.createdTexture ⟨0, 1, first, .creating⟩ 7
  let refreshed : Controller := created.refreshed ⟨0, 1, first, .refreshing⟩
  let settled : Controller := refreshed.finish ⟨0, 1, first, .ended⟩
  let retiring : Controller := ((settled.noteCall .retire none).retire none).2
  let waiting : Controller := ((retiring.noteCall .requireTarget none).requireTarget second none).2
  let released : Controller := waiting.retirementReleased ⟨1, some ⟨first, 7⟩⟩ ⟨first, 7⟩
  let resumed : Controller := released.retired.resume ⟨second, none, 1⟩
  let owning : Controller := resumed.createdTexture ⟨2, 3, second, .creating⟩ 8
  let quiet : Controller :=
    (owning.refreshed ⟨2, 3, second, .refreshing⟩).finish ⟨2, 3, second, .ended⟩
  have hrequire : OrderedStep {} (.requireTarget first none) required :=
    orderedStep_of_step .requireTarget nofun nofun
  have hcreate : OrderedStep required (.createdTexture ⟨0, 1, first, .creating⟩ 7) created :=
    orderedStep_of_step (.createdTexture (by decide) rfl) nofun nofun
  have hrefresh : OrderedStep created (.refreshed ⟨0, 1, first, .refreshing⟩) refreshed :=
    orderedStep_of_step (.refreshed (by decide) rfl) nofun nofun
  have hfinish : OrderedStep refreshed (.finish ⟨0, 1, first, .ended⟩) settled :=
    orderedStep_of_step (.finish (by decide) rfl) nofun nofun
  have hretire : OrderedStep settled (.retire none) retiring :=
    orderedStep_of_step .retire nofun nofun
  have hwait : OrderedStep retiring (.requireTarget second none) waiting :=
    orderedStep_of_step .requireTarget nofun nofun
  have hrelease : OrderedStep waiting .retirementReleased released :=
    orderedStep_of_step (.retirementReleased rfl rfl) nofun nofun
  have hretired : OrderedStep released .retired released.retired :=
    orderedStep_of_step (.retired rfl rfl (by decide)) nofun nofun
  have hresume : OrderedStep released.retired (.resume ⟨second, none, 1⟩) resumed :=
    orderedStep_of_step (.resume (by decide) nofun) nofun fun _ _ => rfl
  have hown : OrderedStep resumed (.createdTexture ⟨2, 3, second, .creating⟩ 8) owning :=
    orderedStep_of_step (.createdTexture (by decide) rfl) nofun nofun
  have hready : OrderedStep owning (.refreshed ⟨2, 3, second, .refreshing⟩)
      (owning.refreshed ⟨2, 3, second, .refreshing⟩) :=
    orderedStep_of_step (.refreshed (by decide) rfl) nofun nofun
  have hquiet : OrderedStep (owning.refreshed ⟨2, 3, second, .refreshing⟩)
      (.finish ⟨2, 3, second, .ended⟩) quiet :=
    orderedStep_of_step (.finish (by decide) rfl) nofun nofun
  have hsettled := (((Run.single hrequire).snoc hcreate).snoc hrefresh).snoc hfinish
  have hreleased := (((hsettled.snoc hretire).snoc hwait).snoc hrelease).snoc hretired
  refine ⟨quiet, by decide, rfl, ⟨by decide, rfl, by decide⟩, orderedRun_sound ?_⟩
  exact (((hreleased.snoc hresume).snoc hown).snoc hready).snoc hquiet

/-- The refresh of a target fails after another target was required in between and
takes its later request down; a retire during a retirement is overtaken by the
target required before it. -/
theorem not_sound_revisitedOvertaken :
    let first : AndroidTextureTarget := ⟨0, 1920, 1080⟩
    let second : AndroidTextureTarget := ⟨1, 1280, 720⟩
    let creating : Operation := ⟨0, 1, first, .creating⟩
    let refreshing : Operation := ⟨0, 1, first, .refreshing⟩
    let ended : Operation := ⟨0, 1, first, .ended⟩
    (∃ last, Run Step {} [.requireTarget first none, .createdTexture creating 7,
        .requireTarget second none, .requireTarget first none, .refreshFailed refreshing] last ∧
      ¬ Run SoundStep {} [.requireTarget first none, .createdTexture creating 7,
        .requireTarget second none, .requireTarget first none, .refreshFailed refreshing] last) ∧
    ∃ last, Run Step {} [.requireTarget first none, .createdTexture creating 7,
        .refreshed refreshing, .finish ended, .retire none, .requireTarget second none,
        .retire none, .retirementReleased, .retired, .resume ⟨second, none, 1⟩,
        .createdTexture ⟨2, 3, second, .creating⟩ 8, .refreshed ⟨2, 3, second, .refreshing⟩,
        .finish ⟨2, 3, second, .ended⟩] last ∧
      ¬ Run SoundStep {} [.requireTarget first none, .createdTexture creating 7,
        .refreshed refreshing, .finish ended, .retire none, .requireTarget second none,
        .retire none, .retirementReleased, .retired, .resume ⟨second, none, 1⟩,
        .createdTexture ⟨2, 3, second, .creating⟩ 8, .refreshed ⟨2, 3, second, .refreshing⟩,
        .finish ⟨2, 3, second, .ended⟩] last := by
  intro first second creating refreshing ended
  let required : Controller := (Controller.requireTarget { lastCall := some .requireTarget }
    first none).2
  let created : Controller := required.createdTexture creating 7
  have hrequire : Step {} (.requireTarget first none) required := .requireTarget
  have hcreate : Step required (.createdTexture creating 7) created :=
    .createdTexture (by decide) rfl
  have hcreated : Run Step {} [.requireTarget first none, .createdTexture creating 7] created :=
    (Run.single hrequire).snoc hcreate
  constructor
  · let away : Controller := ((created.noteCall .requireTarget none).requireTarget second none).2
    let back : Controller := ((away.noteCall .requireTarget none).requireTarget first none).2
    have haway : Step created (.requireTarget second none) away := .requireTarget
    have hback : Step away (.requireTarget first none) back := .requireTarget
    have hfail : Step back (.refreshFailed refreshing) (back.refreshFailed refreshing) :=
      .refreshFailed (by decide) rfl
    refine ⟨back.refreshFailed refreshing, ((hcreated.snoc haway).snoc hback).snoc hfail, ?_⟩
    intro hsound
    obtain ⟨_, hrequire, hsound⟩ := hsound.cons_inv
    obtain ⟨_, hcreate, hsound⟩ := hsound.cons_inv
    obtain ⟨_, haway, hsound⟩ := hsound.cons_inv
    obtain ⟨_, hback, hsound⟩ := hsound.cons_inv
    obtain ⟨_, hfail, hsound⟩ := hsound.cons_inv
    cases hrequire.step
    cases hcreate.step
    cases haway.step
    cases hback.step
    cases hfail.step
    exact absurd (hfail.fenced refreshing rfl (by decide)) (by decide)
  · let settled : Controller := (created.refreshed refreshing).finish ended
    let retiring : Controller := ((settled.noteCall .retire none).retire none).2
    let waiting : Controller :=
      ((retiring.noteCall .requireTarget none).requireTarget second none).2
    let again : Controller := ((waiting.noteCall .retire none).retire none).2
    let released : Controller := again.retirementReleased ⟨1, some ⟨first, 7⟩⟩ ⟨first, 7⟩
    let resumed : Controller := released.retired.resume ⟨second, none, 1⟩
    let owning : Controller := resumed.createdTexture ⟨2, 3, second, .creating⟩ 8
    let refreshed : Controller := owning.refreshed ⟨2, 3, second, .refreshing⟩
    let quiet : Controller := refreshed.finish ⟨2, 3, second, .ended⟩
    have hrefresh : Step created (.refreshed refreshing) (created.refreshed refreshing) :=
      .refreshed (by decide) rfl
    have hfinish : Step (created.refreshed refreshing) (.finish ended) settled :=
      .finish (by decide) rfl
    have hretire : Step settled (.retire none) retiring := .retire
    have hwait : Step retiring (.requireTarget second none) waiting := .requireTarget
    have hagain : Step waiting (.retire none) again := .retire
    have hrelease : Step again .retirementReleased released := .retirementReleased rfl rfl
    have hretired : Step released .retired released.retired := .retired rfl rfl (by decide)
    have hresume : Step released.retired (.resume ⟨second, none, 1⟩) resumed :=
      .resume (by decide) nofun
    have hown : Step resumed (.createdTexture ⟨2, 3, second, .creating⟩ 8) owning :=
      .createdTexture (by decide) rfl
    have hready : Step owning (.refreshed ⟨2, 3, second, .refreshing⟩) refreshed :=
      .refreshed (by decide) rfl
    have hquiet : Step refreshed (.finish ⟨2, 3, second, .ended⟩) quiet := .finish (by decide) rfl
    refine ⟨quiet, ?_, fun hsound => ?_⟩
    · exact ((((((((((hcreated.snoc hrefresh).snoc hfinish).snoc hretire).snoc hwait).snoc
        hagain).snoc hrelease).snoc hretired).snoc hresume).snoc hown).snoc hready).snoc hquiet
    · obtain ⟨_, _, step⟩ := hsound.exists_last nofun
      exact absurd (step.retired ⟨by decide, rfl, by decide⟩ rfl).1 (by decide)

end RustAdmin.Viewer.RenderTarget
