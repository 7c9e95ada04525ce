import Mathlib.Data.Multiset.AddSub
import Mathlib.Data.Multiset.Filter
import RustAdmin.Support.Run

/-!
# The render target on Android

`src/flutter/lib/models/android_render_target_controller.dart`: the view asks for
a texture of a size, or for none.  Creating, refreshing and releasing a texture
take their time and may fail; between two awaits the code runs undisturbed.  The
callbacks that report a change or an error are left out.
-/

namespace RustAdmin.Viewer.RenderTarget

open RustAdmin.Support

/-! ## The controller -/

inductive AndroidRenderTargetPhase
  | none
  | creating
  | ready
  | failed
deriving DecidableEq, Repr

structure AndroidTextureTarget where
  display : ℤ
  width : ℤ
  height : ℤ
deriving DecidableEq, Repr

structure AndroidRenderTargetSnapshot where
  phase : AndroidRenderTargetPhase
  target : Option AndroidTextureTarget := .none
  textureId : Option ℤ := .none
  producerReady : Bool := false
deriving DecidableEq, Repr

def AndroidRenderTargetSnapshot.none : AndroidRenderTargetSnapshot := { phase := .none }

structure Texture where
  target : AndroidTextureTarget
  textureId : ℤ
deriving DecidableEq, Repr

/-- What an operation awaits. -/
inductive Stage
  | creating
  /-- The texture of a creation that is not accepted. -/
  | releasingNew (textureId : ℤ)
  /-- The texture that was owned before. -/
  | releasingOld (old : Texture)
  | refreshing
  | ended
deriving DecidableEq, Repr

/-- A call of `_createTarget` or `_refreshTarget`, with the generation of the
request it was started for. -/
structure Operation where
  id : ℕ
  generation : ℕ
  target : AndroidTextureTarget
  stage : Stage
deriving DecidableEq, Repr

/-- The call of `_retire`: the texture it releases first, then its loop. -/
structure Retirement where
  id : ℕ
  releasing : Option Texture
deriving DecidableEq, Repr

/-- A call of `requireTarget` that waits for a retirement. -/
structure Deferred where
  target : AndroidTextureTarget
  intentEpoch : Option ℕ
  retirement : ℕ
deriving DecidableEq, Repr

inductive Call
  | requireTarget
  | retire
deriving DecidableEq, Repr

/-- The future a call returns. -/
inductive Returned
  | value
  | operation (id : ℕ)
  | retirement (id : ℕ)
  | deferred
deriving DecidableEq, Repr

/-- `AndroidRenderTargetController`.  The last four fields are not its own: the
calls that wait, what the platform was given back, and the last call made with
the current epoch or none. -/
structure Controller where
  snapshot : AndroidRenderTargetSnapshot := .none
  desiredTarget : Option AndroidTextureTarget := none
  ownedTarget : Option AndroidTextureTarget := none
  ownedTextureId : Option ℤ := none
  createFuture : Option ℕ := none
  retireFuture : Option Retirement := none
  operations : Multiset Operation := 0
  generation : ℕ := 0
  intentEpoch : ℕ := 0
  started : ℕ := 0
  deferred : Multiset Deferred := 0
  created : Multiset Texture := 0
  released : Multiset Texture := 0
  lastCall : Option Call := none
deriving DecidableEq

namespace Controller

/-- The call carries an epoch that is not the current one. -/
def refuses (s : Controller) (intentEpoch : Option ℕ) : Bool :=
  intentEpoch.any (· != s.intentEpoch)

def accepts (s : Controller) (generation : ℕ) (target : AndroidTextureTarget) : Bool :=
  generation == s.generation && s.desiredTarget == some target

def ownedTexture (s : Controller) : Option Texture :=
  match s.ownedTarget, s.ownedTextureId with
  | some target, some textureId => some ⟨target, textureId⟩
  | _, _ => none

/-- `_track` of an operation that is started. -/
def track (s : Controller) (target : AndroidTextureTarget) (stage : Stage) :
    Returned × Controller :=
  let operation : Operation :=
    { id := s.started, generation := s.generation, target := target, stage := stage }
  (.operation s.started,
    { s with operations := operation ::ₘ s.operations, started := s.started + 1 })

def requireTarget (s : Controller) (target : AndroidTextureTarget) (intentEpoch : Option ℕ) :
    Returned × Controller :=
  if s.refuses intentEpoch then (.value, s) else
    match s.retireFuture with
    | some retirement =>
        (.deferred, { s with deferred := ⟨target, intentEpoch, retirement.id⟩ ::ₘ s.deferred })
    | none =>
        if s.desiredTarget = some target then (s.createFuture.elim .value .operation, s) else
          let next :=
            { s with desiredTarget := some target, generation := s.generation + 1 }
          if s.ownedTarget = some target ∧ s.ownedTextureId.isSome then
            track
              { next with
                snapshot :=
                  { phase := .ready, target := some target, textureId := s.ownedTextureId } }
              target .refreshing
          else
            track
              { next with
                snapshot := { phase := .creating, target := some target }
                createFuture := some s.started }
              target .creating

/-- `producerFrame`: what it answers and the state after it. -/
def producerFrame (s : Controller) (display width height : ℤ) (active : Bool) :
    Bool × Controller :=
  if !active then
    if !s.snapshot.producerReady then (false, s)
    else (true, { s with snapshot := { s.snapshot with producerReady := false } })
  else
    match s.snapshot.target with
    | none => (false, s)
    | some target =>
        if s.snapshot.phase ≠ .ready ∨ target ≠ ⟨display, width, height⟩ ∨
            s.snapshot.producerReady then (false, s)
        else (true, { s with snapshot := { s.snapshot with producerReady := true } })

def retire (s : Controller) (intentEpoch : Option ℕ) : Returned × Controller :=
  if s.refuses intentEpoch then (.value, s) else
    match s.retireFuture with
    | some retirement => (.retirement retirement.id, s)
    | none =>
        let next := { s with intentEpoch := s.intentEpoch + 1 }
        if s.desiredTarget = none ∧ s.ownedTextureId = none ∧ s.operations = 0 ∧
            s.snapshot.phase = .none then (.value, next)
        else
          (.retirement s.started,
            { next with
              desiredTarget := none
              generation := s.generation + 1
              ownedTarget := none
              ownedTextureId := none
              snapshot := .none
              retireFuture := some { id := s.started, releasing := s.ownedTexture }
              started := s.started + 1 })

/-! ## The operations -/

def setStage (s : Controller) (operation : Operation) (stage : Stage) : Controller :=
  { s with operations := { operation with stage := stage } ::ₘ s.operations.erase operation }

/-- The snapshot of a request that failed. -/
def publishFailed (s : Controller) (target : AndroidTextureTarget) : Controller :=
  { s with snapshot := { phase := .failed, target := some target } }

/-- `_create` returned a texture. -/
def createdTexture (s : Controller) (operation : Operation) (textureId : ℤ) : Controller :=
  let given := { s with created := ⟨operation.target, textureId⟩ ::ₘ s.created }
  if s.accepts operation.generation operation.target then
    let owning : Controller :=
      { given with
        ownedTarget := some operation.target
        ownedTextureId := some textureId
        snapshot :=
          { phase := .ready, target := some operation.target, textureId := some textureId } }
    match s.ownedTexture with
    | some old => owning.setStage operation (.releasingOld old)
    | none => owning.setStage operation .refreshing
  else given.setStage operation (.releasingNew textureId)

/-- `_create` returned null or failed. -/
def createdNothing (s : Controller) (operation : Operation) : Controller :=
  let ended := s.setStage operation .ended
  if s.accepts operation.generation operation.target then ended.publishFailed operation.target
  else ended

/-- `_release` returned or failed. -/
def releasedTexture (s : Controller) (operation : Operation) (texture : Texture) : Controller :=
  let given := { s with released := texture ::ₘ s.released }
  match operation.stage with
  | .releasingOld _ =>
      if s.accepts operation.generation operation.target then given.setStage operation .refreshing
      else given.setStage operation .ended
  | _ => given.setStage operation .ended

def refreshed (s : Controller) (operation : Operation) : Controller :=
  s.setStage operation .ended

/-- `_refresh` failed. -/
def refreshFailed (s : Controller) (operation : Operation) : Controller :=
  let ended := s.setStage operation .ended
  if s.desiredTarget = some operation.target then ended.publishFailed operation.target else ended

/-- The future of an operation completes and leaves `_operations`. -/
def finish (s : Controller) (operation : Operation) : Controller :=
  { s with
    operations := s.operations.erase operation
    createFuture := if s.createFuture = some operation.id then none else s.createFuture }

/-- The texture a retirement releases is released. -/
def retirementReleased (s : Controller) (retirement : Retirement) (texture : Texture) :
    Controller :=
  { s with
    retireFuture := some { retirement with releasing := none }
    released := texture ::ₘ s.released }

/-- A retirement found no operations. -/
def retired (s : Controller) : Controller := { s with retireFuture := none }

/-- A deferred call is made again. -/
def resume (s : Controller) (call : Deferred) : Controller :=
  (requireTarget { s with deferred := s.deferred.erase call } call.target call.intentEpoch).2

/-- The call is noted unless it is refused. -/
def noteCall (s : Controller) (call : Call) (intentEpoch : Option ℕ) : Controller :=
  if s.refuses intentEpoch then s else { s with lastCall := some call }

end Controller

/-- The texture an operation releases. -/
def Operation.releasing (operation : Operation) : Option Texture :=
  match operation.stage with
  | .releasingNew textureId => some ⟨operation.target, textureId⟩
  | .releasingOld old => some old
  | _ => none

/-! ## Interleavings -/

inductive Event
  | requireTarget (target : AndroidTextureTarget) (intentEpoch : Option ℕ)
  | retire (intentEpoch : Option ℕ)
  | producerFrame (display width height : ℤ) (active : Bool)
  | createdTexture (operation : Operation) (textureId : ℤ)
  | createdNothing (operation : Operation)
  | releasedTexture (operation : Operation)
  | refreshed (operation : Operation)
  | refreshFailed (operation : Operation)
  | finish (operation : Operation)
  | retirementReleased
  | retired
  | resume (call : Deferred)
deriving DecidableEq, Repr

inductive Step : Controller → Event → Controller → Prop
  | requireTarget {s : Controller} {target : AndroidTextureTarget} {intentEpoch : Option ℕ} :
      Step s (.requireTarget target intentEpoch)
        ((s.noteCall .requireTarget intentEpoch).requireTarget target intentEpoch).2
  | retire {s : Controller} {intentEpoch : Option ℕ} :
      Step s (.retire intentEpoch) ((s.noteCall .retire intentEpoch).retire intentEpoch).2
  | producerFrame {s : Controller} {display width height : ℤ} {active : Bool} :
      Step s (.producerFrame display width height active)
        (s.producerFrame display width height active).2
  | createdTexture {s : Controller} {operation : Operation} {textureId : ℤ}
      (hoperation : operation ∈ s.operations) (hstage : operation.stage = .creating) :
      Step s (.createdTexture operation textureId) (s.createdTexture operation textureId)
  | createdNothing {s : Controller} {operation : Operation}
      (hoperation : operation ∈ s.operations) (hstage : operation.stage = .creating) :
      Step s (.createdNothing operation) (s.createdNothing operation)
  | releasedTexture {s : Controller} {operation : Operation} {texture : Texture}
      (hoperation : operation ∈ s.operations) (hreleasing : operation.releasing = some texture) :
      Step s (.releasedTexture operation) (s.releasedTexture operation texture)
  | refreshed {s : Controller} {operation : Operation} (hoperation : operation ∈ s.operations)
      (hstage : operation.stage = .refreshing) :
      Step s (.refreshed operation) (s.refreshed operation)
  | refreshFailed {s : Controller} {operation : Operation} (hoperation : operation ∈ s.operations)
      (hstage : operation.stage = .refreshing) :
      Step s (.refreshFailed operation) (s.refreshFailed operation)
  | finish {s : Controller} {operation : Operation} (hoperation : operation ∈ s.operations)
      (hstage : operation.stage = .ended) : Step s (.finish operation) (s.finish operation)
  | retirementReleased {s : Controller} {retirement : Retirement} {texture : Texture}
      (hretirement : s.retireFuture = some retirement)
      (hreleasing : retirement.releasing = some texture) :
      Step s .retirementReleased (s.retirementReleased retirement texture)
  | retired {s : Controller} {retirement : Retirement}
      (hretirement : s.retireFuture = some retirement) (hreleasing : retirement.releasing = none)
      (hoperations : s.operations = 0) : Step s .retired s.retired
  | resume {s : Controller} {call : Deferred} (hcall : call ∈ s.deferred)
      (hretired : ∀ retirement ∈ s.retireFuture, retirement.id ≠ call.retirement) :
      Step s (.resume call) (s.resume call)

/-! ## What is asked of the targets -/

/-- One texture, if any. -/
def textures (texture : Option Texture) : Multiset Texture := (texture.map singleton).getD 0

/-- The textures on the way to be released. -/
def Controller.releasing (s : Controller) : Multiset Texture :=
  s.operations.filterMap Operation.releasing + textures (s.retireFuture.bind Retirement.releasing)

/-- Every texture that was created is owned, being released, or released once. -/
def Controller.Conserved (s : Controller) : Prop :=
  s.created = textures s.ownedTexture + s.releasing + s.released

/-- A ready snapshot carries the owned texture of the desired target. -/
def Controller.Shown (s : Controller) : Prop :=
  s.snapshot.phase = .ready → s.ownedTexture.isSome ∧ s.snapshot.target = s.desiredTarget ∧
    s.snapshot.target = s.ownedTarget ∧ s.snapshot.textureId = s.ownedTextureId

/-- All operations have completed. -/
def Controller.Quiet (s : Controller) : Prop :=
  s.operations = 0 ∧ s.retireFuture = none ∧ s.deferred = 0

/-- Nothing is owned, requested or shown. -/
structure Controller.Idle (s : Controller) : Prop where
  desiredTarget : s.desiredTarget = none
  ownedTarget : s.ownedTarget = none
  ownedTextureId : s.ownedTextureId = none
  snapshot : s.snapshot = .none

/-- The operation that makes the step. -/
def Event.operation : Event → Option Operation
  | .createdTexture operation _ | .createdNothing operation | .releasedTexture operation
  | .refreshed operation | .refreshFailed operation | .finish operation => some operation
  | _ => none

/-- A step that conserves the textures and keeps to the last intent. -/
structure SoundStep (s : Controller) (event : Event) (s' : Controller) : Prop where
  step : Step s event s'
  conserved : s'.Conserved
  shown : s'.Shown
  fenced : ∀ operation ∈ event.operation, operation.generation ≠ s.generation →
    s'.snapshot = s.snapshot
  required : s'.Quiet → s'.desiredTarget ≠ none ∨ s'.ownedTexture ≠ none →
    s'.lastCall = some .requireTarget
  retired : s'.Quiet → s'.lastCall = some .retire →
    s'.ownedTexture = none ∧ s'.snapshot = .none

/-- The refresh of an earlier request fails when a later one desires its target again. -/
def Controller.Revisited (s : Controller) (event : Event) : Prop :=
  ∃ operation, event = .refreshFailed operation ∧ operation.generation ≠ s.generation ∧
    s.desiredTarget = some operation.target

/-- A deferred call is made again, neither refused nor deferred once more, where
the last call is not a `requireTarget`. -/
def Controller.Overtaken (s : Controller) (event : Event) : Prop :=
  ∃ call, event = .resume call ∧ s.refuses call.intentEpoch = false ∧ s.retireFuture = none ∧
    s.lastCall ≠ some .requireTarget

/-- A step that is neither. -/
structure OrderedStep (s : Controller) (event : Event) (s' : Controller) : Prop where
  step : Step s event s'
  revisited : ¬ s.Revisited event
  overtaken : ¬ s.Overtaken event

end RustAdmin.Viewer.RenderTarget
