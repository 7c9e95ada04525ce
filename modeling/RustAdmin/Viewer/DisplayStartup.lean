import Mathlib.Data.List.Sort
import RustAdmin.Support.BinarySearch
import RustAdmin.Support.LinkedMap
import RustAdmin.Viewer.StartupRecovery

/-!
# The startup of displays

`DisplayStartupController` of `src/src/client/io_loop.rs` decides which video frames the
viewer takes: those of displays it wants, of no older stream, and from a keyframe on.
What it knows of a display lasts for one activation, and the renderer looks at an atomic
of the activation to see whether its stream is still wanted.

## Strategy

An activation is named by the place of its atomic, and places are never used again
(`Evolves`).  So what is said about an activation can be kept by place: `Consistent`
says what its atomic holds, and `Logged` what its state knows of the frames taken for
it.  Intents are folds of `retire` and `ensure`, each with a lemma for the display it
is about and the others.  A frame is rejected without a trace or observed
(`call_observeFrame_cases`), and `Observes` names all that an observed frame does, so
`Sound.accept` need not unfold it.
-/

namespace RustAdmin.Viewer.DisplayStartup

open RustAdmin.Support

/-! ## Intents -/

structure DisplayActivation where
  display : ℕ
  generation : ℕ
deriving DecidableEq, Repr

/-- An intent.  Its displays come from an ordered map, and are searched by halving. -/
structure DisplayMediaIntent where
  logicalSessionGeneration : ℕ
  aggregateGeneration : ℕ
  displays : List DisplayActivation
  sorted : (displays.map DisplayActivation.display).Pairwise (· < ·)

def DisplayMediaIntent.activation (intent : DisplayMediaIntent) (display : ℕ) :
    Option DisplayActivation :=
  (binarySearch (intent.displays.map DisplayActivation.display) display).bind (intent.displays[·]?)

/-! ## The controller -/

/-- `renderStreamId` is the place of the shared atomic among those of the controller, and so
names the activation. -/
structure DisplayStartupState where
  activationGeneration : ℕ
  streamId : ℕ := 0
  renderStreamId : ℕ
  firstFrameReceived : Bool := false
  receivedFrameId : ℕ := 0
  recovery : StartupRecovery := {}
deriving DecidableEq, Repr

/-- `begin_stream`: the stream that was expected instead, or whether it changed. -/
def DisplayStartupState.beginStream (state : DisplayStartupState) (streamId now : ℕ) :
    Except ℕ (DisplayStartupState × Bool) :=
  if state.streamId = streamId then .ok (state, false)
  else if state.streamId ≠ 0 ∧ (streamId = 0 ∨ streamId < state.streamId) then
    .error state.streamId
  else
    .ok ({ state with
      streamId := streamId
      firstFrameReceived := false
      receivedFrameId := 0
      recovery := state.recovery.newStream now }, true)

inductive DisplayStartupFrameAction
  | rejectUndesired
  | rejectStaleStream (expectedStreamId : ℕ)
  | waitForKeyframe
  | accept (firstForDisplay streamChanged : Bool) (activationGeneration : ℕ)
deriving DecidableEq, Repr

/-- Bytes, frames, and whether there is a keyframe among them. -/
abbrev PayloadStats := ℕ × ℕ × Bool

def shouldWaitForStartupKeyframe (frameId : ℕ) (payloadStats : Option PayloadStats) : Bool :=
  frameId != 0 && payloadStats.any fun stats => !stats.2.2

structure DisplayStartupController where
  logicalSessionGeneration : ℕ := 0
  aggregateGeneration : ℕ := 0
  displays : LinkedMap ℕ DisplayStartupState := ∅
  /-- The values of the atomics that were made for the states. -/
  renderStreamIds : List ℕ := []

namespace DisplayStartupController

variable (c : DisplayStartupController)

/-- A new state, where the display has none. -/
def ensure (activation : DisplayActivation) : DisplayStartupController :=
  if c.displays.contains activation.display then c
  else
    { c with
      displays := c.displays.set activation.display
        { activationGeneration := activation.generation
          renderStreamId := c.renderStreamIds.length }
      renderStreamIds := c.renderStreamIds ++ [0] }

/-- A display is retired: its atomic becomes 0. -/
def retire (display : ℕ) : DisplayStartupController :=
  match c.displays.get? display with
  | some state =>
      { c with
        displays := c.displays.remove display
        renderStreamIds := c.renderStreamIds.set state.renderStreamId 0 }
  | none => c

/-- The displays whose activation an intent does not keep. -/
def retired (intent : DisplayMediaIntent) : List ℕ :=
  ((c.displays.entries.filter fun entry =>
    !(intent.activation entry.1).any fun activation =>
      activation.generation == entry.2.activationGeneration).map Prod.fst).insertionSort (· ≤ ·)

/-- `reconcile`, with the displays it retires. -/
def reconcile (intent : DisplayMediaIntent) : DisplayStartupController × List ℕ :=
  let retired := c.retired intent
  let activated := intent.displays.foldl ensure (retired.foldl retire c)
  ({ activated with
      logicalSessionGeneration := intent.logicalSessionGeneration
      aggregateGeneration := intent.aggregateGeneration }, retired)

/-- `observe_frame` -/
def observeFrame (display streamId frameId : ℕ) (payloadStats : Option PayloadStats) (now : ℕ) :
    DisplayStartupController × DisplayStartupFrameAction :=
  match c.displays.get? display with
  | none => (c, .rejectUndesired)
  | some state =>
      match state.beginStream streamId now with
      | .error expectedStreamId => (c, .rejectStaleStream expectedStreamId)
      | .ok (begun, streamChanged) =>
          let droppedDelta :=
            !begun.firstFrameReceived && shouldWaitForStartupKeyframe frameId payloadStats
          let received := { begun with
            receivedFrameId := max begun.receivedFrameId frameId
            recovery := begun.recovery.received (payloadStats.any fun stats => stats.2.2)
              droppedDelta now }
          let observed :=
            if droppedDelta then received else { received with firstFrameReceived := true }
          ({ c with
              displays := c.displays.set display observed
              renderStreamIds :=
                if streamChanged then c.renderStreamIds.set state.renderStreamId streamId
                else c.renderStreamIds },
            if droppedDelta then .waitForKeyframe
            else .accept (!begun.firstFrameReceived) streamChanged begun.activationGeneration)

end DisplayStartupController

/-! ## Runs -/

inductive Call
  | reconcile (intent : DisplayMediaIntent)
  | observeFrame (display streamId frameId : ℕ) (payloadStats : Option PayloadStats) (now : ℕ)

/-- A frame that was accepted, or for which a keyframe was awaited. -/
structure ObservedFrame where
  activation : ℕ
  streamId : ℕ
  accepted : Bool
deriving DecidableEq, Repr

/-- A controller with the displays of the latest intent and the frames it did not reject. -/
structure StartupRun where
  controller : DisplayStartupController := {}
  intended : List ℕ := []
  frames : List ObservedFrame := []

namespace StartupRun

/-- What a frame adds to the observed ones. -/
def observed (r : StartupRun) (display streamId : ℕ) (action : DisplayStartupFrameAction) :
    List ObservedFrame :=
  match r.controller.displays.get? display, action with
  | some state, .accept _ _ _ => [⟨state.renderStreamId, streamId, true⟩]
  | some state, .waitForKeyframe => [⟨state.renderStreamId, streamId, false⟩]
  | _, _ => []

def call (r : StartupRun) : Call → StartupRun
  | .reconcile intent =>
      { r with
        controller := (r.controller.reconcile intent).1
        intended := intent.displays.map DisplayActivation.display }
  | .observeFrame display streamId frameId payloadStats now =>
      let result := r.controller.observeFrame display streamId frameId payloadStats now
      { r with
        controller := result.1
        frames := r.frames ++ r.observed display streamId result.2 }

def after (calls : List Call) : StartupRun := calls.foldl call {}

theorem after_concat (calls : List Call) (c : Call) :
    after (calls ++ [c]) = (after calls).call c := by
  simp [after]

/-- The stream of the newest frame of an activation; 0 is that of no frame. -/
def newest (r : StartupRun) (activation : ℕ) : ℕ :=
  ((r.frames.filter fun frame => decide (frame.activation = activation)).getLast?.map
    ObservedFrame.streamId).getD 0

end StartupRun

/-! ## Activations and their atomics -/

/-- An activation that a display has. -/
def Current (c : DisplayStartupController) (activation : ℕ) : Prop :=
  ∃ display state, c.displays.get? display = some state ∧ state.renderStreamId = activation

/-- The atomic of a display holds its stream, and that of a retired activation 0. -/
structure Consistent (c : DisplayStartupController) : Prop where
  stream : ∀ display state, c.displays.get? display = some state →
    c.renderStreamIds[state.renderStreamId]? = some state.streamId
  distinct : ∀ display state, c.displays.get? display = some state →
    ∀ other state', c.displays.get? other = some state' →
      state.renderStreamId = state'.renderStreamId → display = other
  retired : ∀ (activation value : ℕ), c.renderStreamIds[activation]? = some value →
    ¬ Current c activation → value = 0

theorem Consistent.lt {c : DisplayStartupController} (h : Consistent c) {display : ℕ}
    {state : DisplayStartupState} (hstate : c.displays.get? display = some state) :
    state.renderStreamId < c.renderStreamIds.length :=
  (List.getElem?_eq_some_iff.mp (h.stream display state hstate)).1

/-- Activations do not come back. -/
structure Evolves (c c' : DisplayStartupController) : Prop where
  length_le : c.renderStreamIds.length ≤ c'.renderStreamIds.length
  current : ∀ activation < c.renderStreamIds.length, Current c' activation → Current c activation

theorem Evolves.refl (c : DisplayStartupController) : Evolves c c := ⟨le_refl _, fun _ _ h => h⟩

theorem Evolves.trans {a b c : DisplayStartupController} (hab : Evolves a b) (hbc : Evolves b c) :
    Evolves a c :=
  ⟨hab.length_le.trans hbc.length_le, fun activation hlt hcurrent =>
    hab.current activation hlt (hbc.current activation (hlt.trans_le hab.length_le) hcurrent)⟩

section Retire

variable {c : DisplayStartupController} {display : ℕ}

/-- Retiring a display forgets its state and nothing else. -/
theorem get?_retire (c : DisplayStartupController) (display other : ℕ) :
    (c.retire display).displays.get? other =
      if other = display then none else c.displays.get? other := by
  unfold DisplayStartupController.retire
  cases hstate : c.displays.get? display with
  | none =>
      dsimp only
      split
      · next heq =>
          rw [heq]
          exact hstate
      · rfl
  | some state => exact LinkedMap.get?_remove

theorem get?_of_retire {other : ℕ} {state : DisplayStartupState}
    (h : (c.retire display).displays.get? other = some state) :
    other ≠ display ∧ c.displays.get? other = some state := by
  rw [get?_retire] at h
  split at h
  · cases h
  · next hne => exact ⟨hne, h⟩

theorem evolves_retire (c : DisplayStartupController) (display : ℕ) :
    Evolves c (c.retire display) := by
  refine ⟨?_, fun activation _ hcurrent => ?_⟩
  · unfold DisplayStartupController.retire
    split
    · exact (List.length_set ..).ge
    · exact le_refl _
  · obtain ⟨other, state, hstate, heq⟩ := hcurrent
    exact ⟨other, state, (get?_of_retire hstate).2, heq⟩

theorem Consistent.retire (h : Consistent c) (display : ℕ) : Consistent (c.retire display) := by
  cases hgone : c.displays.get? display with
  | none =>
      have hsame : c.retire display = c := by
        unfold DisplayStartupController.retire
        rw [hgone]
      rw [hsame]
      exact h
  | some gone =>
      have hcells : (c.retire display).renderStreamIds =
          c.renderStreamIds.set gone.renderStreamId 0 := by
        unfold DisplayStartupController.retire
        rw [hgone]
      refine ⟨fun other state hstate => ?_, fun other state hstate other' state' hstate' => ?_,
        fun activation value hvalue hretired => ?_⟩
      · obtain ⟨hne, hother⟩ := get?_of_retire hstate
        have hcell : gone.renderStreamId ≠ state.renderStreamId := fun heq =>
          hne (h.distinct display gone hgone other state hother heq).symm
        rw [hcells, List.getElem?_set_ne hcell]
        exact h.stream other state hother
      · exact h.distinct other state (get?_of_retire hstate).2 other' state'
          (get?_of_retire hstate').2
      · by_cases hcell : gone.renderStreamId = activation
        · rw [hcells, hcell, List.getElem?_set_self'] at hvalue
          obtain ⟨_, -, hzero⟩ := Option.map_eq_some_iff.mp hvalue
          exact hzero.symm
        · rw [hcells, List.getElem?_set_ne hcell] at hvalue
          refine h.retired activation value hvalue ?_
          rintro ⟨other, state, hstate, heq⟩
          refine hretired ⟨other, state, ?_, heq⟩
          rw [get?_retire, if_neg]
          · exact hstate
          · rintro rfl
            obtain rfl : gone = state := Option.some.inj (hgone ▸ hstate)
            exact hcell heq

end Retire

section Ensure

variable {c : DisplayStartupController} {activation : DisplayActivation}

/-- The state of a display that has just been activated. -/
def fresh (c : DisplayStartupController) (activation : DisplayActivation) : DisplayStartupState :=
  { activationGeneration := activation.generation, renderStreamId := c.renderStreamIds.length }

theorem ensure_cases (c : DisplayStartupController) (activation : DisplayActivation) :
    c.ensure activation = c ∨
      c.displays.get? activation.display = none ∧ c.ensure activation = { c with
        displays := c.displays.set activation.display (fresh c activation)
        renderStreamIds := c.renderStreamIds ++ [0] } := by
  unfold DisplayStartupController.ensure
  split
  · exact .inl rfl
  · next hnone =>
      refine .inr ⟨?_, rfl⟩
      unfold LinkedMap.contains at hnone
      simpa using hnone

theorem get?_of_ensure {display : ℕ} {state : DisplayStartupState}
    (h : (c.ensure activation).displays.get? display = some state) :
    c.displays.get? display = some state ∨
      display = activation.display ∧ state = fresh c activation := by
  rcases ensure_cases c activation with heq | ⟨-, heq⟩
  · rw [heq] at h
    exact .inl h
  · rw [heq] at h
    dsimp only at h
    rw [LinkedMap.get?_set] at h
    split at h
    · next hdisplay => exact .inr ⟨hdisplay, (Option.some.inj h).symm⟩
    · exact .inl h

/-- An activation that is there stays. -/
theorem get?_ensure {display : ℕ} {state : DisplayStartupState}
    (h : c.displays.get? display = some state) :
    (c.ensure activation).displays.get? display = some state := by
  rcases ensure_cases c activation with heq | ⟨hnone, heq⟩
  · rw [heq]
    exact h
  · rw [heq]
    dsimp only
    rw [LinkedMap.get?_set, if_neg]
    · exact h
    · rintro rfl
      rw [hnone] at h
      cases h

theorem evolves_ensure (c : DisplayStartupController) (activation : DisplayActivation) :
    Evolves c (c.ensure activation) := by
  refine ⟨?_, fun i hlt hcurrent => ?_⟩
  · rcases ensure_cases c activation with heq | ⟨-, heq⟩
    · rw [heq]
    · rw [heq, List.length_append]
      exact Nat.le_add_right _ _
  · obtain ⟨display, state, hstate, hi⟩ := hcurrent
    rcases get?_of_ensure hstate with hold | ⟨-, rfl⟩
    · exact ⟨display, state, hold, hi⟩
    · exact absurd hi (ne_of_gt hlt)

theorem Consistent.ensure (h : Consistent c) (activation : DisplayActivation) :
    Consistent (c.ensure activation) := by
  rcases ensure_cases c activation with heq | ⟨hnone, heq⟩
  · rw [heq]
    exact h
  · have hcells : (c.ensure activation).renderStreamIds = c.renderStreamIds ++ [0] := by rw [heq]
    refine ⟨fun display state hstate => ?_,
      fun display state hstate other state' hstate' hcell => ?_,
      fun i value hvalue hretired => ?_⟩
    · rw [hcells]
      rcases get?_of_ensure hstate with hold | ⟨-, rfl⟩
      · rw [List.getElem?_append_left (h.lt hold)]
        exact h.stream display state hold
      · exact List.getElem?_concat_length
    · rcases get?_of_ensure hstate with hold | ⟨rfl, rfl⟩
      · rcases get?_of_ensure hstate' with hold' | ⟨rfl, rfl⟩
        · exact h.distinct display state hold other state' hold' hcell
        · exact absurd hcell (ne_of_lt (h.lt hold))
      · rcases get?_of_ensure hstate' with hold' | ⟨rfl, rfl⟩
        · exact absurd hcell.symm (ne_of_lt (h.lt hold'))
        · rfl
    · rw [hcells] at hvalue
      by_cases hlt : i < c.renderStreamIds.length
      · rw [List.getElem?_append_left hlt] at hvalue
        refine h.retired i value hvalue ?_
        rintro ⟨display, state, hstate, hi⟩
        exact hretired ⟨display, state, get?_ensure hstate, hi⟩
      · rw [List.getElem?_append_right (not_lt.mp hlt)] at hvalue
        have hmem := List.mem_of_getElem? hvalue
        exact List.mem_singleton.mp hmem

end Ensure

/-! ## The frames of an activation -/

/-- The states know the frames of their activations. -/
structure Logged (c : DisplayStartupController) (r : StartupRun) : Prop where
  consistent : Consistent c
  arrived : ∀ frame ∈ r.frames, frame.activation < c.renderStreamIds.length
  newest : ∀ display state, c.displays.get? display = some state →
    state.streamId = r.newest state.renderStreamId
  le_stream : ∀ display state, c.displays.get? display = some state →
    ∀ frame ∈ r.frames, frame.activation = state.renderStreamId → frame.streamId ≤ state.streamId
  first : ∀ display state, c.displays.get? display = some state →
    state.firstFrameReceived = true → ∃ frame ∈ r.frames,
      frame.activation = state.renderStreamId ∧ frame.streamId = state.streamId ∧
        frame.accepted = true

variable {c : DisplayStartupController} {r : StartupRun}

theorem Logged.retire (h : Logged c r) (display : ℕ) : Logged (c.retire display) r where
  consistent := h.consistent.retire display
  arrived frame hframe :=
    (h.arrived frame hframe).trans_le (evolves_retire c display).length_le
  newest other state hstate := h.newest other state (get?_of_retire hstate).2
  le_stream other state hstate := h.le_stream other state (get?_of_retire hstate).2
  first other state hstate := h.first other state (get?_of_retire hstate).2

/-- No frame has come for an activation that does not exist yet. -/
theorem newest_of_arrived (h : ∀ frame ∈ r.frames, frame.activation < c.renderStreamIds.length) :
    r.newest c.renderStreamIds.length = 0 := by
  have hnone : (r.frames.filter fun frame =>
      decide (frame.activation = c.renderStreamIds.length)) = [] := by
    rw [List.filter_eq_nil_iff]
    intro frame hframe
    rw [decide_eq_true_iff]
    exact ne_of_lt (h frame hframe)
  unfold StartupRun.newest
  rw [hnone]
  rfl

theorem Logged.ensure (h : Logged c r) (activation : DisplayActivation) :
    Logged (c.ensure activation) r := by
  refine ⟨h.consistent.ensure activation, fun frame hframe => ?_, fun display state hstate => ?_,
    fun display state hstate => ?_, fun display state hstate => ?_⟩
  · exact (h.arrived frame hframe).trans_le (evolves_ensure c activation).length_le
  · rcases get?_of_ensure hstate with hold | ⟨-, rfl⟩
    · exact h.newest display state hold
    · exact (newest_of_arrived h.arrived).symm
  · rcases get?_of_ensure hstate with hold | ⟨-, rfl⟩
    · exact h.le_stream display state hold
    · intro frame hframe hactivation
      exact absurd hactivation (ne_of_lt (h.arrived frame hframe))
  · rcases get?_of_ensure hstate with hold | ⟨-, rfl⟩
    · exact h.first display state hold
    · intro hfirst
      cases hfirst

theorem Logged.reconcile (h : Logged c r) (intent : DisplayMediaIntent) :
    Logged (c.reconcile intent).1 r := by
  have hretired : Logged ((c.retired intent).foldl DisplayStartupController.retire c) r :=
    List.foldlRecOn (motive := fun c => Logged c r) _ _ h fun _ hc display _ => hc.retire display
  have hensured : Logged (intent.displays.foldl DisplayStartupController.ensure
      ((c.retired intent).foldl DisplayStartupController.retire c)) r :=
    List.foldlRecOn (motive := fun c => Logged c r) _ _ hretired
      fun _ hc activation _ => hc.ensure activation
  exact ⟨⟨hensured.consistent.stream, hensured.consistent.distinct, hensured.consistent.retired⟩,
    hensured.arrived, hensured.newest, hensured.le_stream, hensured.first⟩

theorem evolves_reconcile (c : DisplayStartupController) (intent : DisplayMediaIntent) :
    Evolves c (c.reconcile intent).1 := by
  have hretired : Evolves c ((c.retired intent).foldl DisplayStartupController.retire c) :=
    List.foldlRecOn _ _ (.refl c) fun _ hc display _ => hc.trans (evolves_retire _ display)
  have hensured : Evolves c (intent.displays.foldl DisplayStartupController.ensure
      ((c.retired intent).foldl DisplayStartupController.retire c)) :=
    List.foldlRecOn _ _ hretired fun _ hc activation _ => hc.trans (evolves_ensure _ activation)
  exact ⟨hensured.length_le, hensured.current⟩

/-! ## What an intent keeps -/

theorem mem_retired_iff {intent : DisplayMediaIntent} {display : ℕ} :
    display ∈ c.retired intent ↔ ∃ state, c.displays.get? display = some state ∧
      ∀ activation ∈ intent.activation display,
        activation.generation ≠ state.activationGeneration := by
  unfold DisplayStartupController.retired
  rw [List.mem_insertionSort, List.mem_map]
  constructor
  · rintro ⟨⟨other, state⟩, hmem, rfl⟩
    obtain ⟨hentry, hgone⟩ := List.mem_filter.mp hmem
    refine ⟨state, LinkedMap.mem_entries_iff.mp hentry, fun activation hactivation => ?_⟩
    change intent.activation other = some activation at hactivation
    simpa [hactivation] using hgone
  · rintro ⟨state, hstate, hgone⟩
    refine ⟨(display, state), List.mem_filter.mpr ⟨LinkedMap.mem_entries_iff.mpr hstate, ?_⟩, rfl⟩
    cases hactivation : intent.activation display with
    | none => rfl
    | some activation => simpa [hactivation] using hgone activation hactivation

/-- An activation that the intent names is not touched. -/
theorem get?_reconcile_of_kept {intent : DisplayMediaIntent} {display : ℕ}
    {state : DisplayStartupState} (hstate : c.displays.get? display = some state)
    {activation : DisplayActivation} (hactivation : intent.activation display = some activation)
    (hkept : activation.generation = state.activationGeneration) :
    (c.reconcile intent).1.displays.get? display = some state := by
  have hretired : ((c.retired intent).foldl DisplayStartupController.retire c).displays.get?
      display = some state := by
    refine List.foldlRecOn (motive := fun (c : DisplayStartupController) =>
      c.displays.get? display = some state) _ _ hstate fun _ hc other hmem => ?_
    rw [get?_retire, if_neg]
    · exact hc
    · rintro rfl
      obtain ⟨state', hstate', hgone⟩ := mem_retired_iff.mp hmem
      obtain rfl : state = state' := Option.some.inj (hstate ▸ hstate')
      exact hgone activation hactivation hkept
  exact List.foldlRecOn (motive := fun (c : DisplayStartupController) =>
    c.displays.get? display = some state) intent.displays _ hretired
      fun _ hc _ _ => get?_ensure hc

theorem mem_of_activation {intent : DisplayMediaIntent} {display : ℕ}
    {activation : DisplayActivation} (h : intent.activation display = some activation) :
    activation ∈ intent.displays ∧ activation.display = display := by
  obtain ⟨place, hplace, hactivation⟩ := Option.bind_eq_some_iff.mp h
  have hdisplay := (binarySearch_eq_some_iff intent.sorted).mp hplace
  rw [List.getElem?_map, hactivation] at hdisplay
  exact ⟨List.mem_of_getElem? hactivation, Option.some.inj hdisplay⟩

theorem activation_of_mem {intent : DisplayMediaIntent} {activation : DisplayActivation}
    (hmem : activation ∈ intent.displays) :
    intent.activation activation.display = some activation := by
  obtain ⟨place, hplace⟩ := List.mem_iff_getElem?.mp hmem
  have hfound : binarySearch (intent.displays.map DisplayActivation.display)
      activation.display = some place := by
    rw [binarySearch_eq_some_iff intent.sorted, List.getElem?_map, hplace]
    rfl
  unfold DisplayMediaIntent.activation
  rw [hfound]
  exact hplace

/-- A display without a state gets none by retiring others. -/
theorem get?_foldl_retire_of_none {display : ℕ} (displays : List ℕ)
    (h : c.displays.get? display = none) :
    (displays.foldl DisplayStartupController.retire c).displays.get? display = none := by
  refine List.foldlRecOn (motive := fun (c : DisplayStartupController) =>
    c.displays.get? display = none) displays _ h fun _ hc other _ => ?_
  rw [get?_retire, hc, ite_self]

theorem get?_foldl_retire_of_mem {display : ℕ} {displays : List ℕ} (hmem : display ∈ displays)
    (c : DisplayStartupController) :
    (displays.foldl DisplayStartupController.retire c).displays.get? display = none := by
  induction displays generalizing c with
  | nil => cases hmem
  | cons first rest ih =>
      rcases List.mem_cons.mp hmem with rfl | hrest
      · refine get?_foldl_retire_of_none rest ?_
        rw [get?_retire, if_pos rfl]
      · exact ih hrest (c.retire first)

/-- After an intent only its displays have states. -/
theorem mem_of_get?_reconcile {intent : DisplayMediaIntent} {display : ℕ}
    {state : DisplayStartupState}
    (h : (c.reconcile intent).1.displays.get? display = some state) :
    display ∈ intent.displays.map DisplayActivation.display := by
  by_contra hnot
  have hactivation : intent.activation display = none := by
    cases hsome : intent.activation display with
    | none => rfl
    | some activation =>
        obtain ⟨hmem, rfl⟩ := mem_of_activation hsome
        exact absurd (List.mem_map_of_mem hmem) hnot
  have hretired : ((c.retired intent).foldl DisplayStartupController.retire c).displays.get?
      display = none := by
    cases hstate : c.displays.get? display with
    | none => exact get?_foldl_retire_of_none _ hstate
    | some old =>
        refine get?_foldl_retire_of_mem (mem_retired_iff.mpr ⟨old, hstate, ?_⟩) c
        rw [hactivation]
        intro activation hmem
        cases hmem
  have hnone : (intent.displays.foldl DisplayStartupController.ensure
      ((c.retired intent).foldl DisplayStartupController.retire c)).displays.get? display =
        none := by
    refine List.foldlRecOn (motive := fun (c : DisplayStartupController) =>
      c.displays.get? display = none) intent.displays _ hretired fun c hc activation hmem => ?_
    cases hsome : (c.ensure activation).displays.get? display with
    | none => rfl
    | some new =>
        rcases get?_of_ensure hsome with hold | ⟨rfl, -⟩
        · rw [hc] at hold
          cases hold
        · exact absurd (List.mem_map_of_mem hmem) hnot
  change (intent.displays.foldl DisplayStartupController.ensure
    ((c.retired intent).foldl DisplayStartupController.retire c)).displays.get? display =
      some state at h
  rw [hnone] at h
  cases h

/-! ## Observing a frame -/

/-- A stream that a state takes for its own. -/
structure Begins (state begun : DisplayStartupState) (streamId : ℕ) (changed : Bool) : Prop where
  streamId_eq : begun.streamId = streamId
  render_eq : begun.renderStreamId = state.renderStreamId
  ge : state.streamId ≤ streamId
  same : changed = false → state.streamId = streamId
  first : begun.firstFrameReceived = true → state.firstFrameReceived = true ∧ changed = false

theorem begins_of_ok {state begun : DisplayStartupState} {streamId now : ℕ} {changed : Bool}
    (h : state.beginStream streamId now = .ok (begun, changed)) :
    Begins state begun streamId changed := by
  unfold DisplayStartupState.beginStream at h
  split at h
  · next hsame =>
      obtain ⟨rfl, rfl⟩ := Prod.mk.inj (Except.ok.inj h)
      exact ⟨hsame, rfl, hsame.le, fun _ => hsame, fun hfirst => ⟨hfirst, rfl⟩⟩
  · split at h
    · cases h
    · next hne hnewer =>
        obtain ⟨rfl, rfl⟩ := Prod.mk.inj (Except.ok.inj h)
        exact ⟨rfl, rfl, by omega, nofun, nofun⟩

/-- A frame that is not rejected: the state with it, and what is done. -/
structure Observes (c : DisplayStartupController) (display streamId frameId : ℕ)
    (payloadStats : Option PayloadStats)
    (result : DisplayStartupController × DisplayStartupFrameAction)
    (state observed : DisplayStartupState) (accepted : Bool) : Prop where
  state_eq : c.displays.get? display = some state
  displays_eq : result.1.displays = c.displays.set display observed
  ids_eq : result.1.renderStreamIds = c.renderStreamIds.set state.renderStreamId streamId ∨
    result.1.renderStreamIds = c.renderStreamIds ∧ state.streamId = streamId
  streamId_eq : observed.streamId = streamId
  render_eq : observed.renderStreamId = state.renderStreamId
  ge : state.streamId ≤ streamId
  first : observed.firstFrameReceived = true → accepted = true ∨
    state.firstFrameReceived = true ∧ state.streamId = streamId
  action : accepted = true ∧ (∃ first changed generation,
      result.2 = .accept first changed generation) ∨
    accepted = false ∧ result.2 = .waitForKeyframe
  keyframe : accepted = true → (state.firstFrameReceived = true ∧ state.streamId = streamId) ∨
    shouldWaitForStartupKeyframe frameId payloadStats = false

theorem observeFrame_cases (c : DisplayStartupController) (display streamId frameId : ℕ)
    (payloadStats : Option PayloadStats) (now : ℕ) :
    c.observeFrame display streamId frameId payloadStats now = (c, .rejectUndesired) ∨
    (∃ expected, c.observeFrame display streamId frameId payloadStats now =
      (c, .rejectStaleStream expected)) ∨
    ∃ state observed accepted, Observes c display streamId frameId payloadStats
      (c.observeFrame display streamId frameId payloadStats now) state observed accepted := by
  unfold DisplayStartupController.observeFrame
  cases hstate : c.displays.get? display with
  | none => exact .inl rfl
  | some state =>
      refine .inr ?_
      dsimp only
      cases hbegin : state.beginStream streamId now with
      | error expected => exact .inl ⟨expected, rfl⟩
      | ok begun =>
          obtain ⟨begun, changed⟩ := begun
          have hbegins := begins_of_ok hbegin
          have hids : (if changed then c.renderStreamIds.set state.renderStreamId streamId
                else c.renderStreamIds) = c.renderStreamIds.set state.renderStreamId streamId ∨
              (if changed then c.renderStreamIds.set state.renderStreamId streamId
                else c.renderStreamIds) = c.renderStreamIds ∧ state.streamId = streamId := by
            cases changed with
            | true => exact .inl rfl
            | false => exact .inr ⟨rfl, hbegins.same rfl⟩
          have hfirst : begun.firstFrameReceived = true →
              state.firstFrameReceived = true ∧ state.streamId = streamId := by
            intro htrue
            obtain ⟨hstate, hchanged⟩ := hbegins.first htrue
            exact ⟨hstate, hbegins.same hchanged⟩
          refine .inr ?_
          dsimp only
          cases hdropped : !begun.firstFrameReceived &&
            shouldWaitForStartupKeyframe frameId payloadStats with
          | true =>
              exact ⟨state, _, false, hstate, rfl, hids, hbegins.streamId_eq, hbegins.render_eq,
                hbegins.ge, fun htrue => .inr (hfirst htrue), .inr ⟨rfl, rfl⟩, nofun⟩
          | false =>
              refine ⟨state, _, true, hstate, rfl, hids, hbegins.streamId_eq, hbegins.render_eq,
                hbegins.ge, fun _ => .inl rfl, .inl ⟨rfl, _, _, _, rfl⟩, fun _ => ?_⟩
              cases hbegun : begun.firstFrameReceived with
              | true => exact .inl (hfirst hbegun)
              | false =>
                  rw [hbegun] at hdropped
                  exact .inr hdropped

theorem newest_concat (r : StartupRun) (frame : ObservedFrame)
    (controller : DisplayStartupController) (activation : ℕ) :
    ({ r with controller := controller, frames := r.frames ++ [frame] } : StartupRun).newest
      activation =
        if frame.activation = activation then frame.streamId else r.newest activation := by
  unfold StartupRun.newest
  rw [List.filter_append, List.filter_singleton]
  by_cases h : frame.activation = activation
  · rw [if_pos h, decide_eq_true h]
    simp
  · rw [if_neg h, decide_eq_false h]
    simp

section Observe

variable {display streamId frameId : ℕ} {payloadStats : Option PayloadStats}
  {result : DisplayStartupController × DisplayStartupFrameAction}
  {state observed : DisplayStartupState} {accepted : Bool}

theorem Observes.get?_eq
    (h : Observes c display streamId frameId payloadStats result state observed accepted)
    (other : ℕ) : result.1.displays.get? other =
      if other = display then some observed else c.displays.get? other := by
  rw [h.displays_eq, LinkedMap.get?_set]

/-- A state after the frame is that of the display, or another one as before. -/
theorem Observes.cases
    (h : Observes c display streamId frameId payloadStats result state observed accepted)
    {other : ℕ} {state' : DisplayStartupState}
    (hstate : result.1.displays.get? other = some state') :
    other = display ∧ state' = observed ∨
      other ≠ display ∧ c.displays.get? other = some state' := by
  rw [h.get?_eq] at hstate
  split at hstate
  · next heq => exact .inl ⟨heq, (Option.some.inj hstate).symm⟩
  · next hne => exact .inr ⟨hne, hstate⟩

theorem Observes.getElem?_ids (hconsistent : Consistent c)
    (h : Observes c display streamId frameId payloadStats result state observed accepted) (i : ℕ) :
    result.1.renderStreamIds[i]? =
      if state.renderStreamId = i then some streamId else c.renderStreamIds[i]? := by
  have hlt := hconsistent.lt h.state_eq
  rcases h.ids_eq with heq | ⟨heq, hsame⟩
  · rw [heq, List.getElem?_set]
    split <;> rfl
  · rw [heq]
    split
    · next hi =>
        rw [← hi, ← hsame]
        exact hconsistent.stream display state h.state_eq
    · rfl

theorem Observes.current_iff
    (h : Observes c display streamId frameId payloadStats result state observed accepted)
    (activation : ℕ) : Current result.1 activation ↔ Current c activation := by
  constructor
  · rintro ⟨other, state', hstate, hi⟩
    rcases h.cases hstate with ⟨rfl, rfl⟩ | ⟨-, hold⟩
    · exact ⟨other, state, h.state_eq, h.render_eq ▸ hi⟩
    · exact ⟨other, state', hold, hi⟩
  · rintro ⟨other, state', hstate, hi⟩
    by_cases hother : other = display
    · refine ⟨other, observed, by rw [h.get?_eq, if_pos hother], ?_⟩
      obtain rfl : state = state' := Option.some.inj (h.state_eq ▸ hother ▸ hstate)
      rw [h.render_eq]
      exact hi
    · exact ⟨other, state', by rw [h.get?_eq, if_neg hother]; exact hstate, hi⟩

theorem Observes.evolves
    (h : Observes c display streamId frameId payloadStats result state observed accepted) :
    Evolves c result.1 := by
  refine ⟨?_, fun activation _ hcurrent => (h.current_iff activation).mp hcurrent⟩
  rcases h.ids_eq with heq | ⟨heq, -⟩
  · rw [heq, List.length_set]
  · rw [heq]

theorem Observes.consistent (hconsistent : Consistent c)
    (h : Observes c display streamId frameId payloadStats result state observed accepted) :
    Consistent result.1 := by
  have hids := h.getElem?_ids hconsistent
  refine ⟨fun other state' hstate => ?_, fun first state₁ hfirst second state₂ hsecond heq => ?_,
    fun i value hvalue hretired => ?_⟩
  · rw [hids]
    rcases h.cases hstate with ⟨-, rfl⟩ | ⟨hne, hold⟩
    · rw [if_pos h.render_eq.symm, h.streamId_eq]
    · rw [if_neg]
      · exact hconsistent.stream other state' hold
      · intro heq
        exact hne (hconsistent.distinct display state h.state_eq other state' hold heq).symm
  · rcases h.cases hfirst with ⟨rfl, rfl⟩ | ⟨hne, hfirst⟩
    · rcases h.cases hsecond with ⟨rfl, rfl⟩ | ⟨hne, hsecond⟩
      · rfl
      · exact hconsistent.distinct _ state h.state_eq _ state₂ hsecond (h.render_eq ▸ heq)
    · rcases h.cases hsecond with ⟨rfl, rfl⟩ | ⟨-, hsecond⟩
      · exact hconsistent.distinct _ state₁ hfirst _ state h.state_eq (h.render_eq ▸ heq)
      · exact hconsistent.distinct _ state₁ hfirst _ state₂ hsecond heq
  · rw [h.current_iff] at hretired
    rw [hids, if_neg] at hvalue
    · exact hconsistent.retired i value hvalue hretired
    · intro heq
      exact hretired ⟨display, state, h.state_eq, heq⟩

/-- An observed frame is the newest of its activation. -/
theorem Logged.observe (hlogged : Logged r.controller r)
    (h : Observes r.controller display streamId frameId payloadStats result state observed
      accepted) :
    Logged result.1 { r with
      controller := result.1
      frames := r.frames ++ [⟨state.renderStreamId, streamId, accepted⟩] } := by
  have hconsistent := hlogged.consistent
  have hother : ∀ other state', other ≠ display → r.controller.displays.get? other = some state' →
      state.renderStreamId ≠ state'.renderStreamId := fun other state' hne hold heq =>
    hne (hconsistent.distinct display state h.state_eq other state' hold heq).symm
  refine ⟨h.consistent hconsistent, fun frame hframe => ?_, fun other state' hstate => ?_,
    fun other state' hstate frame hframe hactivation => ?_, fun other state' hstate hfirst => ?_⟩
  · refine lt_of_lt_of_le ?_ h.evolves.length_le
    rcases List.mem_append.mp hframe with hold | hnew
    · exact hlogged.arrived frame hold
    · rw [List.mem_singleton.mp hnew]
      exact hconsistent.lt h.state_eq
  · rw [newest_concat]
    rcases h.cases hstate with ⟨-, rfl⟩ | ⟨hne, hold⟩
    · rw [if_pos h.render_eq.symm, h.streamId_eq]
    · rw [if_neg (hother other state' hne hold)]
      exact hlogged.newest other state' hold
  · rcases h.cases hstate with ⟨-, rfl⟩ | ⟨hne, hold⟩
    · rw [h.streamId_eq]
      rw [h.render_eq] at hactivation
      rcases List.mem_append.mp hframe with hframe | hnew
      · exact (hlogged.le_stream display state h.state_eq frame hframe hactivation).trans h.ge
      · rw [List.mem_singleton.mp hnew]
    · rcases List.mem_append.mp hframe with hframe | hnew
      · exact hlogged.le_stream other state' hold frame hframe hactivation
      · rw [List.mem_singleton.mp hnew] at hactivation
        exact absurd hactivation (hother other state' hne hold)
  · rcases h.cases hstate with ⟨-, rfl⟩ | ⟨-, hold⟩
    · rw [h.render_eq, h.streamId_eq]
      rcases h.first hfirst with rfl | ⟨hfirst, hsame⟩
      · exact ⟨_, List.mem_append_right _ (List.mem_singleton_self _), rfl, rfl, rfl⟩
      · obtain ⟨frame, hframe, hactivation, hstream, haccepted⟩ :=
          hlogged.first display state h.state_eq hfirst
        exact ⟨frame, List.mem_append_left _ hframe, hactivation, hstream.trans hsame, haccepted⟩
    · obtain ⟨frame, hframe, hfacts⟩ := hlogged.first other state' hold hfirst
      exact ⟨frame, List.mem_append_left _ hframe, hfacts⟩

end Observe

/-! ## Every run -/

/-- Only displays of the latest intent have states, and these know their frames. -/
structure Sound (r : StartupRun) : Prop where
  logged : Logged r.controller r
  intended : ∀ display state, r.controller.displays.get? display = some state →
    display ∈ r.intended

theorem sound_start : Sound {} := by
  have hnone : ∀ {display : ℕ} {state : DisplayStartupState},
      ({} : StartupRun).controller.displays.get? display = some state → False := by
    intro display state hstate
    rw [show ({} : StartupRun).controller.displays.get? display = none from
      LinkedMap.get?_empty] at hstate
    cases hstate
  have hids : ({} : StartupRun).controller.renderStreamIds = [] := rfl
  refine ⟨⟨⟨?_, ?_, ?_⟩, ?_, ?_, ?_, ?_⟩, ?_⟩
  · exact fun _ _ hstate => (hnone hstate).elim
  · exact fun _ _ hstate => (hnone hstate).elim
  · intro activation value hvalue
    rw [hids] at hvalue
    cases hvalue
  · intro frame hmem
    cases hmem
  · exact fun _ _ hstate => (hnone hstate).elim
  · exact fun _ _ hstate => (hnone hstate).elim
  · exact fun _ _ hstate => (hnone hstate).elim
  · exact fun _ _ hstate => (hnone hstate).elim

/-- What an observed frame leaves in the log. -/
theorem Observes.observed_eq {display streamId frameId : ℕ} {payloadStats : Option PayloadStats}
    {result : DisplayStartupController × DisplayStartupFrameAction}
    {state observed : DisplayStartupState} {accepted : Bool}
    (h : Observes r.controller display streamId frameId payloadStats result state observed
      accepted) :
    r.observed display streamId result.2 = [⟨state.renderStreamId, streamId, accepted⟩] := by
  unfold StartupRun.observed
  rw [h.state_eq]
  rcases h.action with ⟨rfl, first, changed, generation, haction⟩ | ⟨rfl, haction⟩
  · rw [haction]
  · rw [haction]

/-- A frame that was rejected leaves nothing. -/
theorem observed_of_reject {display streamId : ℕ} {action : DisplayStartupFrameAction}
    (h : action = .rejectUndesired ∨ ∃ expected, action = .rejectStaleStream expected) :
    r.observed display streamId action = [] := by
  unfold StartupRun.observed
  rcases h with rfl | ⟨expected, rfl⟩
  · cases r.controller.displays.get? display <;> rfl
  · cases r.controller.displays.get? display <;> rfl

/-- A frame is rejected without a trace, or observed. -/
theorem call_observeFrame_cases (r : StartupRun) (display streamId frameId : ℕ)
    (payloadStats : Option PayloadStats) (now : ℕ) :
    r.call (.observeFrame display streamId frameId payloadStats now) = r ∨
    ∃ result state observed accepted,
      Observes r.controller display streamId frameId payloadStats result state observed accepted ∧
      r.call (.observeFrame display streamId frameId payloadStats now) = { r with
        controller := result.1
        frames := r.frames ++ [⟨state.renderStreamId, streamId, accepted⟩] } := by
  have hcall : r.call (.observeFrame display streamId frameId payloadStats now) = { r with
      controller :=
        (r.controller.observeFrame display streamId frameId payloadStats now).1
      frames := r.frames ++ r.observed display streamId
        (r.controller.observeFrame display streamId frameId payloadStats now).2 } := rfl
  rcases observeFrame_cases r.controller display streamId frameId payloadStats now with
    heq | ⟨expected, heq⟩ | ⟨state, observed, accepted, h⟩
  · rw [hcall, heq, observed_of_reject (.inl rfl), List.append_nil]
    exact .inl rfl
  · rw [hcall, heq, observed_of_reject (.inr ⟨expected, rfl⟩), List.append_nil]
    exact .inl rfl
  · rw [hcall, h.observed_eq]
    exact .inr ⟨_, state, observed, accepted, h, rfl⟩

theorem Sound.call (h : Sound r) (c : Call) : Sound (r.call c) := by
  cases c with
  | reconcile intent =>
      have hlogged := h.logged.reconcile intent
      exact ⟨⟨hlogged.consistent, hlogged.arrived, hlogged.newest, hlogged.le_stream,
        hlogged.first⟩, fun display state hstate => mem_of_get?_reconcile hstate⟩
  | observeFrame display streamId frameId payloadStats now =>
      rcases call_observeFrame_cases r display streamId frameId payloadStats now with
        heq | ⟨result, state, observed, accepted, hobserves, heq⟩
      · rw [heq]
        exact h
      · rw [heq]
        refine ⟨h.logged.observe hobserves, fun other state' hstate => ?_⟩
        rcases hobserves.cases hstate with ⟨rfl, -⟩ | ⟨-, hold⟩
        · exact h.intended other state hobserves.state_eq
        · exact h.intended other state' hold

theorem sound_after (calls : List Call) : Sound (.after calls) := by
  induction calls using List.reverseRecOn with
  | nil => exact sound_start
  | append_singleton calls c ih =>
      rw [StartupRun.after_concat]
      exact ih.call c

theorem evolves_call (r : StartupRun) (c : Call) : Evolves r.controller (r.call c).controller := by
  cases c with
  | reconcile intent => exact evolves_reconcile r.controller intent
  | observeFrame display streamId frameId payloadStats now =>
      rcases call_observeFrame_cases r display streamId frameId payloadStats now with
        heq | ⟨result, state, observed, accepted, hobserves, heq⟩
      · rw [heq]
        exact .refl _
      · rw [heq]
        exact hobserves.evolves

theorem evolves_after (calls rest : List Call) :
    Evolves (StartupRun.after calls).controller (StartupRun.after (calls ++ rest)).controller := by
  induction rest using List.reverseRecOn with
  | nil =>
      rw [List.append_nil]
      exact .refl _
  | append_singleton rest c ih =>
      rw [← List.append_assoc, StartupRun.after_concat]
      exact ih.trans (evolves_call _ c)

/-- An activation that is retired stays so, and its atomic with it. -/
theorem retired_after {calls : List Call} {activation : ℕ}
    (hlt : activation < (StartupRun.after calls).controller.renderStreamIds.length)
    (hretired : ¬ Current (StartupRun.after calls).controller activation) (rest : List Call) :
    (StartupRun.after (calls ++ rest)).controller.renderStreamIds[activation]? = some 0 := by
  have hevolves := evolves_after calls rest
  have hget := List.getElem?_eq_getElem (hlt.trans_le hevolves.length_le)
  have hzero := (sound_after (calls ++ rest)).logged.consistent.retired activation _ hget
    fun hcurrent => hretired (hevolves.current activation hlt hcurrent)
  rw [hget, hzero]

/-- An accepted frame belongs to an intended display and continues its activation; the first
one of a stream is a keyframe as far as one can tell. -/
theorem Sound.accept (h : Sound r) {display streamId frameId now generation : ℕ}
    {payloadStats : Option PayloadStats} {first changed : Bool}
    (haccept : (r.controller.observeFrame display streamId frameId payloadStats now).2 =
      .accept first changed generation) :
    display ∈ r.intended ∧ ∃ state, r.controller.displays.get? display = some state ∧
      (∀ frame ∈ r.frames, frame.activation = state.renderStreamId →
        frame.streamId ≤ streamId) ∧
      ((∀ frame ∈ r.frames, frame.activation = state.renderStreamId → frame.accepted = true →
          frame.streamId ≠ streamId) →
        frameId ≠ 0 → ∀ stats ∈ payloadStats, stats.2.2 = true) := by
  rcases observeFrame_cases r.controller display streamId frameId payloadStats now with
    heq | ⟨expected, heq⟩ | ⟨state, observed, accepted, hobserves⟩
  · rw [heq] at haccept
    cases haccept
  · rw [heq] at haccept
    cases haccept
  · obtain rfl : accepted = true := by
      rcases hobserves.action with ⟨htrue, -⟩ | ⟨-, hwait⟩
      · exact htrue
      · rw [hwait] at haccept
        cases haccept
    refine ⟨h.intended display state hobserves.state_eq, state, hobserves.state_eq,
      fun frame hframe hactivation => ?_, fun hfirst hstamped stats hstats => ?_⟩
    · exact (h.logged.le_stream display state hobserves.state_eq frame hframe hactivation).trans
        hobserves.ge
    · rcases hobserves.keyframe rfl with ⟨hreceived, hsame⟩ | hready
      · -- then the stream has had its first frame
        obtain ⟨frame, hframe, hactivation, hstream, haccepted⟩ :=
          h.logged.first display state hobserves.state_eq hreceived
        exact absurd (hstream.trans hsame) (hfirst frame hframe hactivation haccepted)
      · rw [Option.mem_def.mp hstats] at hready
        simpa [shouldWaitForStartupKeyframe, hstamped] using hready

/-- **The startup of displays.**  Frames are accepted of intended displays only, in an
activation with streams that never decrease and from a keyframe on; an intent leaves an
activation it keeps as it is; and the atomic of an activation names its newest stream as
long as it lasts, and then nothing. -/
theorem displayStartup_admits (calls : List Call) :
    let r := StartupRun.after calls
    (∀ display streamId frameId payloadStats now first changed generation,
      (r.controller.observeFrame display streamId frameId payloadStats now).2 =
          .accept first changed generation →
        display ∈ r.intended ∧ ∃ state, r.controller.displays.get? display = some state ∧
          (∀ frame ∈ r.frames, frame.activation = state.renderStreamId →
            frame.streamId ≤ streamId) ∧
          ((∀ frame ∈ r.frames, frame.activation = state.renderStreamId → frame.accepted = true →
              frame.streamId ≠ streamId) →
            frameId ≠ 0 → ∀ stats ∈ payloadStats, stats.2.2 = true)) ∧
    (∀ (intent : DisplayMediaIntent) display state activation,
      r.controller.displays.get? display = some state →
      intent.activation display = some activation →
      activation.generation = state.activationGeneration →
        (r.controller.reconcile intent).1.displays.get? display = some state) ∧
    ∀ activation value, r.controller.renderStreamIds[activation]? = some value →
      (Current r.controller activation → value = r.newest activation) ∧
      (¬ Current r.controller activation → ∀ rest,
        (StartupRun.after (calls ++ rest)).controller.renderStreamIds[activation]? = some 0) := by
  have hsound := sound_after calls
  refine ⟨fun display streamId frameId payloadStats now first changed generation haccept =>
      hsound.accept haccept,
    fun intent display state activation hstate hactivation hkept =>
      get?_reconcile_of_kept hstate hactivation hkept,
    fun activation value hvalue => ⟨?_, fun hretired => ?_⟩⟩
  · rintro ⟨display, state, hstate, rfl⟩
    have hstream := hsound.logged.consistent.stream display state hstate
    rw [hvalue] at hstream
    rw [Option.some.inj hstream]
    exact hsound.logged.newest display state hstate
  · exact retired_after (List.getElem?_eq_some_iff.mp hvalue).1 hretired

end RustAdmin.Viewer.DisplayStartup
