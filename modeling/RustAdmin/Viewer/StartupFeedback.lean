import RustAdmin.Viewer.DisplayStartup
import RustAdmin.Viewer.Feedback

/-!
# The startup controller of the feedback

`Viewer/Feedback` follows what the viewer reports, with a startup controller that keeps
no timers.  It is the controller of `Viewer/DisplayStartup` with its recovery forgotten:
both take the same frames and retire the same displays.

`forget` maps the states of one controller to those of the other, and each operation
commutes with it.  The order in which an intent retires displays differs between the
two, so `retire_comm` and `retired_perm` make it irrelevant.
-/

namespace RustAdmin.Viewer.DisplayStartup

open RustAdmin.Support

/-! ## What is forgotten -/

def DisplayMediaIntent.forget (intent : DisplayMediaIntent) : Feedback.DisplayMediaIntent where
  logicalSessionGeneration := intent.logicalSessionGeneration
  aggregateGeneration := intent.aggregateGeneration
  displays := ⟨intent.displays.map fun activation => (activation.display, activation.generation),
    by
      rw [List.map_map]
      exact intent.sorted.imp fun hlt => hlt.ne⟩

def DisplayStartupState.forget (state : DisplayStartupState) : Feedback.DisplayStartupState where
  activationGeneration := state.activationGeneration
  streamId := state.streamId
  renderStreamId := state.renderStreamId
  firstFrameReceived := state.firstFrameReceived
  receivedFrameId := state.receivedFrameId

def DisplayStartupFrameAction.forget :
    DisplayStartupFrameAction → Feedback.DisplayStartupFrameAction
  | .rejectUndesired => .rejectUndesired
  | .rejectStaleStream expectedStreamId => .rejectStaleStream expectedStreamId
  | .waitForKeyframe => .waitForKeyframe
  | .accept firstForDisplay streamChanged activationGeneration =>
      .accept firstForDisplay streamChanged activationGeneration

def DisplayStartupController.forget (c : DisplayStartupController) :
    Feedback.DisplayStartupController where
  logicalSessionGeneration := c.logicalSessionGeneration
  aggregateGeneration := c.aggregateGeneration
  displays := c.displays.map DisplayStartupState.forget
  renderStreamIds := c.renderStreamIds

/-! ## Frames -/

theorem forget_beginStream (state : DisplayStartupState) (streamId now : ℕ) :
    (state.beginStream streamId now).map (Prod.map DisplayStartupState.forget id) =
      state.forget.beginStream streamId := by
  unfold DisplayStartupState.beginStream Feedback.DisplayStartupState.beginStream
  by_cases hsame : state.streamId = streamId
  · rw [if_pos hsame, if_pos (show state.forget.streamId = streamId from hsame)]
    rfl
  · rw [if_neg hsame, if_neg (show ¬ state.forget.streamId = streamId from hsame)]
    by_cases hstale : state.streamId ≠ 0 ∧ (streamId = 0 ∨ streamId < state.streamId)
    · rw [if_pos hstale, if_pos (show state.forget.streamId ≠ 0 ∧
        (streamId = 0 ∨ streamId < state.forget.streamId) from hstale)]
      rfl
    · rw [if_neg hstale, if_neg (show ¬ (state.forget.streamId ≠ 0 ∧
        (streamId = 0 ∨ streamId < state.forget.streamId)) from hstale)]
      rfl

/-- Of the payload only its keyframe matters. -/
theorem shouldWait_eq (frameId : ℕ) (payloadStats : Option PayloadStats) :
    Feedback.shouldWaitForStartupKeyframe frameId (payloadStats.map fun stats => stats.2.2) =
      shouldWaitForStartupKeyframe frameId payloadStats := by
  unfold Feedback.shouldWaitForStartupKeyframe shouldWaitForStartupKeyframe
  cases payloadStats with
  | none => rfl
  | some stats => cases h : stats.2.2 <;> simp [h]

/-- Both controllers take the same frames, and change in the same way. -/
theorem forget_observeFrame (c : DisplayStartupController) (display streamId frameId : ℕ)
    (payloadStats : Option PayloadStats) (now : ℕ) :
    c.forget.observeFrame display streamId frameId (payloadStats.map fun stats => stats.2.2) =
      ((c.observeFrame display streamId frameId payloadStats now).1.forget,
        (c.observeFrame display streamId frameId payloadStats now).2.forget) := by
  unfold Feedback.DisplayStartupController.observeFrame DisplayStartupController.observeFrame
  have hget : c.forget.displays.get? display =
      (c.displays.get? display).map DisplayStartupState.forget := LinkedMap.get?_map
  rw [hget]
  cases hstate : c.displays.get? display with
  | none => rfl
  | some state =>
      have hbegin := forget_beginStream state streamId now
      dsimp only [Option.map_some]
      rw [← hbegin]
      cases hbegun : state.beginStream streamId now with
      | error expectedStreamId => rfl
      | ok result =>
          obtain ⟨begun, streamChanged⟩ := result
          simp only [Except.map, Prod.map, id, shouldWait_eq]
          unfold DisplayStartupController.forget
          simp only [LinkedMap.map_set]
          have hfirst : begun.forget.firstFrameReceived = begun.firstFrameReceived := rfl
          rw [hfirst]
          cases !begun.firstFrameReceived && shouldWaitForStartupKeyframe frameId payloadStats with
          | false => rfl
          | true => rfl

/-! ## Intents -/

theorem forget_ensure (c : DisplayStartupController) (activation : DisplayActivation) :
    (c.ensure activation).forget =
      c.forget.ensure activation.display activation.generation := by
  have hcontains : c.forget.displays.contains activation.display =
      c.displays.contains activation.display := by
    unfold LinkedMap.contains
    rw [show c.forget.displays.get? activation.display = _ from LinkedMap.get?_map,
      Option.isSome_map]
  unfold DisplayStartupController.ensure Feedback.DisplayStartupController.ensure
  rw [hcontains]
  split
  · rfl
  · unfold DisplayStartupController.forget
    simp only [LinkedMap.map_set]
    rfl

theorem forget_retire (c : DisplayStartupController) (display : ℕ) :
    (c.retire display).forget = c.forget.retire display := by
  have hget : c.forget.displays.get? display =
      (c.displays.get? display).map DisplayStartupState.forget := LinkedMap.get?_map
  unfold DisplayStartupController.retire Feedback.DisplayStartupController.retire
  rw [hget]
  cases hstate : c.displays.get? display with
  | none => rfl
  | some state =>
      unfold DisplayStartupController.forget
      simp only [LinkedMap.map_remove]
      rfl

theorem retire_eq (c : Feedback.DisplayStartupController) (display : ℕ) :
    c.retire display = { c with
      displays := c.displays.remove display
      renderStreamIds := (c.displays.get? display).elim c.renderStreamIds fun state =>
        c.renderStreamIds.set state.renderStreamId 0 } := by
  unfold Feedback.DisplayStartupController.retire
  cases hstate : c.displays.get? display with
  | none =>
      rw [LinkedMap.remove_of_get?_eq_none hstate]
      rfl
  | some state => rfl

/-- The order in which displays are retired does not matter. -/
theorem retire_comm (c : Feedback.DisplayStartupController) (first second : ℕ) :
    (c.retire first).retire second = (c.retire second).retire first := by
  by_cases hsame : first = second
  · rw [hsame]
  · simp only [retire_eq, LinkedMap.get?_remove, if_neg hsame, if_neg (Ne.symm hsame),
      LinkedMap.remove_comm c.displays first second]
    cases c.displays.get? first with
    | none => rfl
    | some state =>
        cases c.displays.get? second with
        | none => rfl
        | some other =>
            -- both atomics become 0, be they one or two
            by_cases hid : state.renderStreamId = other.renderStreamId
            · simp [hid]
            · simp [List.set_comm _ _ hid]

/-- The generation that an intent gives a display. -/
theorem get?_forget (intent : DisplayMediaIntent) (display : ℕ) :
    intent.forget.displays.get? display =
      (intent.activation display).map DisplayActivation.generation := by
  apply LinkedMap.get?_eq_of_mem_iff
  intro generation
  rw [Option.map_eq_some_iff]
  constructor
  · intro hmem
    obtain ⟨activation, hactivation, heq⟩ := List.mem_map.mp hmem
    obtain ⟨rfl, rfl⟩ := Prod.mk.inj heq
    exact ⟨activation, activation_of_mem hactivation, rfl⟩
  · rintro ⟨activation, hactivation, rfl⟩
    obtain ⟨hmem, rfl⟩ := mem_of_activation hactivation
    exact List.mem_map_of_mem hmem

/-- Both controllers retire the same displays. -/
theorem retired_perm (c : DisplayStartupController) (intent : DisplayMediaIntent) :
    (c.retired intent).Perm (c.forget.reconcile intent.forget).2 := by
  refine (List.perm_insertionSort _ _).trans (List.Perm.of_eq ?_)
  unfold Feedback.DisplayStartupController.reconcile
  show _ = ((c.displays.entries.map fun e => (e.1, e.2.forget)).filter _).map Prod.fst
  rw [List.filter_map, List.map_map]
  refine congrArg (List.map Prod.fst) (List.filter_congr fun entry _ => ?_)
  dsimp only [Function.comp]
  rw [get?_forget]
  cases intent.activation entry.1 with
  | none => rfl
  | some activation => rfl

/-- Both controllers are the same after an intent. -/
theorem forget_reconcile (c : DisplayStartupController) (intent : DisplayMediaIntent) :
    (c.reconcile intent).1.forget = (c.forget.reconcile intent.forget).1 := by
  have hretired : ((c.retired intent).foldl DisplayStartupController.retire c).forget =
      (c.forget.reconcile intent.forget).2.foldl Feedback.DisplayStartupController.retire
        c.forget := by
    rw [← List.foldl_hom DisplayStartupController.forget fun c display =>
      (forget_retire c display).symm]
    exact (retired_perm c intent).foldl_eq' (fun _ _ _ _ c => retire_comm c _ _) _
  have hensured : ∀ (activations : List DisplayActivation) (c : DisplayStartupController),
      (activations.foldl DisplayStartupController.ensure c).forget =
        (activations.map fun activation => (activation.display, activation.generation)).foldl
          (fun c entry => c.ensure entry.1 entry.2) c.forget := by
    intro activations c
    rw [List.foldl_map]
    exact (List.foldl_hom DisplayStartupController.forget fun c activation =>
      (forget_ensure c activation).symm).symm
  have hboth := hensured intent.displays
    ((c.retired intent).foldl DisplayStartupController.retire c)
  rw [hretired] at hboth
  exact congrArg (fun activated : Feedback.DisplayStartupController =>
    { activated with
      logicalSessionGeneration := intent.logicalSessionGeneration
      aggregateGeneration := intent.aggregateGeneration }) hboth

/-! ## Runs -/

/-- The controller of the feedback sees the call without its time. -/
def Call.onFeedback (c : Feedback.DisplayStartupController) :
    Call → Feedback.DisplayStartupController
  | .reconcile intent => (c.reconcile intent.forget).1
  | .observeFrame display streamId frameId payloadStats _ =>
      (c.observeFrame display streamId frameId (payloadStats.map fun stats => stats.2.2)).1

theorem forget_call (r : StartupRun) (c : Call) :
    (r.call c).controller.forget = c.onFeedback r.controller.forget := by
  cases c with
  | reconcile intent => exact forget_reconcile r.controller intent
  | observeFrame display streamId frameId payloadStats now =>
      have hobserve := forget_observeFrame r.controller display streamId frameId payloadStats now
      exact (congrArg Prod.fst hobserve).symm

/-- In every run the controller of the feedback is that of the startup, less its timers. -/
theorem forget_after (calls : List Call) :
    (StartupRun.after calls).controller.forget =
      calls.foldl (fun c call => call.onFeedback c) {} := by
  induction calls using List.reverseRecOn with
  | nil => rfl
  | append_singleton calls c ih =>
      rw [StartupRun.after_concat, forget_call, ih, List.foldl_append]
      rfl

end RustAdmin.Viewer.DisplayStartup
