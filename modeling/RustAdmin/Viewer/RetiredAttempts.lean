import Mathlib.Algebra.Order.Ring.Nat
import RustAdmin.Viewer.ConnectionRounds

/-!
# Retired connection attempts

As long as every guard keeps the round of its own worker, the round state, the
published channel and the slots belong to the current attempt: a step of any
other worker finds another round or no attempt at all.

## Strategy

* `Numbered` needs no condition: the round counts the attempts, so only the last one
  is current, and an attempt that was retired stays so (`Moved`).
* `Owned` says that a guard holds the round of its own worker and that a slot belongs
  to a prompt that was shown.  It is kept by every step but a begin in the round of
  another (`Prompted`).
* A step of a retired worker then finds another round than its own and changes nothing
  (`Untouched`).

In the other direction a begin in the round of another takes its connection out of the
state it was in, which is one of the things that must not happen (`SoundStep.own`).
-/

namespace RustAdmin.Viewer.ConnectionRounds

open RustAdmin.Support

theorem roundOf_of_lt {attempt : ℕ} (h : attempt < 2 ^ 32) : roundOf attempt = attempt :=
  Nat.mod_eq_of_lt h

/-! ## What holds in every run -/

/-- The round is the number of the last attempt, and its channel is published. -/
structure Session.Numbered (s : Session) : Prop where
  round_eq : s.roundState.round = s.attempts
  sender_eq : s.sender = if s.roundState.state = .disconnected then none else some s.attempts
  started : s.roundState.state ≠ .disconnected → 0 < s.attempts

theorem start_numbered : (({} : Session)).Numbered := ⟨rfl, rfl, fun h => absurd rfl h⟩

/-- Only the last attempt can be current. -/
theorem Session.Numbered.current_iff {s : Session} (h : s.Numbered)
    (hrounds : s.attempts < 2 ^ 32) {attempt : ℕ} :
    s.Current attempt ↔ attempt = s.attempts ∧ s.roundState.state ≠ .disconnected := by
  unfold Session.Current Session.Issued
  rw [h.round_eq]
  constructor
  · rintro ⟨⟨-, hle⟩, hround, hstate⟩
    rw [roundOf_of_lt (hle.trans_lt hrounds)] at hround
    exact ⟨hround.symm, hstate⟩
  · rintro ⟨rfl, hstate⟩
    exact ⟨⟨h.started hstate, le_rfl⟩, (roundOf_of_lt hrounds).symm, hstate⟩

theorem Session.Numbered.published {s : Session} (h : s.Numbered)
    (hrounds : s.attempts < 2 ^ 32) : s.Published := by
  refine ⟨?_, fun attempt hattempt => ?_⟩
  · rw [h.sender_eq]
    split <;> simp_all
  · rw [h.sender_eq] at hattempt
    split at hattempt
    · simp at hattempt
    · next hstate =>
        obtain rfl : s.attempts = attempt := by simpa using hattempt
        exact (h.current_iff hrounds).mpr ⟨rfl, hstate⟩

/-- What a step can do to the connection. -/
inductive Moved (s : Session) : Session → Prop
  | kept {s' : Session} (hround : s'.roundState = s.roundState) (hsender : s'.sender = s.sender)
      (hattempts : s'.attempts = s.attempts) : Moved s s'
  /-- Between two states of a running attempt. -/
  | moved {s' : Session} (hround : s'.roundState.round = s.roundState.round)
      (hbefore : s.roundState.state ≠ .disconnected)
      (hafter : s'.roundState.state ≠ .disconnected) (hsender : s'.sender = s.sender)
      (hattempts : s'.attempts = s.attempts) : Moved s s'
  | ended {s' : Session} (hround : s'.roundState.round = s.roundState.round)
      (hafter : s'.roundState.state = .disconnected) (hsender : s'.sender = none)
      (hattempts : s'.attempts = s.attempts) : Moved s s'
  | prepared {s' : Session} (hround : s'.roundState.round = roundOf (s.roundState.round + 1))
      (hafter : s'.roundState.state = .connecting) (hsender : s'.sender = some (s.attempts + 1))
      (hattempts : s'.attempts = s.attempts + 1) : Moved s s'

@[simp] theorem roundState_respond (s : Session) (answer : Answer) :
    (s.respond answer).roundState = s.roundState := by
  unfold Session.respond
  split <;> rfl

@[simp] theorem sender_respond (s : Session) (answer : Answer) :
    (s.respond answer).sender = s.sender := by
  unfold Session.respond
  split <;> rfl

@[simp] theorem attempts_respond (s : Session) (answer : Answer) :
    (s.respond answer).attempts = s.attempts := by
  unfold Session.respond
  split <;> rfl

theorem prepare_moved (s : Session) (reconnect forceRelay : Bool) :
    Moved s (s.prepareConnectionAttempt reconnect forceRelay) := by
  have hstart : ∀ next, s.roundState.tryStart reconnect = some next →
      next = ⟨roundOf (s.roundState.round + 1), .connecting⟩ := by
    intro next hnext
    unfold ConnectionRoundState.tryStart at hnext
    split at hnext
    · simp at hnext
    · simp at hnext
    · split at hnext
      · exact (Option.some.inj hnext).symm
      · simp at hnext
    · exact (Option.some.inj hnext).symm
  unfold Session.prepareConnectionAttempt
  split
  · exact .kept rfl rfl rfl
  · next next hnext =>
      rw [hstart next hnext]
      exact .prepared rfl rfl rfl rfl

theorem setConnected_moved (s : Session) (attempt : ℕ) : Moved s (s.setConnected attempt) := by
  unfold Session.setConnected ConnectionRoundState.setConnected
  split
  · exact .kept rfl rfl rfl
  · next hnext =>
      split at hnext
      · simp at hnext
      · next hstate =>
          obtain rfl := Option.some.inj hnext
          have hbefore : s.roundState.state = .connecting := not_not.mp (not_or.mp hstate).2
          exact .moved rfl (by simp [hbefore]) (by simp) rfl rfl

theorem finish_moved (s : Session) (attempt : ℕ) : Moved s (s.finishConnectionAttempt attempt) := by
  unfold Session.finishConnectionAttempt ConnectionRoundState.setDisconnected
  split
  · exact .kept rfl rfl rfl
  · next hnext =>
      split at hnext
      · simp at hnext
      · obtain rfl := Option.some.inj hnext
        exact .ended rfl rfl rfl rfl

theorem close_moved (s : Session) : Moved s s.close := by
  unfold Session.close
  refine .ended ?_ ?_ ?_ ?_ <;> simp only [roundState_respond, sender_respond, attempts_respond]

theorem begin_moved (s : Session) (attempt id : ℕ) (kind : PromptKind) :
    Moved s (s.beginPrompt attempt id kind) := by
  unfold Session.beginPrompt ConnectionRoundState.beginApproval
  split
  · exact .kept rfl rfl rfl
  · next hnext =>
      split at hnext
      · simp at hnext
      · next hstate =>
          obtain rfl := Option.some.inj hnext
          exact .moved rfl (by simp [not_not.mp hstate]) (by simp) rfl rfl

theorem install_kept (s : Session) (id : ℕ) (prompt : Prompt) :
    (s.installPrompt id prompt).roundState = s.roundState ∧
      (s.installPrompt id prompt).sender = s.sender ∧
      (s.installPrompt id prompt).attempts = s.attempts := by
  unfold Session.installPrompt
  split
  · dsimp only
    split <;> exact ⟨rfl, rfl, rfl⟩
  · exact ⟨rfl, rfl, rfl⟩

theorem cleanUp_kept (s : Session) (id : ℕ) (prompt : Prompt) :
    (s.cleanUpPrompt id prompt).roundState = s.roundState ∧
      (s.cleanUpPrompt id prompt).sender = s.sender ∧
      (s.cleanUpPrompt id prompt).attempts = s.attempts := by
  unfold Session.cleanUpPrompt
  split <;> exact ⟨rfl, rfl, rfl⟩

theorem drop_moved (s : Session) (id : ℕ) (prompt : Prompt) :
    Moved s (s.dropPrompt id prompt) := by
  unfold Session.dropPrompt ConnectionRoundState.dropApproval
  split
  · next hcurrent =>
      have hstate : s.roundState.state = .awaitingUserApproval := by
        simpa using (Bool.and_eq_true_iff.mp hcurrent).2
      exact .moved rfl (by simp [hstate]) (by simp) rfl rfl
  · exact .kept rfl rfl rfl

theorem Step.moved {s s' : Session} {event : Event} (step : Step s event s') : Moved s s' := by
  cases step with
  | prepare => exact prepare_moved _ _ _
  | close => exact close_moved _
  | answer => exact .kept (by simp) (by simp) (by simp)
  | setConnected => exact setConnected_moved _ _
  | finish => exact finish_moved _ _
  | begin => exact begin_moved _ _ _ _
  | install => exact .kept (install_kept _ _ _).1 (install_kept _ _ _).2.1 (install_kept _ _ _).2.2
  | cleanUp => exact .kept (cleanUp_kept _ _ _).1 (cleanUp_kept _ _ _).2.1 (cleanUp_kept _ _ _).2.2
  | drop => exact drop_moved _ _ _

theorem Moved.attempts_le {s s' : Session} (h : Moved s s') : s.attempts ≤ s'.attempts := by
  cases h with
  | kept _ _ hattempts => exact hattempts.ge
  | moved _ _ _ _ hattempts => exact hattempts.ge
  | ended _ _ _ hattempts => exact hattempts.ge
  | prepared _ _ _ hattempts => exact hattempts ▸ Nat.le_succ _

theorem Moved.numbered {s s' : Session} (h : Moved s s') (hs : s.Numbered)
    (hrounds : s'.attempts < 2 ^ 32) : s'.Numbered := by
  cases h with
  | kept hround hsender hattempts =>
      refine ⟨?_, ?_, ?_⟩
      · rw [hround, hattempts, hs.round_eq]
      · rw [hsender, hround, hattempts, hs.sender_eq]
      · rw [hround, hattempts]
        exact hs.started
  | moved hround hbefore hafter hsender hattempts =>
      refine ⟨?_, ?_, fun _ => hattempts ▸ hs.started hbefore⟩
      · rw [hround, hattempts, hs.round_eq]
      · rw [hsender, hattempts, hs.sender_eq, if_neg hbefore, if_neg hafter]
  | ended hround hafter hsender hattempts =>
      refine ⟨?_, ?_, fun hstate => absurd hafter hstate⟩
      · rw [hround, hattempts, hs.round_eq]
      · rw [hsender, if_pos hafter]
  | prepared hround hafter hsender hattempts =>
      refine ⟨?_, ?_, fun _ => hattempts ▸ Nat.succ_pos _⟩
      · rw [hround, hs.round_eq, ← hattempts]
        exact roundOf_of_lt hrounds
      · rw [hsender, hattempts, hafter]
        rfl

/-- An attempt that is not current does not become so. -/
theorem Moved.retired {s s' : Session} (h : Moved s s') (hs : s.Numbered)
    (hrounds : s'.attempts < 2 ^ 32) {attempt : ℕ} (hissued : s.Issued attempt)
    (hretired : ¬ s.Current attempt) : ¬ s'.Current attempt := by
  have hrounds' : s.attempts < 2 ^ 32 := h.attempts_le.trans_lt hrounds
  rw [(h.numbered hs hrounds).current_iff hrounds]
  rw [hs.current_iff hrounds'] at hretired
  rintro ⟨hlast, hstate⟩
  cases h with
  | kept hround _ hattempts =>
      rw [hattempts] at hlast
      rw [hround] at hstate
      exact hretired ⟨hlast, hstate⟩
  | moved _ hbefore _ _ hattempts => exact hretired ⟨hlast.trans hattempts, hbefore⟩
  | ended _ hafter => exact hstate hafter
  | prepared _ _ _ hattempts =>
      have hle := hissued.2
      omega

/-! ## The prompts -/

/-- A prompt without its progress. -/
def Prompt.label (prompt : Prompt) : Prompt := { prompt with stage := .begun, answer := none }

/-- The labels of all prompts. -/
def Session.labels (s : Session) (id : ℕ) : Option Prompt := (s.prompts id).map Prompt.label

/-- Every guard keeps the round of its worker, and a slot belongs to a last prompt
of its kind that was shown. -/
structure Session.Owned (s : Session) : Prop where
  own : ∀ id, ∀ label ∈ s.labels id, s.Issued label.attempt ∧ label.guardRound = label.attempt
  latest : ∀ kind, ∀ id ∈ s.slots kind, ∃ label ∈ s.labels id,
    ∀ other, ∀ shown ∈ s.labels other, shown.shown = true → shown.kind = kind →
      shown.attempt ≤ label.attempt

theorem start_owned : (({} : Session)).Owned := by
  refine ⟨fun id label hlabel => ?_, fun kind id hslot => ?_⟩
  · cases hlabel
  · cases hslot

/-- What a step can do to the prompts. -/
inductive Prompted (s : Session) : Session → Prop
  | kept {s' : Session} (hlabels : s'.labels = s.labels)
      (hslots : ∀ kind, ∀ id ∈ s'.slots kind, id ∈ s.slots kind) : Prompted s s'
  | begun {s' : Session} {attempt id : ℕ} {kind : PromptKind} (hissued : s.Issued attempt)
      (hown : s.Current attempt)
      (hlabels : s'.labels = Function.update s.labels id
        (some { attempt := attempt, kind := kind, guardRound := s.roundState.round }))
      (hfresh : s.labels id = none) (hslots : s'.slots = s.slots) : Prompted s s'
  | shown {s' : Session} {id : ℕ} {label : Prompt} (hlabel : label ∈ s.labels id)
      (hcurrent : s.roundState.withCurrent label.guardRound = true)
      (hlabels : s'.labels = Function.update s.labels id (some { label with shown := true }))
      (hslots : s'.slots = Function.update s.slots label.kind (some id)) : Prompted s s'

theorem labels_update (s : Session) (id : ℕ) (prompt : Option Prompt) :
    ({ s with prompts := Function.update s.prompts id prompt } : Session).labels =
      Function.update s.labels id (prompt.map Prompt.label) := by
  funext other
  by_cases hother : other = id
  · subst hother
    simp [Session.labels]
  · simp [Session.labels, hother]

@[simp] theorem labels_tell (s : Session) (id : ℕ) (answer : Answer) :
    (s.tell id answer).labels = s.labels := by
  unfold Session.tell
  rw [labels_update, Option.map_map]
  exact Function.update_eq_self_iff.mpr rfl

@[simp] theorem labels_respond (s : Session) (answer : Answer) :
    (s.respond answer).labels = s.labels := by
  unfold Session.respond
  split
  · rfl
  · exact labels_tell _ _ _

theorem labels_setStage {s : Session} {id : ℕ} {prompt : Prompt} (h : s.prompts id = some prompt)
    (stage : Stage) : (s.setStage id prompt stage).labels = s.labels := by
  unfold Session.setStage
  rw [labels_update]
  refine Function.update_eq_self_iff.mpr ?_
  simp [Session.labels, h, Prompt.label]

theorem slots_respond {s : Session} {answer : Answer} {kind : PromptKind} {id : ℕ}
    (h : id ∈ (s.respond answer).slots kind) : id ∈ s.slots kind := by
  unfold Session.respond at h
  split at h
  · exact h
  · by_cases hkind : kind = answer.kind
    · subst hkind
      simp at h
    · simpa [Function.update_of_ne hkind, Session.tell] using h

theorem prompted_of_eq {s s' : Session} (hprompts : s'.prompts = s.prompts)
    (hslots : s'.slots = s.slots) : Prompted s s' :=
  .kept (by unfold Session.labels; rw [hprompts]) (fun _ _ h => hslots ▸ h)

theorem prepare_prompted (s : Session) (reconnect forceRelay : Bool) :
    Prompted s (s.prepareConnectionAttempt reconnect forceRelay) := by
  unfold Session.prepareConnectionAttempt
  split <;> exact prompted_of_eq rfl rfl

theorem close_prompted (s : Session) : Prompted s s.close := by
  refine .kept ?_ fun kind id h => ?_
  · exact (labels_respond _ _).trans (labels_respond _ _)
  · unfold Session.close at h
    dsimp only at h
    have hslot := slots_respond (slots_respond h)
    exact hslot

theorem answer_prompted (s : Session) (answer : Answer) : Prompted s (s.respond answer) :=
  .kept (labels_respond _ _) fun _ _ h => slots_respond h

theorem setConnected_prompted (s : Session) (attempt : ℕ) :
    Prompted s (s.setConnected attempt) := by
  unfold Session.setConnected
  split <;> exact prompted_of_eq rfl rfl

theorem finish_prompted (s : Session) (attempt : ℕ) :
    Prompted s (s.finishConnectionAttempt attempt) := by
  unfold Session.finishConnectionAttempt
  split <;> exact prompted_of_eq rfl rfl

theorem begin_prompted {s : Session} {attempt id : ℕ} {kind : PromptKind}
    (hissued : s.Issued attempt) (hfresh : s.prompts id = none)
    (hown : ¬ s.Borrowed (.begin attempt id kind)) :
    Prompted s (s.beginPrompt attempt id kind) := by
  unfold Session.beginPrompt ConnectionRoundState.beginApproval
  by_cases hstate : s.roundState.state = .connecting
  · have hcurrent : s.Current attempt :=
      by_contra fun hretired => hown ⟨attempt, id, kind, rfl, hretired, hstate⟩
    rw [if_neg (not_not.mpr hstate)]
    exact .begun hissued hcurrent (labels_update _ _ _) (by simp [Session.labels, hfresh]) rfl
  · rw [if_pos hstate]
    exact prompted_of_eq rfl rfl

theorem install_prompted {s : Session} {id : ℕ} {prompt : Prompt}
    (hprompt : s.prompts id = some prompt) : Prompted s (s.installPrompt id prompt) := by
  have hlabel : prompt.label ∈ s.labels id := by simp [Session.labels, hprompt]
  unfold Session.installPrompt
  split
  · next hcurrent =>
      refine .shown hlabel hcurrent ?_ ?_
      · -- the prompt that waited in the slot keeps its label
        dsimp only
        split
        · next previous _ =>
            exact (labels_update _ _ _).trans
              (congrArg (Function.update · id _) (labels_tell s previous _))
        · exact labels_update _ _ _
      · rfl
  · exact .kept (labels_setStage hprompt _) fun _ _ h => h

theorem cleanUp_prompted {s : Session} {id : ℕ} {prompt : Prompt}
    (hprompt : s.prompts id = some prompt) : Prompted s (s.cleanUpPrompt id prompt) := by
  unfold Session.cleanUpPrompt
  split
  · refine .kept (labels_setStage hprompt _) fun kind other h => ?_
    by_cases hkind : kind = prompt.kind
    · subst hkind
      simp at h
    · simpa [Function.update_of_ne hkind, Session.setStage] using h
  · exact .kept (labels_setStage hprompt _) fun _ _ h => h

theorem drop_prompted {s : Session} {id : ℕ} {prompt : Prompt}
    (hprompt : s.prompts id = some prompt) : Prompted s (s.dropPrompt id prompt) :=
  .kept (labels_setStage hprompt _) fun _ _ h => h

theorem OwnStep.prompted {s s' : Session} {event : Event} (h : OwnStep s event s') :
    Prompted s s' := by
  have hown := h.own
  cases h.step with
  | prepare => exact prepare_prompted _ _ _
  | close => exact close_prompted _
  | answer => exact answer_prompted _ _
  | setConnected => exact setConnected_prompted _ _
  | finish => exact finish_prompted _ _
  | begin hissued hfresh => exact begin_prompted hissued hfresh hown
  | install hprompt => exact install_prompted hprompt
  | cleanUp hprompt => exact cleanUp_prompted hprompt
  | drop hprompt => exact drop_prompted hprompt

/-- A guard in its own round that passes its test is one of the current attempt. -/
theorem Session.Owned.current {s : Session} (h : s.Owned) (hs : s.Numbered)
    (hrounds : s.attempts < 2 ^ 32) {id : ℕ} {label : Prompt} (hlabel : label ∈ s.labels id)
    (hcurrent : s.roundState.withCurrent label.guardRound = true) : s.Current label.attempt := by
  obtain ⟨-, hguard⟩ := h.own id label hlabel
  obtain ⟨hround, hstate⟩ := Bool.and_eq_true_iff.mp hcurrent
  have hlast : s.attempts = label.attempt := by
    rw [← hguard, ← hs.round_eq]
    exact beq_iff_eq.mp hround
  have hawaiting : s.roundState.state = .awaitingUserApproval := beq_iff_eq.mp hstate
  exact (hs.current_iff hrounds).mpr ⟨hlast.symm, by simp [hawaiting]⟩

theorem mem_update_some {labels : ℕ → Option Prompt} {id other : ℕ} {label new : Prompt}
    (h : label ∈ Function.update labels id (some new) other) :
    (other = id ∧ label = new) ∨ (other ≠ id ∧ label ∈ labels other) := by
  by_cases hother : other = id
  · subst hother
    rw [Function.update_self] at h
    exact .inl ⟨rfl, (Option.some.inj h).symm⟩
  · rw [Function.update_of_ne hother] at h
    exact .inr ⟨hother, h⟩

theorem Prompted.owned {s s' : Session} (h : Prompted s s') (howned : s.Owned) (hs : s.Numbered)
    (hle : s.attempts ≤ s'.attempts) (hrounds : s.attempts < 2 ^ 32) : s'.Owned := by
  have hissued_mono : ∀ {attempt}, s.Issued attempt → s'.Issued attempt :=
    fun hissued => ⟨hissued.1, hissued.2.trans hle⟩
  cases h with
  | kept hlabels hslots =>
      refine ⟨fun id label hlabel => ?_, fun kind id hslot => ?_⟩
      · rw [hlabels] at hlabel
        exact (howned.own id label hlabel).imp_left hissued_mono
      · rw [hlabels]
        exact howned.latest kind id (hslots kind id hslot)
  | begun hissued hown hlabels hfresh hslots =>
      have hlast := ((hs.current_iff hrounds).mp hown).1
      refine ⟨fun other label hlabel => ?_, fun kind receiver hslot => ?_⟩
      · rw [hlabels] at hlabel
        obtain ⟨-, rfl⟩ | ⟨-, hlabel⟩ := mem_update_some hlabel
        · exact ⟨hissued_mono hissued, hs.round_eq.trans hlast.symm⟩
        · exact (howned.own other label hlabel).imp_left hissued_mono
      · -- the new prompt is not shown yet
        rw [hslots] at hslot
        obtain ⟨label, hlabel, hlatest⟩ := howned.latest kind receiver hslot
        rw [hlabels]
        refine ⟨label, ?_, fun other shown hmem hshown hkind => ?_⟩
        · rw [Function.update_of_ne]
          · exact hlabel
          · rintro rfl
            rw [hfresh] at hlabel
            cases hlabel
        · obtain ⟨-, rfl⟩ | ⟨-, hmem⟩ := mem_update_some hmem
          · cases hshown
          · exact hlatest other shown hmem hshown hkind
  | @shown id label hlabel hcurrent hlabels hslots =>
      have hlast := ((hs.current_iff hrounds).mp (howned.current hs hrounds hlabel hcurrent)).1
      have hshown_mem : { label with shown := true } ∈ s'.labels id := by
        rw [hlabels, Function.update_self]
        rfl
      have hother_le : ∀ other, ∀ prompt ∈ s'.labels other, prompt.attempt ≤ label.attempt := by
        intro other prompt hmem
        rw [hlabels] at hmem
        obtain ⟨-, rfl⟩ | ⟨-, hmem⟩ := mem_update_some hmem
        · exact le_rfl
        · exact hlast ▸ (howned.own other prompt hmem).1.2
      refine ⟨fun other prompt hmem => ?_, fun kind receiver hslot => ?_⟩
      · rw [hlabels] at hmem
        obtain ⟨-, rfl⟩ | ⟨-, hmem⟩ := mem_update_some hmem
        · exact (howned.own id label hlabel).imp_left hissued_mono
        · exact (howned.own other prompt hmem).imp_left hissued_mono
      · by_cases hreceiver : receiver = id
        · -- the prompt just shown has the last attempt
          subst hreceiver
          exact ⟨_, hshown_mem, fun other prompt hmem _ _ => hother_le other prompt hmem⟩
        · rw [hslots] at hslot
          have hkind : kind ≠ label.kind := by
            rintro rfl
            rw [Function.update_self] at hslot
            exact hreceiver (Option.some.inj hslot).symm
          rw [Function.update_of_ne hkind] at hslot
          obtain ⟨waiting, hwaiting, hlatest⟩ := howned.latest kind receiver hslot
          rw [hlabels]
          refine ⟨waiting, by rwa [Function.update_of_ne hreceiver], ?_⟩
          intro other prompt hmem hshown hprompt
          obtain ⟨-, rfl⟩ | ⟨-, hmem⟩ := mem_update_some hmem
          · exact absurd hprompt.symm hkind
          · exact hlatest other prompt hmem hshown hprompt

/-! ## What a worker finds -/

theorem Session.Owned.not_withCurrent {s : Session} (h : s.Owned) (hs : s.Numbered)
    (hrounds : s.attempts < 2 ^ 32) {id : ℕ} {prompt : Prompt}
    (hprompt : s.prompts id = some prompt) (hretired : ¬ s.Current prompt.attempt) :
    s.roundState.withCurrent prompt.guardRound = false := by
  have hlabel : prompt.label ∈ s.labels id := by simp [Session.labels, hprompt]
  refine Bool.eq_false_iff.mpr fun hcurrent => hretired ?_
  have hlabel_current : s.Current prompt.label.attempt := h.current hs hrounds hlabel hcurrent
  exact hlabel_current

/-- What a step of a worker of a retired attempt leaves. -/
structure Untouched (s s' : Session) : Prop where
  roundState : s'.roundState = s.roundState
  sender : s'.sender = s.sender
  slots : s'.slots = s.slots

theorem setConnected_untouched {s : Session} {attempt : ℕ} (hissued : s.Issued attempt)
    (hretired : ¬ s.Current attempt) : Untouched s (s.setConnected attempt) := by
  unfold Session.setConnected ConnectionRoundState.setConnected
  rw [if_pos]
  · exact ⟨rfl, rfl, rfl⟩
  · by_contra hcurrent
    obtain ⟨hround, hstate⟩ := not_or.mp hcurrent
    exact hretired ⟨hissued, not_not.mp hround, by simp [not_not.mp hstate]⟩

/-- An attempt that is over has nothing left to finish. -/
theorem finish_untouched {s : Session} (hs : s.Numbered) {attempt : ℕ} (hissued : s.Issued attempt)
    (hretired : ¬ s.Current attempt) : Untouched s (s.finishConnectionAttempt attempt) := by
  unfold Session.finishConnectionAttempt ConnectionRoundState.setDisconnected
  by_cases hround : s.roundState.round = roundOf attempt
  · have hstate : s.roundState.state = .disconnected :=
      by_contra fun hstate => hretired ⟨hissued, hround, hstate⟩
    rw [if_neg (not_not.mpr hround)]
    refine ⟨?_, ?_, rfl⟩
    · rw [← hstate]
    · rw [hs.sender_eq, if_pos hstate]
  · rw [if_pos hround]
    exact ⟨rfl, rfl, rfl⟩

theorem begin_untouched {s : Session} {attempt id : ℕ} {kind : PromptKind}
    (hown : ¬ s.Borrowed (.begin attempt id kind)) (hretired : ¬ s.Current attempt) :
    Untouched s (s.beginPrompt attempt id kind) := by
  unfold Session.beginPrompt ConnectionRoundState.beginApproval
  rw [if_pos fun hstate => hown ⟨attempt, id, kind, rfl, hretired, hstate⟩]
  exact ⟨rfl, rfl, rfl⟩

theorem install_untouched {s : Session} {prompt : Prompt}
    (h : s.roundState.withCurrent prompt.guardRound = false) (id : ℕ) :
    Untouched s (s.installPrompt id prompt) := by
  unfold Session.installPrompt
  rw [if_neg (by simp [h])]
  exact ⟨rfl, rfl, rfl⟩

theorem cleanUp_untouched {s : Session} {prompt : Prompt}
    (h : s.roundState.withCurrent prompt.guardRound = false) (id : ℕ) :
    Untouched s (s.cleanUpPrompt id prompt) := by
  unfold Session.cleanUpPrompt
  rw [if_neg (by simp [h])]
  exact ⟨rfl, rfl, rfl⟩

theorem drop_untouched {s : Session} {prompt : Prompt}
    (h : s.roundState.withCurrent prompt.guardRound = false) (id : ℕ) :
    Untouched s (s.dropPrompt id prompt) := by
  unfold Session.dropPrompt ConnectionRoundState.dropApproval
  rw [if_neg (by simp [h])]
  exact ⟨rfl, rfl, rfl⟩

theorem OwnStep.untouched {s s' : Session} {event : Event} (h : OwnStep s event s')
    (howned : s.Owned) (hs : s.Numbered) (hrounds : s.attempts < 2 ^ 32) {attempt : ℕ}
    (hworker : attempt ∈ s.worker event) (hretired : ¬ s.Current attempt) : Untouched s s' := by
  have hown := h.own
  have hfind : ∀ {id : ℕ} {prompt : Prompt}, s.prompts id = some prompt →
      attempt ∈ (s.prompts id).map Prompt.attempt →
      s.roundState.withCurrent prompt.guardRound = false := by
    intro id prompt hprompt hmem
    rw [hprompt] at hmem
    obtain rfl := Option.some.inj hmem
    exact howned.not_withCurrent hs hrounds hprompt hretired
  cases h.step with
  | prepare => cases hworker
  | close => cases hworker
  | answer => cases hworker
  | setConnected hissued =>
      obtain rfl := Option.some.inj hworker
      exact setConnected_untouched hissued hretired
  | finish hissued =>
      obtain rfl := Option.some.inj hworker
      exact finish_untouched hs hissued hretired
  | begin =>
      obtain rfl := Option.some.inj hworker
      exact begin_untouched hown hretired
  | install hprompt => exact install_untouched (hfind hprompt hworker) _
  | cleanUp hprompt => exact cleanUp_untouched (hfind hprompt hworker) _
  | drop hprompt => exact drop_untouched (hfind hprompt hworker) _

/-- The slot that takes an answer to the current attempt is its own. -/
theorem Session.Owned.receiver_current {s : Session} (h : s.Owned) (hs : s.Numbered)
    (hrounds : s.attempts < 2 ^ 32) {id receiver : ℕ} {prompt : Prompt}
    (hprompt : s.prompts id = some prompt) (hshown : prompt.shown = true)
    (hcurrent : s.Current prompt.attempt) (hreceiver : receiver ∈ s.slots prompt.kind) :
    ∃ other ∈ s.prompts receiver, s.Current other.attempt := by
  obtain ⟨label, hlabel, hlatest⟩ := h.latest prompt.kind receiver hreceiver
  obtain ⟨other, hother, rfl⟩ := Option.map_eq_some_iff.mp hlabel
  have hmem : prompt.label ∈ s.labels id := by simp [Session.labels, hprompt]
  have hge : prompt.attempt ≤ other.attempt := hlatest id prompt.label hmem hshown rfl
  have hle : other.attempt ≤ s.attempts := (h.own receiver other.label hlabel).1.2
  obtain ⟨hlast, hstate⟩ := (hs.current_iff hrounds).mp hcurrent
  have hother_last : other.attempt = s.attempts := le_antisymm hle (hlast ▸ hge)
  exact ⟨other, hother, (hs.current_iff hrounds).mpr ⟨hother_last, hstate⟩⟩

theorem OwnStep.leavesOthers {s s' : Session} {event : Event} (h : OwnStep s event s')
    (howned : s.Owned) (hs : s.Numbered) (hrounds : s.attempts < 2 ^ 32) :
    Fenced s event s' where
  roundState := fun _ hworker hretired =>
    (h.untouched howned hs hrounds hworker hretired).roundState
  sender := fun _ hworker hretired => (h.untouched howned hs hrounds hworker hretired).sender
  slots := fun _ hworker hretired => (h.untouched howned hs hrounds hworker hretired).slots
  answers := by
    rintro id answer rfl prompt hmem hcurrent receiver hreceiver
    cases h.step with
    | answer hprompt hshown hkind =>
        obtain rfl := Option.some.inj (hprompt.symm.trans hmem)
        exact howned.receiver_current hs hrounds hprompt hshown hcurrent (hkind ▸ hreceiver)

/-! ## Every run -/

theorem OwnStep.sound {s s' : Session} {event : Event} (h : OwnStep s event s')
    (howned : s.Owned) (hs : s.Numbered) (hrounds : s'.attempts < 2 ^ 32) :
    SoundStep s event s' := by
  have hmoved := h.step.moved
  have hrounds' : s.attempts < 2 ^ 32 := hmoved.attempts_le.trans_lt hrounds
  have hs' := hmoved.numbered hs hrounds
  refine ⟨h.step, fun attempt other hattempt hother => ?_, hs'.published hrounds, ?_,
    h.leavesOthers howned hs hrounds'⟩
  · rw [hs'.current_iff hrounds] at hattempt hother
    exact hattempt.1.trans hother.1.symm
  · exact fun attempt hissued hretired => hmoved.retired hs hrounds hissued hretired

/-- A worker that prompts in the round of another takes its connection out of
the state it was in. -/
theorem SoundStep.own {s s' : Session} {event : Event} (h : SoundStep s event s') :
    OwnStep s event s' := by
  refine ⟨h.step, ?_⟩
  rintro ⟨attempt, id, kind, rfl, hretired, hstate⟩
  have hkept : s'.roundState = s.roundState := h.fenced.roundState attempt rfl hretired
  cases h.step with
  | begin =>
      simp [Session.beginPrompt, ConnectionRoundState.beginApproval, hstate] at hkept
      rw [← hkept] at hstate
      cases hstate

theorem ownRun_owned {last : Session} {events : List Event} (run : Run OwnStep {} events last)
    (hrounds : last.attempts < 2 ^ 32) : last.Owned ∧ last.Numbered := by
  induction run with
  | nil => exact ⟨start_owned, start_numbered⟩
  | snoc run step ih =>
      have hmoved := step.step.moved
      have hrounds' := hmoved.attempts_le.trans_lt hrounds
      obtain ⟨howned, hs⟩ := ih hrounds'
      exact ⟨step.prompted.owned howned hs hmoved.attempts_le hrounds', hmoved.numbered hs hrounds⟩

theorem ownRun_sound {last : Session} {events : List Event} (run : Run OwnStep {} events last)
    (hrounds : last.attempts < 2 ^ 32) : Run SoundStep {} events last := by
  induction run with
  | nil => exact .nil
  | snoc run step ih =>
      have hrounds' := step.step.moved.attempts_le.trans_lt hrounds
      obtain ⟨howned, hs⟩ := ownRun_owned run hrounds'
      exact .snoc (ih hrounds') (step.sound howned hs hrounds)

/-- The retired attempts leave the current one alone exactly in the runs in which
no worker prompts in the round of another. -/
theorem sound_iff_own {last : Session} {events : List Event} (hrounds : last.attempts < 2 ^ 32) :
    Run SoundStep {} events last ↔ Run OwnStep {} events last :=
  ⟨fun h => h.mono fun _ _ _ step => step.own, fun h => ownRun_sound h hrounds⟩

/-- An attempt prompts for trust and is closed; its worker goes on while the next attempt
connects. -/
def retiredGoesOn : List Event :=
  [.prepare false false, .begin 1 0 .trust, .close, .prepare false false, .install 0, .finish 1,
    .setConnected 2]

/-- What the worker of the closed attempt still does leaves the second attempt connected. -/
theorem sound_iff_own_retiredGoesOn :
    ∃ last : Session, Run SoundStep {} retiredGoesOn last ∧ last.Current 2 ∧
      last.roundState.state = .connected := by
  let prepared : Session := ({} : Session).prepareConnectionAttempt false false
  let asked : Session := prepared.beginPrompt 1 0 .trust
  let second : Session := asked.close.prepareConnectionAttempt false false
  let prompt : Prompt := { attempt := 1, kind := .trust, guardRound := 1 }
  let finished : Session := (second.installPrompt 0 prompt).finishConnectionAttempt 1
  have hbegin : OwnStep prepared (.begin 1 0 .trust) asked := by
    refine ⟨.begin ⟨by decide, by decide⟩ rfl, ?_⟩
    rintro ⟨_, _, _, ⟨⟩, hretired, -⟩
    exact hretired ⟨⟨by decide, by decide⟩, by decide, by decide⟩
  have hasked : Run OwnStep {} [.prepare false false, .begin 1 0 .trust] asked :=
    .snoc (.single ⟨.prepare, nofun⟩) hbegin
  have hsecond : Run OwnStep {} [.prepare false false, .begin 1 0 .trust, .close,
      .prepare false false] second :=
    .snoc (.snoc hasked ⟨.close, nofun⟩) ⟨.prepare, nofun⟩
  have hfinished : Run OwnStep {} [.prepare false false, .begin 1 0 .trust, .close,
      .prepare false false, .install 0, .finish 1] finished :=
    .snoc (.snoc hsecond ⟨.install (by decide) rfl, nofun⟩)
      ⟨.finish ⟨by decide, by decide⟩, nofun⟩
  have hconnected : OwnStep finished (.setConnected 2) (finished.setConnected 2) :=
    ⟨.setConnected ⟨by decide, by decide⟩, nofun⟩
  refine ⟨finished.setConnected 2, (sound_iff_own (by decide)).mpr (hfinished.snoc hconnected),
    ⟨⟨by decide, by decide⟩, by decide, by decide⟩, by decide⟩

/-- The worker of a closed attempt prompts in the round of the next one and gets
the trust of the user. -/
theorem not_sound_closedWorkerPrompts :
    ∃ last : Session, last.attempts < 2 ^ 32 ∧
      Run Step {} [.prepare false false, .close, .prepare false false, .begin 1 0 .trust,
        .install 0, .answer 0 (.trust true)] last ∧
      ¬ last.Current 1 ∧ (last.prompts 0).bind Prompt.answer = some (.trust true) ∧
      ¬ Run SoundStep {} [.prepare false false, .close, .prepare false false, .begin 1 0 .trust,
        .install 0, .answer 0 (.trust true)] last := by
  let closed : Session := (({} : Session).prepareConnectionAttempt false false).close
  let second : Session := closed.prepareConnectionAttempt false false
  let prompt : Prompt := { attempt := 1, kind := .trust, guardRound := 2 }
  let shown : Prompt := { prompt with stage := .waiting, shown := true }
  let asked : Session := (second.beginPrompt 1 0 .trust).installPrompt 0 prompt
  have hretired : ∀ s : Session, s.roundState.round = 2 → ¬ s.Current 1 := by
    rintro s hround ⟨-, hcurrent, -⟩
    rw [hround] at hcurrent
    exact absurd hcurrent (by decide)
  refine ⟨asked.respond (.trust true), by decide, ?_, hretired _ (by decide), by decide, ?_⟩
  · have hclosed : Run Step {} [.prepare false false, .close] closed :=
      .snoc (.snoc .nil .prepare) .close
    have hprompts : Run Step {} [.prepare false false, .close, .prepare false false,
        .begin 1 0 .trust] (second.beginPrompt 1 0 .trust) :=
      .snoc (.snoc hclosed .prepare) (.begin ⟨by decide, by decide⟩ rfl)
    exact .snoc (.snoc hprompts (.install (by decide) rfl))
      (.answer (by decide : _ = some shown) rfl rfl)
  · intro hsound
    obtain ⟨prepared, hprepare, hsound⟩ := hsound.cons_inv
    obtain ⟨closed, hclose, hsound⟩ := hsound.cons_inv
    obtain ⟨reopened, hreopen, hsound⟩ := hsound.cons_inv
    obtain ⟨_, hbegin, -⟩ := hsound.cons_inv
    have hstate : reopened.roundState = ⟨2, .connecting⟩ := by
      cases hprepare.step
      cases hclose.step
      cases hreopen.step
      rfl
    exact hbegin.own.own ⟨1, 0, .trust, rfl, hretired _ (by rw [hstate]), by rw [hstate]⟩

end RustAdmin.Viewer.ConnectionRounds
