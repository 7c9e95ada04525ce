import RustAdmin.Support.Ladder
import RustAdmin.Support.Run
import RustAdmin.VideoQos.MovieCadence

/-!
# The rate stays on the ladder

Every evaluation leaves the controller on its ladder.  Rejecting a raised rate does
so too, except in one case: the target fell to a ladder without the present rate but
with a higher one, so the decision was a raise, and the rejection goes back to a
rate that is on no ladder.

`Settled` is kept by every evaluation: a change within the ladder is one of `Moves`,
and a new target gives a ladder that is descending again (`onLadder_retarget`).  A
rejection goes back to the rate from which the decision started, so the evaluation
also says whether that rate is still on the ladder (`Settled.evaluate`);
`leavesLadder_iff` shows that it is gone in one case only.  That pressure moves a
settled controller down is a lemma on one state (`Settled.movesDown`).
-/

namespace RustAdmin.VideoQos

open RustAdmin.Support

variable {ft : FloatTests}

/-! ## The ladder of a target -/

theorem clampFps_clampFps (fps : ℕ) : clampFps (clampFps fps) = clampFps fps := by
  unfold clampFps minFps maxFps
  omega

theorem movieCadenceTiers_descending (targetFps refreshMillihz : ℕ) :
    Descending (movieCadenceTiers ft targetFps refreshMillihz) :=
  descending_destutter _

theorem movieCadenceTiers_ne_nil (ft : FloatTests) (targetFps refreshMillihz : ℕ) :
    movieCadenceTiers ft targetFps refreshMillihz ≠ [] := by
  intro hnil
  have hlength := congrArg List.length ((List.destutter_eq_nil _).mp hnil)
  unfold sortDescending at hlength
  rw [List.length_insertionSort] at hlength
  split at hlength
  · simp at hlength
  · rename_i hne
    exact hne (List.length_eq_zero_iff.mp hlength)

theorem le_of_mem_compatibleTiers {targetFps refreshMillihz fps : ℕ}
    (h : fps ∈ compatibleTiers ft targetFps refreshMillihz) : fps ≤ targetFps := by
  unfold compatibleTiers at h
  split at h
  · simpa using (List.mem_filter.mp (List.mem_of_mem_take h)).2
  · have htest := (List.mem_filter.mp h).2
    by_contra hless
    simp [Nat.lt_of_not_le hless] at htest

theorem le_of_mem_withDefault {targetFps fps : ℕ} {tiers : List ℕ}
    (htiers : ∀ fps ∈ tiers, fps ≤ targetFps) (h : fps ∈ withDefault targetFps tiers) :
    fps ≤ targetFps := by
  unfold withDefault at h
  split at h
  case isTrue hdefault =>
    rcases List.mem_append.mp h with h | h
    · exact htiers fps h
    · obtain rfl := List.mem_singleton.mp h
      exact hdefault.1
  case isFalse => exact htiers fps h

/-- No tier is above the target. -/
theorem le_of_mem_movieCadenceTiers {targetFps refreshMillihz fps : ℕ}
    (h : fps ∈ movieCadenceTiers ft targetFps refreshMillihz) : fps ≤ clampFps targetFps := by
  have hmem := mem_destutter_insertionSort.mp h
  split at hmem
  · exact Nat.le_of_eq (List.mem_singleton.mp hmem)
  · exact le_of_mem_withDefault (fun _ => le_of_mem_compatibleTiers) hmem

namespace MovieCadenceController

/-- The controller stands on its ladder: the ladder is not empty, strictly descending
and below the target, the rate is one of its tiers, and no tier of the target is
missing below one that is there. -/
structure OnLadder (ft : FloatTests) (c : MovieCadenceController) : Prop where
  nonempty : c.tiers ≠ []
  descending : Descending c.tiers
  bounded : ∀ fps ∈ c.tiers, fps ≤ c.targetFps
  current : c.currentTier ∈ c.tiers
  complete : ∀ fps ∈ movieCadenceTiers ft c.targetFps c.refreshMillihz, ∀ higher ∈ c.tiers,
    fps ≤ higher → fps ∈ c.tiers

variable {c c' : MovieCadenceController} {decision : Option MovieCadenceDecision}

/-- The target falls to a ladder that has a higher rate than the present one, but not
the present one. -/
def LeavesLadder (ft : FloatTests) (c : MovieCadenceController) (sample : MovieCadenceSample) :
    Prop :=
  let tiers := movieCadenceTiers ft (clampFps sample.targetFps) sample.viewer.displayRefreshMillihz
  clampFps sample.targetFps < c.targetFps ∧ c.currentTier ∉ tiers ∧
    ∃ fps ∈ tiers, c.currentTier < fps

/-! ## A change within the ladder -/

/-- The ladder stays; the rate stays or goes to another tier, as the decision says. -/
structure Moves (c c' : MovieCadenceController) (decision : Option MovieCadenceDecision) :
    Prop where
  target : c'.targetFps = c.targetFps
  tiers : c'.tiers = c.tiers
  refresh : c'.refreshMillihz = c.refreshMillihz
  rate : (decision = none ∧ c'.currentTier = c.currentTier) ∨
    ∃ reason, decision = some ⟨c.currentTier, c'.currentTier, reason⟩ ∧ c'.currentTier ∈ c.tiers

/-- The rest of the state does not matter. -/
theorem Moves.of_same {d : MovieCadenceController} (h : Moves d c' decision)
    (htarget : d.targetFps = c.targetFps) (htiers : d.tiers = c.tiers)
    (hrefresh : d.refreshMillihz = c.refreshMillihz) (hcurrent : d.currentTier = c.currentTier) :
    Moves c c' decision where
  target := h.target.trans htarget
  tiers := h.tiers.trans htiers
  refresh := h.refresh.trans hrefresh
  rate := by
    rw [← hcurrent, ← htiers]
    exact h.rate

theorem moves_changeTier {next now : ℕ} {reason : MovieCadenceReason} (hnext : next ∈ c.tiers) :
    Moves c (c.changeTier next reason now).1 (c.changeTier next reason now).2 := by
  unfold changeTier
  split
  case isTrue => exact ⟨rfl, rfl, rfl, Or.inl ⟨rfl, rfl⟩⟩
  case isFalse => exact ⟨rfl, rfl, rfl, Or.inr ⟨reason, rfl, hnext⟩⟩

theorem mem_of_nextLowerTier {next : ℕ} (h : c.nextLowerTier = some next) : next ∈ c.tiers := by
  obtain ⟨i, -, hi⟩ := Option.bind_eq_some_iff.mp h
  exact List.mem_of_getElem? hi

theorem mem_of_nextHigherTier {next : ℕ} (h : c.nextHigherTier = some next) :
    next ∈ c.tiers := by
  obtain ⟨i, -, hi⟩ := Option.bind_eq_some_iff.mp h
  split at hi
  · cases hi
  · exact List.mem_of_getElem? hi

theorem moves_evaluatePressured (reason : MovieCadenceReason) (now : ℕ) :
    Moves c (c.evaluatePressured reason now).1 (c.evaluatePressured reason now).2 := by
  unfold evaluatePressured
  dsimp only
  split
  · split
    case h_1 next hnext =>
      exact (moves_changeTier (mem_of_nextLowerTier hnext)).of_same rfl rfl rfl rfl
    case h_2 => exact ⟨rfl, rfl, rfl, Or.inl ⟨rfl, rfl⟩⟩
  · exact ⟨rfl, rfl, rfl, Or.inl ⟨rfl, rfl⟩⟩

theorem moves_evaluateRelaxed (sample : MovieCadenceSample) :
    Moves c (c.evaluateRelaxed sample).1 (c.evaluateRelaxed sample).2 := by
  unfold evaluateRelaxed
  dsimp only
  split
  case h_1 => exact ⟨rfl, rfl, rfl, Or.inl ⟨rfl, rfl⟩⟩
  case h_2 next hnext =>
    have hmem : next ∈ c.tiers := mem_of_nextHigherTier hnext
    split
    · exact ⟨rfl, rfl, rfl, Or.inl ⟨rfl, rfl⟩⟩
    · split
      · exact ⟨rfl, rfl, rfl, Or.inl ⟨rfl, rfl⟩⟩
      · split
        · exact ⟨rfl, rfl, rfl, Or.inl ⟨rfl, rfl⟩⟩
        · refine Moves.of_same (moves_changeTier ?_) rfl rfl rfl rfl
          exact hmem

/-- Moving within the ladder keeps it. -/
theorem OnLadder.moves (h : OnLadder ft c) (hmoves : Moves c c' decision) : OnLadder ft c' where
  nonempty := by
    rw [hmoves.tiers]
    exact h.nonempty
  descending := by
    rw [hmoves.tiers]
    exact h.descending
  bounded := by
    rw [hmoves.tiers, hmoves.target]
    exact h.bounded
  current := by
    rw [hmoves.tiers]
    rcases hmoves.rate with ⟨-, hsame⟩ | ⟨-, -, hmem⟩
    · rw [hsame]
      exact h.current
    · exact hmem
  complete := by
    rw [hmoves.tiers, hmoves.target, hmoves.refresh]
    exact h.complete

/-! ## A new ladder -/

/-- The ladder of `movie_cadence_tiers` for a target that is in range. -/
theorem onLadder_of_tiers {targetFps : ℕ} (hclamped : clampFps targetFps = targetFps)
    (htarget : c.targetFps = targetFps)
    (htiers : c.tiers = movieCadenceTiers ft targetFps c.refreshMillihz)
    (hcurrent : c.currentTier ∈ c.tiers) : OnLadder ft c where
  nonempty := by
    rw [htiers]
    exact movieCadenceTiers_ne_nil _ _ _
  descending := by
    rw [htiers]
    exact movieCadenceTiers_descending _ _
  bounded := by
    intro fps hfps
    rw [htiers] at hfps
    have := le_of_mem_movieCadenceTiers hfps
    omega
  current := hcurrent
  complete := by
    intro fps hfps _ _ _
    rw [htiers, ← htarget]
    exact hfps

theorem onLadder_new (targetFps refreshMillihz now : ℕ) :
    OnLadder ft (new ft targetFps refreshMillihz now) := by
  refine onLadder_of_tiers (clampFps_clampFps targetFps) rfl rfl ?_
  have hne := movieCadenceTiers_ne_nil ft (clampFps targetFps) refreshMillihz
  show (Option.getD _ _) ∈ movieCadenceTiers ft (clampFps targetFps) refreshMillihz
  cases hfind : (movieCadenceTiers ft (clampFps targetFps) refreshMillihz).find?
      (· ≤ fpsDefault) with
  | some fps => exact List.mem_of_find?_eq_some hfind
  | none =>
      rw [List.getLast?_eq_getLast_of_ne_nil hne]
      exact List.getLast_mem hne

theorem OnLadder.updateProbationTiers (h : OnLadder ft c)
    (hclamped : clampFps c.targetFps = c.targetFps) (refreshMillihz : ℕ) :
    OnLadder ft (c.updateProbationTiers ft refreshMillihz) := by
  unfold MovieCadenceController.updateProbationTiers
  split
  · exact h
  · dsimp only
    split
    case isTrue hmem => exact onLadder_of_tiers hclamped rfl rfl hmem
    case isFalse => exact h

theorem updateProbationTiers_same (ft : FloatTests) (c : MovieCadenceController)
    (refreshMillihz : ℕ) :
    (c.updateProbationTiers ft refreshMillihz).targetFps = c.targetFps ∧
      (c.updateProbationTiers ft refreshMillihz).currentTier = c.currentTier := by
  unfold MovieCadenceController.updateProbationTiers
  split
  · exact ⟨rfl, rfl⟩
  · dsimp only
    split <;> exact ⟨rfl, rfl⟩

variable (ft c) in
theorem moves_evaluateOnTarget (sample : MovieCadenceSample) :
    Moves (c.updateProbationTiers ft sample.viewer.displayRefreshMillihz)
      (c.evaluateOnTarget ft sample).1 (c.evaluateOnTarget ft sample).2 := by
  unfold evaluateOnTarget
  dsimp only
  split
  · exact (moves_evaluatePressured _ _).of_same rfl rfl rfl rfl
  · exact (moves_evaluateRelaxed _).of_same rfl rfl rfl rfl

/-! ## A new target -/

theorem nodup_concat {l : List ℕ} {fps : ℕ} (hl : Descending l) (hfps : fps ∉ l) :
    (l ++ [fps]).Nodup :=
  List.Nodup.append (List.Pairwise.imp (fun h => Nat.ne_of_gt h) hl) (List.nodup_singleton fps)
    (by simpa using hfps)

variable {targetFps refreshMillihz now : ℕ}

theorem mem_retargetedTiers {fps : ℕ} :
    fps ∈ c.retargetedTiers ft targetFps refreshMillihz ↔
      fps ∈ movieCadenceTiers ft targetFps refreshMillihz ∨
        (fps = c.currentTier ∧ c.targetFps < targetFps ∧ c.currentTier < targetFps) := by
  unfold retargetedTiers sortDescending
  dsimp only
  split
  case isTrue h =>
    rw [List.mem_insertionSort, List.mem_append, List.mem_singleton]
    simp [h.1, h.2.1]
  case isFalse h =>
    constructor
    · exact Or.inl
    · rintro (hmem | ⟨rfl, hless⟩)
      · exact hmem
      · by_contra hnot
        exact h ⟨hless.1, hless.2, hnot⟩

variable (ft c targetFps refreshMillihz) in
theorem retargetedTiers_descending :
    Descending (c.retargetedTiers ft targetFps refreshMillihz) := by
  unfold retargetedTiers
  dsimp only
  split
  case isTrue h =>
      exact descending_insertionSort (nodup_concat (movieCadenceTiers_descending _ _) h.2.2)
  case isFalse => exact movieCadenceTiers_descending _ _

/-- The ladder of a new target, whichever rate on it is taken. -/
theorem onLadder_of_retargeted (hclamped : clampFps targetFps = targetFps)
    (htarget : c'.targetFps = targetFps) (hrefresh : c'.refreshMillihz = refreshMillihz)
    (htiers : c'.tiers = c.retargetedTiers ft targetFps refreshMillihz)
    (hcurrent : c'.currentTier ∈ c'.tiers) : OnLadder ft c' where
  nonempty := List.ne_nil_of_mem hcurrent
  descending := by
    rw [htiers]
    exact retargetedTiers_descending _ _ _ _
  bounded := by
    intro fps hfps
    rw [htiers, mem_retargetedTiers] at hfps
    rw [htarget]
    rcases hfps with hfps | ⟨rfl, -, hless⟩
    · have := le_of_mem_movieCadenceTiers hfps
      omega
    · exact Nat.le_of_lt hless
  current := hcurrent
  complete := by
    intro fps hfps _ _ _
    rw [htarget, hrefresh] at hfps
    rw [htiers, mem_retargetedTiers]
    exact Or.inl hfps

variable (ft c targetFps refreshMillihz now) in
/-- What `retarget` does: it keeps the rate, which is on the new ladder, or takes the
highest tier. -/
theorem retarget_cases :
    (c.currentTier ∈ c.retargetedTiers ft targetFps refreshMillihz ∧
      (c.retarget ft targetFps refreshMillihz now).2 = none ∧
      (c.retarget ft targetFps refreshMillihz now).1.currentTier = c.currentTier) ∨
    (c.currentTier ∉ c.retargetedTiers ft targetFps refreshMillihz ∧
      ∃ top, (c.retargetedTiers ft targetFps refreshMillihz).head? = some top ∧
        (c.retarget ft targetFps refreshMillihz now).2 =
          some ⟨c.currentTier, top, .targetChanged⟩ ∧
        (c.retarget ft targetFps refreshMillihz now).1.currentTier = top) := by
  by_cases hmem : c.currentTier ∈ c.retargetedTiers ft targetFps refreshMillihz
  · left
    simp [retarget, hmem]
  · right
    refine ⟨hmem, ?_⟩
    cases htiers : c.retargetedTiers ft targetFps refreshMillihz with
    | nil =>
        obtain ⟨fps, hfps⟩ := List.exists_mem_of_ne_nil _
          (movieCadenceTiers_ne_nil ft targetFps refreshMillihz)
        have := mem_retargetedTiers (c := c).mpr (Or.inl hfps)
        rw [htiers] at this
        cases this
    | cons top rest =>
        have hne : top ≠ c.currentTier := by
          rintro rfl
          exact hmem (htiers ▸ List.mem_cons_self)
        refine ⟨top, rfl, ?_⟩
        rw [htiers] at hmem
        simp [retarget, htiers, hmem, changeTier, hne]

variable (ft c targetFps refreshMillihz now) in
theorem retarget_same :
    (c.retarget ft targetFps refreshMillihz now).1.targetFps = targetFps ∧
      (c.retarget ft targetFps refreshMillihz now).1.refreshMillihz = refreshMillihz ∧
      (c.retarget ft targetFps refreshMillihz now).1.tiers =
        c.retargetedTiers ft targetFps refreshMillihz := by
  unfold retarget changeTier
  dsimp only
  split
  · split <;> exact ⟨rfl, rfl, rfl⟩
  · exact ⟨rfl, rfl, rfl⟩

theorem onLadder_retarget (hclamped : clampFps targetFps = targetFps) :
    OnLadder ft (c.retarget ft targetFps refreshMillihz now).1 := by
  obtain ⟨htarget, hrefresh, htiers⟩ := retarget_same ft c targetFps refreshMillihz now
  refine onLadder_of_retargeted hclamped htarget hrefresh htiers ?_
  rw [htiers]
  rcases retarget_cases ft c targetFps refreshMillihz now with ⟨hmem, -, hcurrent⟩ |
    ⟨-, top, htop, -, hcurrent⟩
  · rw [hcurrent]
    exact hmem
  · rw [hcurrent]
    exact List.mem_of_mem_head? htop

/-! ## One turn -/

/-- The controller is on its ladder, whose target is in range. -/
structure Settled (ft : FloatTests) (c : MovieCadenceController) : Prop where
  onLadder : OnLadder ft c
  clamped : clampFps c.targetFps = c.targetFps

theorem settled_new (targetFps refreshMillihz now : ℕ) :
    Settled ft (new ft targetFps refreshMillihz now) :=
  ⟨onLadder_new _ _ _, clampFps_clampFps _⟩

variable {sample : MovieCadenceSample}

/-- An evaluation on the target leaves the controller settled, and a decision starts
from a tier that stays on the ladder. -/
theorem Settled.evaluateOnTarget (h : Settled ft c) (sample : MovieCadenceSample) :
    Settled ft (c.evaluateOnTarget ft sample).1 ∧
      ∀ d, (c.evaluateOnTarget ft sample).2 = some d →
        d.previousFps ∈ (c.evaluateOnTarget ft sample).1.tiers := by
  have hmoves := moves_evaluateOnTarget ft c sample
  have hprobation :=
    h.onLadder.updateProbationTiers h.clamped sample.viewer.displayRefreshMillihz
  obtain ⟨htarget, hcurrent⟩ :=
    updateProbationTiers_same ft c sample.viewer.displayRefreshMillihz
  refine ⟨⟨hprobation.moves hmoves, ?_⟩, ?_⟩
  · rw [hmoves.target, htarget]
    exact h.clamped
  · intro d hd
    rcases hmoves.rate with ⟨hnone, -⟩ | ⟨reason, hsome, -⟩
    · rw [hnone] at hd
      cases hd
    · rw [hsome] at hd
      rw [← Option.some.inj hd, hmoves.tiers]
      exact hprobation.current

/-- A raise to the top of a new ladder without the present rate. -/
theorem leavesLadder_iff (h : Settled ft c) (hne : clampFps sample.targetFps ≠ c.targetFps)
    {top : ℕ} (htop : (c.retargetedTiers ft (clampFps sample.targetFps)
      sample.viewer.displayRefreshMillihz).head? = some top)
    (hoff : c.currentTier ∉ c.retargetedTiers ft (clampFps sample.targetFps)
      sample.viewer.displayRefreshMillihz) :
    LeavesLadder ft c sample ↔ c.currentTier < top := by
  have hbound : c.currentTier ≤ c.targetFps := h.onLadder.bounded _ h.onLadder.current
  rw [mem_retargetedTiers, not_or] at hoff
  obtain ⟨hoff, hfalls⟩ := hoff
  -- A rising target would have put the present rate on the ladder.
  have hless : clampFps sample.targetFps < c.targetFps := by
    by_contra hnot
    exact hfalls ⟨rfl, by omega, by omega⟩
  have hmem := mem_retargetedTiers.mp (List.mem_of_mem_head? htop)
  constructor
  -- The head of a descending ladder is the highest tier, so one above the rate is enough.
  · rintro ⟨-, -, fps, hfps, hhigher⟩
    have hdescending := retargetedTiers_descending ft c
      (clampFps sample.targetFps) sample.viewer.displayRefreshMillihz
    have hfps' := mem_retargetedTiers (c := c).mpr (Or.inl hfps)
    obtain ⟨rest, hrest⟩ := List.head?_eq_some_iff.mp htop
    rw [hrest] at hdescending hfps'
    rcases List.mem_cons.mp hfps' with rfl | hfps'
    · exact hhigher
    · have := (List.pairwise_cons.mp hdescending).1 fps hfps'
      omega
  · intro hhigher
    rcases hmem with hmem | ⟨rfl, -⟩
    · exact ⟨hless, hoff, top, hmem, hhigher⟩
    · exact absurd hhigher (Nat.lt_irrefl _)

theorem evaluate_of_none {c' : MovieCadenceController}
    (h : c.updateTarget ft sample.targetFps sample.viewer.displayRefreshMillihz sample.now =
      (c', none)) : c.evaluate ft sample = c'.evaluateOnTarget ft sample := by
  rw [MovieCadenceController.evaluate, h]

theorem evaluate_of_some {c' : MovieCadenceController} {d : MovieCadenceDecision}
    (h : c.updateTarget ft sample.targetFps sample.viewer.displayRefreshMillihz sample.now =
      (c', some d)) : c.evaluate ft sample = (c', some d) := by
  rw [MovieCadenceController.evaluate, h]

/-- What an evaluation leaves behind: a settled controller, and of a decision either
the rate it started from or the fact that the ladder has been left. -/
theorem Settled.evaluate (h : Settled ft c) (sample : MovieCadenceSample) :
    Settled ft (c.evaluate ft sample).1 ∧
      ∀ d, (c.evaluate ft sample).2 = some d →
        (¬ LeavesLadder ft c sample ∧
          (d.previousFps < d.currentFps → d.previousFps ∈ (c.evaluate ft sample).1.tiers)) ∨
        (LeavesLadder ft c sample ∧ d.previousFps < d.currentFps ∧
          d.previousFps ∉ (c.evaluate ft sample).1.tiers) := by
  by_cases htarget : clampFps sample.targetFps = c.targetFps
  · have heq : c.evaluate ft sample = c.evaluateOnTarget ft sample := by
      simp [MovieCadenceController.evaluate, updateTarget, htarget]
    have hstays : ¬ LeavesLadder ft c sample := fun hleaves => by
      have := hleaves.1
      omega
    rw [heq]
    obtain ⟨hsettled, hprevious⟩ := h.evaluateOnTarget sample
    exact ⟨hsettled, fun d hd => Or.inl ⟨hstays, fun _ => hprevious d hd⟩⟩
  · have hsettled : Settled ft (c.retarget ft (clampFps sample.targetFps)
        sample.viewer.displayRefreshMillihz sample.now).1 := by
      refine ⟨onLadder_retarget (clampFps_clampFps _), ?_⟩
      rw [(retarget_same ..).1]
      exact clampFps_clampFps _
    have hupdate : c.updateTarget ft sample.targetFps sample.viewer.displayRefreshMillihz
        sample.now = c.retarget ft (clampFps sample.targetFps)
          sample.viewer.displayRefreshMillihz sample.now := by
      simp [updateTarget, htarget]
    obtain ⟨-, -, htiers⟩ := retarget_same ft c (clampFps sample.targetFps)
      sample.viewer.displayRefreshMillihz sample.now
    rcases retarget_cases ft c (clampFps sample.targetFps)
      sample.viewer.displayRefreshMillihz sample.now with
      ⟨hmem, hnone, -⟩ | ⟨hoff, top, htop, hsome, -⟩
    -- The rate is on the new ladder, and the evaluation goes on with the sample.
    · have heq := evaluate_of_none (hupdate.trans (Prod.ext rfl hnone))
      have hstays : ¬ LeavesLadder ft c sample := by
        rintro ⟨hless, hoff, -⟩
        rcases mem_retargetedTiers.mp hmem with hmem | ⟨-, hrises, -⟩
        · exact hoff hmem
        · omega
      rw [heq]
      obtain ⟨hresult, hprevious⟩ := hsettled.evaluateOnTarget sample
      exact ⟨hresult, fun d hd => Or.inl ⟨hstays, fun _ => hprevious d hd⟩⟩
    -- The rate is not on it, and the decision goes to the top.
    · have heq := evaluate_of_some (hupdate.trans (Prod.ext rfl hsome))
      have hleaves := leavesLadder_iff h htarget htop hoff
      rw [heq]
      refine ⟨hsettled, ?_⟩
      intro d hd
      obtain rfl := Option.some.inj hd
      by_cases hraise : c.currentTier < top
      · right
        rw [htiers]
        exact ⟨hleaves.mpr hraise, hraise, hoff⟩
      · exact Or.inl ⟨fun hl => hraise (hleaves.mp hl), fun h => absurd h hraise⟩

/-- Rejecting a raise keeps the ladder up to the rate it goes back to. -/
theorem OnLadder.rejectChange (h : OnLadder ft c) {previous rejected : ℕ}
    (hprevious : previous ∈ c.tiers) (hraise : previous < rejected) (now : ℕ) :
    OnLadder ft (c.rejectChange previous rejected now) := by
  have hmem : previous ∈ c.tiers.filter (· ≤ previous) := by simp [hprevious]
  simp only [MovieCadenceController.rejectChange, if_pos hraise]
  exact {
    nonempty := List.ne_nil_of_mem hmem
    descending := h.descending.filter _
    bounded := fun fps hfps => h.bounded fps (List.mem_filter.mp hfps).1
    current := hmem
    complete := by
      intro fps hfps higher hhigher hle
      obtain ⟨hhigher, hbelow⟩ := List.mem_filter.mp hhigher
      refine List.mem_filter.mpr ⟨h.complete fps hfps higher hhigher hle, ?_⟩
      simp only [decide_eq_true_eq] at hbelow ⊢
      exact hle.trans hbelow }

/-- A turn keeps the ladder unless it rejects a raise that left it. -/
theorem Settled.turn (h : Settled ft c) {rejects : Bool}
    (hkeep : rejects = true → ¬ LeavesLadder ft c sample) :
    Settled ft (c.turn ft sample rejects) := by
  obtain ⟨hsettled, hdecision⟩ := h.evaluate sample
  unfold MovieCadenceController.turn
  generalize c.evaluate ft sample = result at hsettled hdecision
  obtain ⟨c', d⟩ := result
  cases d with
  | none => exact hsettled
  | some d =>
      dsimp only
      split
      case isTrue hreject =>
        rcases hdecision d rfl with ⟨-, hprevious⟩ | ⟨hleaves, -⟩
        · have hladder := hsettled.onLadder.rejectChange (hprevious hreject.2) hreject.2
            sample.now
          refine ⟨hladder, ?_⟩
          simp only [rejectChange, if_pos hreject.2]
          exact hsettled.clamped
        · exact absurd hleaves (hkeep hreject.1)
      case isFalse => exact hsettled

/-- A turn that rejects such a raise ends off the ladder. -/
theorem Settled.not_onLadder_turn (h : Settled ft c) (hleaves : LeavesLadder ft c sample) :
    ¬ OnLadder ft (c.turn ft sample true) := by
  obtain ⟨-, hdecision⟩ := h.evaluate sample
  have htarget : clampFps sample.targetFps ≠ c.targetFps := Nat.ne_of_lt hleaves.1
  have hsome : ∃ d, (c.evaluate ft sample).2 = some d := by
    have hoff : c.currentTier ∉ c.retargetedTiers ft (clampFps sample.targetFps)
        sample.viewer.displayRefreshMillihz := by
      rw [mem_retargetedTiers]
      rintro (hmem | ⟨-, hrises, -⟩)
      · exact hleaves.2.1 hmem
      · have := hleaves.1
        omega
    rcases retarget_cases ft c (clampFps sample.targetFps)
      sample.viewer.displayRefreshMillihz sample.now with
      ⟨hmem, -⟩ | ⟨-, top, -, hsome, -⟩
    · exact absurd hmem hoff
    · refine ⟨⟨c.currentTier, top, .targetChanged⟩, ?_⟩
      have hupdate : c.updateTarget ft sample.targetFps sample.viewer.displayRefreshMillihz
          sample.now = c.retarget ft (clampFps sample.targetFps)
            sample.viewer.displayRefreshMillihz sample.now := by
        simp [updateTarget, htarget]
      rw [evaluate_of_some (hupdate.trans (Prod.ext rfl hsome))]
  unfold MovieCadenceController.turn
  generalize c.evaluate ft sample = result at hdecision hsome
  obtain ⟨c', d⟩ := result
  obtain ⟨d, rfl⟩ := hsome
  rcases hdecision d rfl with ⟨hstays, -⟩ | ⟨-, hraise, hoff⟩
  · exact absurd hleaves hstays
  -- The rejection goes back to the rate that the ladder lacks.
  · intro hladder
    have hcurrent := hladder.current
    simp only [true_and, if_pos hraise, rejectChange, List.mem_filter] at hcurrent
    exact hoff hcurrent.1

/-! ## All turns -/

/-- Under pressure that has lasted, the controller moves down while its target has a
lower tier. -/
def MovesDown (ft : FloatTests) (c : MovieCadenceController) : Prop :=
  ∀ sample : MovieCadenceSample, ∀ since reason, clampFps sample.targetFps = c.targetFps →
    c.pressureSince = some since → moviePressureDuration ≤ sample.now - since →
    (c.updateProbationTiers ft sample.viewer.displayRefreshMillihz).pressure ft sample
      ((c.updateProbationTiers ft sample.viewer.displayRefreshMillihz).viewerCounterDeltas
        sample.viewer).2 = some reason →
    (∃ fps ∈ movieCadenceTiers ft c.targetFps
        (c.updateProbationTiers ft sample.viewer.displayRefreshMillihz).refreshMillihz,
      fps < c.currentTier) →
    ∃ d, (c.evaluate ft sample).2 = some d ∧ d.currentFps < d.previousFps

theorem evaluatePressured_of_lasting {since next : ℕ} {reason : MovieCadenceReason}
    (hsince : c.pressureSince = some since) (hlong : moviePressureDuration ≤ now - since)
    (hnext : c.nextLowerTier = some next) (hne : next ≠ c.currentTier) :
    (c.evaluatePressured reason now).2 = some ⟨c.currentTier, next, reason⟩ := by
  have hnext' : nextLowerTier { c with healthySince := none, pressureSince := some since } =
      some next := hnext
  simp only [evaluatePressured, hsince, Option.getD_some, if_pos hlong, hnext', changeTier,
    if_neg hne]

theorem Settled.movesDown (h : Settled ft c) : MovesDown ft c := by
  intro sample since reason htarget hsince hlong hpressure ⟨fps, hfps, hlower⟩
  have hprobation :=
    h.onLadder.updateProbationTiers h.clamped sample.viewer.displayRefreshMillihz
  obtain ⟨htarget', hcurrent'⟩ :=
    updateProbationTiers_same ft c sample.viewer.displayRefreshMillihz
  have hsince' : (c.updateProbationTiers ft
      sample.viewer.displayRefreshMillihz).pressureSince = some since := by
    unfold MovieCadenceController.updateProbationTiers
    split
    · exact hsince
    · dsimp only
      split <;> exact hsince
  have heq : c.evaluate ft sample = c.evaluateOnTarget ft sample := by
    simp [MovieCadenceController.evaluate, updateTarget, htarget]
  rw [heq, MovieCadenceController.evaluateOnTarget]
  generalize c.updateProbationTiers ft sample.viewer.displayRefreshMillihz = c' at *
  -- Rejections cut the ladder from above only, so the lower tier is still there.
  have hmem : fps ∈ c'.tiers := by
    refine hprobation.complete fps (htarget'.symm ▸ hfps) c'.currentTier hprobation.current ?_
    omega
  obtain ⟨next, hnext, -, -, hless⟩ :=
    hprobation.descending.next hprobation.current hmem (by omega)
  refine ⟨⟨c'.currentTier, next, reason⟩, ?_, hless⟩
  rw [hpressure]
  exact evaluatePressured_of_lasting (c := (c'.viewerCounterDeltas sample.viewer).1) hsince' hlong
    hnext (Nat.ne_of_lt hless)

/-- The controller after the turns of a service. -/
def afterTurns (ft : FloatTests) (targetFps refreshMillihz now : ℕ)
    (turns : List (MovieCadenceSample × Bool)) : MovieCadenceController :=
  turns.foldl (fun c turn => c.turn ft turn.1 turn.2) (new ft targetFps refreshMillihz now)

theorem afterTurns_concat (targetFps refreshMillihz now : ℕ)
    (turns : List (MovieCadenceSample × Bool)) (turn : MovieCadenceSample × Bool) :
    afterTurns ft targetFps refreshMillihz now (turns ++ [turn]) =
      (afterTurns ft targetFps refreshMillihz now turns).turn ft turn.1 turn.2 := by
  simp [afterTurns]

/-- The controller is on its ladder; so its rate is within the target, and pressure
moves it down. -/
structure Controlled (ft : FloatTests) (c : MovieCadenceController) : Prop where
  onLadder : OnLadder ft c
  rate : c.currentTier ≤ c.targetFps
  movesDown : MovesDown ft c

theorem Settled.controlled (h : Settled ft c) : Controlled ft c :=
  ⟨h.onLadder, h.onLadder.bounded _ h.onLadder.current, h.movesDown⟩

/-- No turn rejects a raise that has left the ladder. -/
def KeepsLadder (ft : FloatTests) (targetFps refreshMillihz now : ℕ)
    (turns : List (MovieCadenceSample × Bool)) : Prop :=
  Always (fun before turn => turn.2 = true →
    ¬ LeavesLadder ft (afterTurns ft targetFps refreshMillihz now before) turn.1) turns

theorem settled_afterTurns {targetFps refreshMillihz now : ℕ}
    {turns : List (MovieCadenceSample × Bool)}
    (hkeeps : KeepsLadder ft targetFps refreshMillihz now turns) :
    Settled ft (afterTurns ft targetFps refreshMillihz now turns) := by
  induction turns using List.reverseRecOn with
  | nil => exact settled_new _ _ _
  | append_singleton turns turn ih =>
      obtain ⟨hbefore, hturn⟩ := always_concat.mp hkeeps
      rw [afterTurns_concat]
      exact (ih hbefore).turn hturn

/-- The controller is on its ladder after every turn of a service exactly when no
turn rejects a raise to the ladder of a lower target that lacks the present rate. -/
theorem controlled_iff_keepsLadder (ft : FloatTests) (targetFps refreshMillihz now : ℕ)
    (turns : List (MovieCadenceSample × Bool)) :
    (∀ before after, turns = before ++ after →
      Controlled ft (afterTurns ft targetFps refreshMillihz now before)) ↔
    KeepsLadder ft targetFps refreshMillihz now turns := by
  constructor
  · intro hcontrolled
    induction turns using List.reverseRecOn with
    | nil => exact always_nil
    | append_singleton turns turn ih =>
        have hkeeps : KeepsLadder ft targetFps refreshMillihz now turns :=
          ih fun before after heq => hcontrolled before (after ++ [turn]) (by simp [heq])
        refine always_concat.mpr ⟨hkeeps, ?_⟩
        intro hrejects hleaves
        have hlast := (hcontrolled (turns ++ [turn]) [] (by simp)).onLadder
        rw [afterTurns_concat, hrejects] at hlast
        exact (settled_afterTurns hkeeps).not_onLadder_turn hleaves hlast
  · rintro hkeeps before after rfl
    have hbefore : KeepsLadder ft targetFps refreshMillihz now before :=
      fun first turn rest heq => hkeeps first turn (rest ++ after) (by simp [heq])
    exact (settled_afterTurns hbefore).controlled

/-- A sample without viewer and without load, for a target. -/
def quietSample (now targetFps : ℕ) : MovieCadenceSample :=
  ⟨now, targetFps, 0, 0, 0, ⟨false, false, 0, 0, 0, 0, 0, 0, 0, 0⟩, false⟩

/-- The target rises from 29 to 60, which keeps the rate of 25, and falls to 50, whose
ladder lacks it.  The raise to 50 is rejected, and no tier is left. -/
theorem not_controlled_rejected :
    (afterTurns .exact 29 0 0 [(quietSample 1000 60, false)]).tiers = [60, 30, 25] ∧
    (afterTurns .exact 29 0 0 [(quietSample 1000 60, false), (quietSample 2000 50, true)]).tiers =
      [] ∧
    ¬ Controlled .exact (afterTurns .exact 29 0 0
      [(quietSample 1000 60, false), (quietSample 2000 50, true)]) := by
  have htiers : (afterTurns .exact 29 0 0
      [(quietSample 1000 60, false), (quietSample 2000 50, true)]).tiers = [] := by decide
  exact ⟨by decide, htiers, fun h => h.onLadder.nonempty htiers⟩

end MovieCadenceController

end RustAdmin.VideoQos
