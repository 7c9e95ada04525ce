import Mathlib.Algebra.Order.Group.Multiset
import RustAdmin.Viewer.SessionHandle

/-!
# A closed handle stays closed

The close of a handle moves through its stages once.  From `beginClose` on no
generation is accepted, so nothing new is started, bound or dispatched, and what
a start under way still gets it gives back in the same step.  Only a first start
after the close sets the phase back.

## Strategy

`Kept` has three parts: `Open` before `close` was called, `Closing` from then on, and
`Started` for what the one start has got.  Most steps are `Beside` the close: they
leave its stage alone and add nothing to what the handle owns, so `Kept.beside` covers
them at once.  The steps of the close move its stage up (`SessionHandle.progress`),
and each has its own lemma.  At the end of the close the handle owns nothing, and a
generation that was shut is accepted again only by a first start.
-/

namespace RustAdmin.Viewer.SessionClose

open RustAdmin.Support

@[simp] theorem oneLease_none : oneLease none = 0 := rfl

/-! ## What holds in every run -/

/-- How far a close is. -/
def CloseStage.rank : CloseStage → ℕ
  | .scheduled => 0
  | .awaitingStart => 1
  | .awaitingRemoteClose => 2
  | .awaitingTail _ => 3
  | .cleaning => 4
  | .closingNative => 5
  | .cancelling => 6
  | .releasing => 7
  | .ended => 8

/-- A handle without a close under way counts as one whose close has completed. -/
def SessionHandle.progress (s : SessionHandle) : ℕ := (s.closeFuture.map (·.stage.rank)).getD 9

/-- The phase of a handle that is being closed or is closed. -/
def SessionPhase.Shut (phase : SessionPhase) : Prop :=
  phase = .closing ∨ phase = .closed ∨ phase = .failed

/-- What holds once `close` was called. -/
structure Closing (s : SessionHandle) : Prop where
  shut : s.lifecycle.phase.Shut
  cleanups : s.cleanups = if s.progress < 4 then 0 else 1
  finished : s.cleanupFinished = true ↔ 4 < s.progress
  native : s.nativeSessionActive = true → s.progress ≤ 4
  subscription : s.subscription = true → s.progress ≤ 5
  lease : s.platformLeaseGeneration ≠ none → s.progress ≤ 6
  closed : 8 ≤ s.progress → s.lifecycle.isClosed = true
  quiet : 4 ≤ s.progress → ∀ i, Link.turnAt s.eventTail i ≠ some .running
  awaited : ∀ c ∈ s.closeFuture, ∀ links, c.stage = .awaitingTail links →
    ∀ i, Link.turnAt s.eventTail i = some .running → i < links
  generation : ∀ c ∈ s.closeFuture, c.generation = s.lifecycle.generation

/-- What holds before. -/
structure Open (s : SessionHandle) : Prop where
  closeFuture : s.closeFuture = none
  cleanups : s.cleanups = 0
  finished : s.cleanupFinished = false

/-- The native session and the lease are got once, by the one start. -/
structure Started (s : SessionHandle) : Prop where
  unstarted : s.startRequested = false →
    s.starting = none ∧ s.nativeSessionActive = false ∧ s.nativeCloses = 0 ∧
      s.platformLeaseGeneration = none
  native : s.nativeCloses + s.nativeSessionActive.toNat ≤ 1
  unadded : ∀ t ∈ s.starting, t.stage = .acquiring ∨ t.stage = .adding →
    s.nativeSessionActive = false ∧ s.nativeCloses = 0
  unleased : ∀ t ∈ s.starting, t.stage = .acquiring → s.platformLeaseGeneration = none
  leases : s.acquired = oneLease s.platformLeaseGeneration + s.released

structure Kept (s : SessionHandle) : Prop where
  started : Started s
  inOrder : Link.InOrder s.eventTail
  beforeClose : s.closeCalled = false → Open s
  closing : s.closeCalled = true → Closing s

theorem start_kept : Kept {} where
  started := ⟨fun _ => ⟨rfl, rfl, rfl, rfl⟩, by decide, nofun, nofun, rfl⟩
  inOrder := Link.inOrder_nil
  beforeClose := fun _ => ⟨rfl, rfl, rfl⟩
  closing := nofun

theorem accepts_eq_false {s : SessionHandle} (h : s.lifecycle.phase.Shut) (generation : ℕ) :
    s.accepts generation = false := by
  unfold SessionHandle.accepts SessionLifecycle.accepts SessionLifecycle.isClosed
  rcases h with h | h | h <;> simp [h]

theorem Kept.not_accepts {s : SessionHandle} (h : Kept s) (hclose : s.closeCalled = true)
    (generation : ℕ) : s.accepts generation = false :=
  accepts_eq_false (h.closing hclose).shut generation

/-- What is accepted is not closed. -/
theorem Kept.closeCalled_of_accepts {s : SessionHandle} (h : Kept s) {generation : ℕ}
    (haccepts : s.accepts generation = true) : s.closeCalled = false := by
  by_contra hclose
  rw [h.not_accepts (Bool.eq_true_of_not_eq_false hclose)] at haccepts
  cases haccepts

/-! ## Steps beside the close -/

/-- A step that leaves the close alone; once `close` was called it adds nothing to
what the handle owns and begins no dispatch. -/
structure Beside (s s' : SessionHandle) : Prop where
  closeCalled : s'.closeCalled = s.closeCalled
  closeFuture : s'.closeFuture = s.closeFuture
  cleanups : s'.cleanups = s.cleanups
  finished : s'.cleanupFinished = s.cleanupFinished
  generation : s.closeCalled = true → s'.lifecycle.generation = s.lifecycle.generation
  shut : s.closeCalled = true → s.lifecycle.phase.Shut → s'.lifecycle.phase.Shut
  isClosed : s.closeCalled = true → s.lifecycle.isClosed = true → s'.lifecycle.isClosed = true
  native : s.closeCalled = true → s'.nativeSessionActive = true → s.nativeSessionActive = true
  subscription : s.closeCalled = true → s'.subscription = true → s.subscription = true
  lease : s.closeCalled = true → s'.platformLeaseGeneration ≠ none →
    s.platformLeaseGeneration ≠ none
  running : s.closeCalled = true → ∀ i, Link.turnAt s'.eventTail i = some .running →
    Link.turnAt s.eventTail i = some .running

theorem Beside.refl (s : SessionHandle) : Beside s s :=
  ⟨rfl, rfl, rfl, rfl, fun _ => rfl, fun _ => id, fun _ => id, fun _ => id, fun _ => id,
    fun _ => id, fun _ _ => id⟩

theorem Beside.trans {s middle s' : SessionHandle} (first : Beside s middle)
    (second : Beside middle s') : Beside s s' := by
  have hclose : s.closeCalled = true → middle.closeCalled = true :=
    fun h => first.closeCalled.trans h
  exact ⟨second.closeCalled.trans first.closeCalled, second.closeFuture.trans first.closeFuture,
    second.cleanups.trans first.cleanups, second.finished.trans first.finished,
    fun h => (second.generation (hclose h)).trans (first.generation h),
    fun h hshut => second.shut (hclose h) (first.shut h hshut),
    fun h hclosed => second.isClosed (hclose h) (first.isClosed h hclosed),
    fun h hactive => first.native h (second.native (hclose h) hactive),
    fun h hbound => first.subscription h (second.subscription (hclose h) hbound),
    fun h hlease => first.lease h (second.lease (hclose h) hlease),
    fun h i hrunning => first.running h i (second.running (hclose h) i hrunning)⟩

theorem Beside.progress {s s' : SessionHandle} (h : Beside s s') : s'.progress = s.progress := by
  unfold SessionHandle.progress
  rw [h.closeFuture]

theorem Beside.closing {s s' : SessionHandle} (h : Beside s s') (hclose : s.closeCalled = true)
    (hs : Closing s) : Closing s' := by
  have hprogress := h.progress
  refine ⟨h.shut hclose hs.shut, ?_, ?_, ?_, ?_, ?_, ?_, ?_, ?_, ?_⟩
  · rw [h.cleanups, hprogress]
    exact hs.cleanups
  · rw [h.finished, hprogress]
    exact hs.finished
  · rw [hprogress]
    exact fun hactive => hs.native (h.native hclose hactive)
  · rw [hprogress]
    exact fun hbound => hs.subscription (h.subscription hclose hbound)
  · rw [hprogress]
    exact fun hlease => hs.lease (h.lease hclose hlease)
  · rw [hprogress]
    exact fun hend => h.isClosed hclose (hs.closed hend)
  · rw [hprogress]
    exact fun hclean i hrunning => hs.quiet hclean i (h.running hclose i hrunning)
  · rw [h.closeFuture]
    exact fun c hc links hstage i hrunning => hs.awaited c hc links hstage i
      (h.running hclose i hrunning)
  · rw [h.closeFuture, h.generation hclose]
    exact hs.generation

theorem Kept.beside {s s' : SessionHandle} (hs : Kept s) (h : Beside s s') (hstarted : Started s')
    (hinOrder : Link.InOrder s'.eventTail) : Kept s' where
  started := hstarted
  inOrder := hinOrder
  beforeClose := fun hclose => by
    have hopen := hs.beforeClose (h.closeCalled.symm.trans hclose)
    exact ⟨h.closeFuture.trans hopen.closeFuture, h.cleanups.trans hopen.cleanups,
      h.finished.trans hopen.finished⟩
  closing := fun hclose => by
    have hclosed := h.closeCalled.symm.trans hclose
    exact h.closing hclosed (hs.closing hclosed)

section Beside

variable {s s' : SessionHandle}

theorem Beside.of_eq (hcloseCalled : s'.closeCalled = s.closeCalled)
    (hcloseFuture : s'.closeFuture = s.closeFuture) (hcleanups : s'.cleanups = s.cleanups)
    (hfinished : s'.cleanupFinished = s.cleanupFinished) (hlifecycle : s'.lifecycle = s.lifecycle)
    (hnative : s'.nativeSessionActive = s.nativeSessionActive)
    (hsubscription : s'.subscription = s.subscription)
    (hlease : s'.platformLeaseGeneration = s.platformLeaseGeneration)
    (htail : s'.eventTail = s.eventTail) : Beside s s' := by
  refine ⟨hcloseCalled, hcloseFuture, hcleanups, hfinished, fun _ => by rw [hlifecycle],
    fun _ => ?_, fun _ => ?_, fun _ => ?_, fun _ => ?_, fun _ => ?_, fun _ i => ?_⟩
  · rw [hlifecycle]
    exact id
  · rw [hlifecycle]
    exact id
  · rw [hnative]
    exact id
  · rw [hsubscription]
    exact id
  · rw [hlease]
    exact id
  · rw [htail]
    exact id

theorem closeNativeOnce_beside (s : SessionHandle) : Beside s s.closeNativeOnce := by
  unfold SessionHandle.closeNativeOnce
  split
  · exact { Beside.refl s with native := nofun }
  · exact Beside.refl s

theorem cancelSubscription_beside (s : SessionHandle) : Beside s s.cancelSubscription :=
  { Beside.refl s with subscription := nofun }

theorem releasePlatformLeaseOnce_beside (s : SessionHandle) :
    Beside s s.releasePlatformLeaseOnce :=
  { Beside.refl s with lease := fun _ h => absurd rfl h }

theorem setStart_beside (s : SessionHandle) (t : Start) (stage : StartStage) :
    Beside s (s.setStart t stage) := .of_eq rfl rfl rfl rfl rfl rfl rfl rfl rfl

theorem rollBack_beside (s : SessionHandle) (t : Start) (caught : Bool) :
    Beside s (s.rollBack t caught) :=
  (closeNativeOnce_beside s).trans (setStart_beside _ _ _)

/-- What is accepted is not closed, so the step is free. -/
theorem Beside.of_open (hclose : s.closeCalled = false) (hcloseCalled : s'.closeCalled = false)
    (hcloseFuture : s'.closeFuture = s.closeFuture) (hcleanups : s'.cleanups = s.cleanups)
    (hfinished : s'.cleanupFinished = s.cleanupFinished) : Beside s s' := by
  have hopen : s.closeCalled ≠ true := by simp [hclose]
  exact ⟨hcloseCalled.trans hclose.symm, hcloseFuture, hcleanups, hfinished,
    fun h => absurd h hopen, fun h => absurd h hopen, fun h => absurd h hopen,
    fun h => absurd h hopen, fun h => absurd h hopen, fun h => absurd h hopen,
    fun h => absurd h hopen⟩

/-- The generation of a lifecycle fails or closes. -/
theorem lifecycle_beside {l : SessionLifecycle}
    (hgeneration : l.generation = s.lifecycle.generation)
    (hphase : l.phase = s.lifecycle.phase ∨ l.phase = .closed ∨ l.phase = .failed) :
    Beside s { s with lifecycle := l } := by
  refine { Beside.refl s with
    generation := fun _ => hgeneration
    shut := fun _ h => ?_
    isClosed := fun _ h => ?_ }
  · rcases hphase with hsame | hclosed | hfailed
    · rwa [SessionPhase.Shut, hsame]
    · exact .inr (.inl hclosed)
    · exact .inr (.inr hfailed)
  · rcases hphase with hsame | hclosed | hfailed
    · unfold SessionLifecycle.isClosed at h ⊢
      rwa [hsame]
    · simp [SessionLifecycle.isClosed, hclosed]
    · simp [SessionLifecycle.isClosed, hfailed]

theorem failed_beside (s : SessionHandle) (generation : ℕ) :
    Beside s { s with lifecycle := s.lifecycle.failed generation } := by
  unfold SessionLifecycle.failed
  split
  · exact lifecycle_beside rfl (.inr (.inr rfl))
  · exact Beside.refl s

theorem connected_beside (hs : Kept s) (generation : ℕ) :
    Beside s { s with lifecycle := s.lifecycle.connected generation } := by
  unfold SessionLifecycle.connected
  split
  · next hphase =>
      refine Beside.of_open ?_ ?_ rfl rfl rfl <;>
      · by_contra hclose
        have hshut := (hs.closing (Bool.eq_true_of_not_eq_false hclose)).shut
        rw [SessionPhase.Shut, hphase.2] at hshut
        simp at hshut
  · exact Beside.refl s

end Beside

/-! ## What the start gets -/

section Started

variable {s s' : SessionHandle} {t : Start}

theorem Started.congr (h : Started s) (hrequested : s'.startRequested = s.startRequested)
    (hstarting : s'.starting = s.starting)
    (hnative : s'.nativeSessionActive = s.nativeSessionActive)
    (hcloses : s'.nativeCloses = s.nativeCloses)
    (hlease : s'.platformLeaseGeneration = s.platformLeaseGeneration)
    (hacquired : s'.acquired = s.acquired) (hreleased : s'.released = s.released) : Started s' := by
  refine ⟨?_, ?_, ?_, ?_, ?_⟩
  · rw [hrequested, hstarting, hnative, hcloses, hlease]
    exact h.unstarted
  · rw [hnative, hcloses]
    exact h.native
  · rw [hstarting, hnative, hcloses]
    exact h.unadded
  · rw [hstarting, hlease]
    exact h.unleased
  · rw [hacquired, hlease, hreleased]
    exact h.leases

theorem Started.requested (h : Started s) (hstarting : s.starting = some t) :
    s.startRequested = true := by
  by_contra hunstarted
  have hidle := (h.unstarted (Bool.eq_false_of_not_eq_true hunstarted)).1
  rw [hstarting] at hidle
  cases hidle

/-- The native session is given up. -/
theorem Started.inactive (h : Started s) : Started { s with nativeSessionActive := false } where
  unstarted := fun hrequested =>
    ⟨(h.unstarted hrequested).1, rfl, (h.unstarted hrequested).2.2⟩
  native := le_trans (Nat.add_le_add_left (Nat.zero_le _) _) h.native
  unadded := fun t ht hstage => ⟨rfl, (h.unadded t ht hstage).2⟩
  unleased := h.unleased
  leases := h.leases

theorem Started.closeNativeOnce (h : Started s) : Started s.closeNativeOnce := by
  unfold SessionHandle.closeNativeOnce
  split
  · next hactive =>
      refine ⟨fun hrequested => ?_, ?_, fun t ht hstage => ?_, h.unleased, h.leases⟩
      · exact absurd hactive (by simp [(h.unstarted hrequested).2.1])
      · have hnative := h.native
        rw [hactive] at hnative
        exact hnative
      · exact absurd hactive (by simp [(h.unadded t ht hstage).1])
  · exact h

theorem Started.releasePlatformLeaseOnce (h : Started s) : Started s.releasePlatformLeaseOnce where
  unstarted := fun hrequested =>
    ⟨(h.unstarted hrequested).1, (h.unstarted hrequested).2.1, (h.unstarted hrequested).2.2.1, rfl⟩
  native := h.native
  unadded := h.unadded
  unleased := fun _ _ _ => rfl
  leases := by
    change s.acquired = 0 + (s.released + oneLease s.platformLeaseGeneration)
    rw [h.leases, zero_add, add_comm]

/-- The start goes on to a stage after the native session was added, or ends. -/
theorem Started.setStart (h : Started s) (hstarting : s.starting = some t) {stage : StartStage}
    (hacquiring : stage ≠ .acquiring) (hadding : stage ≠ .adding) :
    Started (s.setStart t stage) where
  unstarted := fun hunstarted => by
    exact absurd (h.requested hstarting) (Bool.eq_false_iff.mp hunstarted)
  native := h.native
  unadded := fun t' ht' hstage => by
    obtain rfl := Option.some.inj ht'
    exact absurd hstage (not_or.mpr ⟨hacquiring, hadding⟩)
  unleased := fun t' ht' hstage => by
    obtain rfl := Option.some.inj ht'
    exact absurd hstage hacquiring
  leases := h.leases

theorem Started.rollBack (h : Started s) (hstarting : s.starting = some t) (caught : Bool) :
    Started (s.rollBack t caught) := by
  refine h.closeNativeOnce.setStart ?_ nofun nofun
  unfold SessionHandle.closeNativeOnce
  split
  · exact hstarting
  · exact hstarting

end Started

/-! ## The steps of a start -/

section Start

variable {s : SessionHandle} {t : Start}

theorem Kept.start (h : Kept s) {acquires : Bool} (hfinal : ¬ s.Revives (.start acquires)) :
    Kept (s.start acquires) := by
  unfold SessionHandle.start
  split
  · exact h
  · next hrequested =>
      have hunstarted := Bool.eq_false_of_not_eq_true hrequested
      have hclose : s.closeCalled = false :=
        Bool.eq_false_of_not_eq_true fun hclose => hfinal ⟨acquires, rfl, hunstarted, hclose⟩
      obtain ⟨-, hnative, hcloses, hlease⟩ := h.started.unstarted hunstarted
      refine h.beside (.of_open hclose hclose rfl rfl rfl) ?_ h.inOrder
      exact ⟨nofun, h.started.native, fun _ _ _ => ⟨hnative, hcloses⟩, fun _ _ _ => hlease,
        h.started.leases⟩

/-- A step that changes only futures that nothing of this depends on, or listeners. -/
theorem Kept.aside {s' : SessionHandle} (h : Kept s)
    (hs : s' = { s with
      startFuture := s'.startFuture
      remoteCloseFuture := s'.remoteCloseFuture
      eventCloseFuture := s'.eventCloseFuture
      listeners := s'.listeners }) : Kept s' := by
  rw [hs]
  exact h.beside (.of_eq rfl rfl rfl rfl rfl rfl rfl rfl rfl)
    (h.started.congr rfl rfl rfl rfl rfl rfl rfl) h.inOrder

theorem Kept.acquiredLease (h : Kept s) (hstarting : s.starting = some t)
    (hstage : t.stage = .acquiring) (lease : Option ℤ) : Kept (s.acquiredLease t lease) := by
  have hnone := h.started.unleased t hstarting hstage
  have hunadded := h.started.unadded t hstarting (.inl hstage)
  have hrequested := h.started.requested hstarting
  have hleases := h.started.leases
  rw [hnone] at hleases
  unfold SessionHandle.acquiredLease
  dsimp only
  split
  · next haccepts =>
      have hclose := h.closeCalled_of_accepts haccepts
      refine h.beside (.of_open hclose hclose rfl rfl rfl) ?_ h.inOrder
      refine ⟨fun hunstarted => ?_, h.started.native, fun _ _ _ => hunadded,
        fun _ ht hstage => ?_, ?_⟩
      · exact absurd hrequested (Bool.eq_false_iff.mp hunstarted)
      · obtain rfl := Option.some.inj ht
        cases hstage
      · change s.acquired + oneLease lease = oneLease lease + s.released
        rw [hleases, oneLease_none, zero_add, add_comm]
  · -- the lease is given back at once
    refine h.beside { Beside.refl s with lease := fun _ hlease => absurd rfl hlease } ?_ h.inOrder
    refine ⟨fun hunstarted => ?_, h.started.native, fun _ ht hstage => ?_, fun _ _ _ => rfl, ?_⟩
    · exact absurd hrequested (Bool.eq_false_iff.mp hunstarted)
    · obtain rfl := Option.some.inj ht
      simp at hstage
    · change s.acquired + oneLease lease = 0 + (s.released + oneLease lease)
      rw [hleases]
      exact add_assoc 0 _ _

theorem Kept.rollBack (h : Kept s) (hstarting : s.starting = some t) (caught : Bool) :
    Kept (s.rollBack t caught) := by
  refine h.beside (rollBack_beside s t caught) (h.started.rollBack hstarting caught) ?_
  unfold SessionHandle.rollBack SessionHandle.closeNativeOnce
  split <;> exact h.inOrder

theorem Kept.setStart (h : Kept s) (hstarting : s.starting = some t) {stage : StartStage}
    (hacquiring : stage ≠ .acquiring) (hadding : stage ≠ .adding) : Kept (s.setStart t stage) :=
  h.beside (setStart_beside s t stage) (h.started.setStart hstarting hacquiring hadding) h.inOrder

theorem Kept.nativeAdded (h : Kept s) (hstarting : s.starting = some t)
    (hstage : t.stage = .adding) : Kept (s.nativeAdded t) := by
  obtain ⟨hnative, hcloses⟩ := h.started.unadded t hstarting (.inr hstage)
  have hrequested := h.started.requested hstarting
  have hlater : ∀ {t' : Start} {stage : StartStage}, t' ∈ some { t with stage := stage } →
      stage ≠ .acquiring → stage ≠ .adding → ¬ (t'.stage = .acquiring ∨ t'.stage = .adding) := by
    intro t' stage ht' hacquiring hadding
    obtain rfl := Option.some.inj ht'
    exact not_or.mpr ⟨hacquiring, hadding⟩
  unfold SessionHandle.nativeAdded
  dsimp only
  split
  · next haccepts =>
      have hclose := h.closeCalled_of_accepts haccepts
      refine h.beside (.of_open hclose hclose rfl rfl rfl) ?_ h.inOrder
      refine ⟨fun hunstarted => absurd hrequested (Bool.eq_false_iff.mp hunstarted), ?_,
        fun t' ht' hstage => absurd hstage (hlater ht' nofun nofun),
        fun t' ht' hstage => absurd (.inl hstage) (hlater ht' nofun nofun), h.started.leases⟩
      change s.nativeCloses + 1 ≤ 1
      rw [hcloses]
  · -- the session that was added too late is closed at once
    refine h.beside { Beside.refl s with native := nofun } ?_ h.inOrder
    refine ⟨fun hunstarted => absurd hrequested (Bool.eq_false_iff.mp hunstarted), ?_,
      fun t' ht' hstage => absurd hstage (hlater ht' nofun nofun),
      fun t' ht' hstage => absurd (.inl hstage) (hlater ht' nofun nofun), h.started.leases⟩
    change s.nativeCloses + 1 + 0 ≤ 1
    rw [hcloses]

theorem Kept.eventsPrepared (h : Kept s) (hstarting : s.starting = some t) (started : Bool) :
    Kept (s.eventsPrepared t started) := by
  unfold SessionHandle.eventsPrepared
  split
  · split
    · exact h.setStart hstarting nofun nofun
    · exact h.rollBack hstarting true
  · exact h.rollBack hstarting false

theorem Kept.releasePlatformLeaseOnce (h : Kept s) : Kept s.releasePlatformLeaseOnce :=
  h.beside (releasePlatformLeaseOnce_beside s) h.started.releasePlatformLeaseOnce h.inOrder

theorem Kept.rolledBack (h : Kept s) (hstarting : s.starting = some t) (caught threw : Bool) :
    Kept (s.rolledBack t caught threw) := by
  unfold SessionHandle.rolledBack
  split
  · have hfailed : Kept { s with lifecycle := s.lifecycle.failed t.generation } :=
      h.beside (failed_beside s t.generation) (h.started.congr rfl rfl rfl rfl rfl rfl rfl)
        h.inOrder
    exact hfailed.setStart hstarting nofun nofun
  · split
    · exact h.rollBack hstarting true
    · exact h.setStart hstarting nofun nofun

theorem Kept.startEnded (h : Kept s) : Kept { s with starting := none, startFuture := false } := by
  refine h.beside (.of_eq rfl rfl rfl rfl rfl rfl rfl rfl rfl) ?_ h.inOrder
  exact ⟨fun hunstarted => ⟨rfl, (h.started.unstarted hunstarted).2⟩, h.started.native, nofun,
    nofun, h.started.leases⟩

theorem Kept.connected (h : Kept s) (generation : ℕ) :
    Kept { s with lifecycle := s.lifecycle.connected generation } :=
  h.beside (connected_beside h generation) (h.started.congr rfl rfl rfl rfl rfl rfl rfl) h.inOrder

end Start

/-! ## Events and the remote close -/

section Events

variable {s : SessionHandle}

theorem running_push {tail : List (Link ℕ)} {generation i : ℕ}
    (h : Link.turnAt (tail ++ [{ payload := generation }]) i = some .running) :
    Link.turnAt tail i = some .running := by
  rw [Link.turnAt_push] at h
  split at h
  · cases h
  · exact h

theorem running_setTurn {tail : List (Link ℕ)} {i j : ℕ}
    (h : Link.turnAt (Link.setTurn tail i .ended) j = some .running) :
    Link.turnAt tail j = some .running := by
  rw [Link.turnAt_setTurn] at h
  split at h
  · cases hturn : Link.turnAt tail j <;> simp [hturn] at h
  · exact h

theorem Kept.dispatchEvent (h : Kept s) (generation : ℕ) : Kept (s.dispatchEvent generation) :=
  h.beside { Beside.refl s with running := fun _ _ => running_push }
    (h.started.congr rfl rfl rfl rfl rfl rfl rfl) (h.inOrder.push generation)

theorem Kept.takeTurn (h : Kept s) {i : ℕ} (hready : Link.Ready s.eventTail i) (generation : ℕ) :
    Kept (s.takeTurn i generation) := by
  have hinOrder : Link.InOrder (s.takeTurn i generation).eventTail := h.inOrder.start hready _
  have hstarted : Started (s.takeTurn i generation) :=
    h.started.congr rfl rfl rfl rfl rfl rfl rfl
  refine h.beside ?_ hstarted hinOrder
  cases haccepts : s.accepts generation with
  | true =>
      have hclose := h.closeCalled_of_accepts haccepts
      exact .of_open hclose hclose rfl rfl rfl
  | false =>
      refine { Beside.refl s with running := fun _ j hrunning => running_setTurn (i := i) ?_ }
      simpa [SessionHandle.takeTurn, haccepts] using hrunning

theorem Kept.endTurn (h : Kept s) {i : ℕ} (hrunning : Link.turnAt s.eventTail i = some .running) :
    Kept (s.endTurn i) :=
  h.beside { Beside.refl s with running := fun _ _ => running_setTurn }
    (h.started.congr rfl rfl rfl rfl rfl rfl rfl) (h.inOrder.finish hrunning)

theorem Kept.remoteClosed (h : Kept s) (generation : ℕ) : Kept (s.remoteClosed generation) := by
  unfold SessionHandle.remoteClosed
  split
  · exact h
  · split
    · exact h
    · next haccepts =>
        have hclose := h.closeCalled_of_accepts (by simpa using haccepts)
        exact h.beside (.of_open hclose hclose rfl rfl rfl)
          (h.started.inactive.congr rfl rfl rfl rfl rfl rfl rfl) h.inOrder

theorem Kept.remoteClosedAfterEvents (h : Kept s) (generation : ℕ) :
    Kept (s.remoteClosedAfterEvents generation) := by
  unfold SessionHandle.remoteClosedAfterEvents
  split
  · exact h
  · split
    · exact h
    · exact (h.dispatchEvent generation).aside rfl

theorem Kept.bindEventStream (h : Kept s) (generation : ℕ) :
    Kept (s.bindEventStream generation) := by
  have hlistening : Kept { s with listeners := s.listeners ++ [{ generation := generation }] } :=
    h.aside rfl
  unfold SessionHandle.bindEventStream SessionHandle.bindSubscription
  split
  · exact hlistening
  · next hbound =>
      simp only [Bool.or_eq_true, Bool.not_eq_true', not_or, Bool.not_eq_false] at hbound
      have hclose := hlistening.closeCalled_of_accepts hbound.1
      exact hlistening.beside (.of_open hclose hclose rfl rfl rfl)
        (hlistening.started.congr rfl rfl rfl rfl rfl rfl rfl) h.inOrder

theorem Kept.finishStream (h : Kept s) (i : ℕ) (listener : Listener) :
    Kept (s.finishStream i listener) := by
  have hended : Kept { s with listeners := s.listeners.set i { listener with ended := true } } :=
    h.aside rfl
  unfold SessionHandle.finishStream
  split
  · exact h
  · dsimp only
    split
    · exact hended
    · exact hended.remoteClosedAfterEvents _

theorem Kept.arrive (h : Kept s) (i : ℕ) (listener : Listener) (isCloseEvent prepared : Bool) :
    Kept (s.arrive i listener isCloseEvent prepared) := by
  unfold SessionHandle.arrive
  split
  · exact h
  · split
    · exact h.finishStream i listener
    · split
      · exact h.dispatchEvent _
      · exact h

end Events

/-! ## The steps of a close -/

section Close

variable {s : SessionHandle} {c : Close} {stage : CloseStage}

theorem progress_of_some (hclose : s.closeFuture = some c) : s.progress = c.stage.rank := by
  unfold SessionHandle.progress
  rw [hclose]
  rfl

theorem Kept.of_closing (hclose : s.closeCalled = true) (hstarted : Started s)
    (hinOrder : Link.InOrder s.eventTail) (hclosing : Closing s) : Kept s :=
  ⟨hstarted, hinOrder, fun hopen => absurd hclose (Bool.eq_false_iff.mp hopen), fun _ => hclosing⟩

theorem Kept.closeCalled (h : Kept s) (hclose : s.closeFuture = some c) : s.closeCalled = true := by
  by_contra hopen
  have hnone := (h.beforeClose (Bool.eq_false_of_not_eq_true hopen)).closeFuture
  rw [hclose] at hnone
  cases hnone

/-- A close that has completed leaves nothing to close. -/
theorem Closing.completed (h : Closing s) (hnone : s.closeFuture = none) :
    s.OwnsNothing ∧ s.lifecycle.isClosed = true ∧ s.cleanupFinished = true ∧ s.cleanups = 1 := by
  have hprogress : s.progress = 9 := by
    unfold SessionHandle.progress
    rw [hnone]
    rfl
  refine ⟨⟨?_, ?_, ?_⟩, h.closed (by omega), h.finished.mpr (by omega), ?_⟩
  · exact Bool.eq_false_of_not_eq_true fun hactive => by have := h.native hactive; omega
  · exact Bool.eq_false_of_not_eq_true fun hbound => by have := h.subscription hbound; omega
  · by_contra hlease
    have := h.lease hlease
    omega
  · rw [h.cleanups, hprogress]
    rfl

/-- Before `cleanup` a close only waits. -/
theorem Closing.wait (h : Closing s) (hclose : s.closeFuture = some c) (hearly : c.stage.rank < 4)
    (hstage : stage.rank < 4)
    (hawaited : ∀ links, stage = .awaitingTail links →
      ∀ i, Link.turnAt s.eventTail i = some .running → i < links) :
    Closing (s.setClose c stage) := by
  have hprogress := progress_of_some hclose
  have hnext : (s.setClose c stage).progress = stage.rank := rfl
  refine ⟨h.shut, ?_, ?_, ?_, ?_, ?_, ?_, ?_, ?_, ?_⟩
  · rw [hnext, if_pos hstage]
    exact h.cleanups.trans (if_pos (hprogress ▸ hearly))
  · have hfinished := h.finished
    rw [hprogress] at hfinished
    exact ⟨fun hs => absurd (hfinished.mp hs) (by omega), fun hs => absurd hs (by omega)⟩
  · exact fun _ => by omega
  · exact fun _ => by omega
  · exact fun _ => by omega
  · exact fun hs => absurd hs (by omega)
  · exact fun hs => absurd hs (by omega)
  · intro c' hc'
    obtain rfl := Option.some.inj hc'
    exact hawaited
  · intro c' hc'
    obtain rfl := Option.some.inj hc'
    exact h.generation c hclose

theorem Kept.wait (h : Kept s) (hclose : s.closeFuture = some c) (hearly : c.stage.rank < 4)
    (hstage : stage.rank < 4)
    (hawaited : ∀ links, stage = .awaitingTail links →
      ∀ i, Link.turnAt s.eventTail i = some .running → i < links) :
    Kept (s.setClose c stage) := by
  have hcalled := h.closeCalled hclose
  exact .of_closing hcalled (h.started.congr rfl rfl rfl rfl rfl rfl rfl) h.inOrder
    ((h.closing hcalled).wait hclose hearly hstage hawaited)

theorem running_lt_length {tail : List (Link ℕ)} {i : ℕ}
    (h : Link.turnAt tail i = some .running) : i < tail.length := by
  by_contra hge
  rw [Link.turnAt, List.getElem?_eq_none (by omega)] at h
  cases h

theorem Kept.awaitTail (h : Kept s) (hclose : s.closeFuture = some c) (hearly : c.stage.rank < 4) :
    Kept (s.awaitTail c) := by
  refine h.wait hclose hearly (by simp [CloseStage.rank]) fun links hstage i hrunning => ?_
  obtain rfl := CloseStage.awaitingTail.inj hstage
  exact running_lt_length hrunning

theorem Kept.awaitRemoteClose (h : Kept s) (hclose : s.closeFuture = some c)
    (hearly : c.stage.rank < 4) : Kept (s.awaitRemoteClose c) := by
  unfold SessionHandle.awaitRemoteClose
  split
  · exact h.wait hclose hearly (by simp [CloseStage.rank]) nofun
  · exact h.awaitTail hclose hearly

theorem Kept.beginClosing (h : Kept s) (hclose : s.closeFuture = some c)
    (hearly : c.stage.rank < 4) : Kept (s.beginClosing c) := by
  unfold SessionHandle.beginClosing
  split
  · exact h.wait hclose hearly (by simp [CloseStage.rank]) nofun
  · exact h.awaitRemoteClose hclose hearly

/-- The first `close` begins with its `beginClose`. -/
theorem Kept.closeCalledFirst (h : Kept s) (hopen : s.closeCalled = false)
    (policy : NativeSessionClosePolicy) :
    Kept { s with
      closeCalled := true
      lifecycle := s.lifecycle.beginClose
      closeFuture := some { generation := s.lifecycle.generation + 1, policy := policy } } := by
  have hbefore := h.beforeClose hopen
  refine .of_closing rfl (h.started.congr rfl rfl rfl rfl rfl rfl rfl) h.inOrder ?_
  refine ⟨.inl rfl, hbefore.cleanups, ?_, fun _ => Nat.zero_le _, fun _ => Nat.zero_le _,
    fun _ => Nat.zero_le _, nofun, nofun, ?_, ?_⟩
  · exact ⟨fun hfinished => absurd hfinished (Bool.eq_false_iff.mp hbefore.finished), nofun⟩
  · intro c' hc' links hstage
    obtain rfl := Option.some.inj hc'
    cases hstage
  · intro c' hc'
    obtain rfl := Option.some.inj hc'
    rfl

theorem Kept.close (h : Kept s) (policy : NativeSessionClosePolicy) (insideEventDispatch : Bool) :
    Kept (s.close policy insideEventDispatch) := by
  have hcalled : s.closeCalled = true → { s with closeCalled := true } = s := fun hclose => by
    rw [← hclose]
  unfold SessionHandle.close
  dsimp only
  split
  · next hactive =>
      obtain ⟨c, hc⟩ := Option.isSome_iff_exists.mp hactive
      rwa [hcalled (h.closeCalled hc)]
  · next hidle =>
      have hnone : s.closeFuture = none := by simpa using hidle
      split
      · next hdone =>
          simp only [Bool.and_eq_true] at hdone
          have hclose : s.closeCalled = true := by
            by_contra hopen
            have hunfinished := (h.beforeClose (Bool.eq_false_of_not_eq_true hopen)).finished
            rw [hunfinished] at hdone
            exact absurd hdone.2 Bool.false_ne_true
          rwa [hcalled hclose]
      · next hundone =>
          -- a close that has completed leaves the condition above true
          have hopen : s.closeCalled = false := by
            by_contra hclose
            obtain ⟨howns, hclosed, hfinished, -⟩ :=
              (h.closing (Bool.eq_true_of_not_eq_false hclose)).completed hnone
            simp [howns.native, howns.subscription, howns.lease, hclosed, hfinished] at hundone
          have hbegun := h.closeCalledFirst hopen policy
          split
          · exact hbegun
          · exact hbegun.beginClosing rfl (by simp [CloseStage.rank])

end Close

/-! ## From the cleanup to the end of a close -/

section Cleanup

variable {s : SessionHandle} {c : Close}

/-- `cleanup` is called when the tail that was awaited has ended, so nothing runs. -/
theorem Kept.cleanUp (h : Kept s) (hclose : s.closeFuture = some c) {links : ℕ}
    (hstage : c.stage = .awaitingTail links) (hawaited : Link.Awaited s.eventTail links) :
    Kept (s.cleanUp c) := by
  have hcalled := h.closeCalled hclose
  have hclosing := h.closing hcalled
  have hprogress : s.progress = 3 := by rw [progress_of_some hclose, hstage, CloseStage.rank]
  have hnext : (s.cleanUp c).progress = 4 := rfl
  have hcleanups := hclosing.cleanups
  have hfinished := hclosing.finished
  rw [hprogress] at hcleanups hfinished
  refine .of_closing hcalled (h.started.congr rfl rfl rfl rfl rfl rfl rfl) h.inOrder ?_
  refine ⟨hclosing.shut, ?_, ?_, fun _ => ?_, fun _ => ?_, fun _ => ?_, ?_, fun _ i hrunning => ?_,
    ?_, ?_⟩
  · exact congrArg (· + 1) hcleanups
  · rw [hnext]
    exact ⟨fun hs => absurd (hfinished.mp hs) (by decide), fun hs => absurd hs (by decide)⟩
  · exact Nat.le_refl 4
  · exact Nat.le_succ 4
  · exact Nat.le_add_right 4 2
  · rw [hnext]
    exact fun hs => absurd hs (by decide)
  · have hi := hclosing.awaited c hclose links hstage i hrunning
    have hended := h.inOrder.ended_of_awaited hawaited hi
    exact absurd (hended.symm.trans hrunning) (by decide)
  · intro c' hc' links' hstage'
    obtain rfl := Option.some.inj hc'
    cases hstage'
  · intro c' hc'
    obtain rfl := Option.some.inj hc'
    exact hclosing.generation c hclose

/-- After `cleanup` a close gives up what the handle owns. -/
theorem Closing.giveUp (h : Closing s) (hclose : s.closeFuture = some c) (stage : CloseStage)
    (hlate : 4 ≤ c.stage.rank) (hnext : 4 < stage.rank) (hnative : s.nativeSessionActive = false)
    (hsubscription : s.subscription = true → stage.rank ≤ 5)
    (hlease : s.platformLeaseGeneration ≠ none → stage.rank ≤ 6)
    (hclosed : 8 ≤ stage.rank → s.lifecycle.isClosed = true) :
    Closing ({ s with cleanupFinished := true }.setClose c stage) := by
  have hprogress := progress_of_some hclose
  refine ⟨h.shut, ?_, ⟨fun _ => hnext, fun _ => rfl⟩, fun hactive => ?_, hsubscription, hlease,
    hclosed, fun _ => h.quiet (hprogress ▸ hlate), ?_, ?_⟩
  · have hcleanups := h.cleanups
    rw [hprogress, if_neg (by omega)] at hcleanups
    exact hcleanups.trans (if_neg (Nat.not_lt_of_lt hnext)).symm
  · exact absurd hactive (Bool.eq_false_iff.mp hnative)
  · intro c' hc' links hstage
    obtain rfl := Option.some.inj hc'
    rw [show stage = .awaitingTail links from hstage] at hnext
    exact absurd hnext (by simp [CloseStage.rank])
  · intro c' hc'
    obtain rfl := Option.some.inj hc'
    exact h.generation c hclose

theorem Kept.cleanedUp (h : Kept s) (hclose : s.closeFuture = some c)
    (hstage : c.stage = .cleaning) : Kept (s.cleanedUp c) := by
  have hcalled := h.closeCalled hclose
  have hclosing := h.closing hcalled
  have hlate : 4 ≤ c.stage.rank := by simp [hstage, CloseStage.rank]
  unfold SessionHandle.cleanedUp
  dsimp only
  split
  · have hbeside := closeNativeOnce_beside s
    have hinactive : s.closeNativeOnce.nativeSessionActive = false := by
      unfold SessionHandle.closeNativeOnce
      split
      · rfl
      · next hactive => exact Bool.eq_false_of_not_eq_true hactive
    have heq : { s with cleanupFinished := true }.closeNativeOnce =
        { s.closeNativeOnce with cleanupFinished := true } := by
      unfold SessionHandle.closeNativeOnce
      split <;> rfl
    have hgiven := (hbeside.closing hcalled hclosing).giveUp (hbeside.closeFuture.trans hclose)
      .closingNative hlate (by decide) hinactive (fun _ => by decide) (fun _ => by decide)
      (fun hs => absurd hs (by decide))
    rw [heq]
    refine .of_closing (hbeside.closeCalled.trans hcalled)
      (h.started.closeNativeOnce.congr rfl rfl rfl rfl rfl rfl rfl) ?_ hgiven
    unfold SessionHandle.closeNativeOnce
    split <;> exact h.inOrder
  · have hbeside : Beside s { s with nativeSessionActive := false, subscription := false } :=
      { Beside.refl s with native := nofun, subscription := nofun }
    exact .of_closing hcalled (h.started.inactive.congr rfl rfl rfl rfl rfl rfl rfl) h.inOrder
      ((hbeside.closing hcalled hclosing).giveUp hclose .cancelling hlate (by decide) rfl nofun
        (fun _ => by decide) (fun hs => absurd hs (by decide)))

/-- Once `cleanup` has finished, the native session is not active. -/
theorem Kept.setClose (h : Kept s) (hclose : s.closeFuture = some c) (stage : CloseStage)
    (hlate : 4 < c.stage.rank) (hnext : 4 < stage.rank)
    (hsubscription : s.subscription = true → stage.rank ≤ 5)
    (hlease : s.platformLeaseGeneration ≠ none → stage.rank ≤ 6)
    (hclosed : 8 ≤ stage.rank → s.lifecycle.isClosed = true) : Kept (s.setClose c stage) := by
  have hcalled := h.closeCalled hclose
  have hclosing := h.closing hcalled
  have hprogress := progress_of_some hclose
  have hfinished : s.cleanupFinished = true := hclosing.finished.mpr (hprogress ▸ hlate)
  have hnative : s.nativeSessionActive = false :=
    Bool.eq_false_of_not_eq_true fun hactive => by
      have := hclosing.native hactive
      omega
  have hgiven := hclosing.giveUp hclose stage (Nat.le_of_lt hlate) hnext hnative hsubscription
    hlease hclosed
  rw [← hfinished] at hgiven
  exact .of_closing hcalled (h.started.congr rfl rfl rfl rfl rfl rfl rfl) h.inOrder hgiven

theorem Kept.closedNative (h : Kept s) (hclose : s.closeFuture = some c)
    (hstage : c.stage = .closingNative) : Kept (s.closedNative c) := by
  have hcancelled : Kept s.cancelSubscription :=
    h.beside (cancelSubscription_beside s) (h.started.congr rfl rfl rfl rfl rfl rfl rfl) h.inOrder
  exact hcancelled.setClose hclose .cancelling (by simp [hstage, CloseStage.rank]) (by decide) nofun
    (fun _ => by decide) (fun hs => absurd hs (by decide))

theorem Kept.cancelled (h : Kept s) (hclose : s.closeFuture = some c)
    (hstage : c.stage = .cancelling) : Kept (s.cancelled c) := by
  have hclosing := h.closing (h.closeCalled hclose)
  have hunbound : s.subscription = true → CloseStage.rank .releasing ≤ 5 := fun hbound => by
    have hrank := hclosing.subscription hbound
    rw [progress_of_some hclose, hstage] at hrank
    exact absurd hrank (by decide)
  exact h.releasePlatformLeaseOnce.setClose hclose .releasing (by simp [hstage, CloseStage.rank])
    (by decide) hunbound (fun hlease => absurd rfl hlease) (fun hs => absurd hs (by decide))

theorem Kept.releasedLease (h : Kept s) (hclose : s.closeFuture = some c)
    (hstage : c.stage = .releasing) : Kept (s.releasedLease c) := by
  have hclosing := h.closing (h.closeCalled hclose)
  have hrank : s.progress = 7 := by rw [progress_of_some hclose, hstage, CloseStage.rank]
  have hphase : s.lifecycle.closed c.generation = { s.lifecycle with phase := .closed } :=
    if_pos (hclosing.generation c hclose)
  have hclosed : Kept { s with lifecycle := s.lifecycle.closed c.generation } := by
    rw [hphase]
    exact h.beside (lifecycle_beside rfl (.inr (.inl rfl)))
      (h.started.congr rfl rfl rfl rfl rfl rfl rfl) h.inOrder
  refine hclosed.setClose hclose .ended (by simp [hstage, CloseStage.rank]) (by decide) ?_ ?_ ?_
  · intro hbound
    have := hclosing.subscription hbound
    omega
  · intro hlease
    have := hclosing.lease hlease
    omega
  · intro _
    change (s.lifecycle.closed c.generation).isClosed = true
    rw [hphase]
    rfl

theorem Kept.closeEnded (h : Kept s) (hclose : s.closeFuture = some c) (hstage : c.stage = .ended) :
    Kept { s with closeFuture := none } := by
  have hcalled := h.closeCalled hclose
  have hclosing := h.closing hcalled
  have hrank : s.progress = 8 := by rw [progress_of_some hclose, hstage, CloseStage.rank]
  have hcleanups := hclosing.cleanups
  rw [hrank] at hcleanups
  refine .of_closing hcalled (h.started.congr rfl rfl rfl rfl rfl rfl rfl) h.inOrder ?_
  refine ⟨hclosing.shut, hcleanups, ?_, fun hactive => ?_, fun hbound => ?_, fun hlease => ?_,
    fun _ => hclosing.closed (by omega), fun _ => hclosing.quiet (by omega), nofun, nofun⟩
  · exact ⟨fun _ => (by decide : 4 < 9), fun _ => hclosing.finished.mpr (by omega)⟩
  · have := hclosing.native hactive
    omega
  · have := hclosing.subscription hbound
    omega
  · have := hclosing.lease hlease
    omega

end Cleanup

/-! ## Every run -/

theorem FinalStep.kept {s s' : SessionHandle} {event : Event} (h : FinalStep s event s')
    (hs : Kept s) : Kept s' := by
  obtain ⟨hstep, hfinal⟩ := h
  cases hstep with
  | start => exact hs.start hfinal
  | startReturned => exact hs.aside rfl
  | acquiredLease hstarting hstage => exact hs.acquiredLease hstarting hstage _
  | nativeAdded hstarting hstage => exact hs.nativeAdded hstarting hstage
  | eventsPrepared hstarting => exact hs.eventsPrepared hstarting _
  | startThrew hstarting => exact hs.rollBack hstarting true
  | lateLeaseReleased hstarting => exact hs.setStart hstarting nofun nofun
  | rolledBackNative hstarting =>
      exact hs.releasePlatformLeaseOnce.setStart hstarting nofun nofun
  | rolledBack hstarting => exact hs.rolledBack hstarting _ _
  | startEnded => exact hs.startEnded
  | connected => exact hs.connected _
  | bindEventStream => exact hs.bindEventStream _
  | arrive => exact hs.arrive _ _ _ _
  | finishStream => exact hs.finishStream _ _
  | dispatchEvent => exact hs.dispatchEvent _
  | takeTurn _ hready => exact hs.takeTurn hready _
  | endTurn hrunning => exact hs.endTurn hrunning
  | remoteClosedAfterEvents => exact hs.remoteClosedAfterEvents _
  | eventsDrained => exact (hs.remoteClosed _).aside rfl
  | eventCloseEnded => exact hs.aside rfl
  | remoteClosed => exact hs.remoteClosed _
  | remoteCancelled => exact hs.aside rfl
  | remoteDrained => exact hs.releasePlatformLeaseOnce.aside rfl
  | remoteReleased => exact hs.aside rfl
  | remoteCloseEnded => exact hs.aside rfl
  | close => exact hs.close _ _
  | closeBegun hclose hstage => exact hs.beginClosing hclose (by simp [hstage, CloseStage.rank])
  | startAwaited hclose hstage =>
      exact hs.awaitRemoteClose hclose (by simp [hstage, CloseStage.rank])
  | remoteCloseAwaited hclose hstage =>
      exact hs.awaitTail hclose (by simp [hstage, CloseStage.rank])
  | tailAwaited hclose hstage hawaited => exact hs.cleanUp hclose hstage hawaited
  | cleanedUp hclose hstage => exact hs.cleanedUp hclose hstage
  | closedNative hclose hstage => exact hs.closedNative hclose hstage
  | cancelled hclose hstage => exact hs.cancelled hclose hstage
  | releasedLease hclose hstage => exact hs.releasedLease hclose hstage
  | closeEnded hclose hstage => exact hs.closeEnded hclose hstage

/-- A link that takes its turn once `close` was called does not dispatch. -/
theorem Kept.silent {s : SessionHandle} (hs : Kept s) {i generation : ℕ}
    (hready : Link.Ready s.eventTail i)
    (hrunning : Link.turnAt (s.takeTurn i generation).eventTail i = some .running) :
    s.closeCalled = false := by
  cases haccepts : s.accepts generation with
  | true => exact hs.closeCalled_of_accepts haccepts
  | false =>
      unfold SessionHandle.takeTurn at hrunning
      rw [haccepts] at hrunning
      have hended : Link.turnAt (Link.setTurn s.eventTail i .ended) i = some .ended :=
        Link.turnAt_setTurn_self hready.1
      exact absurd (hended.symm.trans hrunning) (by decide)

theorem FinalStep.sound {s s' : SessionHandle} {event : Event} (h : FinalStep s event s')
    (hs : Kept s) : SoundStep s event s' := by
  have hs' := h.kept hs
  have hdone : s'.Done → s'.OwnsNothing ∧ s'.cleanups = 1 := fun ⟨hclose, hnone, _⟩ => by
    obtain ⟨howns, -, -, hcleanups⟩ := (hs'.closing hclose).completed hnone
    exact ⟨howns, hcleanups⟩
  refine ⟨h.step, fun hclose => hs'.not_accepts hclose, ?_, ?_, fun hd => (hdone hd).1,
    hs'.started.leases, ?_, fun hd => (hdone hd).2, ?_, hs'.inOrder⟩
  · rintro i rfl hrunning
    cases h.step with
    | takeTurn _ hready => exact hs.silent hready hrunning
  · exact le_trans (Nat.le_add_right _ _) hs'.started.native
  · cases hclose : s'.closeCalled with
    | false =>
        rw [(hs'.beforeClose hclose).cleanups]
        exact Nat.zero_le 1
    | true =>
        rw [(hs'.closing hclose).cleanups]
        split <;> decide
  · intro c hc hstage
    have hrank : s'.progress = 4 := by rw [progress_of_some hc, hstage, CloseStage.rank]
    exact (hs'.closing (hs'.closeCalled hc)).quiet (Nat.le_of_eq hrank.symm)

/-- A first start after `close` begins a generation that is accepted. -/
theorem SoundStep.final {s s' : SessionHandle} {event : Event} (h : SoundStep s event s') :
    FinalStep s event s' := by
  refine ⟨h.step, ?_⟩
  rintro ⟨acquires, rfl, hunstarted, hclose⟩
  have hstep := h.step
  have hfenced := h.fenced
  cases hstep with
  | start =>
      have hstart : (s.start acquires).accepts (s.lifecycle.generation + 1) = true := by
        simp [SessionHandle.start, hunstarted, SessionHandle.accepts, SessionLifecycle.accepts,
          SessionLifecycle.beginStart, SessionLifecycle.isClosed]
      have hcalled : (s.start acquires).closeCalled = true := by
        simpa [SessionHandle.start, hunstarted] using hclose
      rw [hfenced hcalled] at hstart
      cases hstart

/-- A handle stays closed and gives up what it owns in the runs in which no first
start comes after `close`, and in no others. -/
theorem sound_iff_final {events : List Event} {last : SessionHandle} :
    Run SoundStep {} events last ↔ Run FinalStep {} events last := by
  constructor
  · exact fun run => run.mono fun _ _ _ step => step.final
  · intro run
    induction run with
    | nil => exact .nil
    | snoc run step ih =>
        have hkept := run.stateInvariant Kept start_kept fun _ _ _ hs step => step.kept hs
        exact ih.snoc (step.sound hkept)

/-- A handle that was closed before its start adds a native session, which no
close is left to close. -/
theorem not_sound_startedAfterClose :
    ∃ last, Run Step {} [.close .requestClose false, .tailAwaited, .cleanedUp, .closedNative,
        .cancelled, .releasedLease, .closeEnded, .start false, .startReturned, .nativeAdded,
        .eventsPrepared true, .startEnded] last ∧
      last.Done ∧ last.nativeSessionActive = true ∧ last.accepts 2 = true ∧
      ¬ Run SoundStep {} [.close .requestClose false, .tailAwaited, .cleanedUp, .closedNative,
        .cancelled, .releasedLease, .closeEnded, .start false, .startReturned, .nativeAdded,
        .eventsPrepared true, .startEnded] last := by
  let closing := ({} : SessionHandle).close .requestClose false
  let c : Close := { generation := 1, policy := .requestClose }
  let cleaning := closing.cleanUp { c with stage := .awaitingTail 0 }
  let cleaned := cleaning.cleanedUp { c with stage := .cleaning }
  let native := cleaned.closedNative { c with stage := .closingNative }
  let cancelled := native.cancelled { c with stage := .cancelling }
  let released := cancelled.releasedLease { c with stage := .releasing }
  let started := { released with closeFuture := none }.start false
  let returned := { started with startFuture := true }
  let added := returned.nativeAdded { generation := 2, stage := .adding }
  let prepared := added.eventsPrepared { generation := 2, stage := .preparing } true
  have hclose : Run Step {} [.close .requestClose false] closing := .single .close
  have hcleaning : Step closing .tailAwaited cleaning := .tailAwaited rfl rfl nofun
  have hcleaned : Step cleaning .cleanedUp cleaned := .cleanedUp rfl rfl
  have hnative : Step cleaned .closedNative native := .closedNative rfl rfl
  have hcancelled : Step native .cancelled cancelled := .cancelled rfl rfl
  have hreleased : Step cancelled .releasedLease released := .releasedLease rfl rfl
  have hended : Step released .closeEnded { released with closeFuture := none } :=
    .closeEnded rfl rfl
  have hreturned : Step started .startReturned returned := .startReturned rfl rfl
  have hadded : Step returned .nativeAdded added := .nativeAdded rfl rfl rfl
  have hprepared : Step added (.eventsPrepared true) prepared := .eventsPrepared rfl rfl
  have hfinal :
      Step prepared .startEnded { prepared with starting := none, startFuture := false } :=
    .startEnded rfl rfl
  have hdone : SessionHandle.Done { prepared with starting := none, startFuture := false } :=
    ⟨rfl, rfl, rfl⟩
  refine ⟨_, ((((((((((hclose.snoc hcleaning).snoc hcleaned).snoc hnative).snoc hcancelled).snoc
    hreleased).snoc hended).snoc .start).snoc hreturned).snoc hadded).snoc hprepared).snoc hfinal,
    hdone, rfl, rfl, fun run => ?_⟩
  obtain ⟨_, _, hsound⟩ := run.exists_last nofun
  exact absurd (hsound.owned hdone).native (by decide)

end RustAdmin.Viewer.SessionClose
