import RustAdmin.Viewer.SessionReconnect

/-!
# No reconnect request is lost

A request is left to the restart in flight whether or not that restart is
current, and a restart that returns clears the need for a fresh one even where a
gap was found after it was started.  In runs that meet neither, every request is
served and every gap is followed by its own restart.

## Strategy

`Kept` is the invariant of every run, whatever is lost in it: how many restarts are in
flight, what the need for a fresh one says of the log, and what armed the timers.
Each action keeps it by a lemma of its own.  `Logged` names the entries that one step
adds, so that what is said of the requests is said of the log: `Logged.answered_iff`
finds a lost request exactly at a restart that is not current, and
`Logged.restartsFirst_iff` a retry in the place of a restart exactly where a gap was
forgotten.  Both equivalences are for one step, and the runs follow by induction.
-/

namespace RustAdmin.Viewer.SessionReconnect

open RustAdmin.Support

variable {threshold : StaleThreshold}

/-! ## What a request does -/

namespace Controller

/-- The clock is read where there is a restart to choose. -/
def observe (s : Controller) (now : ℤ) : Controller :=
  if s.stopped || s.restart.isNone then s else { s with lastObserved := now }

/-- The gap is found. -/
def findGap (s : Controller) (now : ℤ) : Controller :=
  note { s with lastObserved := now, needsFresh := true } .gap

theorem stale_findGap (s : Controller) (threshold : StaleThreshold) (now : ℤ) :
    (s.findGap now).stale threshold now = false := by
  have hpos := threshold.pos
  simp [stale, findGap, note, hpos]

theorem stale_iff {s : Controller} {now : ℤ} :
    s.stale threshold now = true ↔ s.stopped = false ∧ s.restart.isSome = true ∧
      threshold.micros ≤ now - s.lastObserved := by
  simp [stale, and_assoc]

end Controller

theorem checkElapsed_of_not_stale {s : Controller} {now : ℤ}
    (h : s.stale threshold now = false) :
    s.checkElapsed threshold now = (false, s.observe now) := by
  rw [Controller.checkElapsed, Controller.observe]
  split
  · rfl
  · rw [h]
    rfl

theorem checkElapsed_of_stale {s : Controller} {now : ℤ} (h : s.stale threshold now = true) :
    s.checkElapsed threshold now =
      (true, (s.findGap now).requestReconnect threshold false now) := by
  obtain ⟨hstopped, hrestart, -⟩ := Controller.stale_iff.mp h
  have hchecked : ¬ (s.stopped || s.restart.isNone) = true := by
    simp [hstopped, Option.isSome_iff_ne_none.mp hrestart]
  rw [Controller.checkElapsed, if_neg hchecked, if_pos h]
  rfl

/-- How a request ends, from the state in which it was asked. -/
inductive Requested (threshold : StaleThreshold) (s : Controller) (now : ℤ) : Controller → Prop
  | absorbed {completion : ℕ} (hfuture : s.restartFuture = some completion) :
      Requested threshold s now
        (s.note (.absorbed completion (s.currentFlight completion)))
  | retry (hfuture : s.restartFuture = none) (hstale : s.stale threshold now = false)
      (hplain : s.needsFresh = false ∨ s.restart = none) :
      Requested threshold s now ((s.observe now).note (.retry s.forceRelay))
  | fresh {restart : ℕ} (hfuture : s.restartFuture = none) (hstale : s.stale threshold now = false)
      (hneeds : s.needsFresh = true) (hrestart : s.restart = some restart) :
      Requested threshold s now ((s.observe now).startFresh restart)
  | gap {restart : ℕ} (hfuture : s.restartFuture = none) (hstale : s.stale threshold now = true)
      (hrestart : s.restart = some restart) :
      Requested threshold s now (((s.findGap now).observe now).startFresh restart)

theorem requested_of_not_stale {s : Controller} {forceRelay : Bool} {now : ℤ}
    (hstopped : s.stopped = false) (hstale : s.stale threshold now = false) :
    Requested threshold (s.ask forceRelay) now
      (s.requestReconnect threshold forceRelay now) := by
  have hasked : (s.ask forceRelay).stale threshold now = false := hstale
  rw [Controller.requestReconnect, if_neg (by simp [hstopped])]
  dsimp only
  split
  · next hfuture => exact .absorbed hfuture
  · next hfuture =>
      have hrestart : ((s.ask forceRelay).observe now).restart = (s.ask forceRelay).restart := by
        unfold Controller.observe
        split <;> rfl
      have hneeds : ((s.ask forceRelay).observe now).needsFresh = s.needsFresh := by
        unfold Controller.observe
        split <;> rfl
      have hrelay :
          ((s.ask forceRelay).observe now).forceRelay = (s.ask forceRelay).forceRelay := by
        unfold Controller.observe
        split <;> rfl
      rw [checkElapsed_of_not_stale hasked]
      dsimp only
      rw [hrestart, hneeds]
      split
      · next hfresh restart => exact .fresh hfuture hasked hfresh restart
      · next hplain =>
          rw [hrelay]
          refine .retry hfuture hasked ?_
          cases hfresh : s.needsFresh with
          | false => exact .inl hfresh
          | true =>
              cases hrestart : s.restart with
              | none => exact .inr hrestart
              | some restart => exact absurd hrestart (hplain restart hfresh)

theorem ask_findGap (s : Controller) (forceRelay : Bool) (now : ℤ) :
    ((s.ask forceRelay).findGap now).ask false = (s.ask forceRelay).findGap now := by
  simp [Controller.ask, Controller.findGap, Controller.cancelRetry, Controller.note]

theorem requestReconnect_requested {s : Controller} {forceRelay : Bool} {now : ℤ}
    (hstopped : s.stopped = false) :
    Requested threshold (s.ask forceRelay) now
      (s.requestReconnect threshold forceRelay now) := by
  cases hstale : s.stale threshold now with
  | false => exact requested_of_not_stale hstopped hstale
  | true =>
      have hasked : (s.ask forceRelay).stale threshold now = true := hstale
      rw [Controller.requestReconnect, if_neg (by simp [hstopped])]
      dsimp only
      split
      · next hfuture => exact .absorbed hfuture
      · next hfuture =>
          rw [checkElapsed_of_stale hasked]
          dsimp only
          have hinner : Requested threshold (((s.ask forceRelay).findGap now).ask false) now
              (((s.ask forceRelay).findGap now).requestReconnect threshold false now) :=
            requested_of_not_stale hstopped (Controller.stale_findGap _ _ _)
          rw [ask_findGap] at hinner
          generalize Controller.requestReconnect _ threshold false now = next at hinner
          have hrestart : s.restart.isSome = true := (Controller.stale_iff.mp hstale).2.1
          cases hinner with
          | absorbed h => exact absurd (h.symm.trans hfuture) (by simp)
          | retry _ _ hplain =>
              rcases hplain with hplain | hplain
              · exact absurd hplain (by simp [Controller.findGap, Controller.note])
              · exact absurd hplain (Option.isSome_iff_ne_none.mp hrestart)
          | fresh _ _ _ hsome => exact .gap hfuture hasked hsome
          | gap _ h => exact absurd (h.symm.trans (Controller.stale_findGap _ _ _)) (by simp)

/-! ## Gaps in the log -/

/-- A gap was found and no restart completed since. -/
def Unserved (log : List Entry) : Prop := Since (fun _ entry => entry = .gap) Entry.IsCompleted log

theorem owed_concat {log : List Entry} {entry : Entry} :
    Owed (log ++ [entry]) ↔ entry = .gap ∨ Owed log ∧ ¬ entry.IsStarted := since_concat

theorem unserved_concat {log : List Entry} {entry : Entry} :
    Unserved (log ++ [entry]) ↔ entry = .gap ∨ Unserved log ∧ ¬ entry.IsCompleted := since_concat

theorem forgotten_concat {log : List Entry} {entry : Entry} :
    Forgotten (log ++ [entry]) ↔ entry.IsCompleted ∧ Owed log ∨
      Forgotten log ∧ ¬ (entry = .gap ∨ entry.IsStarted) := since_concat

/-- A gap is forgotten where it is owed a restart and a restart was taken for it. -/
theorem forgotten_iff {log : List Entry} : Forgotten log ↔ Owed log ∧ ¬ Unserved log := by
  induction log using List.reverseRecOn with
  | nil => exact ⟨fun h => absurd h not_since_nil, fun h => absurd h.1 not_since_nil⟩
  | append_singleton log entry ih =>
      rw [forgotten_concat, owed_concat, unserved_concat, ih]
      cases entry with
      | completed => simp only [Entry.IsCompleted, Entry.IsStarted]; tauto
      | _ => simp [Entry.IsCompleted, Entry.IsStarted]

theorem Owed.gap_mem {log : List Entry} (h : Owed log) : .gap ∈ log := by
  obtain ⟨before, entry, after, rfl, rfl, -⟩ := h
  simp

/-! ## What holds in every run -/

/-- The one restart in flight, the need for a fresh one, and what armed the timers. -/
structure Kept (s : Controller) : Prop where
  flight : s.inFlight = [] ∧ s.restartFuture = none ∨
    ∃ restart, s.inFlight = [restart] ∧ s.restartFuture = some restart.completion
  needs : s.needsFresh = true ↔ Unserved s.log
  attached : .gap ∈ s.log → s.restart ≠ none
  generation_le : ∀ restart ∈ s.inFlight, restart.generation ≤ s.generation
  current : ∀ restart ∈ s.inFlight, restart.generation = s.generation →
    Since (fun _ entry => entry = .started restart.completion) (· = .stopped) s.log
  retryTimer : ∀ timer ∈ s.retryTimer,
    Since (fun _ entry => entry = .armedRetry timer.id) (· = .stopped) s.log
  clockTimer : ∀ timer ∈ s.clockTimer,
    Since (fun _ entry => entry = .armedClock timer) (· = .stopped) s.log

theorem start_kept (now : ℤ) : Kept (Controller.start now) where
  flight := .inl ⟨rfl, rfl⟩
  needs := ⟨nofun, fun h => absurd h not_since_nil⟩
  attached := nofun
  generation_le := nofun
  current := nofun
  retryTimer := nofun
  clockTimer := nofun

/-- A step that leaves the restarts and the log alone. -/
theorem Kept.congr {s s' : Controller} (h : Kept s) (hflight : s'.inFlight = s.inFlight)
    (hfuture : s'.restartFuture = s.restartFuture) (hneeds : s'.needsFresh = s.needsFresh)
    (hrestart : s'.restart = s.restart) (hgeneration : s'.generation = s.generation)
    (hlog : s'.log = s.log) (hretry : ∀ timer ∈ s'.retryTimer, timer ∈ s.retryTimer)
    (hclock : s'.clockTimer = s.clockTimer) : Kept s' where
  flight := by
    rw [hflight, hfuture]
    exact h.flight
  needs := by
    rw [hneeds, hlog]
    exact h.needs
  attached := by
    rw [hlog, hrestart]
    exact h.attached
  generation_le := by
    rw [hflight, hgeneration]
    exact h.generation_le
  current := by
    rw [hflight, hgeneration, hlog]
    exact h.current
  retryTimer := by
    rw [hlog]
    exact fun timer htimer => h.retryTimer timer (hretry timer htimer)
  clockTimer := by
    rw [hclock, hlog]
    exact h.clockTimer

/-- An entry that is neither a gap, nor a restart that completed, nor a stop. -/
def Entry.Plain : Entry → Prop
  | .gap | .completed _ | .stopped => False
  | _ => True

theorem Entry.Plain.not_completed {entry : Entry} (h : entry.Plain) : ¬ entry.IsCompleted := by
  cases entry <;> simp_all [Entry.Plain, Entry.IsCompleted]

theorem Entry.Plain.ne_stopped {entry : Entry} (h : entry.Plain) : entry ≠ .stopped := by
  rintro rfl
  exact h

theorem Entry.Plain.ne_gap {entry : Entry} (h : entry.Plain) : entry ≠ .gap := by
  rintro rfl
  exact h

theorem since_stopped_concat {log : List Entry} {armed entry : Entry} (hplain : entry.Plain)
    (h : Since (fun _ entry => entry = armed) (· = .stopped) log) :
    Since (fun _ entry => entry = armed) (· = .stopped) (log ++ [entry]) :=
  since_concat.mpr (.inr ⟨h, hplain.ne_stopped⟩)

theorem since_stopped_armed {log : List Entry} (armed : Entry) :
    Since (fun _ entry => entry = armed) (· = .stopped) (log ++ [armed]) :=
  since_concat.mpr (.inl rfl)

theorem Unserved.concat_iff {log : List Entry} {entry : Entry} (hplain : entry.Plain) :
    Unserved (log ++ [entry]) ↔ Unserved log := by
  rw [unserved_concat]
  exact ⟨fun h => (h.resolve_left hplain.ne_gap).1, fun h => .inr ⟨h, hplain.not_completed⟩⟩

theorem Kept.note {s : Controller} (h : Kept s) {entry : Entry} (hplain : entry.Plain) :
    Kept (s.note entry) where
  flight := h.flight
  needs := h.needs.trans (Unserved.concat_iff hplain).symm
  attached := by
    intro hmem
    rcases List.mem_append.mp hmem with hmem | hmem
    · exact h.attached hmem
    · exact absurd (List.mem_singleton.mp hmem).symm hplain.ne_gap
  generation_le := h.generation_le
  current := fun restart hflight hcurrent =>
    since_stopped_concat hplain (h.current restart hflight hcurrent)
  retryTimer := fun timer htimer => since_stopped_concat hplain (h.retryTimer timer htimer)
  clockTimer := fun timer htimer => since_stopped_concat hplain (h.clockTimer timer htimer)

/-! ## What each action keeps -/

theorem Kept.observe {s : Controller} (h : Kept s) (now : ℤ) : Kept (s.observe now) := by
  unfold Controller.observe
  split
  · exact h
  · exact h.congr rfl rfl rfl rfl rfl rfl (fun _ => id) rfl

theorem Kept.ask {s : Controller} (h : Kept s) (forceRelay : Bool) : Kept (s.ask forceRelay) :=
  h.congr rfl rfl rfl rfl rfl rfl nofun rfl

theorem Kept.resetBackoff {s : Controller} (h : Kept s) : Kept s.resetBackoff :=
  h.congr rfl rfl rfl rfl rfl rfl nofun rfl

theorem Kept.sessionStarted {s : Controller} (h : Kept s) (now : ℤ) :
    Kept (s.sessionStarted now) := by
  unfold Controller.sessionStarted
  refine Kept.resetBackoff ?_
  dsimp only
  split <;> exact h.congr rfl rfl rfl rfl rfl rfl (fun _ => id) rfl

theorem Kept.attachFreshRestart {s : Controller} (h : Kept s) (restart : ℕ) (now : ℤ) :
    Kept (s.attachFreshRestart restart now) := by
  have hattached : Kept { s with restart := some restart, stopped := false, lastObserved := now } :=
    { h with attached := fun _ => by simp }
  have hplain : (Entry.armedClock s.created).Plain := trivial
  exact { hattached.note hplain with
    clockTimer := by
      intro timer htimer
      obtain rfl := Option.some.inj htimer
      exact since_stopped_armed _ }

theorem Kept.scheduleRetry {s : Controller} (h : Kept s) : Kept s.scheduleRetry := by
  unfold Controller.scheduleRetry
  split
  · exact h
  · have hplain : (Entry.armedRetry s.created).Plain := trivial
    exact { h.note hplain with
      retryTimer := by
        intro timer htimer
        obtain rfl := Option.some.inj htimer
        exact since_stopped_armed _ }

theorem Kept.findGap {s : Controller} (h : Kept s) (hrestart : s.restart ≠ none) (now : ℤ) :
    Kept (s.findGap now) where
  flight := h.flight
  needs := ⟨fun _ => unserved_concat.mpr (.inl rfl), fun _ => rfl⟩
  attached := fun _ => hrestart
  generation_le := h.generation_le
  current := fun restart hflight hcurrent =>
    since_concat.mpr (.inr ⟨h.current restart hflight hcurrent, nofun⟩)
  retryTimer := fun timer htimer => since_concat.mpr (.inr ⟨h.retryTimer timer htimer, nofun⟩)
  clockTimer := fun timer htimer => since_concat.mpr (.inr ⟨h.clockTimer timer htimer, nofun⟩)

theorem Kept.flight_nil {s : Controller} (h : Kept s) (hfuture : s.restartFuture = none) :
    s.inFlight = [] := by
  rcases h.flight with ⟨hflight, -⟩ | ⟨_, -, hsome⟩
  · exact hflight
  · exact absurd (hsome.symm.trans hfuture) (by simp)

theorem Kept.startFresh {s : Controller} (h : Kept s) (hfuture : s.restartFuture = none)
    (restart : ℕ) : Kept (s.startFresh restart) := by
  have hflight := h.flight_nil hfuture
  have hplain : (Entry.started s.created).Plain := trivial
  have hnoted := h.note hplain
  let fresh : FreshRestart :=
    { completion := s.created, restart := restart, generation := s.generation + 1 }
  have hfresh : (s.startFresh restart).inFlight = [fresh] := by
    simp [Controller.startFresh, Controller.note, Controller.resetBackoff, Controller.cancelRetry,
      hflight, fresh]
  refine { hnoted with
    flight := .inr ⟨fresh, hfresh, rfl⟩
    generation_le := ?_
    current := ?_
    retryTimer := nofun }
  · rw [hfresh]
    intro other hother
    obtain rfl := List.mem_singleton.mp hother
    exact le_rfl
  · rw [hfresh]
    intro other hother _
    obtain rfl := List.mem_singleton.mp hother
    exact since_stopped_armed _

theorem Kept.stop {s : Controller} (h : Kept s) : Kept s.stop where
  flight := h.flight
  needs := by
    have hlog : Unserved s.stop.log ↔ Unserved s.log := by
      refine unserved_concat.trans ?_
      simp only [Entry.IsCompleted, reduceCtorEq, not_false_eq_true, and_true, false_or]
      rfl
    exact h.needs.trans hlog.symm
  attached := by
    intro hmem
    rcases List.mem_append.mp hmem with hmem | hmem
    · exact h.attached hmem
    · simp at hmem
  generation_le := fun restart hflight =>
    (h.generation_le restart hflight).trans (Nat.le_succ s.generation)
  current := by
    intro restart hflight hcurrent
    have hle := h.generation_le restart hflight
    have hnext : restart.generation = s.generation + 1 := hcurrent
    omega
  retryTimer := nofun
  clockTimer := nofun

theorem Kept.requested {s s' : Controller} {now : ℤ} (h : Kept s)
    (hrequested : Requested threshold s now s') : Kept s' := by
  have hobserve : ∀ {other : Controller}, other.restartFuture = none →
      (other.observe now).restartFuture = none := by
    intro other hfuture
    unfold Controller.observe
    split <;> exact hfuture
  cases hrequested with
  | absorbed => exact h.note trivial
  | retry => exact (h.observe now).note trivial
  | fresh hfuture => exact (h.observe now).startFresh (hobserve hfuture) _
  | gap hfuture _ hrestart =>
      have hgap : Kept (s.findGap now) := h.findGap (by simp [hrestart]) now
      exact (hgap.observe now).startFresh (hobserve hfuture) _

theorem Kept.requestReconnect {s : Controller} (h : Kept s) (forceRelay : Bool) (now : ℤ) :
    Kept (s.requestReconnect threshold forceRelay now) := by
  cases hstopped : s.stopped with
  | false => exact (h.ask forceRelay).requested (requestReconnect_requested hstopped)
  | true =>
      rw [Controller.requestReconnect, if_pos hstopped]
      exact h

theorem Kept.checkElapsed {s : Controller} (h : Kept s) (now : ℤ) :
    Kept (s.checkElapsed threshold now).2 := by
  cases hstale : s.stale threshold now with
  | false =>
      rw [checkElapsed_of_not_stale hstale]
      exact h.observe now
  | true =>
      have hrestart := Option.isSome_iff_ne_none.mp (Controller.stale_iff.mp hstale).2.1
      rw [checkElapsed_of_stale hstale]
      exact (h.findGap hrestart now).requestReconnect false now

theorem Kept.fireRetry {s : Controller} (h : Kept s) (timer : RetryTimer) (now : ℤ) :
    Kept (s.fireRetry threshold timer now) := by
  have hfired : Kept { s with retryTimer := none } :=
    h.congr rfl rfl rfl rfl rfl rfl nofun rfl
  unfold Controller.fireRetry
  dsimp only
  split
  · exact hfired
  · exact hfired.requestReconnect false now

/-- There is no other restart in flight. -/
theorem Kept.alone {s : Controller} (h : Kept s) {restart : FreshRestart}
    (hflight : restart ∈ s.inFlight) :
    s.inFlight = [restart] ∧ s.restartFuture = some restart.completion := by
  rcases h.flight with ⟨hnil, -⟩ | ⟨only, honly, hfuture⟩
  · rw [hnil] at hflight
    cases hflight
  · rw [honly] at hflight
    obtain rfl := List.mem_singleton.mp hflight
    exact ⟨honly, hfuture⟩

theorem Kept.setPhase {s : Controller} (h : Kept s) {restart : FreshRestart}
    (hflight : restart ∈ s.inFlight) (phase : Phase) : Kept (s.setPhase restart phase) := by
  obtain ⟨halone, hfuture⟩ := h.alone hflight
  have hset : (s.setPhase restart phase).inFlight = [{ restart with phase := phase }] := by
    simp [Controller.setPhase, halone]
  refine { h with
    flight := .inr ⟨_, hset, hfuture⟩
    generation_le := ?_
    current := ?_ }
  · rw [hset]
    intro other hother
    obtain rfl := List.mem_singleton.mp hother
    exact h.generation_le restart hflight
  · rw [hset]
    intro other hother hcurrent
    obtain rfl := List.mem_singleton.mp hother
    exact h.current restart hflight hcurrent

theorem Kept.finish {s : Controller} (h : Kept s) {restart : FreshRestart}
    (hflight : restart ∈ s.inFlight) : Kept (s.finish restart) := by
  obtain ⟨halone, hfuture⟩ := h.alone hflight
  have hnil : (s.finish restart).inFlight = [] := by simp [Controller.finish, halone]
  refine { h with
    flight := .inl ⟨hnil, by simp [Controller.finish, hfuture]⟩
    generation_le := ?_
    current := ?_ }
  · rw [hnil]
    exact nofun
  · rw [hnil]
    exact nofun

theorem Kept.begin {s : Controller} (h : Kept s) {restart : FreshRestart}
    (hflight : restart ∈ s.inFlight) : Kept (s.begin restart) := by
  unfold Controller.begin
  split
  · exact (h.setPhase hflight _).note trivial
  · exact h.finish hflight

theorem Kept.succeed {s : Controller} (h : Kept s) {restart : FreshRestart}
    (hflight : restart ∈ s.inFlight) : Kept (s.succeed restart) := by
  have hset := h.setPhase hflight .settled
  unfold Controller.succeed
  dsimp only
  split
  · refine { hset with
      needs := ⟨nofun, fun hunserved => ?_⟩
      attached := ?_
      current := ?_
      retryTimer := ?_
      clockTimer := ?_ }
    · rcases unserved_concat.mp hunserved with hgap | ⟨-, hcompleted⟩
      · cases hgap
      · exact absurd trivial hcompleted
    · intro hmem
      rcases List.mem_append.mp hmem with hmem | hmem
      · exact h.attached hmem
      · simp at hmem
    · exact fun other hother hcurrent =>
        since_concat.mpr (.inr ⟨hset.current other hother hcurrent, nofun⟩)
    · exact fun timer htimer => since_concat.mpr (.inr ⟨h.retryTimer timer htimer, nofun⟩)
    · exact fun timer htimer => since_concat.mpr (.inr ⟨h.clockTimer timer htimer, nofun⟩)
  · exact hset

theorem Kept.fail {s : Controller} (h : Kept s) {restart : FreshRestart}
    (hflight : restart ∈ s.inFlight) : Kept (s.fail restart) := by
  unfold Controller.fail
  dsimp only
  split
  · exact (h.setPhase hflight _).note trivial
  · exact h.setPhase hflight _

theorem Step.kept {s s' : Controller} {event : Event} (step : Step threshold s event s')
    (h : Kept s) : Kept s' := by
  cases step with
  | sessionStarted => exact h.sessionStarted _
  | attachFreshRestart => exact h.attachFreshRestart _ _
  | checkElapsed => exact h.checkElapsed _
  | shouldRetryOffline => exact h.congr rfl rfl rfl rfl rfl rfl (fun _ => id) rfl
  | resetBackoff => exact h.resetBackoff
  | scheduleRetry => exact h.scheduleRetry
  | requestReconnect => exact h.requestReconnect _ _
  | stop => exact h.stop
  | retryTimer => exact h.fireRetry _ _
  | clockTimer => exact h.checkElapsed _
  | begin hflight => exact h.begin hflight
  | succeed hflight => exact h.succeed hflight
  | fail hflight => exact h.fail hflight
  | finish hflight => exact h.finish hflight

/-! ## What each step adds to the log -/

/-- An entry that neither initiates anything nor serves a request. -/
def Entry.Silent : Entry → Prop
  | .retry _ | .started _ | .called _ _ _ | .absorbed _ _ => False
  | _ => True

/-- The entries of one step. -/
inductive Logged (threshold : StaleThreshold) (s : Controller) (event : Event) :
    List Entry → Prop
  | silent {added : List Entry} (hrequests : ¬ s.Requests threshold event)
      (hsilent : ∀ entry ∈ added, entry.Silent) : Logged threshold s event added
  | called {restart : FreshRestart} {callback : ℕ} {forceRelay : Bool}
      (hevent : event = .begin restart.completion) (hflight : restart ∈ s.inFlight)
      (hcurrent : s.isCurrent restart = true) :
      Logged threshold s event [.called restart.completion callback forceRelay]
  | absorbed {completion : ℕ} {gaps : List Entry} (hrequests : s.Requests threshold event)
      (hfuture : s.restartFuture = some completion) (hgaps : ∀ entry ∈ gaps, entry = .gap) :
      Logged threshold s event (gaps ++ [.absorbed completion (s.currentFlight completion)])
  | retry {forceRelay : Bool} {now : ℤ} (hrequests : s.Requests threshold event)
      (hfuture : s.restartFuture = none) (htime : event.requestTime = some now)
      (hstale : s.stale threshold now = false)
      (hplain : s.needsFresh = false ∨ s.restart = none) :
      Logged threshold s event [.retry forceRelay]
  | started {completion : ℕ} {gaps : List Entry} (hrequests : s.Requests threshold event)
      (hfuture : s.restartFuture = none) (hgaps : ∀ entry ∈ gaps, entry = .gap)
      (hcause : ∀ now ∈ event.requestTime, s.stale threshold now = false → s.needsFresh = true) :
      Logged threshold s event (gaps ++ [.started completion])

@[simp] theorem log_observe (s : Controller) (now : ℤ) : (s.observe now).log = s.log := by
  unfold Controller.observe
  split <;> rfl

theorem log_startFresh (s : Controller) (restart : ℕ) :
    (s.startFresh restart).log = s.log ++ [.started s.created] := rfl

/-- A request of a step, from a state that differs from the one before it in
nothing a request looks at. -/
theorem Requested.logged {s asked s' : Controller} {event : Event} {now : ℤ}
    (h : Requested threshold asked now s') (hrequests : s.Requests threshold event)
    (htime : event.requestTime = some now) (hlog : asked.log = s.log)
    (hfuture : asked.restartFuture = s.restartFuture)
    (hflight : asked.currentFlight = s.currentFlight) (hneeds : asked.needsFresh = s.needsFresh)
    (hrestart : asked.restart = s.restart)
    (hstale : asked.stale threshold now = s.stale threshold now) :
    ∃ added, s'.log = s.log ++ added ∧ Logged threshold s event added := by
  rw [← hlog]
  cases h with
  | absorbed hsome =>
      rw [hflight]
      exact ⟨[] ++ [_], rfl, .absorbed hrequests (hfuture ▸ hsome) nofun⟩
  | retry hnone hfresh hplain =>
      refine ⟨[.retry asked.forceRelay], by simp [Controller.note], ?_⟩
      exact .retry hrequests (hfuture ▸ hnone) htime (hstale ▸ hfresh)
        (by rwa [hneeds, hrestart] at hplain)
  | fresh hnone _ hneeded =>
      refine ⟨[] ++ [.started (asked.observe now).created], ?_, ?_⟩
      · rw [log_startFresh, log_observe]
        rfl
      · exact .started hrequests (hfuture ▸ hnone) nofun fun _ _ _ => hneeds ▸ hneeded
  | gap hnone hgap =>
      refine ⟨[.gap] ++ [.started ((asked.findGap now).observe now).created], ?_, ?_⟩
      · rw [log_startFresh, log_observe, ← List.append_assoc]
        rfl
      · refine .started hrequests (hfuture ▸ hnone) (fun _ => List.mem_singleton.mp) ?_
        intro other hother hfresh
        obtain rfl : now = other := Option.some.inj (htime.symm.trans hother)
        rw [hstale, hfresh] at hgap
        cases hgap

theorem log_sessionStarted (s : Controller) (now : ℤ) : (s.sessionStarted now).log = s.log := by
  unfold Controller.sessionStarted
  dsimp only
  split <;> rfl

theorem request_logged {s : Controller} {event : Event} {forceRelay : Bool} {now : ℤ}
    (hrequests : s.Requests threshold event) (hstopped : s.stopped = false)
    (htime : event.requestTime = some now) :
    ∃ added, (s.requestReconnect threshold forceRelay now).log = s.log ++ added ∧
      Logged threshold s event added :=
  (requestReconnect_requested hstopped).logged hrequests htime rfl rfl rfl rfl rfl rfl

theorem checkElapsed_logged {s : Controller} {event : Event} {now : ℤ}
    (hrequests : s.Requests threshold event ↔ s.stale threshold now = true)
    (htime : event.requestTime = none) :
    ∃ added, (s.checkElapsed threshold now).2.log = s.log ++ added ∧
      Logged threshold s event added := by
  cases hstale : s.stale threshold now with
  | false =>
      rw [checkElapsed_of_not_stale hstale]
      refine ⟨[], by simp, .silent (fun h => ?_) nofun⟩
      exact Bool.false_ne_true (hstale.symm.trans (hrequests.mp h))
  | true =>
      obtain ⟨hstopped, hrestart, -⟩ := Controller.stale_iff.mp hstale
      have hrequested : Requested threshold ((s.findGap now).ask false) now
          ((s.findGap now).requestReconnect threshold false now) :=
        requestReconnect_requested hstopped
      rw [checkElapsed_of_stale hstale]
      dsimp only
      generalize (s.findGap now).requestReconnect threshold false now = next at hrequested
      cases hrequested with
      | absorbed hsome =>
          refine ⟨[.gap] ++ [_], ?_, .absorbed (hrequests.mpr hstale) hsome
            fun _ => List.mem_singleton.mp⟩
          exact List.append_assoc _ _ _
      | retry _ _ hplain =>
          rcases hplain with hplain | hplain
          · cases hplain
          · exact absurd hplain (Option.isSome_iff_ne_none.mp hrestart)
      | fresh hnone _ hneeded =>
          refine ⟨[.gap] ++ [.started (((s.findGap now).ask false).observe now).created], ?_, ?_⟩
          · rw [log_startFresh, log_observe, ← List.append_assoc]
            rfl
          · refine .started (hrequests.mpr hstale) hnone (fun _ => List.mem_singleton.mp) ?_
            rw [htime]
            exact nofun
      | gap _ hgap =>
          exact absurd (hgap.symm.trans (Controller.stale_findGap s threshold now)) (by simp)

theorem Step.logged {s s' : Controller} {event : Event} (step : Step threshold s event s')
    : ∃ added, s'.log = s.log ++ added ∧ Logged threshold s event added := by
  cases step with
  | sessionStarted => exact ⟨[], by simp [log_sessionStarted], .silent id nofun⟩
  | attachFreshRestart => exact ⟨[_], rfl, .silent id (by simp [Entry.Silent])⟩
  | checkElapsed => exact checkElapsed_logged Iff.rfl rfl
  | shouldRetryOffline => exact ⟨[], (List.append_nil _).symm, .silent id nofun⟩
  | resetBackoff => exact ⟨[], (List.append_nil _).symm, .silent id nofun⟩
  | scheduleRetry =>
      unfold Controller.scheduleRetry
      split
      · exact ⟨[], (List.append_nil _).symm, .silent id nofun⟩
      · exact ⟨[_], rfl, .silent id (by simp [Entry.Silent])⟩
  | requestReconnect =>
      rename_i forceRelay now
      cases hstopped : s.stopped with
      | false => exact request_logged hstopped hstopped rfl
      | true =>
          rw [Controller.requestReconnect, if_pos hstopped]
          refine ⟨[], (List.append_nil _).symm, .silent (fun hrequests => ?_) nofun⟩
          exact Bool.false_ne_true (Eq.symm hrequests |>.trans hstopped)
  | stop => exact ⟨[_], rfl, .silent id (by simp [Entry.Silent])⟩
  | retryTimer harmed =>
      rename_i timer now
      unfold Controller.fireRetry
      dsimp only
      split
      · next hlate =>
          refine ⟨[], (List.append_nil _).symm, .silent (fun ⟨hstopped, htimer⟩ => ?_) nofun⟩
          simp [hstopped, htimer timer harmed] at hlate
      · next htimely =>
          simp only [Bool.or_eq_true, bne_iff_ne, ne_eq, not_or, not_not,
            Bool.not_eq_true] at htimely
          obtain ⟨hstopped, hgeneration⟩ := htimely
          have hfired : ∀ other ∈ s.retryTimer, other.generation = s.generation := by
            intro other hother
            obtain rfl := Option.some.inj (harmed.symm.trans hother)
            exact hgeneration
          have hrequests : s.Requests threshold (.retryTimer timer.id now) := ⟨hstopped, hfired⟩
          have hrequested : Requested threshold (Controller.ask { s with retryTimer := none } false)
              now _ := requestReconnect_requested hstopped
          exact hrequested.logged hrequests rfl rfl rfl rfl rfl rfl rfl
  | clockTimer => exact checkElapsed_logged Iff.rfl rfl
  | begin hflight =>
      unfold Controller.begin
      split
      · next hcurrent => exact ⟨[_], rfl, .called rfl hflight hcurrent⟩
      · exact ⟨[], (List.append_nil _).symm, .silent id nofun⟩
  | succeed hflight =>
      unfold Controller.succeed
      dsimp only
      split
      · exact ⟨[_], rfl, .silent id (by simp [Entry.Silent])⟩
      · exact ⟨[], (List.append_nil _).symm, .silent id nofun⟩
  | fail hflight =>
      unfold Controller.fail
      dsimp only
      split
      · exact ⟨[_], rfl, .silent id (by simp [Entry.Silent])⟩
      · exact ⟨[], (List.append_nil _).symm, .silent id nofun⟩
  | finish hflight => exact ⟨[], (List.append_nil _).symm, .silent id nofun⟩

/-! ## Every run -/

theorem Controller.Requests.not_stopped {s : Controller} {event : Event}
    (h : s.Requests threshold event) : s.stopped = false := by
  cases event with
  | requestReconnect => exact h
  | retryTimer => exact h.1
  | checkElapsed => exact (Controller.stale_iff.mp h).1
  | clockTimer => exact (Controller.stale_iff.mp h).1
  | _ => exact absurd h id

theorem isCurrent_iff {s : Controller} {restart : FreshRestart} :
    s.isCurrent restart = true ↔ s.stopped = false ∧ restart.generation = s.generation := by
  simp [Controller.isCurrent]

theorem Adds.exists_mem {s s' : Controller} {P : Entry → Prop} {added : List Entry}
    (h : Adds s s' P) (hlog : s'.log = s.log ++ added) : ∃ entry ∈ added, P entry := by
  obtain ⟨other, hother, hentry⟩ := h
  obtain rfl := List.append_cancel_left (hother.symm.trans hlog)
  exact hentry

theorem Entry.Silent.not_initiates {entry : Entry} (h : entry.Silent) : ¬ entry.Initiates := by
  cases entry <;> simp_all [Entry.Silent, Entry.Initiates]

theorem Logged.not_stopped {s : Controller} {event : Event} {added : List Entry}
    (h : Logged threshold s event added) (hinitiates : ∃ entry ∈ added, entry.Initiates) :
    s.stopped = false := by
  cases h with
  | silent _ hsilent =>
      obtain ⟨entry, hentry, hinitiates⟩ := hinitiates
      exact absurd hinitiates (hsilent entry hentry).not_initiates
  | called _ _ hcurrent => exact (isCurrent_iff.mp hcurrent).1
  | absorbed hrequests => exact hrequests.not_stopped
  | retry hrequests => exact hrequests.not_stopped
  | started hrequests => exact hrequests.not_stopped

/-- What a timer or a future of before a stop fires no longer initiates anything. -/
theorem Logged.timely {s s' : Controller} {event : Event} {added : List Entry}
    (h : Logged threshold s event added) (step : Step threshold s event s') (hkept : Kept s)
    (hinitiates : ∃ entry ∈ added, entry.Initiates) {armed : Entry}
    (harmed : armed ∈ event.armedBy) :
    Since (fun _ entry => entry = armed) (· = .stopped) s.log := by
  cases step with
  | retryTimer htimer =>
      obtain rfl := Option.some.inj harmed
      exact hkept.retryTimer _ htimer
  | clockTimer htimer =>
      obtain rfl := Option.some.inj harmed
      exact hkept.clockTimer _ htimer
  | begin =>
      obtain rfl := Option.some.inj harmed
      cases h with
      | silent _ hsilent =>
          obtain ⟨entry, hentry, hinitiates⟩ := hinitiates
          exact absurd hinitiates (hsilent entry hentry).not_initiates
      | called hevent hflight hcurrent =>
          rw [Event.begin.inj hevent]
          exact hkept.current _ hflight (isCurrent_iff.mp hcurrent).2
      | absorbed hrequests => exact absurd hrequests id
      | retry hrequests => exact absurd hrequests id
      | started hrequests => exact absurd hrequests id
  | _ => cases harmed

theorem currentFlight_iff {s : Controller} (h : Kept s) {completion : ℕ}
    (hfuture : s.restartFuture = some completion) :
    s.currentFlight completion = true ↔ ∀ restart ∈ s.inFlight, s.isCurrent restart = true := by
  rcases h.flight with ⟨-, hnone⟩ | ⟨restart, hflight, hsome⟩
  · exact absurd (hnone.symm.trans hfuture) (by simp)
  · obtain rfl := Option.some.inj (hsome.symm.trans hfuture)
    simp [Controller.currentFlight, hflight]

/-- A request is served unless it is left to a restart that is not current. -/
theorem Logged.answered_iff {s : Controller} {event : Event} {added : List Entry}
    (h : Logged threshold s event added) (hkept : Kept s) (hrequests : s.Requests threshold event) :
    (∃ entry ∈ added, entry.Answers) ↔ ¬ s.Outdated threshold event := by
  have hidle : s.restartFuture = none → ¬ s.Outdated threshold event := by
    rintro hnone ⟨-, restart, hflight, -⟩
    rw [hkept.flight_nil hnone] at hflight
    cases hflight
  cases h with
  | silent hnot => exact absurd hrequests hnot
  | called hevent =>
      subst hevent
      exact absurd hrequests id
  | @absorbed completion gaps _ hfuture hgaps =>
      have hanswers : (∃ entry ∈ gaps ++ [.absorbed completion (s.currentFlight completion)],
          entry.Answers) ↔ s.currentFlight completion = true := by
        constructor
        · rintro ⟨entry, hentry, hanswers⟩
          rcases List.mem_append.mp hentry with hgap | habsorbed
          · rw [hgaps entry hgap] at hanswers
            cases hanswers
          · rwa [List.mem_singleton.mp habsorbed] at hanswers
        · intro hcurrent
          exact ⟨_, List.mem_append_right _ (List.mem_singleton_self _), hcurrent⟩
      rw [hanswers, currentFlight_iff hkept hfuture]
      simp [Controller.Outdated, hrequests]
  | @retry forceRelay _ _ hfuture =>
      exact iff_of_true ⟨.retry forceRelay, by simp, trivial⟩ (hidle hfuture)
  | @started completion _ _ hfuture =>
      exact iff_of_true ⟨.started completion, by simp, trivial⟩ (hidle hfuture)

theorem restartsFirst_append {log added : List Entry} (hplain : ∀ entry ∈ added, ¬ entry.IsRetry)
    (h : RestartsFirst log) : RestartsFirst (log ++ added) := by
  induction added using List.reverseRecOn with
  | nil => rwa [List.append_nil]
  | append_singleton added entry ih =>
      rw [← List.append_assoc]
      refine always_concat.mpr ⟨ih fun other hother => ?_, fun hretry => ?_⟩
      · exact hplain other (List.mem_append_left _ hother)
      · exact absurd hretry (hplain entry (by simp))

/-- A step keeps the order of restarts and retries unless it forgets a gap. -/
theorem Logged.restartsFirst_iff {s : Controller} {event : Event} {added : List Entry}
    (h : Logged threshold s event added) (hkept : Kept s) (hfirst : RestartsFirst s.log) :
    RestartsFirst (s.log ++ added) ↔ ¬ s.Forgets threshold event := by
  have hgap : ∀ {gaps : List Entry} {last : Entry}, (∀ entry ∈ gaps, entry = .gap) →
      ¬ last.IsRetry → ∀ entry ∈ gaps ++ [last], ¬ entry.IsRetry := by
    intro gaps last hgaps hlast entry hentry
    rcases List.mem_append.mp hentry with hentry | hentry
    · rw [hgaps entry hentry]
      exact id
    · rwa [List.mem_singleton.mp hentry]
  cases h with
  | silent hnot hsilent =>
      refine iff_of_true (restartsFirst_append (fun entry hentry => ?_) hfirst) fun h => hnot h.1
      have hentry := hsilent entry hentry
      cases entry <;> simp_all [Entry.Silent, Entry.IsRetry]
  | called hevent =>
      subst hevent
      refine iff_of_true (restartsFirst_append (fun entry hentry => ?_) hfirst) fun h => h.1
      rw [List.mem_singleton.mp hentry]
      exact id
  | absorbed _ hfuture hgaps =>
      refine iff_of_true (restartsFirst_append (hgap hgaps id) hfirst) ?_
      rintro ⟨-, hidle, -⟩
      rcases hkept.flight with ⟨-, hnone⟩ | ⟨_, hflight, -⟩
      · exact absurd (hnone.symm.trans hfuture) (by simp)
      · exact absurd (hidle.symm.trans hflight) (by simp)
  | started _ _ hgaps hcause =>
      refine iff_of_true (restartsFirst_append (hgap hgaps id) hfirst) ?_
      rintro ⟨-, -, ⟨now, hnow, hstale⟩, hforgotten⟩
      exact (forgotten_iff.mp hforgotten).2 (hkept.needs.mp (hcause now hnow hstale))
  | retry hrequests hfuture htime hstale hplain =>
      rw [RestartsFirst, always_concat]
      constructor
      · rintro ⟨-, hfresh⟩ ⟨-, -, -, hforgotten⟩
        exact hfresh trivial (forgotten_iff.mp hforgotten).1
      · refine fun hforgets => ⟨hfirst, fun _ howed => hforgets ?_⟩
        refine ⟨hrequests, hkept.flight_nil hfuture, ⟨_, htime, hstale⟩,
          forgotten_iff.mpr ⟨howed, ?_⟩⟩
        rcases hplain with hplain | hplain
        · exact fun hunserved => Bool.false_ne_true (hplain.symm.trans (hkept.needs.mpr hunserved))
        · exact absurd hplain (hkept.attached howed.gap_mem)

theorem Kept.single {s : Controller} (h : Kept s) : s.inFlight.length ≤ 1 := by
  rcases h.flight with ⟨hnil, -⟩ | ⟨restart, hone, -⟩
  · simp [hnil]
  · simp [hone]

theorem SoundStep.served {s s' : Controller} {event : Event} (h : SoundStep threshold s event s')
    (hkept : Kept s) (hfirst : RestartsFirst s.log) : ServedStep threshold s event s' := by
  obtain ⟨added, hlog, hlogged⟩ := h.step.logged
  refine ⟨h.step, fun houtdated => ?_, ?_⟩
  · have hanswered := (h.answered houtdated.1).exists_mem hlog
    exact (hlogged.answered_iff hkept houtdated.1).mp hanswered houtdated
  · exact (hlogged.restartsFirst_iff hkept hfirst).mp (hlog ▸ h.restartsFirst)

theorem ServedStep.sound {s s' : Controller} {event : Event} (h : ServedStep threshold s event s')
    (hkept : Kept s) (hfirst : RestartsFirst s.log) : SoundStep threshold s event s' := by
  obtain ⟨added, hlog, hlogged⟩ := h.step.logged
  refine ⟨h.step, (h.step.kept hkept).single, fun hadds => ?_, fun armed harmed hadds => ?_,
    fun hrequests => ?_, ?_⟩
  · exact hlogged.not_stopped (hadds.exists_mem hlog)
  · exact hlogged.timely h.step hkept (hadds.exists_mem hlog) harmed
  · exact ⟨added, hlog, (hlogged.answered_iff hkept hrequests).mpr h.outdated⟩
  · rw [hlog]
    exact (hlogged.restartsFirst_iff hkept hfirst).mpr h.forgets

theorem servedRun_kept {now : ℤ} {last : Controller} {events : List Event}
    (run : Run (Step threshold) (.start now) events last) : Kept last :=
  run.stateInvariant Kept (start_kept now) fun _ _ _ h step => step.kept h

theorem soundRun_restartsFirst {now : ℤ} {last : Controller} {events : List Event}
    (run : Run (SoundStep threshold) (.start now) events last) : RestartsFirst last.log := by
  have hstart : RestartsFirst (Controller.start now).log := always_nil
  exact run.stateInvariant (fun s => RestartsFirst s.log) hstart
    fun _ _ _ _ step => step.restartsFirst

/-- No request is lost exactly in the runs in which no request meets an outdated
restart and none is made after a gap was forgotten. -/
theorem sound_iff_served {now : ℤ} {last : Controller} {events : List Event} :
    Run (SoundStep threshold) (.start now) events last ↔
      Run (ServedStep threshold) (.start now) events last := by
  constructor
  · intro run
    induction run with
    | nil => exact .nil
    | snoc run step ih =>
        have hkept := servedRun_kept (run.mono fun _ _ _ step => step.step)
        exact ih.snoc (step.served hkept (soundRun_restartsFirst run))
  · intro run
    induction run with
    | nil => exact .nil
    | snoc run step ih =>
        have hkept := servedRun_kept (run.mono fun _ _ _ step => step.step)
        exact ih.snoc (step.sound hkept (soundRun_restartsFirst ih))

/-- A request after a stop and a new start is left to the restart of before the
stop; a restart that returns after a second sleep is taken for one after it, and
the next request retries the connection of before. -/
theorem not_sound_staleRestart :
    (∃ last, Run (Step {}) (.start 0) [.attachFreshRestart 0 0, .checkElapsed 300000000, .stop,
        .sessionStarted 300000000, .requestReconnect false 300000000] last ∧
      ¬ Run (SoundStep {}) (.start 0) [.attachFreshRestart 0 0, .checkElapsed 300000000, .stop,
        .sessionStarted 300000000, .requestReconnect false 300000000] last) ∧
    ∃ last, Run (Step {}) (.start 0) [.attachFreshRestart 0 0, .checkElapsed 300000000, .begin 1,
        .checkElapsed 600000000, .succeed 1, .finish 1, .requestReconnect false 600000000] last ∧
      ¬ Run (SoundStep {}) (.start 0) [.attachFreshRestart 0 0, .checkElapsed 300000000, .begin 1,
        .checkElapsed 600000000, .succeed 1, .finish 1,
        .requestReconnect false 600000000] last := by
  let fresh : FreshRestart := { completion := 1, restart := 0, generation := 1 }
  let attached : Controller :=
    { lastObserved := 0, restart := some 0, clockTimer := some 0, created := 1,
      log := [.armedClock 0] }
  let slept : Controller :=
    { attached with
      lastObserved := 300000000, needsFresh := true, generation := 1, restartFuture := some 1
      created := 2, inFlight := [fresh], log := [.armedClock 0, .gap, .started 1] }
  have hslept : (attached.checkElapsed {} 300000000).2 = slept := by
    simp [attached, slept, fresh, Controller.checkElapsed, Controller.requestReconnect,
      Controller.stale, Controller.note, Controller.ask, Controller.cancelRetry,
      Controller.startFresh, Controller.resetBackoff]
  have hcheck : Step {} attached (.checkElapsed 300000000) slept := hslept ▸ .checkElapsed
  constructor
  · refine ⟨(slept.stop.sessionStarted 300000000).requestReconnect {} false 300000000, ?_, ?_⟩
    · exact .snoc (.snoc (.snoc (.snoc (.snoc .nil .attachFreshRestart) hcheck) .stop)
        .sessionStarted) .requestReconnect
    · intro hsound
      have hall : Run (SoundStep {}) (.start 0) ([.attachFreshRestart 0 0,
        .checkElapsed 300000000, .stop, .sessionStarted 300000000] ++
          [.requestReconnect false 300000000]) _ := hsound
      obtain ⟨before, hrun, hlast⟩ := hall.snoc_inv
      have hserved := hlast.served (servedRun_kept (hrun.mono fun _ _ _ step => step.step))
        (soundRun_restartsFirst hrun)
      have hbefore : before = slept.stop.sessionStarted 300000000 := by
        obtain ⟨_, hattach, hrun⟩ := hrun.cons_inv
        obtain ⟨_, hcheck, hrun⟩ := hrun.cons_inv
        obtain ⟨_, hstop, hrun⟩ := hrun.cons_inv
        obtain ⟨_, hstart, hrun⟩ := hrun.cons_inv
        cases hattach.step
        cases hcheck.step
        cases hstop.step
        cases hstart.step
        rw [← hslept]
        exact hrun.nil_inv
      subst hbefore
      exact hserved.outdated ⟨rfl, fresh, List.mem_singleton_self _, rfl⟩
  · let running : Controller :=
      { slept with
        inFlight := [{ fresh with phase := .running }]
        log := slept.log ++ [.called 1 0 false] }
    let woken : Controller :=
      { running with
        lastObserved := 600000000, log := running.log ++ [.gap, .absorbed 1 true] }
    let called : FreshRestart := { fresh with phase := .running }
    let settled : FreshRestart := { fresh with phase := .settled }
    let returned : Controller :=
      { woken with
        needsFresh := false, inFlight := [settled], log := woken.log ++ [.completed 1] }
    let ended : Controller := { returned with restartFuture := none, inFlight := [] }
    have hwoken : (running.checkElapsed {} 600000000).2 = woken := by
      simp [attached, slept, fresh, running, woken, Controller.checkElapsed,
        Controller.requestReconnect, Controller.stale, Controller.note, Controller.ask,
        Controller.cancelRetry, Controller.currentFlight, Controller.isCurrent]
    have hretried : (ended.requestReconnect {} false 600000000).log =
        ended.log ++ [.retry false] := by
      simp [attached, slept, running, woken, returned, ended, Controller.checkElapsed,
        Controller.requestReconnect, Controller.stale, Controller.note,
        Controller.ask, Controller.cancelRetry]
    have hbegin : Step {} slept (.begin fresh.completion) running :=
      .begin (List.mem_singleton_self fresh) rfl
    have hwake : Step {} running (.checkElapsed 600000000) woken := hwoken ▸ .checkElapsed
    have hsucceed : Step {} woken (.succeed called.completion) returned :=
      .succeed (List.mem_singleton_self called) rfl
    have hfinish : Step {} returned (.finish settled.completion) ended :=
      .finish (List.mem_singleton_self settled) rfl
    refine ⟨ended.requestReconnect {} false 600000000, ?_, fun hsound => ?_⟩
    · exact .snoc (.snoc (.snoc (.snoc (.snoc (.snoc (.snoc .nil .attachFreshRestart) hcheck)
        hbegin) hwake) hsucceed) hfinish) .requestReconnect
    · have hfirst : RestartsFirst (ended.requestReconnect {} false 600000000).log :=
        soundRun_restartsFirst hsound
      rw [hretried] at hfirst
      refine (always_concat.mp hfirst).2 trivial ?_
      exact ⟨slept.log ++ [.called 1 0 false], .gap, [.absorbed 1 true, .completed 1], rfl, rfl,
        by simp [Entry.IsStarted]⟩

end RustAdmin.Viewer.SessionReconnect
