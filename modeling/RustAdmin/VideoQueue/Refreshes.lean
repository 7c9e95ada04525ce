import Mathlib.Data.List.Chain
import RustAdmin.VideoQueue.Trace

/-!
# Bounded recovery refreshes

While a display stays subscribed and recovering on one stream, nothing but
`recovery_due` touches the counter and the time of its refreshes: a further loss
finds the recovery already begun, and everything that resets them ends the
episode, with a new stream, an accepted keyframe or a new subscription.
-/

namespace RustAdmin.VideoQueue

open RustAdmin.Support

variable {α : Type}

/-! ## Tracks -/

/-- The track is recovering on a subscribed stream. -/
structure Track.InEpisode (t : Track) (stream : Option ℕ) : Prop where
  enabled : t.enabled = true
  recovering : t.recovering = true
  stream_eq : t.stream = stream

/-- What `recovery_due` counts is the same in both tracks. -/
structure Track.SameRefreshes (t t' : Track) : Prop where
  refreshes : t'.refreshes = t.refreshes
  lastRefresh : t'.lastRefresh = t.lastRefresh

theorem Track.SameRefreshes.refl (t : Track) : t.SameRefreshes t := ⟨rfl, rfl⟩

/-- A loss during a recovery does not start it again. -/
theorem lose_sameRefreshes {t : Track} (h : t.recovering = true) (frame : ℕ) :
    t.SameRefreshes (t.lose frame) := by
  unfold Track.lose
  rw [h]
  exact ⟨rfl, rfl⟩

/-- A keyframe that leaves the track recovering was not newer than the loss. -/
theorem accept_sameRefreshes {t : Track} {key : Bool} {frame : ℕ}
    (h : (t.accept key frame).recovering = true) : t.SameRefreshes (t.accept key frame) := by
  unfold Track.accept at *
  split
  · next hends =>
      rw [if_pos hends] at h
      simp at h
  · exact .refl t

theorem Track.SameButDeficit.sameRefreshes {t t' : Track} (h : t.SameButDeficit t') :
    t.SameRefreshes t' := by
  unfold Track.SameButDeficit at h
  rw [← h]
  exact ⟨rfl, rfl⟩

/-- The track of a display that `set_displays` switches. -/
def Track.switched (t : Track) (enabled : Bool) : Track :=
  if t.enabled then
    if enabled then t else { t with recovering := false, enabled := false }
  else if enabled then
    { t with recovering := true, refreshes := 0, lastRefresh := none, enabled := true }
  else t

theorem tracks_switched (s : State α) (display other : Display) (enabled : Bool) :
    (s.switched display enabled).tracks other =
      if other = display then (s.tracks display).switched enabled else s.tracks other := by
  unfold State.switched Track.switched
  by_cases hother : other = display
  · subst hother
    split <;> split <;> simp
  · split <;> split <;> simp [hother]

/-- `set_displays` switches every display once. -/
theorem tracks_resubscribed (s : State α) (subscribed : List ℕ) (display : Display) :
    (s.resubscribed subscribed).tracks display =
      (s.tracks display).switched (subscribed.contains display.val) := by
  have hfold : ∀ (order : List Display) (s : State α), order.Nodup →
      ((order.foldl (fun s display => s.switched display (subscribed.contains display.val))
        s).tracks display) =
      if display ∈ order then (s.tracks display).switched (subscribed.contains display.val)
      else s.tracks display := by
    intro order
    induction order with
    | nil => simp
    | cons first order ih =>
        intro s hnodup
        obtain ⟨hfirst, hnodup⟩ := List.nodup_cons.mp hnodup
        rw [List.foldl_cons, ih _ hnodup, tracks_switched]
        by_cases hown : display = first
        · subst hown
          simp [hfirst]
        · simp [hown]
  unfold State.resubscribed
  rw [hfold _ _ (List.nodup_finRange displays), if_pos (List.mem_finRange display)]

/-- A track that is subscribed before and after was not touched. -/
theorem switched_sameRefreshes {t : Track} {enabled : Bool} (h : t.enabled = true)
    (h' : (t.switched enabled).enabled = true) : t.SameRefreshes (t.switched enabled) := by
  unfold Track.switched at *
  rw [if_pos h] at *
  split
  · exact .refl t
  · next hdisabled =>
      rw [if_neg hdisabled] at h'
      simp at h'

/-! ## One step of an episode -/

theorem prepared_of_sameStream {s : State α} {display : Display} {frame : VideoFrame}
    (h : (s.tracks display).stream = some frame.streamId) :
    (s.prepared display frame).tracks = s.tracks := by
  rw [tracks_prepared_eq]
  unfold State.entered
  rw [if_neg (not_not.mpr h)]

theorem stream_prepared (s : State α) {display : Display} {frame : VideoFrame}
    (hrefuses : (s.tracks display).refuses frame = false) :
    ((s.prepared display frame).tracks display).stream = some frame.streamId :=
  (tracks_prepared hrefuses).2

theorem pushed_sameRefreshes {s s' : State α} {item : Queued α} {display : Display}
    {stream : Option ℕ} (hpushed : Pushed s item s') (h : (s.tracks display).InEpisode stream)
    (h' : (s'.tracks display).InEpisode stream) :
    (s.tracks display).SameRefreshes (s'.tracks display) := by
  cases hpushed with
  | unknown => exact .refl _
  | refused => exact .refl _
  | overflow => exact .refl _
  | control => exact .refl _
  | @lost frame target hframe hdisplay hrefuses =>
      by_cases hown : display = target
      · subst hown
        have hstream : (s.tracks display).stream = some frame.streamId := by
          rw [h.stream_eq, ← h'.stream_eq, tracks_lost, Function.update_self, stream_lose]
          exact stream_prepared s hrefuses
        rw [tracks_lost, Function.update_self, prepared_of_sameStream hstream]
        exact lose_sameRefreshes h.recovering _
      · rw [tracks_lost_ne _ _ hown, tracks_prepared_ne s frame hown]
        exact .refl _
  | @enqueued frame target hframe hdisplay hrefuses =>
      by_cases hown : display = target
      · subst hown
        have htrack : ((s.prepared display frame).enqueued item display frame).tracks display =
            ((s.prepared display frame).tracks display).accept (leadingKeyframe frame)
              frame.frameId := tracks_setTrack_self _ _ _
        rw [htrack] at h' ⊢
        have hstream : (s.tracks display).stream = some frame.streamId := by
          rw [h.stream_eq, ← h'.stream_eq, stream_accept]
          exact stream_prepared s hrefuses
        have hrecovering := h'.recovering
        rw [prepared_of_sameStream hstream] at hrecovering ⊢
        exact accept_sameRefreshes hrecovering
      · rw [tracks_enqueued_ne _ _ _ hown, tracks_prepared_ne s frame hown]
        exact .refl _

theorem moved_sameRefreshes {s s' : System α} {event : Event α} {display : Display}
    {stream : Option ℕ} (hmoved : Moved s event s') (hnow : ∀ now, event ≠ .recoveryDue now)
    (h : (s.queue.tracks display).InEpisode stream)
    (h' : (s'.queue.tracks display).InEpisode stream) :
    (s.queue.tracks display).SameRefreshes (s'.queue.tracks display) := by
  cases hmoved with
  | push _ hpushed => exact pushed_sameRefreshes hpushed h h'
  | pop hpopped =>
      cases hpopped with
      | idle hrotated => exact (hrotated.tracks display).sameRefreshes
      | served _ _ _ hrotated => exact (hrotated.tracks display).sameRefreshes
  | lose hlosing =>
      cases hlosing with
      | other => exact .refl _
      | @lost frame target _ _ hstream =>
          by_cases hown : display = target
          · subst hown
            dsimp only
            rw [tracks_lost, Function.update_self]
            exact lose_sameRefreshes h.recovering _
          · dsimp only
            rw [tracks_lost_ne _ _ hown]
            exact .refl _
  | @setDisplays subscribed =>
      have henabled := h'.enabled
      dsimp only at henabled ⊢
      rw [tracks_resubscribed] at henabled ⊢
      exact switched_sameRefreshes h.enabled henabled
  | @recoveryDue now => exact absurd rfl (hnow now)

/-! ## Reports -/

/-- The time at which a call reports the display for a refresh. -/
def System.reported (s : System α) (display : Display) : Event α → Option Instant
  | .recoveryDue now => ((s.queue.recoveryDue now).1 display).map fun _ => now
  | _ => none

/-- A call during an episode of the display, with the report it made. -/
structure EpisodeStep (display : Display) (stream : Option ℕ) (s : System α)
    (call : Event α × Option Instant) (s' : System α) : Prop where
  step : Step s call.1 s'
  report : call.2 = s.reported display call.1
  before : (s.queue.tracks display).InEpisode stream
  after : (s'.queue.tracks display).InEpisode stream

/-- The times at which the display was reported. -/
def reports (calls : List (Event α × Option Instant)) : List Instant := calls.filterMap Prod.snd

theorem add_le_of_not_sub_lt {now last interval : ℕ} (hpositive : 0 < interval)
    (h : ¬ now - last < interval) : last + interval ≤ now := by
  omega

/-- `recovery_due` reports a track or leaves it as it was. -/
theorem recoveryDue_cases (t : Track) (now : Instant) :
    (t.recoveryDue now).1 = none ∧ (t.recoveryDue now).2 = t ∨
      (t.recoveryDue now).1 ≠ none ∧ t.enabled = true ∧ t.recovering = true ∧
        t.refreshes < maxRefreshes ∧ (∀ last, t.lastRefresh = some last →
          last + refreshInterval ≤ now) ∧
        (t.recoveryDue now).2 =
          { t with lastRefresh := some now, refreshes := t.refreshes + 1 } := by
  unfold Track.recoveryDue
  split
  · exact .inl ⟨rfl, rfl⟩
  · next hdue =>
      simp only [Bool.or_eq_true, Bool.not_eq_true', decide_eq_true_eq, not_or,
        Bool.not_eq_false, Nat.not_le] at hdue
      obtain ⟨⟨⟨henabled, hrecovering⟩, hrefreshes⟩, hlast⟩ := hdue
      refine .inr ⟨by simp, henabled, hrecovering, hrefreshes, fun last hsome => ?_, rfl⟩
      have hwait : ¬ now - last < refreshInterval := by simpa [hsome] using hlast
      exact add_le_of_not_sub_lt (by decide) hwait

/-- Since the track was `start` it was reported at these times. -/
structure Track.Reported (start : Track) (times : List Instant) (t : Track) : Prop where
  counted : t.refreshes = start.refreshes + times.length
  bounded : times = [] ∨ t.refreshes ≤ maxRefreshes
  last : ∀ time ∈ times.getLast?, t.lastRefresh = some time
  spaced : times.IsChain fun earlier later => earlier + refreshInterval ≤ later

theorem Track.Reported.same {start t t' : Track} {times : List Instant}
    (h : start.Reported times t) (hsame : t.SameRefreshes t') : start.Reported times t' where
  counted := hsame.refreshes.trans h.counted
  bounded := hsame.refreshes ▸ h.bounded
  last := fun time htime => hsame.lastRefresh.trans (h.last time htime)
  spaced := h.spaced

theorem Track.Reported.again {start t : Track} {times : List Instant} {now : Instant}
    (h : start.Reported times t) (hrefreshes : t.refreshes < maxRefreshes)
    (hlast : ∀ last, t.lastRefresh = some last → last + refreshInterval ≤ now) :
    start.Reported (times ++ [now])
      { t with lastRefresh := some now, refreshes := t.refreshes + 1 } where
  counted := by
    rw [List.length_append, List.length_singleton, h.counted, Nat.add_assoc]
  bounded := .inr hrefreshes
  last := by simp
  spaced := by
    refine List.isChain_append.mpr ⟨h.spaced, List.isChain_singleton now, ?_⟩
    intro earlier hearlier later hlater
    obtain rfl : now = later := by simpa using hlater
    exact hlast earlier (h.last earlier hearlier)

theorem episodeStep_reported {display : Display} {stream : Option ℕ} {s s' : System α}
    {start : Track} {calls : List (Event α × Option Instant)} {call : Event α × Option Instant}
    (hs : s.queue.WithinLimits) (h : start.Reported (reports calls) (s.queue.tracks display))
    (step : EpisodeStep display stream s call s') :
    start.Reported (reports (calls ++ [call])) (s'.queue.tracks display) := by
  obtain ⟨event, report⟩ := call
  obtain ⟨hstep, hreport, hbefore, hafter⟩ := step
  dsimp only at hstep hreport
  have hreports : reports (calls ++ [(event, report)]) = reports calls ++ report.toList := by
    cases report <;> simp [reports]
  rw [hreports]
  by_cases hnow : ∃ now, event = .recoveryDue now
  · obtain ⟨now, rfl⟩ := hnow
    cases hstep with
    | recoveryDue =>
        have htrack : (s.queue.recoveryDue now).2.tracks display =
            ((s.queue.tracks display).recoveryDue now).2 := rfl
        have hanswer : report =
            ((s.queue.tracks display).recoveryDue now).1.map fun _ => now := hreport
        dsimp only
        rw [htrack]
        obtain ⟨hnone, hsame⟩ | ⟨hsome, -, -, hrefreshes, hlast, hnext⟩ :=
          recoveryDue_cases (s.queue.tracks display) now
        · rw [hanswer, hnone, hsame]
          simpa using h
        · obtain ⟨due, hdue⟩ := Option.ne_none_iff_exists'.mp hsome
          rw [hanswer, hdue, hnext]
          exact h.again hrefreshes hlast
  · have hother : ∀ now, event ≠ .recoveryDue now := fun now heq => hnow ⟨now, heq⟩
    have hnone : report = none := by
      rw [hreport]
      cases event with
      | recoveryDue now => exact absurd rfl (hother now)
      | _ => rfl
    rw [hnone]
    simpa using h.same (moved_sameRefreshes (hstep.moved hs) hother hbefore hafter)

theorem episode_reported {display : Display} {stream : Option ℕ} {s s' : System α}
    {calls : List (Event α × Option Instant)} (hs : s.queue.WithinLimits)
    (episode : Run (EpisodeStep display stream) s calls s') :
    (s.queue.tracks display).Reported (reports calls) (s'.queue.tracks display) := by
  have hboth : s'.queue.WithinLimits ∧
      (s.queue.tracks display).Reported (reports calls) (s'.queue.tracks display) := by
    refine episode.invariant (fun calls state => state.queue.WithinLimits ∧
      (s.queue.tracks display).Reported (reports calls) (state.queue.tracks display))
      ⟨hs, ⟨rfl, .inl rfl, by simp [reports], .nil⟩⟩ ?_
    rintro calls before call after ⟨hlimits, hreported⟩ step
    exact ⟨moved_withinLimits hlimits (step.step.moved hlimits),
      episodeStep_reported hlimits hreported step⟩
  exact hboth.2

/-- **Bounded recovery refreshes.**  Only a display that is subscribed and
recovering is reported, and in one episode at most `maxRefreshes` times and
never twice within the interval. -/
theorem refreshes_bounded {events : List (Event α)} {s : System α}
    (run : Run Step System.start events s) (display : Display) :
    (∀ event, s.reported display event ≠ none →
      (s.queue.tracks display).enabled = true ∧ (s.queue.tracks display).recovering = true) ∧
      ∀ stream calls s', Run (EpisodeStep display stream) s calls s' →
        (reports calls).length ≤ maxRefreshes ∧
          (reports calls).IsChain fun earlier later => earlier + refreshInterval ≤ later := by
  refine ⟨fun event hreported => ?_, fun stream calls s' episode => ?_⟩
  · cases event with
    | recoveryDue now =>
        obtain ⟨hnone, -⟩ | ⟨-, henabled, hrecovering, -⟩ :=
          recoveryDue_cases (s.queue.tracks display) now
        · have hreport : s.reported display (.recoveryDue now) =
              ((s.queue.tracks display).recoveryDue now).1.map fun _ => now := rfl
          rw [hreport, hnone] at hreported
          exact absurd rfl hreported
        · exact ⟨henabled, hrecovering⟩
    | _ => exact absurd rfl hreported
  · have hreported := episode_reported (run_withinLimits initial_withinLimits run) episode
    refine ⟨?_, hreported.spaced⟩
    rcases hreported.bounded with hnone | hbounded
    · simp [hnone]
    · have hcounted := hreported.counted
      omega

/-- A delta of the first stream of display 0. -/
def firstDelta : Item Unit :=
  { time := 0
    message :=
      { union := some (.videoFrame
          { display := 0, streamId := 1, frameId := 1,
            union := some (.vp9s [{ data := [0], key := false }]) })
        computeSize := 10
        rest := (0, ()) } }

/-- `refreshes_bounded` at a stream that begins with a delta and is reported
twice, a second apart. -/
theorem refreshes_bounded_firstDelta :
    (reports [((Event.recoveryDue 5 : Event Unit), some 5),
      (.recoveryDue 1000000005, some 1000000005)]).IsChain
      fun earlier later => earlier + refreshInterval ≤ later := by
  have hpush : ∃ queue : State (ℕ × Unit), Returns (State.new.push firstDelta) queue ∧
      (queue.tracks 0).InEpisode (some 1) ∧
      ((queue.recoveryDue 5).2.tracks 0).InEpisode (some 1) ∧
      (((queue.recoveryDue 5).2.recoveryDue 1000000005).2.tracks 0).InEpisode (some 1) ∧
      (queue.recoveryDue 5).1 0 ≠ none ∧
      ((queue.recoveryDue 5).2.recoveryDue 1000000005).1 0 ≠ none :=
    ⟨_, ⟨_, rfl⟩, ⟨rfl, rfl, rfl⟩, ⟨rfl, rfl, rfl⟩, ⟨rfl, rfl, rfl⟩, by decide, by decide⟩
  obtain ⟨queue, hqueue, hfirst, hsecond, hthird, hdue, hdue'⟩ := hpush
  have hrun : Run Step System.start [.push firstDelta] ⟨queue, 1⟩ := .single (.push rfl hqueue)
  obtain ⟨answer, hanswer⟩ := Option.ne_none_iff_exists'.mp hdue
  obtain ⟨answer', hanswer'⟩ := Option.ne_none_iff_exists'.mp hdue'
  have hepisode : Run (EpisodeStep 0 (some 1)) ⟨queue, 1⟩
      ([(.recoveryDue 5, some 5)] ++ [(.recoveryDue 1000000005, some 1000000005)]) _ :=
    (Run.single ⟨.recoveryDue, by simp [System.reported, hanswer], hfirst, hsecond⟩).snoc
      ⟨.recoveryDue, by simp [System.reported, hanswer'], hsecond, hthird⟩
  exact ((refreshes_bounded hrun 0).2 _ _ _ hepisode).2

end RustAdmin.VideoQueue
