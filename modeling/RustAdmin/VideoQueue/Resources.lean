import Mathlib.Data.Fintype.Card
import RustAdmin.Support.Run
import RustAdmin.VideoQueue.Transitions

/-!
# Resource limits of the video queue

The byte counter, the six bounds of `push`, and the rule that a queued frame
belongs to the current stream of a subscribed display are one invariant,
`WithinLimits`.  It only mentions how many entries there are and how large they
are, so it survives every removal (`withinLimits_of_sublist`); the only move
that adds an entry is `enqueued`, and there the limits of `push` have just been
checked.
-/

namespace RustAdmin.VideoQueue

open RustAdmin.Support

variable {α : Type}

/-! ## The invariant -/

/-- The queued frames of a display. -/
def State.framesOf (s : State α) (display : Display) : List (Entry α) :=
  s.messages.filter fun e => e.display == some display

/-- The entry is the one `push` builds for its item. -/
def Entry.Genuine (e : Entry α) : Prop :=
  (e.item.frame? = none ∧ e = controlEntry e.item) ∨
    ∃ frame display, e.item.frame? = some frame ∧ frame.display? = some display ∧
      e = frameEntry e.item display frame

/-- The byte counter is exact, the limits hold, and every queued frame belongs
to the current stream of a subscribed display. -/
structure State.WithinLimits (s : State α) : Prop where
  byteExact : s.ByteExact
  length_le : s.messages.length ≤ capacity
  bytes_le : s.bytes ≤ maxBytes
  track_length_le : ∀ display, (s.framesOf display).length ≤ trackFrames
  track_bytes_le : ∀ display, byteSum (s.framesOf display) ≤ maxFrameBytes
  tracks_le : (Finset.univ.filter fun display => s.framesOf display ≠ []).card ≤ maxTracks
  genuine : ∀ e ∈ s.messages, e.Genuine
  subscribed : ∀ e ∈ s.messages, ∀ display, e.display = some display →
    (s.tracks display).enabled = true
  current : ∀ e ∈ s.messages, ∀ display, e.display = some display →
    ∃ frame, e.item.frame? = some frame ∧
      (s.tracks display).stream = some frame.streamId

theorem initial_withinLimits : (State.new : State α).WithinLimits where
  byteExact := rfl
  length_le := Nat.zero_le _
  bytes_le := Nat.zero_le _
  track_length_le := fun _ => Nat.zero_le _
  track_bytes_le := fun _ => Nat.zero_le _
  tracks_le := by simp [State.framesOf, State.new]
  genuine := by simp [State.new]
  subscribed := by simp [State.new]
  current := by simp [State.new]

theorem mem_framesOf {s : State α} {display : Display} {e : Entry α} :
    e ∈ s.framesOf display ↔ e ∈ s.messages ∧ e.display = some display := by
  simp [State.framesOf]

theorem byteSum_le_of_sublist {first second : List (Entry α)} (h : first.Sublist second) :
    byteSum first ≤ byteSum second :=
  (h.map Entry.bytes).sum_le_sum fun _ _ => Nat.zero_le _

/-! ## Moves that remove entries or touch a track -/

/-- Removing entries keeps every limit. -/
theorem withinLimits_of_sublist {s : State α} {entries : List (Entry α)} (hs : s.WithinLimits)
    (hsublist : entries.Sublist s.messages) : (s.withMessages entries).WithinLimits where
  byteExact := rfl
  length_le := hsublist.length_le.trans hs.length_le
  bytes_le := by
    calc byteSum entries ≤ byteSum s.messages := byteSum_le_of_sublist hsublist
      _ = s.bytes := hs.byteExact.symm
      _ ≤ maxBytes := hs.bytes_le
  track_length_le := fun display =>
    (hsublist.filter _).length_le.trans (hs.track_length_le display)
  track_bytes_le := fun display =>
    (byteSum_le_of_sublist (hsublist.filter _)).trans (hs.track_bytes_le display)
  tracks_le := by
    refine (Finset.card_le_card fun display hdisplay => ?_).trans hs.tracks_le
    simp only [Finset.mem_filter, Finset.mem_univ, true_and] at hdisplay ⊢
    intro hempty
    have hfilter := hsublist.filter fun e => e.display == some display
    rw [State.framesOf] at hempty
    rw [hempty] at hfilter
    exact hdisplay (List.sublist_nil.mp hfilter)
  genuine := fun e he => hs.genuine e (hsublist.subset he)
  subscribed := fun e he => hs.subscribed e (hsublist.subset he)
  current := fun e he => hs.current e (hsublist.subset he)

theorem purged_withinLimits {s : State α} (hs : s.WithinLimits) (display : Display)
    (deltasOnly : Bool) : (s.purged display deltasOnly).WithinLimits :=
  withinLimits_of_sublist hs List.filter_sublist

/-- No frame of the display is queued after a full purge. -/
theorem display_ne_of_mem_purged {s : State α} {display : Display} {e : Entry α}
    (he : e ∈ (s.purged display false).messages) : e.display ≠ some display := by
  simp only [messages_purged, List.mem_filter, Entry.purged] at he
  simpa using he.2

/-- A track may change freely while nothing is queued for its display, and
otherwise as long as its stream and subscription stay. -/
theorem setTrack_withinLimits {s : State α} (hs : s.WithinLimits) {display : Display}
    {track : Track}
    (htrack : (∀ e ∈ s.messages, e.display ≠ some display) ∨
      (track.stream = (s.tracks display).stream ∧ track.enabled = (s.tracks display).enabled)) :
    (s.setTrack display track).WithinLimits where
  byteExact := hs.byteExact
  length_le := hs.length_le
  bytes_le := hs.bytes_le
  track_length_le := hs.track_length_le
  track_bytes_le := hs.track_bytes_le
  tracks_le := hs.tracks_le
  genuine := hs.genuine
  subscribed := by
    intro e he other hother
    by_cases heq : other = display
    · subst heq
      rcases htrack with hnone | ⟨-, henabled⟩
      · exact absurd hother (hnone e he)
      · rw [tracks_setTrack_self, henabled]
        exact hs.subscribed e he other hother
    · rw [tracks_setTrack_ne _ _ heq]
      exact hs.subscribed e he other hother
  current := by
    intro e he other hother
    by_cases heq : other = display
    · subst heq
      rcases htrack with hnone | ⟨hstream, -⟩
      · exact absurd hother (hnone e he)
      · rw [tracks_setTrack_self, hstream]
        exact hs.current e he other hother
    · rw [tracks_setTrack_ne _ _ heq]
      exact hs.current e he other hother

theorem lost_withinLimits {s : State α} (hs : s.WithinLimits) (display : Display) (frame : ℕ) :
    (s.lost display frame).WithinLimits :=
  purged_withinLimits (setTrack_withinLimits hs (.inr (by simp))) display true

theorem entered_withinLimits {s : State α} (hs : s.WithinLimits) (display : Display)
    (stream : ℕ) (key : Bool) : (s.entered display stream key).WithinLimits := by
  unfold State.entered
  split
  · exact setTrack_withinLimits (purged_withinLimits hs display false)
      (.inl fun _ => display_ne_of_mem_purged)
  · exact hs

theorem prepared_withinLimits {s : State α} (hs : s.WithinLimits) (display : Display)
    (frame : VideoFrame) : (s.prepared display frame).WithinLimits := by
  unfold State.prepared
  split
  · exact purged_withinLimits (entered_withinLimits hs _ _ _) display false
  · exact entered_withinLimits hs _ _ _

theorem switched_withinLimits {s : State α} (hs : s.WithinLimits) (display : Display)
    (enabled : Bool) : (s.switched display enabled).WithinLimits := by
  unfold State.switched
  split
  · split
    · exact hs
    · exact setTrack_withinLimits (purged_withinLimits hs display false)
        (.inl fun _ => display_ne_of_mem_purged)
  · next hdisabled =>
      split
      · -- nothing is queued for a display that was not subscribed
        refine setTrack_withinLimits hs (.inl fun e he hdisplay => ?_)
        exact hdisabled (hs.subscribed e he display hdisplay)
      · exact hs

theorem State.Rotated.withinLimits {s s' : State α} (h : s.Rotated s') (hs : s.WithinLimits) :
    s'.WithinLimits where
  byteExact := h.byteExact hs.byteExact
  length_le := h.messages ▸ hs.length_le
  bytes_le := h.bytes ▸ hs.bytes_le
  track_length_le := by
    unfold State.framesOf
    rw [h.messages]
    exact hs.track_length_le
  track_bytes_le := by
    unfold State.framesOf
    rw [h.messages]
    exact hs.track_bytes_le
  tracks_le := by
    unfold State.framesOf
    rw [h.messages]
    exact hs.tracks_le
  genuine := h.messages ▸ hs.genuine
  subscribed := by
    intro e he display hdisplay
    rw [(h.tracks display).fields.2.1]
    exact hs.subscribed e (h.messages ▸ he) display hdisplay
  current := by
    intro e he display hdisplay
    rw [(h.tracks display).fields.1]
    exact hs.current e (h.messages ▸ he) display hdisplay

theorem popped_withinLimits {s s' : State α} {item : Option (Queued α)} (hs : s.WithinLimits)
    (hpopped : Popped s item s') : s'.WithinLimits := by
  cases hpopped with
  | idle hrotated => exact hrotated.withinLimits hs
  | @served before after entry rotated hsplit _ _ hrotated =>
      refine withinLimits_of_sublist (hrotated.withinLimits hs) ?_
      rw [hrotated.messages, hsplit]
      exact (List.sublist_cons_self entry after).append_left before

/-! ## The limits of `push` -/

theorem pending_count (display d : Display) (o : Occupancy) (e : Entry α) :
    (o.count display e).pending d = (o.pending d || e.display == some d) := by
  unfold Occupancy.count
  cases e.display with
  | none => simp
  | some d' =>
      have hupdate : Function.update o.pending d' true d = (o.pending d || some d' == some d) := by
        by_cases hd : d = d'
        · subst hd
          simp
        · have hd' : ¬ d' = d := fun h => hd h.symm
          simp [Function.update_of_ne hd, hd']
      dsimp only
      split <;> exact hupdate

theorem ownFrames_count (display : Display) (o : Occupancy) (e : Entry α) :
    (o.count display e).ownFrames =
      o.ownFrames + ([e].filter fun e => e.display == some display).length := by
  unfold Occupancy.count
  cases hdisplay : e.display with
  | none => simp [hdisplay]
  | some d' => by_cases hown : d' = display <;> simp [hdisplay, hown]

theorem ownBytes_count (display : Display) (o : Occupancy) (e : Entry α) :
    (o.count display e).ownBytes =
      o.ownBytes + byteSum ([e].filter fun e => e.display == some display) := by
  unfold Occupancy.count
  cases hdisplay : e.display with
  | none => simp [hdisplay]
  | some d' => by_cases hown : d' = display <;> simp [hdisplay, hown]

/-- `occupancy` counts what is queued. -/
theorem foldl_count (display : Display) (entries : List (Entry α)) :
    ∀ o : Occupancy,
      (∀ d, (entries.foldl (Occupancy.count display) o).pending d =
        (o.pending d || entries.any fun e => e.display == some d)) ∧
      (entries.foldl (Occupancy.count display) o).ownFrames =
        o.ownFrames + (entries.filter fun e => e.display == some display).length ∧
      (entries.foldl (Occupancy.count display) o).ownBytes =
        o.ownBytes + byteSum (entries.filter fun e => e.display == some display) := by
  induction entries with
  | nil => simp
  | cons e entries ih =>
      intro o
      obtain ⟨hpending, hframes, hbytes⟩ := ih (o.count display e)
      have hcons : e :: entries = [e] ++ entries := rfl
      rw [List.foldl_cons]
      refine ⟨fun d => ?_, ?_, ?_⟩
      · rw [hpending d, pending_count, List.any_cons, Bool.or_assoc]
      · rw [hframes, ownFrames_count, hcons, List.filter_append, List.length_append, Nat.add_assoc]
      · rw [hbytes, ownBytes_count, hcons, List.filter_append, byteSum_append, Nat.add_assoc]

theorem occupancy_ownFrames (s : State α) (display : Display) :
    (s.occupancy display).ownFrames = (s.framesOf display).length := by
  simpa [State.occupancy, State.framesOf] using (foldl_count display s.messages {}).2.1

theorem occupancy_ownBytes (s : State α) (display : Display) :
    (s.occupancy display).ownBytes = byteSum (s.framesOf display) := by
  simpa [State.occupancy, State.framesOf] using (foldl_count display s.messages {}).2.2

theorem occupancy_pending (s : State α) (display d : Display) :
    (s.occupancy display).pending d = true ↔ s.framesOf d ≠ [] := by
  unfold State.occupancy
  rw [(foldl_count display s.messages {}).1 d]
  simp [State.framesOf]

theorem occupancy_tracks (s : State α) (display : Display) :
    (s.occupancy display).tracks =
      (Finset.univ.filter fun d => s.framesOf d ≠ []).card := by
  have hfilter : (Finset.univ.filter fun d => s.framesOf d ≠ []) =
      ((List.finRange displays).filter (s.occupancy display).pending).toFinset := by
    ext d
    simp only [Finset.mem_filter, Finset.mem_univ, true_and, List.mem_toFinset, List.mem_filter,
      List.mem_finRange]
    exact (occupancy_pending s display d).symm
  rw [hfilter, List.toFinset_card_of_nodup ((List.nodup_finRange displays).filter _),
    Occupancy.tracks, List.countP_eq_length_filter]

/-- What it means that the limits of `push` let a frame pass. -/
theorem full_eq_false {s : State α} {display : Display} {bytes : ℕ} :
    s.full display bytes = false ↔
      bytes ≤ maxFrameBytes ∧ s.bytes + bytes ≤ maxBytes ∧
        s.messages.length < capacity - controlReserve ∧
        byteSum (s.framesOf display) + bytes ≤ maxFrameBytes ∧
        (s.framesOf display).length < trackFrames ∧
        (s.framesOf display = [] →
          (Finset.univ.filter fun d => s.framesOf d ≠ []).card < maxTracks) := by
  have hpending : (s.occupancy display).pending display = false ↔ s.framesOf display = [] := by
    rw [← not_iff_not, Bool.not_eq_false]
    exact occupancy_pending s display display
  have hfull : s.full display bytes = false ↔
      ¬ maxFrameBytes < bytes ∧ ¬ maxBytes < s.bytes + bytes ∧
        ¬ capacity - controlReserve ≤ s.messages.length ∧
        ¬ maxFrameBytes < byteSum (s.framesOf display) + bytes ∧
        ¬ trackFrames ≤ (s.framesOf display).length ∧
        ((s.occupancy display).pending display = false →
          ¬ maxTracks ≤ (Finset.univ.filter fun d => s.framesOf d ≠ []).card) := by
    unfold State.full
    simp only [Bool.or_eq_false_iff, decide_eq_false_iff_not, maxBytes_lt_saturatingAdd,
      maxFrameBytes_lt_saturatingAdd, occupancy_ownFrames, occupancy_ownBytes, occupancy_tracks,
      Bool.and_eq_false_imp, Bool.not_eq_true', and_assoc]
  simpa only [not_lt, not_le, hpending] using hfull

/-! ## Moves that add an entry -/

@[simp] theorem messages_enqueued (s : State α) (item : Queued α) (d : Display)
    (frame : VideoFrame) :
    (s.enqueued item d frame).messages = s.messages ++ [frameEntry item d frame] := rfl

@[simp] theorem bytes_enqueued (s : State α) (item : Queued α) (d : Display)
    (frame : VideoFrame) :
    (s.enqueued item d frame).bytes = s.bytes + item.message.computeSize := rfl

@[simp] theorem stream_accept (t : Track) (key : Bool) (frame : ℕ) :
    (t.accept key frame).stream = t.stream := by
  unfold Track.accept
  split <;> rfl

@[simp] theorem enabled_accept (t : Track) (key : Bool) (frame : ℕ) :
    (t.accept key frame).enabled = t.enabled := by
  unfold Track.accept
  split <;> rfl

theorem framesOf_enqueued_self (s : State α) (item : Queued α) (d : Display)
    (frame : VideoFrame) :
    (s.enqueued item d frame).framesOf d = s.framesOf d ++ [frameEntry item d frame] := by
  simp [State.framesOf, frameEntry]

theorem framesOf_enqueued_ne (s : State α) (item : Queued α) {d other : Display}
    (frame : VideoFrame) (h : other ≠ d) :
    (s.enqueued item d frame).framesOf other = s.framesOf other := by
  have hne : ¬ d = other := fun heq => h heq.symm
  simp [State.framesOf, frameEntry, hne]

theorem streamAndEnabled_enqueued (s : State α) (item : Queued α) (d other : Display)
    (frame : VideoFrame) :
    ((s.enqueued item d frame).tracks other).stream = (s.tracks other).stream ∧
      ((s.enqueued item d frame).tracks other).enabled = (s.tracks other).enabled := by
  unfold State.enqueued
  by_cases h : other = d
  · subst h
    simp
  · simp [tracks_setTrack_ne _ _ h]

/-- The display of the new frame is the only one that can join the displays
with queued frames. -/
theorem framed_enqueued_subset (s : State α) (item : Queued α) (display : Display)
    (frame : VideoFrame) :
    (Finset.univ.filter fun d => (s.enqueued item display frame).framesOf d ≠ []) ⊆
      insert display (Finset.univ.filter fun d => s.framesOf d ≠ []) := by
  intro other hother
  rw [Finset.mem_insert]
  by_cases heq : other = display
  · exact .inl heq
  · rw [Finset.mem_filter, framesOf_enqueued_ne _ _ _ heq] at hother
    exact .inr (Finset.mem_filter.mpr hother)

/-- A display joins only where there was room for one more. -/
theorem framed_enqueued_le {s : State α} {item : Queued α} {display : Display}
    {frame : VideoFrame}
    (hle : (Finset.univ.filter fun d => s.framesOf d ≠ []).card ≤ maxTracks)
    (hroom : s.framesOf display = [] →
      (Finset.univ.filter fun d => s.framesOf d ≠ []).card < maxTracks) :
    (Finset.univ.filter fun d =>
      (s.enqueued item display frame).framesOf d ≠ []).card ≤ maxTracks := by
  have hcard := Finset.card_le_card (framed_enqueued_subset s item display frame)
  by_cases hempty : s.framesOf display = []
  · calc _ ≤ (insert display (Finset.univ.filter fun d => s.framesOf d ≠ [])).card := hcard
      _ ≤ (Finset.univ.filter fun d => s.framesOf d ≠ []).card + 1 :=
          Finset.card_insert_le _ _
      _ ≤ maxTracks := hroom hempty
  · -- the display has queued frames already, so the insertion changes nothing
    rw [Finset.insert_eq_of_mem
      (Finset.mem_filter.mpr ⟨Finset.mem_univ display, hempty⟩)] at hcard
    exact hcard.trans hle

/-- The queue after a frame that passed the limits of `push` is within them. -/
theorem enqueued_withinLimits {s : State α} {item : Queued α} {display : Display}
    {frame : VideoFrame} (hs : s.WithinLimits) (hframe : item.frame? = some frame)
    (hdisplay : frame.display? = some display)
    (henabled : (s.tracks display).enabled = true)
    (hstream : (s.tracks display).stream = some frame.streamId)
    (hfull : s.full display item.message.computeSize = false) :
    (s.enqueued item display frame).WithinLimits := by
  obtain ⟨-, hbytes, hlength, hownBytes, hownFrames, htracks⟩ := full_eq_false.mp hfull
  have hmem : ∀ e ∈ (s.enqueued item display frame).messages,
      e ∈ s.messages ∨ e = frameEntry item display frame := by
    intro e he
    simpa using he
  refine ⟨?_, ?_, hbytes, fun other => ?_, fun other => ?_,
    framed_enqueued_le hs.tracks_le htracks, ?_, ?_, ?_⟩
  · have hsum : s.bytes = byteSum s.messages := hs.byteExact
    simp [State.ByteExact, hsum, frameEntry]
  · have hcapacity : capacity - controlReserve ≤ capacity := Nat.sub_le _ _
    rw [messages_enqueued, List.length_append, List.length_singleton]
    omega
  · by_cases hother : other = display
    · subst hother
      rw [framesOf_enqueued_self, List.length_append, List.length_singleton]
      exact hownFrames
    · rw [framesOf_enqueued_ne _ _ _ hother]
      exact hs.track_length_le other
  · by_cases hother : other = display
    · subst hother
      rw [framesOf_enqueued_self, byteSum_append]
      simpa [frameEntry] using hownBytes
    · rw [framesOf_enqueued_ne _ _ _ hother]
      exact hs.track_bytes_le other
  · intro e he
    rcases hmem e he with he | rfl
    · exact hs.genuine e he
    · exact .inr ⟨frame, display, hframe, hdisplay, rfl⟩
  · intro e he other hother
    rw [(streamAndEnabled_enqueued s item display other frame).2]
    rcases hmem e he with he | rfl
    · exact hs.subscribed e he other hother
    · obtain rfl : display = other := Option.some.inj hother
      exact henabled
  · intro e he other hother
    rw [(streamAndEnabled_enqueued s item display other frame).1]
    rcases hmem e he with he | rfl
    · exact hs.current e he other hother
    · obtain rfl : display = other := Option.some.inj hother
      exact ⟨frame, hframe, hstream⟩

theorem enqueuedControl_withinLimits {s : State α} {item : Queued α} (hs : s.WithinLimits)
    (hframe : item.frame? = none) (hlength : s.messages.length ≠ capacity)
    (hbytes : s.bytes + item.message.computeSize ≤ maxBytes) :
    (s.enqueuedControl item).WithinLimits := by
  have hframes : ∀ display, (s.enqueuedControl item).framesOf display = s.framesOf display := by
    intro display
    simp [State.framesOf, State.enqueuedControl, controlEntry]
  have hmem : ∀ e ∈ (s.enqueuedControl item).messages, e ∈ s.messages ∨ e = controlEntry item := by
    intro e he
    simpa [State.enqueuedControl] using he
  refine ⟨?_, ?_, hbytes, fun other => ?_, fun other => ?_, ?_, ?_, ?_, ?_⟩
  · have hsum : s.bytes = byteSum s.messages := hs.byteExact
    simp [State.ByteExact, State.enqueuedControl, hsum, controlEntry]
  · have hle := hs.length_le
    simp only [State.enqueuedControl, List.length_append, List.length_singleton]
    omega
  · exact hframes other ▸ hs.track_length_le other
  · exact hframes other ▸ hs.track_bytes_le other
  · simpa only [hframes] using hs.tracks_le
  · intro e he
    rcases hmem e he with he | rfl
    · exact hs.genuine e he
    · exact .inl ⟨hframe, rfl⟩
  · intro e he other hother
    rcases hmem e he with he | rfl
    · exact hs.subscribed e he other hother
    · simp [controlEntry] at hother
  · intro e he other hother
    rcases hmem e he with he | rfl
    · exact hs.current e he other hother
    · simp [controlEntry] at hother

/-- The track of a frame that is not refused, once its stream is entered. -/
theorem tracks_entered {s : State α} {display : Display} {frame : VideoFrame}
    (hrefuses : (s.tracks display).refuses frame = false) (key : Bool) :
    ((s.entered display frame.streamId key).tracks display).enabled = true ∧
      ((s.entered display frame.streamId key).tracks display).stream = some frame.streamId := by
  unfold State.entered
  split
  · simp
  · next hstream =>
      have henabled : (s.tracks display).enabled = true := by
        simp only [Track.refuses, Bool.or_eq_false_iff, Bool.not_eq_false'] at hrefuses
        exact hrefuses.1
      exact ⟨henabled, not_not.mp hstream⟩

theorem tracks_prepared_eq (s : State α) (display : Display) (frame : VideoFrame) :
    (s.prepared display frame).tracks =
      (s.entered display frame.streamId (leadingKeyframe frame)).tracks := by
  unfold State.prepared
  split <;> rfl

theorem tracks_prepared {s : State α} {display : Display} {frame : VideoFrame}
    (hrefuses : (s.tracks display).refuses frame = false) :
    ((s.prepared display frame).tracks display).enabled = true ∧
      ((s.prepared display frame).tracks display).stream = some frame.streamId := by
  rw [tracks_prepared_eq]
  exact tracks_entered hrefuses _

/-! A call for one display leaves the tracks of the others. -/

theorem tracks_prepared_ne (s : State α) {display other : Display} (frame : VideoFrame)
    (hother : other ≠ display) : (s.prepared display frame).tracks other = s.tracks other := by
  rw [tracks_prepared_eq]
  unfold State.entered
  split
  · rw [tracks_setTrack_ne _ _ hother, tracks_purged]
  · rfl

theorem tracks_lost_ne (s : State α) {display other : Display} (frame : ℕ)
    (hother : other ≠ display) : (s.lost display frame).tracks other = s.tracks other := by
  rw [tracks_lost, Function.update_of_ne hother]

theorem tracks_enqueued_ne (s : State α) (item : Queued α) {display other : Display}
    (frame : VideoFrame) (hother : other ≠ display) :
    (s.enqueued item display frame).tracks other = s.tracks other := by
  unfold State.enqueued
  exact tracks_setTrack_ne _ _ hother

theorem pushed_withinLimits {s s' : State α} {item : Queued α} (hs : s.WithinLimits)
    (hpushed : Pushed s item s') : s'.WithinLimits := by
  cases hpushed with
  | unknown => exact hs
  | refused => exact hs
  | lost => exact lost_withinLimits (prepared_withinLimits hs _ _) _ _
  | enqueued hframe hdisplay hrefuses hfull =>
      obtain ⟨henabled, hstream⟩ := tracks_prepared hrefuses
      exact enqueued_withinLimits (prepared_withinLimits hs _ _) hframe hdisplay henabled hstream
        hfull
  | overflow =>
      exact ⟨hs.byteExact, hs.length_le, hs.bytes_le, hs.track_length_le, hs.track_bytes_le,
        hs.tracks_le, hs.genuine, hs.subscribed, hs.current⟩
  | control hframe hlength _ hbytes => exact enqueuedControl_withinLimits hs hframe hlength hbytes

theorem losing_withinLimits {s s' : State α} {item : Queued α} (hs : s.WithinLimits)
    (hlosing : Losing s item s') : s'.WithinLimits := by
  cases hlosing with
  | other => exact hs
  | lost => exact lost_withinLimits hs _ _

theorem resubscribed_withinLimits {s : State α} (hs : s.WithinLimits) (subscribed : List ℕ) :
    (s.resubscribed subscribed).WithinLimits :=
  resubscribed_invariant subscribed (fun _ _ _ h => switched_withinLimits h _ _) hs

/-! ## Every sequence of calls -/

/-- A call on the queue, with its argument. -/
inductive Call (α : Type)
  | push (item : Queued α)
  | pop
  | lose (item : Queued α)
  | setDisplays (subscribed : List ℕ)
  | recoveryDue (now : Instant)

/-- The state after a call; `none` where a subtraction goes below zero. -/
def State.call (s : State α) : Call α → Option (State α)
  | .push item => (s.push item).map Prod.fst
  | .pop => s.pop.map Prod.snd
  | .lose item => (s.lose item).map Prod.fst
  | .setDisplays subscribed => (s.setDisplays subscribed).map Prod.fst
  | .recoveryDue now => some (s.recoveryDue now).2

/-- The track that `recovery_due` leaves has the stream, the subscription and
the recovery it had. -/
theorem fields_recoveryDue (t : Track) (now : Instant) :
    (t.recoveryDue now).2.stream = t.stream ∧ (t.recoveryDue now).2.enabled = t.enabled ∧
      (t.recoveryDue now).2.recovering = t.recovering := by
  unfold Track.recoveryDue
  split <;> exact ⟨rfl, rfl, rfl⟩

theorem recoveryDue_withinLimits {s : State α} (hs : s.WithinLimits) (now : Instant) :
    (s.recoveryDue now).2.WithinLimits where
  byteExact := hs.byteExact
  length_le := hs.length_le
  bytes_le := hs.bytes_le
  track_length_le := hs.track_length_le
  track_bytes_le := hs.track_bytes_le
  tracks_le := hs.tracks_le
  genuine := hs.genuine
  subscribed := fun e he display hdisplay =>
    (fields_recoveryDue (s.tracks display) now).2.1.trans (hs.subscribed e he display hdisplay)
  current := fun e he display hdisplay => by
    obtain ⟨frame, hframe, hstream⟩ := hs.current e he display hdisplay
    exact ⟨frame, hframe, (fields_recoveryDue (s.tracks display) now).1.trans hstream⟩

/-- Within the limits every call returns, and stays within the limits. -/
theorem call_withinLimits {s : State α} (hs : s.WithinLimits) (call : Call α) :
    ∃ s', s.call call = some s' ∧ s'.WithinLimits := by
  cases call with
  | push item =>
      obtain ⟨s', ⟨drops, hreturns⟩, hpushed⟩ := push_returns hs.byteExact item
      exact ⟨s', by simp [State.call, hreturns], pushed_withinLimits hs hpushed⟩
  | pop =>
      obtain ⟨item, s', hreturns, hpopped⟩ := pop_returns hs.byteExact
      exact ⟨s', by simp [State.call, hreturns], popped_withinLimits hs hpopped⟩
  | lose item =>
      obtain ⟨s', ⟨drops, hreturns⟩, hlosing⟩ := lose_returns hs.byteExact item
      exact ⟨s', by simp [State.call, hreturns], losing_withinLimits hs hlosing⟩
  | setDisplays subscribed =>
      obtain ⟨drops, hreturns⟩ := setDisplays_eq hs.byteExact subscribed
      exact ⟨_, by simp [State.call, hreturns], resubscribed_withinLimits hs subscribed⟩
  | recoveryDue now => exact ⟨_, rfl, recoveryDue_withinLimits hs now⟩

/-- **Resource invariant.**  Every sequence of calls returns, so no subtraction
of the byte counter goes below zero, and ends within the limits. -/
theorem calls_withinLimits (calls : List (Call α)) :
    ∃ s : State α, calls.foldlM State.call State.new = some s ∧ s.WithinLimits :=
  exists_foldlM State.WithinLimits (fun _ call hs => call_withinLimits hs call) calls
    initial_withinLimits

end RustAdmin.VideoQueue
