import RustAdmin.Support.Linked
import RustAdmin.VideoQueue.Ordering

/-!
# Reference safety of the video queue

A delta can be decoded if the frame pushed right before it for the same display
and stream was delivered and not lost.  For each display the frames that came
out, followed by the queued ones, are linked in this sense (`Connected.linked`).
A track that is subscribed and not recovering is ready for the next delta: its
flow ends with the newest pushed frame of its stream (`Connected.ready`).
-/

namespace RustAdmin.VideoQueue

open RustAdmin.Support

variable {α : Type}

/-! ## References between frames -/

/-- The display and the stream of a message's frame. -/
def Queued.source? (item : Item α) : Option (Display × ℕ) :=
  item.frame?.bind fun frame => frame.display?.map fun display => (display, frame.streamId)

def Queued.isKey (item : Item α) : Bool := item.frame?.any leadingKeyframe

/-- The frames pushed for a display and a stream. -/
def ofSource (pushed : List (Item α)) (source : Display × ℕ) : List (Item α) :=
  pushed.filter fun x => x.source? == some source

/-- `next` was pushed right after `item` for the same display and stream. -/
def Follows (pushed : List (Item α)) (item next : Item α) : Prop :=
  ∃ source before after, ofSource pushed source = before ++ item :: next :: after

/-- What delivering `next` after `previous` needs: a keyframe, or the frame
right before it, not reported as lost. -/
def Link (pushed lost : List (Item α)) (previous : Option (Item α)) (next : Item α) : Prop :=
  next.isKey = true ∨ ∃ x, previous = some x ∧ Follows pushed x next ∧ x ∉ lost

theorem Follows.source_eq {pushed : List (Item α)} {item next : Item α}
    (h : Follows pushed item next) : ∃ source, item.source? = some source ∧
      next.source? = some source := by
  obtain ⟨source, before, after, hsplit⟩ := h
  have hall : ∀ x ∈ before ++ item :: next :: after, x.source? = some source := by
    intro x hx
    rw [← hsplit, ofSource, List.mem_filter] at hx
    exact beq_iff_eq.mp hx.2
  exact ⟨source, hall item (by simp), hall next (by simp)⟩

theorem Follows.append {pushed : List (Item α)} {item next : Item α}
    (h : Follows pushed item next) (more : List (Item α)) : Follows (pushed ++ more) item next := by
  obtain ⟨source, before, after, hsplit⟩ := h
  refine ⟨source, before, after ++ ofSource more source, ?_⟩
  unfold ofSource at hsplit ⊢
  rw [List.filter_append, hsplit]
  simp

theorem Link.append {pushed lost : List (Item α)} {previous : Option (Item α)} {next : Item α}
    (h : Link pushed lost previous next) (more : List (Item α)) :
    Link (pushed ++ more) lost previous next := by
  rcases h with hkey | ⟨x, hx, hfollows, hlost⟩
  · exact .inl hkey
  · exact .inr ⟨x, hx, hfollows.append more, hlost⟩

theorem source_of_display {item : Item α} {frame : VideoFrame} {display : Display}
    (hframe : item.frame? = some frame) (hdisplay : frame.display? = some display) :
    item.source? = some (display, frame.streamId) := by
  simp [Queued.source?, hframe, hdisplay]

theorem display_of_frame {item : Item α} {frame : VideoFrame} (hframe : item.frame? = some frame) :
    item.display? = frame.display? := by
  simp [Queued.display?, hframe]

/-- A push for another source does not show. -/
theorem ofSource_push_ne {pushed : List (Item α)} {item : Item α} {source : Display × ℕ}
    (h : item.source? ≠ some source) :
    ofSource (pushed ++ [item]) source = ofSource pushed source := by
  simp [ofSource, List.filter_append, h]

theorem ofSource_push_self {pushed : List (Item α)} {item : Item α} {source : Display × ℕ}
    (h : item.source? = some source) :
    ofSource (pushed ++ [item]) source = ofSource pushed source ++ [item] := by
  simp [ofSource, List.filter_append, h]

/-! ## One display -/

/-- The flow of one display, seen with its track. -/
structure Connected (display : Display) (pushed lost : List (Item α)) (track : Track)
    (frames : List (Item α)) : Prop where
  linked : Linked (Link pushed lost) frames
  ready : ∀ stream, track.enabled = true → track.recovering = false →
    track.stream = some stream → ∃ last, frames.getLast? = some last ∧
      (ofSource pushed (display, stream)).getLast? = some last ∧ last ∉ lost

namespace Connected

variable {display : Display} {pushed lost frames kept : List (Item α)} {track track' : Track}
  {item : Item α}

/-- The track may change in what `ready` does not look at, or stop being ready. -/
theorem setTrack (h : Connected display pushed lost track frames)
    (htrack : track'.enabled = true → track'.recovering = false → track.enabled = true ∧
      track.recovering = false ∧ track'.stream = track.stream) :
    Connected display pushed lost track' frames where
  linked := h.linked
  ready := by
    intro stream henabled hrecovering hstream
    obtain ⟨henabled', hrecovering', hsame⟩ := htrack henabled hrecovering
    exact h.ready stream henabled' hrecovering' (hsame ▸ hstream)

/-- A frame that the display's track is not waiting for. -/
theorem skip (h : Connected display pushed lost track frames)
    (hsource : track.enabled = true → ∀ stream, track.stream = some stream →
      item.source? ≠ some (display, stream)) :
    Connected display (pushed ++ [item]) lost track frames where
  linked := h.linked.mono fun _ _ hlink => hlink.append [item]
  ready := by
    intro stream henabled hrecovering hstream
    rw [ofSource_push_ne (hsource henabled stream hstream)]
    exact h.ready stream henabled hrecovering hstream

/-- A frame of another display. -/
theorem skip_ne {other : Display} {stream : ℕ} (h : Connected display pushed lost track frames)
    (hsource : item.source? = some (other, stream)) (hother : display ≠ other) :
    Connected display (pushed ++ [item]) lost track frames := by
  refine h.skip fun _ stream' _ => ?_
  rw [hsource]
  simp [Ne.symm hother]

/-- Nothing but keyframes behind what came out, and a track that is not ready. -/
theorem of_keys {delivered : List (Item α)} (hdelivered : Linked (Link pushed lost) delivered)
    (hkept : ∀ x ∈ kept, x.isKey = true)
    (htrack : track'.enabled = true → track'.recovering = true) :
    Connected display pushed lost track' (delivered ++ kept) where
  linked := hdelivered.append_of_forall fun x hx _ => .inl (hkept x hx)
  ready := by
    intro stream henabled hrecovering
    rw [htrack henabled] at hrecovering
    simp at hrecovering

/-- A keyframe starts over. -/
theorem pushKey {delivered queued : List (Item α)} {stream : ℕ}
    (h : Connected display pushed lost track (delivered ++ queued))
    (hsource : item.source? = some (display, stream)) (hkey : item.isKey = true)
    (hlost : item ∉ lost) (hstream : track'.stream = some stream) :
    Connected display (pushed ++ [item]) lost track' (delivered ++ [item]) where
  linked := by
    refine linked_concat.mpr ⟨?_, .inl hkey⟩
    exact h.linked.of_append.mono fun _ _ hlink => hlink.append [item]
  ready := by
    intro stream' _ _ hstream'
    obtain rfl : stream = stream' := Option.some.inj (hstream.symm.trans hstream')
    exact ⟨item, by simp, by simp [ofSource_push_self hsource], hlost⟩

/-- A ready track takes the next delta of its stream. -/
theorem pushDelta {stream : ℕ} (h : Connected display pushed lost track frames)
    (hsource : item.source? = some (display, stream)) (hlost : item ∉ lost)
    (henabled : track.enabled = true) (hrecovering : track.recovering = false)
    (hstream : track.stream = some stream) (hstream' : track'.stream = some stream) :
    Connected display (pushed ++ [item]) lost track' (frames ++ [item]) where
  linked := by
    -- the flow of a ready track ends with the frame that the delta refers to
    obtain ⟨last, hlast, hnewest, hkept⟩ := h.ready stream henabled hrecovering hstream
    refine linked_concat.mpr ⟨h.linked.mono fun _ _ hlink => hlink.append [item], .inr ?_⟩
    obtain ⟨earlier, hearlier⟩ := List.getLast?_eq_some_iff.mp hnewest
    refine ⟨last, hlast, ⟨(display, stream), earlier, [], ?_⟩, hkept⟩
    rw [ofSource_push_self hsource, hearlier]
    simp
  ready := by
    intro other _ _ hother
    obtain rfl : stream = other := Option.some.inj (hstream'.symm.trans hother)
    exact ⟨item, by simp, by simp [ofSource_push_self hsource], hlost⟩

/-- The loss of a frame of which this display has none. -/
theorem lose_ne (h : Connected display pushed lost track frames) (hitem : item ∉ frames) :
    Connected display pushed (lost ++ [item]) track frames where
  linked := by
    intro before y after heq
    rcases h.linked before y after heq with hkey | ⟨x, hx, hfollows, hkept⟩
    · exact .inl hkey
    · have hmem : x ∈ frames := by
        rw [heq]
        exact List.mem_append_left _ (List.mem_of_getLast? hx)
      have hne : x ≠ item := fun hxitem => hitem (hxitem ▸ hmem)
      exact .inr ⟨x, hx, hfollows, by simp [hkept, hne]⟩
  ready := by
    intro stream henabled hrecovering hstream
    obtain ⟨last, hlast, hnewest, hkept⟩ := h.ready stream henabled hrecovering hstream
    have hne : last ≠ item := fun heq => hitem (heq ▸ List.mem_of_getLast? hlast)
    exact ⟨last, hlast, hnewest, by simp [hkept, hne]⟩

end Connected

/-- The loss of the frame that came out last breaks no link, if no delta that
refers to it is queued. -/
theorem linked_lose {pushed lost delivered queued : List (Item α)} {item : Item α}
    (hlinked : Linked (Link pushed lost) (delivered ++ queued))
    (hnodup : (delivered ++ queued).Nodup) (hlast : delivered.getLast? = some item)
    (hqueued : ∀ y ∈ queued, y.isKey = true ∨ ¬ Follows pushed item y) :
    Linked (Link pushed (lost ++ [item])) (delivered ++ queued) := by
  intro before y after heq
  rcases hlinked before y after heq with hkey | ⟨x, hx, hfollows, hkept⟩
  · exact .inl hkey
  by_cases hxitem : x = item
  · subst hxitem
    have hy : y ∈ queued := by
      rcases List.append_eq_append_iff.mp heq with ⟨passed, -, hrest⟩ | ⟨passed, hdelivered, hrest⟩
      · rw [hrest]
        simp
      · cases passed with
        | nil =>
            rw [List.nil_append] at hrest
            rw [← hrest]
            exact List.mem_cons_self
        | cons first passed =>
            -- `x` would come out twice, before `y` and last
            rw [hdelivered, List.getLast?_append_cons] at hlast
            have hagain : x ∈ first :: passed := List.mem_of_getLast? hlast
            rw [hdelivered, List.append_assoc] at hnodup
            have hdisjoint := List.disjoint_of_nodup_append hnodup
            exact absurd (List.mem_append_left queued hagain)
              (hdisjoint (List.mem_of_getLast? hx))
    rcases hqueued y hy with hkey | hnot
    · exact .inl hkey
    · exact absurd hfollows hnot
  · exact .inr ⟨x, hx, hfollows, by simp [hkept, hxitem]⟩

/-! ## The frames of a display in the flow -/

/-- The part of the flow that belongs to a display. -/
def trackFlow (display : Display) (delivered : List (Item α)) (queue : State (ℕ × α)) :
    List (Item α) :=
  (flow delivered queue).filter fun x => x.display? == some display

/-- The frames of a display that came out. -/
def deliveredTo (display : Display) (delivered : List (Item α)) : List (Item α) :=
  delivered.filter fun x => x.display? == some display

section Flow

variable {delivered : List (Item α)} {queue queue' : State (ℕ × α)} {display other : Display}

theorem trackFlow_eq (hqueue : queue.WithinLimits) (display : Display)
    (delivered : List (Item α)) : trackFlow display delivered queue =
      deliveredTo display delivered ++ (queue.framesOf display).map Entry.item := by
  unfold trackFlow flow deliveredTo State.framesOf
  rw [List.filter_append, List.filter_map]
  congr 2
  refine List.filter_congr fun e he => ?_
  rw [Function.comp_apply, (hqueue.genuine e he).display_eq]

theorem Entry.Genuine.key_eq {e : Entry (ℕ × α)} (h : e.Genuine) : e.key = e.item.isKey := by
  unfold Queued.isKey
  rcases h with ⟨hframe, he⟩ | ⟨frame, display, hframe, hdisplay, he⟩
  · rw [hframe, he]
    rfl
  · rw [hframe, he]
    rfl

theorem framesOf_trimmedAt_ne (htrimmed : State.TrimmedAt display queue queue')
    (hother : other ≠ display) : queue'.framesOf other = queue.framesOf other := by
  refine htrimmed.filter_eq fun e he => ?_
  rw [beq_iff_eq.mp he]
  simpa using hother

theorem framesOf_purged (queue : State (ℕ × α)) (display : Display) :
    (queue.purged display false).framesOf display = [] := by
  unfold State.framesOf
  rw [List.filter_eq_nil_iff]
  intro e he
  simpa using display_ne_of_mem_purged he

/-- Only keyframes of the display are queued after a loss. -/
theorem key_of_mem_framesOf_lost {frame : ℕ} {e : Entry (ℕ × α)}
    (he : e ∈ (queue.lost display frame).framesOf display) : e.key = true := by
  obtain ⟨hmem, hdisplay⟩ := mem_framesOf.mp he
  rw [messages_lost, List.mem_filter] at hmem
  simpa [Entry.purged, hdisplay] using hmem.2

/-- Before its limits are applied, a push purges the display or changes nothing;
where a delta purges, it starts a recovery. -/
theorem prepared_cases (queue : State (ℕ × α)) (display : Display) (frame : VideoFrame) :
    (queue.prepared display frame).framesOf display = [] ∧
        (leadingKeyframe frame = true ∨
          ((queue.prepared display frame).tracks display).recovering = true) ∨
      leadingKeyframe frame = false ∧ queue.prepared display frame = queue := by
  unfold State.prepared
  cases hkey : leadingKeyframe frame with
  | true => exact .inl ⟨framesOf_purged _ _, .inl rfl⟩
  | false =>
      simp only [Bool.false_eq_true, if_false]
      unfold State.entered
      split
      · exact .inl ⟨framesOf_purged _ _, .inr (by simp)⟩
      · exact .inr ⟨trivial, rfl⟩

theorem recovering_lost (queue : State (ℕ × α)) (display : Display) (frame : ℕ) :
    ((queue.lost display frame).tracks display).recovering = true := by
  rw [tracks_lost, Function.update_self, recovering_lose]

end Flow

/-! ## One step -/

/-- Every display's flow is connected. -/
def Referenced (pushed delivered lost : List (Item α)) (queue : State (ℕ × α)) : Prop :=
  ∀ display, Connected display pushed lost (queue.tracks display)
    (trackFlow display delivered queue)

theorem initial_referenced : Referenced [] [] [] (State.new : State (ℕ × α)) := by
  intro display
  refine ⟨linked_nil, fun stream _ _ hstream => ?_⟩
  simp [State.new] at hstream

section Step

variable {pushed delivered lost : List (Item α)} {queue queue' : State (ℕ × α)} {item : Item α}

/-- A frame that leaves its display's queued frames and track as they are. -/
theorem referenced_skip (h : Referenced pushed delivered lost queue)
    (hsource : ∀ display, (queue.tracks display).enabled = true → ∀ stream,
      (queue.tracks display).stream = some stream → item.source? ≠ some (display, stream)) :
    Referenced (pushed ++ [item]) delivered lost queue :=
  fun display => (h display).skip (hsource display)

/-- What a change of another display does to a display: nothing. -/
theorem Connected.of_ne {display : Display}
    (h : Connected display pushed lost (queue.tracks display) (trackFlow display delivered queue))
    (hqueue : queue.WithinLimits) (hqueue' : queue'.WithinLimits)
    (htracks : queue'.tracks display = queue.tracks display)
    (hframes : queue'.framesOf display = queue.framesOf display) :
    Connected display pushed lost (queue'.tracks display)
      (trackFlow display delivered queue') := by
  rw [trackFlow_eq hqueue', htracks, hframes, ← trackFlow_eq hqueue]
  exact h

theorem isKey_of_lost {display : Display} {frame : ℕ}
    (hqueue : (queue.lost display frame).WithinLimits) {x : Item α}
    (hx : x ∈ ((queue.lost display frame).framesOf display).map Entry.item) :
    x.isKey = true := by
  obtain ⟨e, he, rfl⟩ := List.mem_map.mp hx
  rw [← (hqueue.genuine e (mem_framesOf.mp he).1).key_eq]
  exact key_of_mem_framesOf_lost he

theorem lostPush_referenced {frame : VideoFrame} {display : Display}
    (h : Referenced pushed delivered lost queue) (hqueue : queue.WithinLimits)
    (hsource : item.source? = some (display, frame.streamId))
    (hqueue' : ((queue.prepared display frame).lost display frame.frameId).WithinLimits) :
    Referenced (pushed ++ [item]) delivered lost
      ((queue.prepared display frame).lost display frame.frameId) := by
  intro other
  have hconnected := h other
  by_cases hother : other = display
  · subst hother
    have hrecovering := recovering_lost (queue.prepared other frame) other frame.frameId
    rw [trackFlow_eq hqueue']
    rw [trackFlow_eq hqueue] at hconnected
    refine .of_keys ?_ (fun x hx => isKey_of_lost hqueue' hx) fun _ => hrecovering
    exact hconnected.linked.of_append.mono fun _ _ hlink => hlink.append [item]
  · refine (hconnected.skip_ne hsource hother).of_ne hqueue hqueue' ?_ ?_
    · exact (tracks_lost_ne _ _ hother).trans (tracks_prepared_ne _ _ hother)
    · exact framesOf_trimmedAt_ne ((prepared_trimmedAt queue display frame).trans
        (lost_trimmedAt _ display frame.frameId)) hother

theorem enqueued_referenced {frame : VideoFrame} {display : Display}
    (h : Referenced pushed delivered lost queue) (hqueue : queue.WithinLimits)
    (hframe : item.frame? = some frame) (hdisplay : frame.display? = some display)
    (hitem : item ∉ lost) (hrefuses : (queue.tracks display).refuses frame = false)
    (hready : leadingKeyframe frame = false →
      ((queue.prepared display frame).tracks display).recovering = false)
    (hqueue' : ((queue.prepared display frame).enqueued item display frame).WithinLimits) :
    Referenced (pushed ++ [item]) delivered lost
      ((queue.prepared display frame).enqueued item display frame) := by
  have hsource := source_of_display hframe hdisplay
  have hprepared := tracks_prepared hrefuses
  have hkey : item.isKey = leadingKeyframe frame := by simp [Queued.isKey, hframe]
  intro other
  have hconnected := h other
  by_cases hother : other = display
  · subst hother
    have hstream : (((queue.prepared other frame).enqueued item other frame).tracks
        other).stream = some frame.streamId := by
      rw [(streamAndEnabled_enqueued _ item other other frame).1]
      exact hprepared.2
    rw [trackFlow_eq hqueue', framesOf_enqueued_self, List.map_append, List.map_singleton]
    rcases prepared_cases queue other frame with ⟨hempty, hpurged⟩ | ⟨hdelta, hsame⟩
    · -- the display was purged, by a keyframe: a delta would find it recovering
      have hkeyframe : leadingKeyframe frame = true := by
        rcases hpurged with hkeyframe | hrecovering
        · exact hkeyframe
        · by_contra hdelta
          rw [hready (by simpa using hdelta)] at hrecovering
          simp at hrecovering
      rw [hempty, List.map_nil, List.nil_append]
      rw [trackFlow_eq hqueue] at hconnected
      exact hconnected.pushKey hsource (hkey.trans hkeyframe) hitem hstream
    · rw [hsame, ← List.append_assoc, ← trackFlow_eq hqueue]
      rw [hsame] at hprepared hready hstream
      exact hconnected.pushDelta hsource hitem hprepared.1 (hready hdelta) hprepared.2 hstream
  · refine (hconnected.skip_ne hsource hother).of_ne hqueue hqueue' ?_ ?_
    · exact (tracks_enqueued_ne _ _ _ hother).trans (tracks_prepared_ne _ _ hother)
    · rw [framesOf_enqueued_ne _ _ _ hother]
      exact framesOf_trimmedAt_ne (prepared_trimmedAt queue display frame) hother

theorem pushed_referenced (h : Referenced pushed delivered lost queue)
    (hqueue : queue.WithinLimits) (hitem : item ∉ lost) (hpushed : Pushed queue item queue') :
    Referenced (pushed ++ [item]) delivered lost queue' := by
  have hqueue' := pushed_withinLimits hqueue hpushed
  cases hpushed with
  | unknown hframe hdisplay =>
      refine referenced_skip h fun display _ stream _ => ?_
      simp [Queued.source?, hframe, hdisplay]
  | refused hframe hdisplay hrefuses =>
      refine referenced_skip h fun other henabled stream hstream hsource => ?_
      rw [source_of_display hframe hdisplay, Option.some_inj, Prod.mk.injEq] at hsource
      obtain ⟨rfl, rfl⟩ := hsource
      simp [Track.refuses, henabled, hstream] at hrefuses
  | lost hframe hdisplay hrefuses =>
      exact lostPush_referenced h hqueue (source_of_display hframe hdisplay) hqueue'
  | enqueued hframe hdisplay hrefuses hfull hready =>
      exact enqueued_referenced h hqueue hframe hdisplay hitem hrefuses hready hqueue'
  | overflow hframe =>
      have hfatal : Referenced pushed delivered lost { queue with fatal := true } := h
      refine referenced_skip hfatal fun display _ stream _ => ?_
      simp [Queued.source?, hframe]
  | control hframe =>
      intro display
      have hskip : Connected display (pushed ++ [item]) lost (queue.tracks display)
          (trackFlow display delivered queue) := by
        refine (h display).skip fun _ stream _ => ?_
        simp [Queued.source?, hframe]
      refine hskip.of_ne hqueue hqueue' rfl ?_
      simp [State.framesOf, State.enqueuedControl, controlEntry]

/-- Serving an entry moves it within the flow of its display: not at all. -/
theorem trackFlow_popped {item : Option (Item α)} (hqueue : queue.WithinLimits)
    (hpopped : Popped queue item queue') (display : Display) :
    trackFlow display (delivered ++ item.toList) queue' = trackFlow display delivered queue := by
  cases hpopped with
  | idle hrotated => simp [trackFlow, flow, hrotated.messages]
  | @served before after entry rotated hsplit hbarrier hbefore hrotated =>
      have hgenuine : ∀ e ∈ before ++ entry :: after, e.Genuine := hsplit ▸ hqueue.genuine
      have hserve : ∀ p : Item α → Bool,
          (p entry.item = true → ∀ b ∈ before.map Entry.item, p b = false) →
          (delivered ++ entry.item :: (before.map Entry.item ++ after.map Entry.item)).filter p =
            (delivered ++ (before.map Entry.item ++ entry.item :: after.map Entry.item)).filter p :=
        fun p hp => filter_serve hp
      have hdisplay := hserve (fun x => x.display? == some display) ?_
      · simpa [trackFlow, flow, hsplit] using hdisplay
      · intro hentry b hb
        obtain ⟨e, he, rfl⟩ := List.mem_map.mp hb
        rw [beq_iff_eq, ← (hgenuine entry (by simp)).display_eq] at hentry
        rw [← (hgenuine e (List.mem_append_left _ he)).display_eq, ← hentry]
        simpa using (hbefore e he).2

theorem popped_referenced {item : Option (Item α)} (h : Referenced pushed delivered lost queue)
    (hqueue : queue.WithinLimits) (hpopped : Popped queue item queue') :
    Referenced pushed (delivered ++ item.toList) lost queue' := by
  intro display
  rw [trackFlow_popped hqueue hpopped]
  refine (h display).setTrack ?_
  have htracks : (queue.tracks display).SameButDeficit (queue'.tracks display) := by
    cases hpopped with
    | idle hrotated => exact hrotated.tracks display
    | served _ _ _ hrotated => exact hrotated.tracks display
  obtain ⟨hstream, henabled, hrecovering⟩ := htracks.fields
  intro henabled' hrecovering'
  exact ⟨henabled ▸ henabled', hrecovering ▸ hrecovering', hstream⟩

/-- The frame that came out last, if it is of the display, is its last one. -/
theorem deliveredTo_getLast? {display : Display} (hlast : delivered.getLast? = some item)
    (hdisplay : item.display? = some display) :
    (deliveredTo display delivered).getLast? = some item := by
  obtain ⟨earlier, rfl⟩ := List.getLast?_eq_some_iff.mp hlast
  simp [deliveredTo, List.filter_append, hdisplay]

theorem nodup_trackFlow (hordered : Ordered pushed delivered queue) (display : Display) :
    (trackFlow display delivered queue).Nodup :=
  (hordered.admissible.nodup.of_map _).filter _

/-- A queued frame is of the current stream of its display. -/
theorem source_of_queued (hqueue : queue.WithinLimits) {display : Display} {x : Item α}
    (hx : x ∈ (queue.framesOf display).map Entry.item) :
    ∃ stream, (queue.tracks display).stream = some stream ∧
      x.source? = some (display, stream) := by
  obtain ⟨e, he, rfl⟩ := List.mem_map.mp hx
  obtain ⟨hmem, hdisplay⟩ := mem_framesOf.mp he
  obtain ⟨frame, hframe, hstream⟩ := hqueue.current e hmem display hdisplay
  refine ⟨frame.streamId, hstream, source_of_display hframe ?_⟩
  rw [← display_of_frame hframe, ← (hqueue.genuine e hmem).display_eq, hdisplay]

/-- A loss reported for the frame that came out last, of the display's current
stream: the deltas that could refer to it are gone. -/
theorem lost_referenced_self {display : Display} {frame : ℕ}
    (h : Connected display pushed lost (queue.tracks display) (trackFlow display delivered queue))
    (hqueue : queue.WithinLimits) (hnodup : (trackFlow display delivered queue).Nodup)
    (hlast : (deliveredTo display delivered).getLast? = some item) :
    Connected display pushed (lost ++ [item]) ((queue.lost display frame).tracks display)
      (trackFlow display delivered (queue.lost display frame)) := by
  have hqueue' := lost_withinLimits hqueue display frame
  rw [trackFlow_eq hqueue] at h hnodup
  rw [trackFlow_eq hqueue']
  refine .of_keys ?_ (fun x hx => isKey_of_lost hqueue' hx) fun _ => recovering_lost _ _ _
  have hdelivered : Linked (Link pushed lost) (deliveredTo display delivered ++ []) := by
    simpa using h.linked.of_append
  simpa using linked_lose hdelivered (by simpa using hnodup.of_append_left) hlast (by simp)

/-- A loss reported for a frame of another stream than the display's current one. -/
theorem otherStream_referenced {display : Display} {stream : ℕ}
    (h : Connected display pushed lost (queue.tracks display) (trackFlow display delivered queue))
    (hqueue : queue.WithinLimits) (hnodup : (trackFlow display delivered queue).Nodup)
    (hlast : (deliveredTo display delivered).getLast? = some item)
    (hsource : item.source? = some (display, stream))
    (hstream : (queue.tracks display).stream ≠ some stream) :
    Connected display pushed (lost ++ [item]) (queue.tracks display)
      (trackFlow display delivered queue) where
  linked := by
    have hlinked := h.linked
    rw [trackFlow_eq hqueue] at hlinked hnodup ⊢
    -- queued deltas are of the current stream, and refer to frames of it
    refine linked_lose hlinked hnodup hlast fun y hy => .inr fun hfollows => ?_
    obtain ⟨source, hitem, hy'⟩ := hfollows.source_eq
    obtain ⟨current, hcurrent, hysource⟩ := source_of_queued hqueue hy
    rw [hy', ← hitem, hsource, Option.some_inj, Prod.mk.injEq] at hysource
    rw [hcurrent, hysource.2] at hstream
    exact hstream rfl
  ready := by
    intro current henabled hrecovering hcurrent
    obtain ⟨last, hlast', hnewest, hkept⟩ := h.ready current henabled hrecovering hcurrent
    refine ⟨last, hlast', hnewest, ?_⟩
    have hlastSource : last.source? = some (display, current) :=
      beq_iff_eq.mp (List.mem_filter.mp (List.mem_of_getLast? hnewest)).2
    have hne : last ≠ item := by
      rintro rfl
      rw [hlastSource, Option.some_inj, Prod.mk.injEq] at hsource
      rw [hcurrent, hsource.2] at hstream
      exact hstream rfl
    simp [hkept, hne]

theorem losing_referenced (h : Referenced pushed delivered lost queue)
    (hqueue : queue.WithinLimits) (hordered : Ordered pushed delivered queue)
    (hlast : delivered.getLast? = some item) (hlosing : Losing queue item queue') :
    Referenced pushed delivered (lost ++ [item]) queue' := by
  have hqueue' := losing_withinLimits hqueue hlosing
  intro display
  have hnodup := nodup_trackFlow hordered display
  by_cases hdisplay : item.display? = some display
  · have hlast' := deliveredTo_getLast? hlast hdisplay
    cases hlosing with
    | @lost frame other hframe hother hstream =>
        obtain rfl : other = display := by
          rw [display_of_frame hframe, hother] at hdisplay
          exact Option.some.inj hdisplay
        exact lost_referenced_self (h other) hqueue hnodup hlast'
    | other hcurrent =>
        obtain ⟨frame, hframe, hframeDisplay⟩ := Option.bind_eq_some_iff.mp hdisplay
        exact otherStream_referenced (h display) hqueue hnodup hlast'
          (source_of_display hframe hframeDisplay) (hcurrent frame display hframe hframeDisplay)
  · have hitem : item ∉ trackFlow display delivered queue := by
      intro hmem
      exact hdisplay (beq_iff_eq.mp (List.mem_filter.mp hmem).2)
    have hconnected := (h display).lose_ne hitem
    cases hlosing with
    | other => exact hconnected
    | @lost frame other hframe hother hstream =>
        have hne : display ≠ other := by
          rintro rfl
          rw [display_of_frame hframe] at hdisplay
          exact hdisplay hother
        exact hconnected.of_ne hqueue hqueue' (tracks_lost_ne _ _ hne)
          (framesOf_trimmedAt_ne (lost_trimmedAt _ _ _) hne)

theorem switched_referenced (h : Referenced pushed delivered lost queue)
    (hqueue : queue.WithinLimits) (display : Display) (enabled : Bool) :
    Referenced pushed delivered lost (queue.switched display enabled) := by
  have hqueue' := switched_withinLimits hqueue display enabled
  intro other
  by_cases hother : other = display
  · subst hother
    have hconnected := h other
    have hdelivered := trackFlow_eq hqueue other delivered ▸ hconnected.linked
    unfold State.switched at hqueue' ⊢
    split <;> split
    · exact hconnected
    · next henabled hdisabled =>
        rw [if_pos henabled, if_neg hdisabled] at hqueue'
        rw [trackFlow_eq hqueue']
        have hempty : ((queue.purged other false).setTrack other
            { queue.tracks other with recovering := false, enabled := false }).framesOf other =
            [] := framesOf_purged queue other
        rw [hempty]
        exact .of_keys hdelivered.of_append (by simp) (by simp)
    · next hdisabled henabled => exact hconnected.setTrack (by simp)
    · exact hconnected
  · refine (h other).of_ne hqueue hqueue' ?_
      (framesOf_trimmedAt_ne (switched_trimmedAt queue display enabled) hother)
    unfold State.switched
    split <;> split <;> simp [tracks_setTrack_ne _ _ hother]

theorem resubscribed_referenced (h : Referenced pushed delivered lost queue)
    (hqueue : queue.WithinLimits) (subscribed : List ℕ) :
    Referenced pushed delivered lost (queue.resubscribed subscribed) := by
  have hswitch : ∀ (q : State (ℕ × α)) display enabled,
      q.WithinLimits ∧ Referenced pushed delivered lost q →
        (q.switched display enabled).WithinLimits ∧
          Referenced pushed delivered lost (q.switched display enabled) := by
    rintro q display enabled ⟨hq, href⟩
    exact ⟨switched_withinLimits hq display enabled, switched_referenced href hq display enabled⟩
  exact (resubscribed_invariant subscribed hswitch ⟨hqueue, h⟩).2

end Step

/-! ## Every run -/

/-- `lose` is called on the item most recently popped, before the next `pop`. -/
def LosesLastPopped (events : List (Event α)) : Prop :=
  ∀ before item after, events = before ++ .lose item :: after → (pops before).getLast? = some item

theorem LosesLastPopped.of_append {events more : List (Event α)}
    (h : LosesLastPopped (events ++ more)) : LosesLastPopped events := by
  intro before item after heq
  exact h before item (after ++ more) (by simp [heq])

/-- Only what came out is reported as lost. -/
theorem LosesLastPopped.losses_subset {events : List (Event α)} (h : LosesLastPopped events) :
    ∀ x ∈ losses events, x ∈ pops events := by
  intro x hx
  obtain ⟨event, hevent, hlost⟩ := List.mem_filterMap.mp hx
  cases event with
  | lose item =>
      obtain rfl : item = x := by simpa using hlost
      obtain ⟨before, after, heq⟩ := List.append_of_mem hevent
      have hlast := h before item after heq
      rw [heq, pops_append]
      exact List.mem_append_left _ (List.mem_of_getLast? hlast)
  | _ => simp at hlost

theorem run_referenced {events : List (Event α)} {s : System α}
    (run : Run Step System.start events s) (hlose : LosesLastPopped events) :
    Referenced (pushes events) (pops events) (losses events) s.queue := by
  induction run with
  | nil => exact initial_referenced
  | @snoc events before after event run step ih =>
      have hqueue := run_withinLimits initial_withinLimits run
      obtain ⟨hsent, hordered⟩ := run_ordered run
      have href := ih hlose.of_append
      rw [pushes_append, pops_append, losses_append, pushes_single, pops_single, losses_single]
      cases step.moved hqueue with
      | @push queue item hnumber hpushed =>
          -- a lost item came out, so its number is smaller than the new one
          have hnew : item ∉ losses events := by
            intro hlost
            have hout := hlose.of_append.losses_subset item hlost
            have hlt := hordered.number_lt (hordered.admissible.mem_pushed item
              (List.mem_append_left _ hout))
            omega
          simpa using pushed_referenced href hqueue hnew hpushed
      | pop hpopped => simpa using popped_referenced href hqueue hpopped
      | @lose queue item hlosing =>
          have hlast := hlose events item [] rfl
          simpa using losing_referenced href hqueue hordered hlast hlosing
      | @setDisplays subscribed =>
          simpa using resubscribed_referenced href hqueue subscribed
      | @recoveryDue now =>
          have hnext : Referenced (pushes events) (pops events) (losses events)
              (before.queue.recoveryDue now).2 := by
            intro display
            obtain ⟨hstream, henabled, hrecovering⟩ :=
              fields_recoveryDue (before.queue.tracks display) now
            refine (href display).setTrack fun henabled' hrecovering' => ?_
            exact ⟨henabled ▸ henabled', hrecovering ▸ hrecovering', hstream⟩
          simpa using hnext

theorem isChain_source {pushed lost : List (Item α)} {base : Item α} {chain : List (Item α)}
    (h : (base :: chain).IsChain fun x y => Follows pushed x y ∧ x ∉ lost) :
    ∀ x ∈ chain, x.source? = base.source? := by
  induction chain generalizing base with
  | nil => simp
  | cons next chain ih =>
      obtain ⟨⟨hfollows, -⟩, hrest⟩ := List.isChain_cons_cons.mp h
      obtain ⟨source, hbase, hnext⟩ := hfollows.source_eq
      intro x hx
      rcases List.mem_cons.mp hx with rfl | hx
      · rw [hnext, hbase]
      · rw [ih hrest x hx, hnext, hbase]

/-- **Reference safety.**  Where `pop` returns a delta, the frame of its display
that came out before it is the one pushed right before it for its stream, and
not lost; and so on back to a keyframe of that stream. -/
theorem pop_delta_referenced {before after : List (Event α)} {s : System α} {delta : Item α}
    {display : Display} (run : Run Step System.start (before ++ .pop (some delta) :: after) s)
    (hlose : LosesLastPopped (before ++ .pop (some delta) :: after))
    (hdisplay : delta.display? = some display) (hdelta : delta.isKey = false) :
    (∃ previous, (deliveredTo display (pops before)).getLast? = some previous ∧
        Follows (pushes before) previous delta ∧ previous ∉ losses before) ∧
      ∃ earlier base chain,
        deliveredTo display (pops before) ++ [delta] = earlier ++ base :: chain ∧
        base.isKey = true ∧ base.source? = delta.source? ∧
        (base :: chain).IsChain fun x y => Follows (pushes before) x y ∧ x ∉ losses before := by
  have hsplit : before ++ .pop (some delta) :: after =
      (before ++ [.pop (some delta)]) ++ after := by
    simp
  rw [hsplit] at run hlose
  obtain ⟨middle, hrun, -⟩ := run.split
  have hlinked := (run_referenced hrun hlose.of_append display).linked
  rw [trackFlow_eq (run_withinLimits initial_withinLimits hrun)] at hlinked
  have hout : deliveredTo display (pops (before ++ [.pop (some delta)])) =
      deliveredTo display (pops before) ++ [delta] := by
    simp [deliveredTo, List.filter_append, hdisplay]
  have hlinked' : Linked (Link (pushes before) (losses before))
      (deliveredTo display (pops before) ++ [delta]) := by
    have hleft := hlinked.of_append
    rw [hout] at hleft
    simpa using hleft
  refine ⟨?_, ?_⟩
  · rcases (linked_concat.mp hlinked').2 with hkey | hprevious
    · rw [hdelta] at hkey
      simp at hkey
    · exact hprevious
  · have hlink : ∀ p y, Link (pushes before) (losses before) p y → y.isKey = true ∨
        ∃ x, p = some x ∧ (Follows (pushes before) x y ∧ x ∉ losses before) := fun _ _ h => h
    obtain ⟨earlier, base, chain, heq, hkey, hchain⟩ := hlinked'.exists_chain hlink (by simp)
    refine ⟨earlier, base, chain, heq, hkey, ?_, hchain⟩
    have hmem : delta = base ∨ delta ∈ chain := by
      have hlast : (base :: chain).getLast? = some delta := by
        have hwhole : (earlier ++ base :: chain).getLast? = some delta := by
          rw [← heq]
          simp
        rwa [List.getLast?_append_cons] at hwhole
      exact List.mem_cons.mp (List.mem_of_getLast? hlast)
    rcases hmem with rfl | hmem
    · rfl
    · exact (isChain_source hchain delta hmem).symm

/-- A small frame of the first stream of display 0. -/
def smallFrame (number : ℕ) (key : Bool) : Item Unit :=
  { time := 0
    message :=
      { union := some (.videoFrame
          { display := 0, streamId := 1, frameId := number + 1,
            union := some (.vp9s [{ data := [0], key := key }]) })
        computeSize := 10
        rest := (number, ()) } }

/-- `pop_delta_referenced` at a keyframe and a delta that come out after each other. -/
theorem pop_delta_referenced_smallFrame :
    ∃ previous, (deliveredTo 0 (pops [.push (smallFrame 0 true), .push (smallFrame 1 false),
        .pop (some (smallFrame 0 true))])).getLast? = some previous ∧
      Follows [smallFrame 0 true, smallFrame 1 false] previous (smallFrame 1 false) ∧
      previous ∉ ([] : List (Item Unit)) := by
  have hcalls : ∃ first second third fourth : State (ℕ × Unit),
      Returns (State.new.push (smallFrame 0 true)) first ∧
        Returns (first.push (smallFrame 1 false)) second ∧
        second.pop = some (some (smallFrame 0 true), third) ∧
        third.pop = some (some (smallFrame 1 false), fourth) :=
    ⟨_, _, _, _, ⟨_, rfl⟩, ⟨_, rfl⟩, rfl, rfl⟩
  obtain ⟨first, second, third, fourth, hfirst, hsecond, hthird, hfourth⟩ := hcalls
  have hpushes : Run Step System.start
      ([.push (smallFrame 0 true)] ++ [.push (smallFrame 1 false)]) ⟨second, 2⟩ :=
    (Run.single (.push rfl hfirst)).snoc (.push rfl hsecond)
  have hrun := (hpushes.snoc (.pop hthird)).snoc (.pop hfourth)
  have hlose : LosesLastPopped ([.push (smallFrame 0 true), .push (smallFrame 1 false),
      .pop (some (smallFrame 0 true))] ++ [.pop (some (smallFrame 1 false))]) := by
    intro before item after heq
    have hmem : Event.lose item ∈ before ++ .lose item :: after := by simp
    rw [← heq] at hmem
    simp at hmem
  exact (pop_delta_referenced hrun hlose (by rfl) (by rfl)).1

end RustAdmin.VideoQueue
