import RustAdmin.Support.Barrier
import RustAdmin.VideoQueue.Trace

/-!
# Ordering of the video queue

The messages that came out, followed by the queued ones, are an admissible
reordering of the pushed ones: messages without a frame are the barriers and the
displays the tracks.  As long as the queue is not fatal no barrier is missing,
and a queued barrier moves forward with every `pop`.
-/

namespace RustAdmin.VideoQueue

open RustAdmin.Support

variable {α : Type}

/-! ## Entries dropped for one display -/

/-- Entries of the display were dropped, and no others. -/
def State.TrimmedAt (display : Display) (s s' : State α) : Prop :=
  s'.fatal = s.fatal ∧ ∃ keep : Entry α → Bool, s'.messages = s.messages.filter keep ∧
    ∀ e, e.display ≠ some display → keep e = true

namespace State.TrimmedAt

variable {display : Display} {s s' s'' : State α}

theorem of_same (hmessages : s'.messages = s.messages) (hfatal : s'.fatal = s.fatal) :
    TrimmedAt display s s' :=
  ⟨hfatal, fun _ => true, by simp [hmessages], fun _ _ => rfl⟩

theorem trans (h : TrimmedAt display s s') (h' : TrimmedAt display s' s'') :
    TrimmedAt display s s'' := by
  obtain ⟨hfatal, keep, hmessages, hkeep⟩ := h
  obtain ⟨hfatal', keep', hmessages', hkeep'⟩ := h'
  refine ⟨hfatal'.trans hfatal, fun e => keep e && keep' e, ?_, ?_⟩
  · rw [hmessages', hmessages, List.filter_filter]
    simp only [Bool.and_comm]
  · intro e he
    simp [hkeep e he, hkeep' e he]

theorem sublist (h : TrimmedAt display s s') : s'.messages.Sublist s.messages := by
  obtain ⟨-, keep, hmessages, -⟩ := h
  rw [hmessages]
  exact List.filter_sublist

/-- What holds of no entry of the display picks the same entries as before. -/
theorem filter_eq (h : TrimmedAt display s s') {p : Entry α → Bool}
    (hp : ∀ e, p e = true → e.display ≠ some display) :
    s'.messages.filter p = s.messages.filter p := by
  obtain ⟨-, keep, hmessages, hkeep⟩ := h
  rw [hmessages, List.filter_filter]
  refine List.filter_congr fun e _ => ?_
  cases hpe : p e with
  | false => rfl
  | true => rw [hkeep e (hp e hpe), Bool.and_true]

end State.TrimmedAt

theorem purged_trimmedAt (s : State α) (display : Display) (deltasOnly : Bool) :
    State.TrimmedAt display s (s.purged display deltasOnly) := by
  refine ⟨rfl, _, messages_purged s display deltasOnly, fun e he => ?_⟩
  simp [Entry.purged, he]

theorem lost_trimmedAt (s : State α) (display : Display) (frame : ℕ) :
    State.TrimmedAt display s (s.lost display frame) :=
  purged_trimmedAt (s.setTrack display _) display true

theorem entered_trimmedAt (s : State α) (display : Display) (stream : ℕ) (key : Bool) :
    State.TrimmedAt display s (s.entered display stream key) := by
  unfold State.entered
  split
  · exact (purged_trimmedAt s display false).trans (.of_same rfl rfl)
  · exact .of_same rfl rfl

theorem prepared_trimmedAt (s : State α) (display : Display) (frame : VideoFrame) :
    State.TrimmedAt display s (s.prepared display frame) := by
  unfold State.prepared
  split
  · exact (entered_trimmedAt s _ _ _).trans (purged_trimmedAt _ display false)
  · exact entered_trimmedAt s _ _ _

theorem switched_trimmedAt (s : State α) (display : Display) (enabled : Bool) :
    State.TrimmedAt display s (s.switched display enabled) := by
  unfold State.switched
  split <;> split
  · exact .of_same rfl rfl
  · exact (purged_trimmedAt s display false).trans (.of_same rfl rfl)
  · exact .of_same rfl rfl
  · exact .of_same rfl rfl

/-! ## The invariant -/

/-- A message without a frame: an ordering barrier. -/
def Queued.isControl (item : Item α) : Bool := item.frame?.isNone

/-- What came out, followed by what is queued. -/
def flow (delivered : List (Item α)) (queue : State (ℕ × α)) : List (Item α) :=
  delivered ++ queue.messages.map Entry.item

/-- The flow is an admissible reordering of the pushes, and complete for the
barriers while the queue is not fatal. -/
structure Ordered (pushed delivered : List (Item α)) (queue : State (ℕ × α)) : Prop where
  numbered : pushed.map Queued.number = List.range pushed.length
  admissible : Admissible Queued.number Queued.isControl Queued.display? pushed
    (flow delivered queue)
  controls : queue.fatal = false →
    (flow delivered queue).filter Queued.isControl = pushed.filter Queued.isControl

theorem initial_ordered : Ordered [] [] (State.new : State (ℕ × α)) where
  numbered := rfl
  admissible := .nil
  controls := fun _ => rfl

theorem Ordered.number_lt {pushed delivered : List (Item α)} {queue : State (ℕ × α)}
    (h : Ordered pushed delivered queue) {item : Item α} (hitem : item ∈ pushed) :
    item.number < pushed.length := by
  have hmem := List.mem_map_of_mem (f := Queued.number) hitem
  rw [h.numbered] at hmem
  exact List.mem_range.mp hmem

/-- A push with its number, whether or not it joins the queue. -/
theorem Ordered.numbered_push {pushed delivered : List (Item α)} {queue : State (ℕ × α)}
    (h : Ordered pushed delivered queue) {item : Item α} (hnumber : item.number = pushed.length) :
    (pushed ++ [item]).map Queued.number = List.range (pushed ++ [item]).length := by
  rw [List.map_append, h.numbered, List.length_append, List.length_singleton, List.range_succ,
    List.map_singleton, hnumber]

/-- A barrier and an entry without a display are the same thing. -/
theorem isControl_iff {e : Entry (ℕ × α)} (h : e.Genuine) :
    e.item.isControl = true ↔ e.display = none := by
  unfold Queued.isControl
  rw [h.display_eq_none, Option.isNone_iff_eq_none]

theorem filter_isControl_messages {queue : State (ℕ × α)} (hqueue : queue.WithinLimits) :
    (queue.messages.map Entry.item).filter Queued.isControl =
      (queue.messages.filter fun e => e.display.isNone).map Entry.item := by
  rw [List.filter_map]
  congr 1
  refine List.filter_congr fun e he => ?_
  rw [Bool.eq_iff_iff, Option.isNone_iff_eq_none]
  exact isControl_iff (hqueue.genuine e he)

/-! ## One step -/

section Step

variable {pushed delivered : List (Item α)} {queue queue' : State (ℕ × α)} {item : Item α}

theorem ordered_trim {display : Display} (h : Ordered pushed delivered queue)
    (hqueue : queue.WithinLimits) (hqueue' : queue'.WithinLimits)
    (htrimmed : State.TrimmedAt display queue queue') : Ordered pushed delivered queue' where
  numbered := h.numbered
  admissible := h.admissible.drop ((htrimmed.sublist.map _).append_left delivered)
  controls := by
    intro hfatal
    -- a barrier has no display, so no trim drops one
    have hkept := htrimmed.filter_eq (p := fun e => e.display.isNone) (by
      intro e he
      rw [Option.isNone_iff_eq_none.mp he]
      simp)
    rw [← h.controls (htrimmed.1 ▸ hfatal), flow, flow, List.filter_append, List.filter_append,
      filter_isControl_messages hqueue, filter_isControl_messages hqueue', hkept]

/-- A push that leaves the queue as it is: of a frame, or one that is fatal. -/
theorem ordered_skip (h : Ordered pushed delivered queue) (hnumber : item.number = pushed.length)
    (hcontrol : queue.fatal = false → item.isControl = false) :
    Ordered (pushed ++ [item]) delivered queue where
  numbered := h.numbered_push hnumber
  admissible := h.admissible.skip item
  controls := by
    intro hfatal
    rw [h.controls hfatal, List.filter_append]
    simp [hcontrol hfatal]

/-- A push that joins the queue at its end. -/
theorem ordered_enqueue (h : Ordered pushed delivered queue) (hnumber : item.number = pushed.length)
    {entry : Entry (ℕ × α)} (hitem : entry.item = item)
    (hmessages : queue'.messages = queue.messages ++ [entry])
    (hfatal : queue'.fatal = queue.fatal) :
    Ordered (pushed ++ [item]) delivered queue' := by
  have hflow : flow delivered queue' = flow delivered queue ++ [item] := by
    simp [flow, hmessages, hitem]
  refine ⟨h.numbered_push hnumber, ?_, ?_⟩
  · rw [hflow]
    refine h.admissible.push fun y hy => ?_
    rw [hnumber]
    exact h.number_lt hy
  · intro hfatal'
    rw [hflow, List.filter_append, List.filter_append, h.controls (hfatal ▸ hfatal')]

theorem pushed_ordered (h : Ordered pushed delivered queue) (hqueue : queue.WithinLimits)
    (hnumber : item.number = pushed.length) (hpushed : Pushed queue item queue') :
    Ordered (pushed ++ [item]) delivered queue' := by
  have hframe : ∀ {frame}, item.frame? = some frame → item.isControl = false := by
    intro frame hframe
    simp [Queued.isControl, hframe]
  cases hpushed with
  | unknown hsome => exact ordered_skip h hnumber fun _ => hframe hsome
  | refused hsome => exact ordered_skip h hnumber fun _ => hframe hsome
  | @lost frame display hsome =>
      have hprepared := prepared_withinLimits hqueue display frame
      have hlost := lost_withinLimits hprepared display frame.frameId
      have htrimmed := (prepared_trimmedAt queue display frame).trans
        (lost_trimmedAt _ display frame.frameId)
      exact ordered_skip (ordered_trim h hqueue hlost htrimmed) hnumber fun _ => hframe hsome
  | @enqueued frame display hsome =>
      have hprepared := prepared_withinLimits hqueue display frame
      have htrim := ordered_trim h hqueue hprepared (prepared_trimmedAt queue display frame)
      have hitem : (frameEntry item display frame).item = item := rfl
      exact ordered_enqueue htrim hnumber hitem rfl rfl
  | overflow =>
      -- the barrier is missing, which only a fatal queue allows
      have hfatal : Ordered pushed delivered { queue with fatal := true } :=
        ⟨h.numbered, h.admissible, fun hfalse => by simp at hfalse⟩
      exact ordered_skip hfatal hnumber fun hfalse => by simp at hfalse
  | control =>
      have hitem : (controlEntry item).item = item := rfl
      exact ordered_enqueue h hnumber hitem rfl rfl

theorem popped_ordered {item : Option (Item α)} (h : Ordered pushed delivered queue)
    (hqueue : queue.WithinLimits) (hpopped : Popped queue item queue') :
    Ordered pushed (delivered ++ item.toList) queue' := by
  cases hpopped with
  | idle hrotated =>
      have hflow : flow (delivered ++ none.toList) queue' = flow delivered queue := by
        simp [flow, hrotated.messages]
      exact ⟨h.numbered, hflow ▸ h.admissible, fun hfatal =>
        hflow ▸ h.controls (hrotated.fatal ▸ hfatal)⟩
  | @served before after entry rotated hsplit hbarrier hbefore hrotated =>
      have hgenuine : ∀ e ∈ before ++ entry :: after, e.Genuine := hsplit ▸ hqueue.genuine
      have hentry := hgenuine entry (by simp)
      have hold : flow delivered queue =
          delivered ++ (before.map Entry.item ++ entry.item :: after.map Entry.item) := by
        simp [flow, hsplit]
      have hnew : flow (delivered ++ (some entry.item).toList)
            (rotated.withMessages (before ++ after)) =
          delivered ++ entry.item :: (before.map Entry.item ++ after.map Entry.item) := by
        simp [flow]
      -- `pop` stops looking at the first barrier and serves the first entry of a display
      have hpassed : ∀ b ∈ before.map Entry.item,
          b.isControl = false ∧ b.display? ≠ entry.item.display? := by
        intro b hb
        obtain ⟨e, he, rfl⟩ := List.mem_map.mp hb
        have he' := hgenuine e (List.mem_append_left _ he)
        obtain ⟨hsome, hother⟩ := hbefore e he
        refine ⟨?_, ?_⟩
        · rw [← Bool.not_eq_true, isControl_iff he']
          exact hsome
        · rw [← he'.display_eq, ← hentry.display_eq]
          exact hother
      refine ⟨h.numbered, ?_, fun hfatal => ?_⟩
      · rw [hnew]
        refine Admissible.serve (hold ▸ h.admissible) (fun hcontrol => ?_) hpassed
        rw [hbarrier ((isControl_iff hentry).mp hcontrol), List.map_nil]
      · rw [hnew, filter_serve (fun hcontrol => ?_), ← hold]
        · exact h.controls (hrotated.fatal ▸ hfatal)
        · intro b hb
          rw [hbarrier ((isControl_iff hentry).mp hcontrol)] at hb
          simp at hb

theorem losing_ordered (h : Ordered pushed delivered queue) (hqueue : queue.WithinLimits)
    (hlosing : Losing queue item queue') : Ordered pushed delivered queue' := by
  cases hlosing with
  | other => exact h
  | lost => exact ordered_trim h hqueue (lost_withinLimits hqueue _ _) (lost_trimmedAt queue _ _)

theorem resubscribed_ordered (h : Ordered pushed delivered queue) (hqueue : queue.WithinLimits)
    (subscribed : List ℕ) : Ordered pushed delivered (queue.resubscribed subscribed) := by
  have hswitch : ∀ (q : State (ℕ × α)) display enabled,
      q.WithinLimits ∧ Ordered pushed delivered q →
        (q.switched display enabled).WithinLimits ∧
          Ordered pushed delivered (q.switched display enabled) := by
    rintro q display enabled ⟨hq, hordered⟩
    have hswitched := switched_withinLimits hq display enabled
    exact ⟨hswitched, ordered_trim hordered hq hswitched (switched_trimmedAt q display enabled)⟩
  exact (resubscribed_invariant subscribed hswitch ⟨hqueue, h⟩).2

end Step

/-- The order of every run, with the counter that numbers the pushes. -/
theorem run_ordered {events : List (Event α)} {s : System α}
    (run : Run Step System.start events s) :
    s.sent = (pushes events).length ∧ Ordered (pushes events) (pops events) s.queue := by
  refine run_invariant (fun events s => s.sent = (pushes events).length ∧
    Ordered (pushes events) (pops events) s.queue) ⟨rfl, initial_ordered⟩ ?_ run
  rintro events s event s' hqueue ⟨hsent, hordered⟩ hmoved
  rw [pushes_append, pops_append, pushes_single, pops_single]
  cases hmoved with
  | push hnumber hpushed =>
      have hnext := pushed_ordered hordered hqueue (hnumber.trans hsent) hpushed
      simpa [hsent] using hnext
  | pop hpopped => simpa [hsent] using popped_ordered hordered hqueue hpopped
  | lose hlosing => simpa [hsent] using losing_ordered hordered hqueue hlosing
  | @setDisplays subscribed =>
      simpa [hsent] using resubscribed_ordered hordered hqueue subscribed
  | @recoveryDue now =>
      have hnext : Ordered (pushes events) (pops events) (s.queue.recoveryDue now).2 :=
        ⟨hordered.numbered, hordered.admissible, hordered.controls⟩
      simpa [hsent] using hnext

/-! ## A queued barrier comes out -/

/-- The barrier is queued behind at most `k` entries. -/
def Ahead (item : Item α) (k : ℕ) (queue : State (ℕ × α)) : Prop :=
  ∃ front e back, queue.messages = front ++ e :: back ∧ e.item = item ∧ e.display = none ∧
    front.length ≤ k

section Ahead

variable {item : Item α} {k : ℕ} {queue queue' : State (ℕ × α)}

theorem ahead_trim {display : Display} (h : Ahead item k queue)
    (htrimmed : State.TrimmedAt display queue queue') : Ahead item k queue' := by
  obtain ⟨front, e, back, hsplit, hitem, hnone, hlength⟩ := h
  obtain ⟨-, keep, hmessages, hkeep⟩ := htrimmed
  have he : keep e = true := hkeep e (by simp [hnone])
  refine ⟨front.filter keep, e, back.filter keep, ?_, hitem, hnone, ?_⟩
  · rw [hmessages, hsplit, List.filter_append, List.filter_cons_of_pos he]
  · exact (List.length_filter_le _ _).trans hlength

theorem ahead_append (h : Ahead item k queue) {entries : List (Entry (ℕ × α))}
    (hmessages : queue'.messages = queue.messages ++ entries) : Ahead item k queue' := by
  obtain ⟨front, e, back, hsplit, hitem, hnone, hlength⟩ := h
  exact ⟨front, e, back ++ entries, by simp [hmessages, hsplit], hitem, hnone, hlength⟩

theorem pushed_ahead {pushed : Item α} (h : Ahead item k queue)
    (hpushed : Pushed queue pushed queue') : Ahead item k queue' := by
  cases hpushed with
  | unknown => exact h
  | refused => exact h
  | lost => exact ahead_trim h ((prepared_trimmedAt queue _ _).trans (lost_trimmedAt _ _ _))
  | enqueued => exact ahead_append (ahead_trim h (prepared_trimmedAt queue _ _)) rfl
  | overflow => exact h
  | control => exact ahead_append h rfl

/-- A `pop` that serves something brings the barrier out or one place forward. -/
theorem popped_ahead {served : Item α} (h : Ahead item k queue)
    (hpopped : Popped queue (some served) queue') :
    served = item ∨ ∃ j, k = j + 1 ∧ Ahead item j queue' := by
  obtain ⟨front, e, back, hsplit, hitem, hnone, hlength⟩ := h
  cases hpopped with
  | @served before after entry rotated hsplit' hbarrier hbefore hrotated =>
      have hsame : before ++ entry :: after = front ++ e :: back := hsplit' ▸ hsplit
      rcases List.append_eq_append_iff.mp hsame with
        ⟨passed, hfront, hrest⟩ | ⟨passed, hfront, hrest⟩
      · cases passed with
        | nil =>
            obtain ⟨rfl, -⟩ : entry = e ∧ after = back := by simpa using hrest
            exact .inl hitem
        | cons first passed =>
            -- the served entry stood in front of the barrier
            obtain ⟨rfl, hback⟩ : entry = first ∧ after = passed ++ e :: back := by
              simpa using hrest
            refine .inr ⟨k - 1, ?_, before ++ passed, e, back, ?_, hitem, hnone, ?_⟩
            · rw [hfront, List.length_append, List.length_cons] at hlength
              omega
            · simp [hback]
            · rw [hfront, List.length_append, List.length_cons] at hlength
              rw [List.length_append]
              omega
      · cases passed with
        | nil =>
            obtain ⟨rfl, -⟩ : e = entry ∧ back = after := by simpa using hrest
            exact .inl hitem
        | cons first passed =>
            obtain ⟨rfl, -⟩ : e = first ∧ back = passed ++ entry :: after := by simpa using hrest
            -- an entry behind the barrier is never served past it
            have hpassed := (hbefore e (by simp [hfront])).1
            exact absurd hnone hpassed

end Ahead

/-- From a state in which the barrier waits behind `k` entries, it is out as
soon as `pop` was called more than `k` times. -/
theorem run_ahead {item : Item α} {k : ℕ} {s s' : System α} {more : List (Event α)}
    (hs : s.queue.WithinLimits) (hahead : Ahead item k s.queue) (run : Run Step s more s') :
    item ∈ pops more ∨ ∃ j, j + popCalls more ≤ k ∧ Ahead item j s'.queue := by
  have hboth : s'.queue.WithinLimits ∧
      (item ∈ pops more ∨ ∃ j, j + popCalls more ≤ k ∧ Ahead item j s'.queue) := by
    refine run.invariant (fun more s' => s'.queue.WithinLimits ∧
      (item ∈ pops more ∨ ∃ j, j + popCalls more ≤ k ∧ Ahead item j s'.queue))
      ⟨hs, .inr ⟨k, by simp, hahead⟩⟩ ?_
    rintro more before event after ⟨hbefore, hwaiting⟩ step
    have hmoved := step.moved hbefore
    refine ⟨moved_withinLimits hbefore hmoved, ?_⟩
    rw [pops_append, popCalls_append, List.mem_append]
    rcases hwaiting with hout | ⟨j, hj, hqueued⟩
    · exact .inl (.inl hout)
    · cases hmoved with
      | push _ hpushed => exact .inr ⟨j, by simpa using hj, pushed_ahead hqueued hpushed⟩
      | @pop _ served hpopped hserves =>
          -- the waiting barrier itself keeps the `pop` from coming back empty
          have hnonempty : before.queue.messages ≠ [] := by
            obtain ⟨front, e, back, hsplit, -⟩ := hqueued
            rw [hsplit]
            simp
          obtain ⟨served, rfl⟩ := Option.ne_none_iff_exists'.mp (hserves hnonempty)
          rcases popped_ahead hqueued hpopped with rfl | ⟨j, rfl, hnext⟩
          · exact .inl (.inr (by simp))
          · refine .inr ⟨j, ?_, hnext⟩
            rw [popCalls_single]
            simp only [Event.isPop, Bool.toNat_true]
            omega
      | lose hlosing =>
          refine .inr ⟨j, by simpa using hj, ?_⟩
          cases hlosing with
          | other => exact hqueued
          | lost => exact ahead_trim hqueued (lost_trimmedAt _ _ _)
      | @setDisplays subscribed =>
          refine .inr ⟨j, by simpa using hj, ?_⟩
          have hswitch : ∀ (q : State (ℕ × α)) display enabled,
              Ahead item j q → Ahead item j (q.switched display enabled) :=
            fun q display enabled h => ahead_trim h (switched_trimmedAt q display enabled)
          simpa using resubscribed_invariant subscribed hswitch hqueued
      | recoveryDue => exact .inr ⟨j, by simpa using hj, hqueued⟩
  exact hboth.2

/-! ## The order of what comes out -/

/-- **Ordering of the queue.**  Pushes carry their number; in every run that
does not end fatal nothing comes out twice, the barriers come out in push order,
nothing crosses a barrier, and every display keeps its push order.  A pushed
barrier is out, exactly once, after at most as many further calls of `pop` as
entries are queued. -/
theorem pops_ordered {events : List (Event α)} {s : System α} (run : Run Step System.start events s)
    (hfatal : s.queue.fatal = false) :
    (pushes events).map Queued.number = List.range (pushes events).length ∧
      ((pops events).map Queued.number).Nodup ∧
      (pops events).filter Queued.isControl <+: (pushes events).filter Queued.isControl ∧
      ((pops events).Pairwise fun x y =>
        x.isControl = true ∨ y.isControl = true → x.number < y.number) ∧
      (∀ display : Display, ((pops events).filter fun x => x.display? == some display).Sublist
        ((pushes events).filter fun x => x.display? == some display)) ∧
      ∀ more s', Run Step s more s' → s.queue.messages.length ≤ popCalls more →
        ∀ item ∈ pushes events, item.isControl = true →
          ((pops (events ++ more)).map Queued.number).count item.number = 1 := by
  obtain ⟨-, hordered⟩ := run_ordered run
  have hqueue := run_withinLimits initial_withinLimits run
  have hfront := List.sublist_append_left (pops events) (s.queue.messages.map Entry.item)
  have hadmissible := hordered.admissible.drop hfront
  have hcontrols := hordered.controls hfatal
  rw [flow, List.filter_append] at hcontrols
  refine ⟨hordered.numbered, hadmissible.nodup, ⟨_, hcontrols⟩, hadmissible.barriers,
    hadmissible.tracks, ?_⟩
  intro more s' hmore hcalls item hitem hcontrol
  -- at most once, by the order of the longer run; at least once, since it is out or waits
  have hnodup : ((pops (events ++ more)).map Queued.number).Nodup := by
    have hall := (run_ordered (run.append hmore)).2.admissible.nodup
    rw [flow, List.map_append] at hall
    exact hall.of_append_left
  refine List.count_eq_one_of_mem hnodup (List.mem_map_of_mem ?_)
  rw [pops_append]
  have hmem : item ∈ (pushes events).filter Queued.isControl :=
    List.mem_filter.mpr ⟨hitem, hcontrol⟩
  rw [← hcontrols, List.mem_append, List.mem_filter, List.mem_filter] at hmem
  rcases hmem with ⟨hout, -⟩ | ⟨hqueued, -⟩
  · exact List.mem_append_left _ hout
  · obtain ⟨e, he, rfl⟩ := List.mem_map.mp hqueued
    obtain ⟨front, back, hsplit⟩ := List.append_of_mem he
    have hnone := (isControl_iff (hqueue.genuine e he)).mp hcontrol
    have hahead : Ahead e.item front.length s.queue :=
      ⟨front, e, back, hsplit, rfl, hnone, le_rfl⟩
    rcases run_ahead hqueue hahead hmore with hout | ⟨j, hj, -⟩
    · exact List.mem_append_right _ hout
    · -- more calls than entries in front of the barrier
      have hlength : front.length < s.queue.messages.length := by
        rw [hsplit, List.length_append, List.length_cons]
        omega
      omega

/-- A frame of the first stream of a display. -/
def displayFrame (display : ℤ) (frameId : ℕ) (key : Bool) (number : ℕ) : Item Unit :=
  { time := 0
    message :=
      { union := some (.videoFrame
          { display := display, streamId := 1, frameId := frameId,
            union := some (.vp9s [{ data := [0], key := key }]) })
        computeSize := 10
        rest := (number, ()) } }

/-- A message without a frame. -/
def barrier (number : ℕ) : Item Unit :=
  { time := 0, message := { union := some .other, computeSize := 1, rest := (number, ()) } }

/-- A push, or a call of `pop` that gives the item of the event. -/
def System.call (s : System Unit) : Event Unit → Option (System Unit)
  | .push item =>
      if item.number = s.sent then (s.queue.push item).map fun called => ⟨called.1, s.sent + 1⟩
      else none
  | .pop item => s.queue.pop.bind fun called =>
      if called.1 = item then some { s with queue := called.2 } else none
  | _ => none

theorem step_of_call {s s' : System Unit} {event : Event Unit} (h : s.call event = some s') :
    Step s event s' := by
  cases event with
  | push item =>
      rw [System.call] at h
      split_ifs at h with hnumber
      obtain ⟨called, hcall, rfl⟩ := Option.map_eq_some_iff.mp h
      exact .push hnumber ⟨called.2, hcall⟩
  | pop item =>
      obtain ⟨called, hcall, hrest⟩ := Option.bind_eq_some_iff.mp h
      split_ifs at hrest with hitem
      obtain rfl := Option.some.inj hrest
      exact .pop (hitem ▸ hcall)
  | _ => cases h

/-- Two displays have a keyframe before a barrier and a delta after it. -/
def twoDisplays : List (Event Unit) :=
  [.push (displayFrame 1 1 true 0), .push (displayFrame 0 1 true 1), .push (barrier 2),
    .push (displayFrame 1 2 false 3), .push (displayFrame 0 2 false 4)]

/-- The keyframes come out in the order of the displays. -/
def twoDisplaysOut : List (Event Unit) :=
  [.pop (some (displayFrame 0 1 true 1)), .pop (some (displayFrame 1 1 true 0)),
    .pop (some (barrier 2)), .pop (some (displayFrame 1 2 false 3)),
    .pop (some (displayFrame 0 2 false 4))]

/-- `pops_ordered` at the two displays: none of their frames crosses the barrier, which is out
once the queue was asked for as many messages as it held. -/
theorem pops_ordered_twoDisplays :
    ((pops (twoDisplays ++ twoDisplaysOut)).Pairwise fun x y =>
        x.isControl = true ∨ y.isControl = true → x.number < y.number) ∧
      ((pops (twoDisplays ++ twoDisplaysOut)).map Queued.number).count 2 = 1 := by
  have hpushed : ((twoDisplays.foldlM System.call System.start).map fun s =>
      (s.queue.fatal, s.queue.messages.length)) = some (false, 5) := by decide
  have hpopped : (((twoDisplays ++ twoDisplaysOut).foldlM System.call System.start).map fun s =>
      s.queue.fatal) = some false := by decide
  obtain ⟨s, hs, hfields⟩ := Option.map_eq_some_iff.mp hpushed
  obtain ⟨hfatal, hlength⟩ := Prod.mk.inj hfields
  obtain ⟨s', hs', hfatal'⟩ := Option.map_eq_some_iff.mp hpopped
  have hsecond : twoDisplaysOut.foldlM System.call s = some s' := by
    rw [List.foldlM_append, hs] at hs'
    exact hs'
  have hrun : Run Step System.start twoDisplays s :=
    (run_of_foldlM hs).mono fun _ _ _ => step_of_call
  have hmore : Run Step s twoDisplaysOut s' :=
    (run_of_foldlM hsecond).mono fun _ _ _ => step_of_call
  obtain ⟨-, -, -, hbarriers, -, -⟩ := pops_ordered (hrun.append hmore) hfatal'
  obtain ⟨-, -, -, -, -, hout⟩ := pops_ordered hrun hfatal
  exact ⟨hbarriers, hout _ _ hmore hlength.le (barrier 2) (by decide) rfl⟩

end RustAdmin.VideoQueue
