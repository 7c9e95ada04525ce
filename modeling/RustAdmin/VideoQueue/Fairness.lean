import RustAdmin.Support.RoundRobin
import RustAdmin.VideoQueue.Trace

/-!
# Byte fairness of the deficit round robin

Every visit gives one quantum to the track it comes to, unless the track goes
on after a served frame; so the visits that give credit go round in a circle
(`State.turn` is the display of the next one), and what a track was given is
what was popped for it and what is left as its deficit.  Two displays that have
a frame ready before every pop get the same number of quanta up to one, and no
deficit ever reaches the size of a frame and a quantum.
-/

namespace RustAdmin.VideoQueue

open RustAdmin.Support

variable {α : Type}

/-- The display of the next visit that gives credit. -/
def State.turn (s : State α) : ℕ := (s.cursor.val + s.continuing.toNat) % displays

/-- A frame of the display is queued in front of the first barrier. -/
def State.Ready (s : State α) (display : Display) : Prop :=
  ∃ e ∈ s.messages.take s.barrier, e.display = some display

instance (s : State α) (display : Display) : Decidable (s.Ready display) :=
  inferInstanceAs (Decidable (∃ e ∈ s.messages.take s.barrier, e.display = some display))

/-- No track holds the credit of a frame and a quantum; only the track that
goes on can hold the credit of a frame. -/
structure State.CreditBounded (s : State α) : Prop where
  deficit_lt : ∀ display, (s.tracks display).deficit < maxFrameBytes + quantum
  waiting_lt : ∀ display, (s.continuing = true → display ≠ s.cursor) →
    (s.tracks display).deficit < maxFrameBytes

theorem initial_creditBounded : (State.new : State α).CreditBounded where
  deficit_lt := fun _ => (by decide : 0 < maxFrameBytes + quantum)
  waiting_lt := fun _ _ => (by decide : 0 < maxFrameBytes)

/-- Messages do not matter to the credit. -/
theorem State.CreditBounded.withMessages {s : State α} (h : s.CreditBounded)
    (entries : List (Entry α)) : (s.withMessages entries).CreditBounded :=
  ⟨h.deficit_lt, h.waiting_lt⟩

/-- The bytes of the display's frames among the messages. -/
def bytesOf (display : Display) (items : List (Item α)) : ℕ :=
  ((items.filter fun item => item.display? == some display).map
    fun item => item.message.computeSize).sum

@[simp] theorem bytesOf_nil (display : Display) : bytesOf display ([] : List (Item α)) = 0 := rfl

@[simp] theorem bytesOf_append (display : Display) (first second : List (Item α)) :
    bytesOf display (first ++ second) = bytesOf display first + bytesOf display second := by
  simp [bytesOf]

theorem Entry.Genuine.bytes_eq {e : Entry (ℕ × α)} (h : e.Genuine) :
    e.bytes = e.item.message.computeSize := by
  rcases h with ⟨-, he⟩ | ⟨frame, display, -, -, he⟩ <;>
    · rw [he]
      rfl

theorem Entry.Genuine.bytesOf_eq {e : Entry (ℕ × α)} (h : e.Genuine) (display : Display) :
    bytesOf display [e.item] = if e.display = some display then e.bytes else 0 := by
  rw [h.display_eq, h.bytes_eq]
  by_cases hdisplay : e.item.display? = some display <;> simp [bytesOf, hdisplay]

/-! ## One visit -/

/-- The number of turns that a visit takes. -/
def State.visitTurns (s : State α) : ℕ := (!s.continuing).toNat

theorem turns_visit (s : State α) (display : Display) :
    turns displays s.turn display.val s.visitTurns =
      if display = s.cursor then s.visitTurns else 0 := by
  unfold State.visitTurns State.turn
  cases hcontinuing : s.continuing with
  | true => simp
  | false =>
      have hmod : s.cursor.val % displays = s.cursor.val := Nat.mod_eq_of_lt s.cursor.isLt
      simp only [Bool.not_false, Bool.toNat_true, Bool.toNat_false, Nat.add_zero, turns_one,
        hmod, Fin.ext_iff, eq_comm]

/-- A visit of a track with bounded credit adds its quantum in full. -/
theorem State.CreditBounded.credit_eq {s : State α} (h : s.CreditBounded) :
    s.credit = (s.tracks s.cursor).deficit + quantum * s.visitTurns := by
  unfold State.credit State.visitTurns
  cases hcontinuing : s.continuing with
  | true => simp
  | false =>
      have hlt := h.waiting_lt s.cursor (by simp [hcontinuing])
      have hbound : maxFrameBytes + quantum < usizeMax := by decide
      simp only [Bool.false_eq_true, if_false, Bool.not_false, Bool.toNat_true, Nat.mul_one,
        saturatingAdd]
      omega

theorem State.CreditBounded.credit_lt {s : State α} (h : s.CreditBounded) :
    s.credit < maxFrameBytes + quantum := by
  rw [h.credit_eq]
  unfold State.visitTurns
  cases hcontinuing : s.continuing with
  | true => simpa using h.deficit_lt s.cursor
  | false => simpa using h.waiting_lt s.cursor (by simp [hcontinuing])

/-- A visit that moves on leaves less than a frame. -/
theorem moved_on_creditBounded {s : State α} (h : s.CreditBounded) {deficit : ℕ}
    (hdeficit : deficit < maxFrameBytes) :
    ({ s.setTrack s.cursor { s.tracks s.cursor with deficit := deficit } with
      cursor := s.cursor + 1, continuing := false } : State α).CreditBounded := by
  have hwaiting : ∀ display, ((s.setTrack s.cursor
      { s.tracks s.cursor with deficit := deficit }).tracks display).deficit < maxFrameBytes := by
    intro display
    by_cases hown : display = s.cursor
    · rw [hown, tracks_setTrack_self]
      exact hdeficit
    · rw [tracks_setTrack_ne _ _ hown]
      exact h.waiting_lt display fun _ => hown
  exact ⟨fun display => (hwaiting display).trans_le (Nat.le_add_right _ _),
    fun display _ => hwaiting display⟩

theorem visited_creditBounded {s : State α} (hs : s.WithinLimits) (h : s.CreditBounded)
    {barrier : ℕ} {result : Option ℕ × State α} (hvisited : Visited s barrier result) :
    result.2.CreditBounded := by
  cases hvisited with
  | absent => exact moved_on_creditBounded h (by decide)
  | @unpaid index entry hindex hentry hcost =>
      have hmem := List.mem_of_getElem? hentry
      have hdisplay := display_of_findIdx? hindex hentry
      exact moved_on_creditBounded h (hcost.trans_le (bytes_le_of_frame hs hmem hdisplay))
  | @served index entry hindex hentry hcost =>
      have hcredit := h.credit_lt
      refine ⟨fun display => ?_, fun display hwaiting => ?_⟩
      · dsimp only
        by_cases hown : display = s.cursor
        · rw [hown, tracks_setTrack_self]
          dsimp only
          omega
        · rw [tracks_setTrack_ne _ _ hown]
          exact h.deficit_lt display
      · have hown : display ≠ s.cursor := hwaiting rfl
        dsimp only
        rw [tracks_setTrack_ne _ _ hown]
        exact h.waiting_lt display fun _ => hown

/-! ## What the visits of a `pop` give -/

/-- From `s` to `s'` there were `rounds` turns, each of them a quantum for a
display with a ready frame, which is spent on the popped item or left. -/
structure Earned (s : State (ℕ × α)) (item : Option (Item α)) (s' : State (ℕ × α))
    (rounds : ℕ) : Prop where
  turn_eq : s'.turn = (s.turn + rounds) % displays
  credit_eq : ∀ display, s.Ready display →
    (s'.tracks display).deficit + bytesOf display item.toList =
      (s.tracks display).deficit + quantum * turns displays s.turn display.val rounds

theorem turn_mod (s : State α) : s.turn % displays = s.turn := Nat.mod_mod _ _

theorem ready_congr {s s' : State α} (h : s'.messages = s.messages) {display : Display} :
    s'.Ready display ↔ s.Ready display := by
  unfold State.Ready
  rw [h, barrier_congr h]

/-- The turns of one visit after another. -/
theorem Earned.trans {s middle s' : State (ℕ × α)} {item : Option (Item α)} {rounds more : ℕ}
    (h : Earned s none middle rounds) (h' : Earned middle item s' more)
    (hmessages : middle.messages = s.messages) : Earned s item s' (rounds + more) where
  turn_eq := by
    rw [h'.turn_eq, h.turn_eq, Nat.mod_add_mod, Nat.add_assoc]
  credit_eq := by
    intro display hready
    have hfirst := h.credit_eq display hready
    have hsecond := h'.credit_eq display ((ready_congr hmessages).mpr hready)
    rw [h.turn_eq] at hsecond
    rw [turns_add, Nat.mul_add]
    simp only [Option.toList_none, bytesOf_nil, Nat.add_zero] at hfirst
    omega

/-- The next turn after a visit that moves on, and after one that serves. -/
theorem turn_next (s : State α) :
    (s.turn + s.visitTurns) % displays = (s.cursor.val + 1) % displays := by
  unfold State.turn State.visitTurns
  rw [Nat.mod_add_mod]
  cases s.continuing <;> rfl

theorem turn_of_next {s s' : State α} (hcursor : s'.cursor = s.cursor + 1)
    (hcontinuing : s'.continuing = false) :
    s'.turn = (s.turn + s.visitTurns) % displays := by
  rw [turn_next]
  unfold State.turn
  rw [hcursor, hcontinuing, val_cursor_succ, Bool.toNat_false, Nat.add_zero, Nat.mod_mod]

theorem turn_of_continuing {s s' : State α} (hcursor : s'.cursor = s.cursor)
    (hcontinuing : s'.continuing = true) :
    s'.turn = (s.turn + s.visitTurns) % displays := by
  rw [turn_next]
  unfold State.turn
  rw [hcursor, hcontinuing]
  rfl

/-- A display with a ready frame is found by its visit. -/
theorem State.Ready.findIdx?_ne_none {s : State α} {display : Display} (h : s.Ready display) :
    (s.messages.take s.barrier).findIdx? (fun e => e.display == some display) ≠ none := by
  obtain ⟨e, he, hdisplay⟩ := h
  rw [Ne, List.findIdx?_eq_none_iff]
  intro hnone
  simpa [hdisplay] using hnone e he

/-- The item that a visit picks. -/
def State.picked (s : State (ℕ × α)) (index : Option ℕ) : Option (Item α) :=
  index.bind fun index => s.messages[index]?.map Entry.item

theorem visited_earned {s : State (ℕ × α)} (hs : s.WithinLimits) (h : s.CreditBounded)
    {result : Option ℕ × State (ℕ × α)} (hvisited : Visited s s.barrier result) :
    Earned s (s.picked result.1) result.2 s.visitTurns := by
  have hcredit := h.credit_eq
  cases hvisited with
  | absent hindex =>
      refine ⟨turn_of_next rfl rfl, fun display hready => ?_⟩
      have hother : display ≠ s.cursor := by
        rintro rfl
        exact hready.findIdx?_ne_none hindex
      rw [turns_visit, if_neg hother]
      simp [State.picked, tracks_setTrack_ne _ _ hother]
  | unpaid hindex hentry hcost =>
      refine ⟨turn_of_next rfl rfl, fun display hready => ?_⟩
      rw [turns_visit]
      by_cases hown : display = s.cursor
      · subst hown
        simp [State.picked, hcredit]
      · simp [State.picked, hown]
  | @served index entry hindex hentry hcost =>
      refine ⟨turn_of_continuing rfl rfl, fun display hready => ?_⟩
      have hpicked : s.picked (some index) = some entry.item := by
        simp [State.picked, hentry]
      have hbytes := (hs.genuine entry (List.mem_of_getElem? hentry)).bytesOf_eq display
      have hdisplay := display_of_findIdx? hindex hentry
      rw [turns_visit, hpicked, Option.toList_some, hbytes, hdisplay]
      by_cases hown : display = s.cursor
      · subst hown
        -- what is spent on the frame and what is left are the credit
        simp only [tracks_setTrack_self, if_true]
        omega
      · have hother : ¬ some s.cursor = some display := fun heq => hown (Option.some.inj heq).symm
        simp [hown, hother]

/-! ## One call -/

theorem popLoop_earned (rounds : ℕ) :
    ∀ {s s' : State (ℕ × α)} {item : Option (Item α)}, s.WithinLimits → s.CreditBounded →
      State.popLoop s.barrier rounds s = some (item, s') →
      s'.CreditBounded ∧ ∃ visits, Earned s item s' visits := by
  induction rounds with
  | zero =>
      intro s s' item hs h hloop
      simp only [State.popLoop, Option.some.injEq, Prod.mk.injEq] at hloop
      obtain ⟨rfl, rfl⟩ := hloop
      exact ⟨h, 0, (turn_mod s).symm, fun display _ => by simp⟩
  | succ rounds ih =>
      intro s s' item hs h hloop
      have hvisited := visit_visited s s.barrier
      have hearned := visited_earned hs h hvisited
      have hbounded := visited_creditBounded hs h hvisited
      obtain ⟨hrotated, hfirst⟩ := visit_rotated s s.barrier
      cases hvisit : (s.visit s.barrier).1 with
      | none =>
          rw [popLoop_of_not_picked rounds hvisit] at hloop
          obtain ⟨hbounded', visits, hvisits⟩ := ih (hrotated.withinLimits hs) hbounded hloop
          rw [hvisit] at hearned
          exact ⟨hbounded', _, hearned.trans hvisits hrotated.messages⟩
      | some index =>
          obtain ⟨before, entry, after, hsplit, rfl, -, -⟩ :=
            split_of_findIdx? (hfirst index hvisit)
          have hremove := remove_of_split (hrotated.byteExact hs.byteExact)
            (hrotated.messages.trans hsplit)
          have hpair : s.visit s.barrier = (some before.length, (s.visit s.barrier).2) :=
            Prod.ext hvisit rfl
          rw [State.popLoop, hpair] at hloop
          simp only [hremove, Option.bind_eq_bind, Option.bind_some, Option.map_some,
            Option.some.injEq, Prod.mk.injEq] at hloop
          obtain ⟨rfl, rfl⟩ := hloop
          have hpicked : s.picked (some before.length) = some entry.item := by
            simp [State.picked, hsplit]
          rw [hvisit, hpicked] at hearned
          exact ⟨hbounded.withMessages _, _, hearned.turn_eq, hearned.credit_eq⟩

theorem pop_earned {s s' : State (ℕ × α)} {item : Option (Item α)} (hs : s.WithinLimits)
    (h : s.CreditBounded) (hpop : s.pop = some (item, s')) :
    s'.CreditBounded ∧ ∃ visits, Earned s item s' visits := by
  unfold State.pop at hpop
  split at hpop
  · next hfront =>
      -- a barrier at the front: nothing is ready, and no track is visited
      obtain ⟨entry, after, hmessages⟩ : ∃ entry after, s.messages = entry :: after := by
        cases hmessages : s.messages with
        | nil => simp [hmessages] at hfront
        | cons entry after => exact ⟨entry, after, rfl⟩
      have hsplit : s.messages = [] ++ entry :: after := hmessages
      have hremove := remove_of_split hs.byteExact hsplit
      have hbarrier : s.barrier = 0 := by
        have hnone : entry.display.isNone = true := by simpa [hmessages] using hfront
        simp [State.barrier, hmessages, List.findIdx?_cons, hnone]
      rw [List.length_nil] at hremove
      simp only [hremove, Option.bind_eq_bind, Option.bind_some, Option.map_some,
        Option.some.injEq, Prod.mk.injEq] at hpop
      obtain ⟨-, rfl⟩ := hpop
      refine ⟨h.withMessages _, 0, (turn_mod s).symm, fun display hready => ?_⟩
      obtain ⟨e, he, -⟩ := hready
      rw [hbarrier] at he
      exact absurd he (List.not_mem_nil)
  · split at hpop
    · simp only [Option.some.injEq, Prod.mk.injEq] at hpop
      obtain ⟨rfl, rfl⟩ := hpop
      exact ⟨h, 0, (turn_mod s).symm, fun display _ => by simp⟩
    · exact popLoop_earned popRounds hs h hpop

/-- The call leaves the round robin where it was, and every credit of a track
that stays on its stream. -/
structure State.KeepsCredit (s s' : State α) : Prop where
  cursor : s'.cursor = s.cursor
  continuing : s'.continuing = s.continuing
  deficit_le : ∀ display, (s'.tracks display).deficit ≤ (s.tracks display).deficit
  deficit_eq : ∀ display, (s'.tracks display).stream = (s.tracks display).stream →
    (s'.tracks display).deficit = (s.tracks display).deficit

/-- The call changes no stream and no credit. -/
structure State.SameCredit (s s' : State α) : Prop where
  cursor : s'.cursor = s.cursor
  continuing : s'.continuing = s.continuing
  tracks : ∀ display, (s'.tracks display).stream = (s.tracks display).stream ∧
    (s'.tracks display).deficit = (s.tracks display).deficit

theorem State.SameCredit.refl (s : State α) : s.SameCredit s := ⟨rfl, rfl, fun _ => ⟨rfl, rfl⟩⟩

theorem State.SameCredit.trans {s s' s'' : State α} (h : s.SameCredit s')
    (h' : s'.SameCredit s'') : s.SameCredit s'' :=
  ⟨h'.cursor.trans h.cursor, h'.continuing.trans h.continuing, fun display =>
    ⟨(h'.tracks display).1.trans (h.tracks display).1,
      (h'.tracks display).2.trans (h.tracks display).2⟩⟩

theorem State.SameCredit.keepsCredit {s s' : State α} (h : s.SameCredit s') : s.KeepsCredit s' :=
  ⟨h.cursor, h.continuing, fun display => (h.tracks display).2.le,
    fun display _ => (h.tracks display).2⟩

theorem setTrack_sameCredit (s : State α) {display : Display} {track : Track}
    (hstream : track.stream = (s.tracks display).stream)
    (hdeficit : track.deficit = (s.tracks display).deficit) :
    s.SameCredit (s.setTrack display track) := by
  refine ⟨rfl, rfl, fun other => ?_⟩
  by_cases hother : other = display
  · subst hother
    simp [hstream, hdeficit]
  · simp [hother]

theorem purged_sameCredit (s : State α) (display : Display) (deltasOnly : Bool) :
    s.SameCredit (s.purged display deltasOnly) := ⟨rfl, rfl, fun _ => ⟨rfl, rfl⟩⟩

@[simp] theorem deficit_lose (t : Track) (frame : ℕ) : (t.lose frame).deficit = t.deficit := by
  unfold Track.lose
  split <;> rfl

@[simp] theorem deficit_accept (t : Track) (key : Bool) (frame : ℕ) :
    (t.accept key frame).deficit = t.deficit := by
  unfold Track.accept
  split <;> rfl

theorem lost_sameCredit (s : State α) (display : Display) (frame : ℕ) :
    s.SameCredit (s.lost display frame) :=
  (setTrack_sameCredit s (stream_lose _ _) (deficit_lose _ _)).trans (purged_sameCredit _ _ _)

theorem enqueued_sameCredit (s : State α) (item : Queued α) (display : Display)
    (frame : VideoFrame) : s.SameCredit (s.enqueued item display frame) := by
  obtain ⟨hcursor, hcontinuing, htracks⟩ :=
    setTrack_sameCredit s (stream_accept (s.tracks display) (leadingKeyframe frame) frame.frameId)
      (deficit_accept _ _ _)
  exact ⟨hcursor, hcontinuing, htracks⟩

theorem switched_sameCredit (s : State α) (display : Display) (enabled : Bool) :
    s.SameCredit (s.switched display enabled) := by
  unfold State.switched
  split
  · split
    · exact .refl s
    · exact (purged_sameCredit s display false).trans (setTrack_sameCredit _ rfl rfl)
  · split
    · exact setTrack_sameCredit _ rfl rfl
    · exact .refl s

theorem resubscribed_sameCredit (s : State α) (subscribed : List ℕ) :
    s.SameCredit (s.resubscribed subscribed) :=
  resubscribed_invariant subscribed (fun _ _ _ h => h.trans (switched_sameCredit _ _ _))
    (.refl s)

theorem recoveryDue_sameCredit (s : State α) (now : Instant) :
    s.SameCredit (s.recoveryDue now).2 := by
  refine ⟨rfl, rfl, fun display => ?_⟩
  change ((s.tracks display).recoveryDue now).2.stream = _ ∧
    ((s.tracks display).recoveryDue now).2.deficit = _
  unfold Track.recoveryDue
  split <;> exact ⟨rfl, rfl⟩

/-- A frame of another stream starts its track without credit. -/
theorem prepared_keepsCredit (s : State α) (display : Display) (frame : VideoFrame) :
    s.KeepsCredit (s.prepared display frame) := by
  have hentered : s.KeepsCredit (s.entered display frame.streamId (leadingKeyframe frame)) := by
    unfold State.entered
    split
    · next hstream =>
        refine ⟨rfl, rfl, fun other => ?_, fun other hsame => ?_⟩
        · by_cases hother : other = display <;> simp [hother]
        · by_cases hother : other = display
          · subst hother
            rw [tracks_setTrack_self] at hsame
            exact absurd hsame.symm hstream
          · simp [hother]
    · exact (State.SameCredit.refl s).keepsCredit
  unfold State.prepared
  split
  · exact ⟨hentered.cursor, hentered.continuing, hentered.deficit_le, hentered.deficit_eq⟩
  · exact hentered

theorem State.KeepsCredit.trans_same {s s' s'' : State α} (h : s.KeepsCredit s')
    (h' : s'.SameCredit s'') : s.KeepsCredit s'' := by
  refine ⟨h'.cursor.trans h.cursor, h'.continuing.trans h.continuing, fun display => ?_,
    fun display hstream => ?_⟩
  · exact (h'.tracks display).2.trans_le (h.deficit_le display)
  · rw [(h'.tracks display).1] at hstream
    exact (h'.tracks display).2.trans (h.deficit_eq display hstream)

theorem pushed_keepsCredit {s s' : State α} {item : Queued α} (hpushed : Pushed s item s') :
    s.KeepsCredit s' := by
  have hsame := (State.SameCredit.refl s).keepsCredit
  cases hpushed with
  | unknown => exact hsame
  | refused => exact hsame
  | lost => exact (prepared_keepsCredit s _ _).trans_same (lost_sameCredit _ _ _)
  | enqueued => exact (prepared_keepsCredit s _ _).trans_same (enqueued_sameCredit _ _ _ _)
  | overflow => exact ⟨hsame.cursor, hsame.continuing, hsame.deficit_le, hsame.deficit_eq⟩
  | control => exact ⟨hsame.cursor, hsame.continuing, hsame.deficit_le, hsame.deficit_eq⟩

theorem State.KeepsCredit.creditBounded {s s' : State α} (h : s.KeepsCredit s')
    (hs : s.CreditBounded) : s'.CreditBounded := by
  refine ⟨fun display => (h.deficit_le display).trans_lt (hs.deficit_lt display),
    fun display hwaiting => (h.deficit_le display).trans_lt (hs.waiting_lt display ?_)⟩
  rwa [h.cursor, h.continuing] at hwaiting

theorem State.KeepsCredit.turn_eq {s s' : State α} (h : s.KeepsCredit s') : s'.turn = s.turn := by
  unfold State.turn
  rw [h.cursor, h.continuing]

/-- Every call but `pop` keeps the credit. -/
theorem moved_keepsCredit {s s' : System α} {event : Event α} (hmoved : Moved s event s')
    (hpop : event.isPop = false) : s.queue.KeepsCredit s'.queue := by
  cases hmoved with
  | push _ hpushed => exact pushed_keepsCredit hpushed
  | pop => simp at hpop
  | lose hlosing =>
      cases hlosing with
      | other => exact (State.SameCredit.refl _).keepsCredit
      | lost => exact (lost_sameCredit _ _ _).keepsCredit
  | @setDisplays subscribed =>
      dsimp only
      exact (resubscribed_sameCredit _ subscribed).keepsCredit
  | recoveryDue => exact (recoveryDue_sameCredit _ _).keepsCredit

/-! ## Runs -/

theorem step_creditBounded {s s' : System α} {event : Event α} (hs : s.queue.WithinLimits)
    (h : s.queue.CreditBounded) (step : Step s event s') : s'.queue.CreditBounded := by
  cases hpop : event.isPop with
  | false => exact (moved_keepsCredit (step.moved hs) hpop).creditBounded h
  | true =>
      cases step with
      | pop hcall => exact (pop_earned hs h hcall).1
      | _ => simp at hpop

/-- In every reachable state the credit is bounded. -/
theorem run_creditBounded {s : System α} {events : List (Event α)}
    (run : Run Step System.start events s) : s.queue.CreditBounded := by
  have hboth : s.queue.WithinLimits ∧ s.queue.CreditBounded := by
    refine run.stateInvariant (fun s => s.queue.WithinLimits ∧ s.queue.CreditBounded)
      ⟨initial_withinLimits, initial_creditBounded⟩ fun _ _ _ hbefore step => ?_
    exact ⟨moved_withinLimits hbefore.1 (step.moved hbefore.1),
      step_creditBounded hbefore.1 hbefore.2 step⟩
  exact hboth.2

/-- The bytes popped for a display. -/
def poppedBytes (display : Display) (events : List (Event α)) : ℕ := bytesOf display (pops events)

/-- A step of the comparison of two displays: both have a frame in front of the
first barrier before every `pop`, and stay on their stream and subscribed or
not as they are. -/
structure FairStep (i j : Display) (s : System α) (event : Event α) (s' : System α) : Prop where
  step : Step s event s'
  ready : event.isPop = true → s.queue.Ready i ∧ s.queue.Ready j
  keeps : ∀ display, display = i ∨ display = j →
    (s'.queue.tracks display).stream = (s.queue.tracks display).stream ∧
      (s'.queue.tracks display).enabled = (s.queue.tracks display).enabled

/-- Since `s` there were `rounds` turns; the two displays were given a quantum
each time, and have it or have spent it. -/
structure Accounted (i j : Display) (s : System α) (events : List (Event α)) (s' : System α)
    (rounds : ℕ) : Prop where
  turn_eq : s'.queue.turn = (s.queue.turn + rounds) % displays
  credit_eq : ∀ display, display = i ∨ display = j →
    (s'.queue.tracks display).deficit + poppedBytes display events =
      (s.queue.tracks display).deficit + quantum * turns displays s.queue.turn display.val rounds

theorem fairStep_accounted {i j : Display} {s before after : System α}
    {events : List (Event α)} {event : Event α} {rounds : ℕ}
    (hlimits : before.queue.WithinLimits) (hbounded : before.queue.CreditBounded)
    (h : Accounted i j s events before rounds) (hfair : FairStep i j before event after) :
    ∃ rounds', Accounted i j s (events ++ [event]) after rounds' := by
  cases hpop : event.isPop with
  | false =>
      have hkeeps := moved_keepsCredit (hfair.step.moved hlimits) hpop
      refine ⟨rounds, hkeeps.turn_eq.trans h.turn_eq, fun display hdisplay => ?_⟩
      have hnothing : event.popped? = none := by cases event <;> simp_all
      have hbytes : poppedBytes display (events ++ [event]) = poppedBytes display events := by
        unfold poppedBytes
        rw [pops_append, pops_single, hnothing, Option.toList_none, List.append_nil]
      rw [hkeeps.deficit_eq display (hfair.keeps display hdisplay).1, hbytes]
      exact h.credit_eq display hdisplay
  | true =>
      obtain ⟨hi, hj⟩ := hfair.ready hpop
      have hready : ∀ display, display = i ∨ display = j → before.queue.Ready display := by
        rintro display (rfl | rfl)
        · exact hi
        · exact hj
      cases hfair.step with
      | @pop queue item hcall =>
          obtain ⟨-, visits, hearned⟩ := pop_earned hlimits hbounded hcall
          refine ⟨rounds + visits, ?_, fun display hdisplay => ?_⟩
          · rw [hearned.turn_eq, h.turn_eq, Nat.mod_add_mod, Nat.add_assoc]
          · have hsince := h.credit_eq display hdisplay
            have hnow := hearned.credit_eq display (hready display hdisplay)
            rw [h.turn_eq] at hnow
            unfold poppedBytes at *
            rw [pops_append, bytesOf_append, pops_single, turns_add, Nat.mul_add]
            simp only [Event.popped?]
            omega
      | _ => simp at hpop

theorem fairRun_accounted {i j : Display} {s s' : System α} {more : List (Event α)}
    (hlimits : s.queue.WithinLimits) (hbounded : s.queue.CreditBounded)
    (fair : Run (FairStep i j) s more s') : ∃ rounds, Accounted i j s more s' rounds := by
  have hall : s'.queue.WithinLimits ∧ s'.queue.CreditBounded ∧
      ∃ rounds, Accounted i j s more s' rounds := by
    refine fair.invariant (fun events state => state.queue.WithinLimits ∧
      state.queue.CreditBounded ∧ ∃ rounds, Accounted i j s events state rounds)
      ⟨hlimits, hbounded, 0, (turn_mod _).symm, fun _ _ => by simp [poppedBytes, pops]⟩ ?_
    rintro events before event after ⟨hlimits', hbounded', rounds, haccounted⟩ hfair
    exact ⟨moved_withinLimits hlimits' (hfair.step.moved hlimits'),
      step_creditBounded hlimits' hbounded' hfair.step,
      fairStep_accounted hlimits' hbounded' haccounted hfair⟩
  exact hall.2.2

/-- What was popped for two displays differs by a quantum and the credit they
had or have left. -/
theorem Accounted.poppedBytes_le {i j : Display} {s s' : System α} {more : List (Event α)}
    {rounds : ℕ} (h : Accounted i j s more s' rounds) (hs : s.queue.CreditBounded)
    (hs' : s'.queue.CreditBounded) {x y : Display} (hx : x = i ∨ x = j) (hy : y = i ∨ y = j) :
    poppedBytes x more ≤ poppedBytes y more + (2 * (maxFrameBytes + quantum) + quantum) := by
  have hturns : turns displays s.queue.turn x.val rounds ≤
      turns displays s.queue.turn y.val rounds + 1 :=
    turns_le_succ (by decide) x.isLt y.isLt rounds
  have hgiven : quantum * turns displays s.queue.turn x.val rounds ≤
      quantum * turns displays s.queue.turn y.val rounds + quantum := by
    calc quantum * turns displays s.queue.turn x.val rounds
      _ ≤ quantum * (turns displays s.queue.turn y.val rounds + 1) :=
          Nat.mul_le_mul_left _ hturns
      _ = quantum * turns displays s.queue.turn y.val rounds + quantum := Nat.mul_succ _ _
  have hcreditx := h.credit_eq x hx
  have hcredity := h.credit_eq y hy
  have hbefore := hs.deficit_lt x
  have hafter := hs'.deficit_lt y
  omega

/-- **Byte fairness.**  However long two displays have a frame ready before
every `pop`, the bytes popped for them stay within two frames and three quanta,
and no track holds the credit of a frame and a quantum. -/
theorem pops_fair {i j : Display} {events more : List (Event α)} {s s' : System α}
    (run : Run Step System.start events s) (fair : Run (FairStep i j) s more s') :
    (∀ display, (s'.queue.tracks display).deficit < maxFrameBytes + quantum) ∧
      poppedBytes i more ≤ poppedBytes j more + (2 * (maxFrameBytes + quantum) + quantum) ∧
      poppedBytes j more ≤ poppedBytes i more + (2 * (maxFrameBytes + quantum) + quantum) := by
  have hs := run_creditBounded run
  have hs' : s'.queue.CreditBounded :=
    run_creditBounded (run.append (fair.mono fun _ _ _ hfair => hfair.step))
  obtain ⟨rounds, haccounted⟩ :=
    fairRun_accounted (run_withinLimits initial_withinLimits run) hs fair
  exact ⟨hs'.deficit_lt, haccounted.poppedBytes_le hs hs' (.inl rfl) (.inr rfl),
    haccounted.poppedBytes_le hs hs' (.inr rfl) (.inl rfl)⟩

/-- A keyframe of the first stream of a display. -/
def keyframe (display : ℤ) (number : ℕ) : Item Unit :=
  { time := 0
    message :=
      { union := some (.videoFrame
          { display := display, streamId := 1, frameId := 1,
            union := some (.vp9s [{ data := [0], key := true }]) })
        computeSize := 10
        rest := (number, ()) } }

/-- `pops_fair` at a keyframe of display 0 that comes out in front of one of display 1. -/
theorem pops_fair_keyframes :
    poppedBytes 0 [.pop (some (keyframe 0 0))] ≤
      poppedBytes 1 [.pop (some (keyframe 0 0))] +
        (2 * (maxFrameBytes + quantum) + quantum) := by
  have hcalls : ∃ first second third : State (ℕ × Unit),
      Returns (State.new.push (keyframe 0 0)) first ∧
        Returns (first.push (keyframe 1 1)) second ∧
        second.pop = some (some (keyframe 0 0), third) ∧
        second.Ready 0 ∧ second.Ready 1 ∧
        ∀ display : Display, display = 0 ∨ display = 1 →
          (third.tracks display).stream = (second.tracks display).stream ∧
            (third.tracks display).enabled = (second.tracks display).enabled := by
    refine ⟨_, _, _, ⟨_, rfl⟩, ⟨_, rfl⟩, rfl, by decide, by decide, ?_⟩
    rintro display (rfl | rfl) <;> exact ⟨rfl, rfl⟩
  obtain ⟨first, second, third, hfirst, hsecond, hthird, hready, hready', hkeeps⟩ := hcalls
  have hpushes : Run Step System.start
      ([.push (keyframe 0 0)] ++ [.push (keyframe 1 1)]) ⟨second, 2⟩ :=
    (Run.single (.push rfl hfirst)).snoc (.push rfl hsecond)
  have hfair : Run (FairStep 0 1) ⟨second, 2⟩ [.pop (some (keyframe 0 0))] ⟨third, 2⟩ :=
    .single ⟨.pop hthird, fun _ => ⟨hready, hready'⟩, hkeeps⟩
  exact (pops_fair hpushes hfair).2.1

end RustAdmin.VideoQueue
