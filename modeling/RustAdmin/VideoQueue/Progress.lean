import RustAdmin.VideoQueue.Resources

/-!
# Progress of the deficit round robin

The rounds of `pop` are bounded, so it could give up with entries still queued.
It does not: the first entry of the queue costs at most `maxFrameBytes`, its
display is visited every `displays` rounds, and every visit that does not serve
it leaves one `quantum` more on its track.  The very first visit may go on with
a served track and give no credit, which is what the additional round is for.
-/

namespace RustAdmin.VideoQueue

open RustAdmin.Support

variable {α : Type}

/-- The number of visits before the cursor reaches `target`. -/
def distance (cursor target : Display) : ℕ :=
  (target.val + displays - cursor.val) % displays

theorem distance_lt (cursor target : Display) : distance cursor target < displays :=
  Nat.mod_lt _ (by decide)

theorem val_cursor_succ (cursor : Display) : (cursor + 1).val = (cursor.val + 1) % displays := by
  rw [Fin.val_add]
  rfl

theorem distance_succ_self (cursor : Display) : distance (cursor + 1) cursor = displays - 1 := by
  have hlt := cursor.isLt
  unfold distance
  rw [val_cursor_succ]
  simp only [displays] at hlt ⊢
  omega

theorem distance_succ {cursor target : Display} (h : cursor ≠ target) :
    distance (cursor + 1) target + 1 = distance cursor target := by
  have hlt := cursor.isLt
  have hlt' := target.isLt
  have hne : cursor.val ≠ target.val := fun heq => h (Fin.ext heq)
  unfold distance
  rw [val_cursor_succ]
  simp only [displays] at hlt hlt' ⊢
  omega

/-! ## One visit -/

theorem visit_next (s : State α) (barrier : ℕ) (hnone : (s.visit barrier).1 = none) :
    (s.visit barrier).2.cursor = s.cursor + 1 ∧ (s.visit barrier).2.continuing = false := by
  have hvisited := visit_visited s barrier
  generalize s.visit barrier = result at hvisited hnone ⊢
  cases hvisited with
  | absent => exact ⟨rfl, rfl⟩
  | served => cases hnone
  | unpaid => exact ⟨rfl, rfl⟩

/-- A visit changes no other track. -/
theorem visit_tracks_ne (s : State α) (barrier : ℕ) {display : Display}
    (h : display ≠ s.cursor) : (s.visit barrier).2.tracks display = s.tracks display := by
  have hvisited := visit_visited s barrier
  generalize s.visit barrier = result at hvisited ⊢
  cases hvisited with
  | absent => exact tracks_setTrack_ne _ _ h
  | served => exact tracks_setTrack_ne _ _ h
  | unpaid => exact tracks_setTrack_ne _ _ h

/-- A visit that cannot pay for the frame of its display leaves a quantum more. -/
theorem visit_unpaid {s : State α} {barrier index : ℕ} {entry : Entry α}
    (hindex : (s.messages.take barrier).findIdx? (fun e => e.display == some s.cursor) =
      some index)
    (hentry : s.messages[index]? = some entry) (hcost : entry.bytes ≤ maxFrameBytes)
    (hcontinuing : s.continuing = false) (hnone : (s.visit barrier).1 = none) :
    ((s.visit barrier).2.tracks s.cursor).deficit = (s.tracks s.cursor).deficit + quantum ∧
      (s.tracks s.cursor).deficit + quantum < entry.bytes := by
  have hvisited := visit_visited s barrier
  generalize s.visit barrier = result at hvisited hnone ⊢
  cases hvisited with
  | absent habsent => exact absurd (hindex.symm.trans habsent) nofun
  | served => cases hnone
  | unpaid hfound hvisitedEntry hunpaid =>
      obtain rfl := Option.some.inj (hindex.symm.trans hfound)
      obtain rfl := Option.some.inj (hentry.symm.trans hvisitedEntry)
      have hcredit : s.credit = (s.tracks s.cursor).deficit + quantum := by
        have hbound : maxFrameBytes + quantum < usizeMax := by decide
        unfold State.credit saturatingAdd at *
        simp only [hcontinuing, Bool.false_eq_true, if_false] at hunpaid ⊢
        omega
      rw [← hcredit]
      exact ⟨congrArg Track.deficit (tracks_setTrack_self _ _ _), hunpaid⟩

/-! ## The rounds -/

/-- A visit that picks an entry ends the rounds. -/
theorem popLoop_of_picked {s : State α} (hexact : s.ByteExact) {index : ℕ} (rounds : ℕ)
    (hpicked : (s.visit s.barrier).1 = some index) :
    ∃ item s', State.popLoop s.barrier (rounds + 1) s = some (some item, s') := by
  obtain ⟨hrotated, hfirst⟩ := visit_rotated s s.barrier
  obtain ⟨before, served, after, hsplit, rfl, -, -⟩ := split_of_findIdx? (hfirst _ hpicked)
  have hremove := remove_of_split (hrotated.byteExact hexact) (hrotated.messages.trans hsplit)
  have hpair : s.visit s.barrier = (some before.length, (s.visit s.barrier).2) :=
    Prod.ext hpicked rfl
  refine ⟨served.item, (s.visit s.barrier).2.withMessages (before ++ after), ?_⟩
  rw [State.popLoop, hpair]
  simp only [hremove, Option.bind_eq_bind, Option.bind_some, Option.map_some]

/-- A visit that picks nothing hands over to the next round. -/
theorem popLoop_of_not_picked {s : State α} (rounds : ℕ)
    (hnone : (s.visit s.barrier).1 = none) :
    State.popLoop s.barrier (rounds + 1) s =
      State.popLoop (s.visit s.barrier).2.barrier rounds (s.visit s.barrier).2 := by
  have hpair : s.visit s.barrier = (none, (s.visit s.barrier).2) := Prod.ext hnone rfl
  rw [barrier_congr (visit_rotated s s.barrier).1.messages, State.popLoop, hpair]

/-- The rounds serve an entry if they are enough to bring the cursor to a
display with a queued frame `k` times more after its credit lacks `k` quanta. -/
theorem popLoop_serves (display : Display) (index : ℕ) (entry : Entry α)
    (hcost : entry.bytes ≤ maxFrameBytes) (rounds : ℕ) :
    ∀ (s : State α) (k : ℕ), s.ByteExact → s.continuing = false →
      (s.messages.take s.barrier).findIdx? (fun e => e.display == some display) = some index →
      s.messages[index]? = some entry →
      entry.bytes ≤ (s.tracks display).deficit + quantum * (k + 1) →
      distance s.cursor display + displays * k < rounds →
      ∃ item s', State.popLoop s.barrier rounds s = some (some item, s') := by
  induction rounds with
  -- `distance + displays * k` counts the visits that are left, and each visit lowers it
  | zero =>
      intro s k _ _ _ _ _ hrounds
      exact absurd hrounds (Nat.not_lt_zero _)
  | succ rounds ih =>
      intro s k hexact hcontinuing hindex hentry hcredit hrounds
      have hrotated := (visit_rotated s s.barrier).1
      have hbarrier := barrier_congr hrotated.messages
      cases hvisit : (s.visit s.barrier).1 with
      | some picked => exact popLoop_of_picked hexact rounds hvisit
      | none =>
          obtain ⟨hcursor, hnext⟩ := visit_next s s.barrier hvisit
          rw [popLoop_of_not_picked rounds hvisit]
          by_cases hown : s.cursor = display
          · -- the display itself was visited and could not pay
            subst hown
            obtain ⟨hdeficit, hunpaid⟩ := visit_unpaid hindex hentry hcost hcontinuing hvisit
            obtain ⟨k, rfl⟩ : ∃ j, k = j + 1 := by
              refine Nat.exists_eq_succ_of_ne_zero ?_
              rintro rfl
              omega
            refine ih _ k (hrotated.byteExact hexact) hnext ?_ ?_ ?_ ?_
            · rw [hbarrier, hrotated.messages, hindex]
            · rw [hrotated.messages, hentry]
            · rw [hdeficit]
              have hquanta : quantum * (k + 1 + 1) = quantum * (k + 1) + quantum :=
                Nat.mul_succ quantum (k + 1)
              omega
            · have hpositive : 0 < displays := by decide
              have hsucc : displays * (k + 1) = displays * k + displays := Nat.mul_succ displays k
              rw [hcursor, distance_succ_self]
              omega
          -- another display was visited: the cursor is one step closer, the credit the same
          · have hother : display ≠ s.cursor := fun h => hown h.symm
            have htrack := visit_tracks_ne s s.barrier hother
            refine ih _ k (hrotated.byteExact hexact) hnext ?_ ?_ ?_ ?_
            · rw [hbarrier, hrotated.messages, hindex]
            · rw [hrotated.messages, hentry]
            · rw [htrack]
              exact hcredit
            · have hdistance := distance_succ hown
              rw [hcursor]
              omega

/-- A queued entry is never larger than a frame may be, unless it is a barrier. -/
theorem bytes_le_of_frame {s : State α} (hs : s.WithinLimits) {entry : Entry α}
    (hentry : entry ∈ s.messages) {display : Display} (hdisplay : entry.display = some display) :
    entry.bytes ≤ maxFrameBytes :=
  (le_byteSum_of_mem (mem_framesOf.mpr ⟨hentry, hdisplay⟩)).trans (hs.track_bytes_le display)

/-- `pop` serves an entry of every nonempty queue. -/
theorem pop_serves {s : State α} (hs : s.WithinLimits) (hmessages : s.messages ≠ []) :
    ∃ item s', s.pop = some (some item, s') := by
  obtain ⟨entry, rest, hcons⟩ := List.exists_cons_of_ne_nil hmessages
  cases hdisplay : entry.display with
  | none =>
      have hsplit : s.messages = [] ++ entry :: rest := hcons
      have hremove := remove_of_split hs.byteExact hsplit
      refine ⟨entry.item, s.withMessages ([] ++ rest), ?_⟩
      simp only [List.length_nil] at hremove
      simp [State.pop, hcons, hdisplay, hremove]
  | some display =>
      have hfront : ¬ s.messages.head?.any (fun e => e.display.isNone) = true := by
        simp [hcons, hdisplay]
      have hbarrier : 0 < s.barrier := by
        unfold State.barrier
        rw [hcons, List.findIdx?_cons]
        cases hfind : rest.findIdx? fun e => e.display.isNone <;> simp [hdisplay]
      have hfind : (s.messages.take s.barrier).findIdx? (fun e => e.display == some display) =
          some 0 := by
        obtain ⟨b, hb⟩ : ∃ b, s.barrier = b + 1 :=
          Nat.exists_eq_succ_of_ne_zero (Nat.pos_iff_ne_zero.mp hbarrier)
        rw [hb, hcons, List.take_succ_cons, List.findIdx?_cons]
        simp [hdisplay]
      have hcost : entry.bytes ≤ maxFrameBytes := by
        refine bytes_le_of_frame hs ?_ hdisplay
        rw [hcons]
        exact List.mem_cons_self
      have hpop : s.pop = State.popLoop s.barrier popRounds s := by
        unfold State.pop
        rw [if_neg hfront, if_neg (Nat.pos_iff_ne_zero.mp hbarrier)]
      obtain ⟨rounds, hrounds⟩ : ∃ rounds, popRounds = rounds + 1 := ⟨popRounds - 1, by decide⟩
      have hrotated := (visit_rotated s s.barrier).1
      have hbarrier' := barrier_congr hrotated.messages
      rw [hpop, hrounds]
      cases hvisit : (s.visit s.barrier).1 with
      | some picked => exact popLoop_of_picked hs.byteExact rounds hvisit
      | none =>
          -- from the second visit on, every visit gives credit
          rw [popLoop_of_not_picked rounds hvisit]
          refine popLoop_serves display 0 entry hcost rounds _ 255 (hrotated.byteExact hs.byteExact)
            (visit_next s s.barrier hvisit).2 ?_ ?_ ?_ ?_
          · rw [hbarrier', hrotated.messages, hfind]
          · rw [hrotated.messages, hcons]
            rfl
          · have hquanta : maxFrameBytes = quantum * (255 + 1) := by decide
            calc entry.bytes ≤ maxFrameBytes := hcost
              _ = quantum * (255 + 1) := hquanta
              _ ≤ _ := Nat.le_add_left _ _
          · have hdistance := distance_lt (s.visit s.barrier).2.cursor display
            have hbound : displays + displays * 255 ≤ rounds := by
              have hrounds' : displays + displays * 255 < popRounds := by decide
              rw [hrounds] at hrounds'
              exact Nat.le_of_lt_succ hrounds'
            calc distance (s.visit s.barrier).2.cursor display + displays * 255
              _ < displays + displays * 255 := Nat.add_lt_add_right hdistance _
              _ ≤ rounds := hbound

theorem pop_of_nil {s : State α} (hmessages : s.messages = []) : s.pop = some (none, s) := by
  simp [State.pop, State.barrier, hmessages]

/-- **Progress.**  Every sequence of calls leads to a queue whose `pop` comes
back without an entry only if none is queued. -/
theorem pop_eq_none_iff (calls : List (Call α)) :
    ∃ s : State α, calls.foldlM State.call State.new = some s ∧
      ∃ item s', s.pop = some (item, s') ∧ (item = none ↔ s.messages = []) := by
  obtain ⟨s, hcalls, hs⟩ := calls_withinLimits calls
  refine ⟨s, hcalls, ?_⟩
  by_cases hmessages : s.messages = []
  · exact ⟨none, s, pop_of_nil hmessages, by simp [hmessages]⟩
  · obtain ⟨item, s', hpop⟩ := pop_serves hs hmessages
    exact ⟨some item, s', hpop, by simp [hmessages]⟩

end RustAdmin.VideoQueue
