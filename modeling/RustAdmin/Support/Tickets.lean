import Mathlib.Data.List.Basic

/-!
# A queue whose tickets stand for the items of another

A main queue holds items of its own (`some x`) and anonymous tickets (`none`);
each ticket is redeemed for whatever is then at the front of a side queue.
`redeem` is the order in which the items come out.  A consumer that discards
side items until it meets an item of the main queue takes out `redeemLive`.

What arrives at the back of either queue arrives at the end of `redeem`
(`redeem_concat_some`, `redeem_concat_none`).  To evict the oldest side item shifts
the items under the tickets, which keeps the order only where all tickets stand behind
the items of the main queue (`TicketsLast`).  `Covered` is the other side of it: there
are tickets for all side items, and those that come out behind an item of the main
queue are later than it.
-/

namespace RustAdmin.Support

variable {ι : Type*}

/-- The items in the order in which the two queues hand them out. -/
def redeem : List (Option ι) → List ι → List ι
  | [], _ => []
  | some x :: main, side => x :: redeem main side
  | none :: main, [] => redeem main []
  | none :: main, y :: side => y :: redeem main side

/-- The number of tickets of a main queue. -/
def tickets (main : List (Option ι)) : ℕ :=
  main.countP Option.isNone

@[simp] theorem tickets_nil : tickets ([] : List (Option ι)) = 0 := rfl

@[simp] theorem tickets_some (x : ι) (main : List (Option ι)) :
    tickets (some x :: main) = tickets main := by
  simp [tickets]

@[simp] theorem tickets_none (main : List (Option ι)) :
    tickets (none :: main) = tickets main + 1 := by
  simp [tickets]

@[simp] theorem tickets_append (main more : List (Option ι)) :
    tickets (main ++ more) = tickets main + tickets more := by
  simp [tickets]

/-! ## What arrives at the back -/

theorem redeem_append (main more : List (Option ι)) (side : List ι) :
    redeem (main ++ more) side = redeem main side ++ redeem more (side.drop (tickets main)) := by
  induction main generalizing side with
  | nil => simp [redeem]
  | cons entry main ih =>
      cases entry with
      | some x => simp [redeem, ih]
      | none =>
          cases side with
          | nil => simp [redeem, ih]
          | cons y side => simp [redeem, ih]

/-- Side items beyond the tickets do not come out. -/
theorem redeem_extra (main : List (Option ι)) (side more : List ι)
    (h : tickets main ≤ side.length) : redeem main (side ++ more) = redeem main side := by
  induction main generalizing side with
  | nil => rfl
  | cons entry main ih =>
      cases entry with
      | some x => simpa [redeem] using ih side (by simpa using h)
      | none =>
          cases side with
          | nil => simp at h
          | cons y side =>
              simp only [List.cons_append, redeem]
              rw [ih side (by simpa using h)]

/-- A new item of the main queue comes out last. -/
theorem redeem_concat_some (main : List (Option ι)) (side : List ι) (x : ι) :
    redeem (main ++ [some x]) side = redeem main side ++ [x] := by
  simp [redeem_append, redeem]

/-- A new side item with its ticket comes out last. -/
theorem redeem_concat_none (main : List (Option ι)) (side : List ι) (y : ι)
    (h : tickets main = side.length) :
    redeem (main ++ [none]) (side ++ [y]) = redeem main side ++ [y] := by
  rw [redeem_append, redeem_extra main side [y] (Nat.le_of_eq h), h, List.drop_left]
  rfl

/-! ## The oldest side item is evicted -/

/-- No item of the main queue waits behind a ticket. -/
def TicketsLast (main : List (Option ι)) : Prop :=
  main.Pairwise fun earlier later => earlier = none → later = none

theorem TicketsLast.tail {entry : Option ι} {main : List (Option ι)}
    (h : TicketsLast (entry :: main)) : TicketsLast main :=
  (List.pairwise_cons.mp h).2

/-- Where only tickets are left, the side items come out in their order. -/
theorem redeem_of_all_tickets {main : List (Option ι)} (hall : ∀ entry ∈ main, entry = none)
    {side : List ι} (h : tickets main = side.length) : redeem main side = side := by
  induction main generalizing side with
  | nil => exact (List.length_eq_zero_iff.mp (by simpa using h.symm)).symm
  | cons entry main ih =>
      obtain rfl : entry = none := hall entry (by simp)
      cases side with
      | nil => simp at h
      | cons y side =>
          have hmain : redeem main side = side :=
            ih (fun other hother => hall other (List.mem_cons_of_mem _ hother)) (by simpa using h)
          simp [redeem, hmain]

/-- An eviction for a new side item, where no item of the main queue is passed. -/
theorem redeem_evict {main : List (Option ι)} (hlast : TicketsLast main) {side : List ι}
    (h : tickets main = side.length) (y : ι) :
    (redeem main (side.tail ++ [y])).Sublist (redeem main side ++ [y]) := by
  induction main with
  | nil => exact List.nil_sublist _
  | cons entry main ih =>
      cases entry with
      | some x =>
          have hmain := ih hlast.tail (by simpa using h)
          simpa [redeem] using hmain.cons_cons x
      | none =>
          -- Only tickets follow a ticket.
          have hall : ∀ other ∈ none :: main, other = none := by
            intro other hother
            rcases List.mem_cons.mp hother with rfl | hmem
            · rfl
            · exact (List.pairwise_cons.mp hlast).1 other hmem rfl
          cases side with
          | nil => simp at h
          | cons first side =>
              have hafter : redeem (none :: main) (side ++ [y]) = side ++ [y] :=
                redeem_of_all_tickets hall (by simpa using h)
              have hbefore : redeem (none :: main) (first :: side) = first :: side :=
                redeem_of_all_tickets hall h
              rw [hbefore]
              show (redeem (none :: main) (side ++ [y])).Sublist (first :: side ++ [y])
              rw [hafter]
              exact List.sublist_cons_self _ _

/-! ## A consumer that discards side items -/

/-- The items that come out where side items are discarded until the first item
of the main queue. -/
def redeemDiscarding : List (Option ι) → List ι → List ι
  | [], _ => []
  | some x :: main, side => x :: redeem main side
  | none :: main, side => redeemDiscarding main side.tail

/-- What still comes out for a consumer that is discarding or not. -/
def redeemLive (discarding : Bool) (main : List (Option ι)) (side : List ι) : List ι :=
  if discarding then redeemDiscarding main side else redeem main side

/-- `TicketsLast` of the part that is not discarded. -/
def LiveTicketsLast (discarding : Bool) (main : List (Option ι)) : Prop :=
  TicketsLast (if discarding then main.dropWhile Option.isNone else main)

theorem redeemDiscarding_sublist (main : List (Option ι)) (side : List ι) :
    (redeemDiscarding main side).Sublist (redeem main side) := by
  induction main generalizing side with
  | nil => exact List.Sublist.refl _
  | cons entry main ih =>
      cases entry with
      | some x => exact List.Sublist.refl _
      | none =>
          cases side with
          | nil => exact ih []
          | cons y side => exact (ih side).trans (List.sublist_cons_self _ _)

theorem redeemLive_sublist (discarding : Bool) (main : List (Option ι)) (side : List ι) :
    (redeemLive discarding main side).Sublist (redeem main side) := by
  cases discarding with
  | false => exact List.Sublist.refl _
  | true => exact redeemDiscarding_sublist main side

theorem redeemLive_concat_some (discarding : Bool) (main : List (Option ι)) (side : List ι)
    (x : ι) :
    redeemLive discarding (main ++ [some x]) side = redeemLive discarding main side ++ [x] := by
  cases discarding with
  | false => exact redeem_concat_some main side x
  | true =>
      show redeemDiscarding (main ++ [some x]) side = redeemDiscarding main side ++ [x]
      induction main generalizing side with
      | nil => rfl
      | cons entry main ih =>
          cases entry with
          | some z => simp [redeemDiscarding, redeem_concat_some]
          | none => simpa [redeemDiscarding] using ih side.tail

theorem redeemLive_concat_none (discarding : Bool) (main : List (Option ι)) (side : List ι)
    (y : ι) (h : tickets main = side.length) :
    (redeemLive discarding (main ++ [none]) (side ++ [y])).Sublist
      (redeemLive discarding main side ++ [y]) := by
  cases discarding with
  | false =>
      show (redeem (main ++ [none]) (side ++ [y])).Sublist (redeem main side ++ [y])
      rw [redeem_concat_none main side y h]
  | true =>
      show (redeemDiscarding (main ++ [none]) (side ++ [y])).Sublist
        (redeemDiscarding main side ++ [y])
      induction main generalizing side with
      | nil => exact List.nil_sublist _
      | cons entry main ih =>
          cases entry with
          | some z =>
              have hmain := redeem_concat_none main side y (by simpa using h)
              simp [redeemDiscarding, hmain]
          | none =>
              cases side with
              | nil => simp at h
              | cons first side => simpa [redeemDiscarding] using ih side (by simpa using h)

theorem redeemDiscarding_evict {main : List (Option ι)}
    (hlast : TicketsLast (main.dropWhile Option.isNone)) {side : List ι}
    (h : tickets main = side.length) (y : ι) :
    (redeemDiscarding main (side.tail ++ [y])).Sublist (redeemDiscarding main side ++ [y]) := by
  induction main generalizing side with
  | nil => exact List.nil_sublist _
  | cons entry main ih =>
      cases entry with
      | some x =>
          have hside : tickets main = side.length := by simpa using h
          have hmain := redeem_evict (TicketsLast.tail hlast) hside y
          simpa [redeemDiscarding] using hmain.cons_cons x
      | none =>
          cases side with
          | nil => simp at h
          | cons first side =>
              show (redeemDiscarding main (side ++ [y]).tail).Sublist
                (redeemDiscarding main side ++ [y])
              cases side with
              | nil => exact List.sublist_append_left _ _
              | cons second side =>
                  have hside : tickets main = (second :: side).length := by simpa using h
                  exact ih hlast hside

/-- An eviction keeps the order of what still comes out, where no such item of
the main queue is passed by a ticket. -/
theorem redeemLive_evict {discarding : Bool} {main : List (Option ι)}
    (hlast : LiveTicketsLast discarding main) {side : List ι}
    (h : tickets main = side.length) (y : ι) :
    (redeemLive discarding main (side.tail ++ [y])).Sublist
      (redeemLive discarding main side ++ [y]) := by
  cases discarding with
  | false => exact redeem_evict hlast h y
  | true => exact redeemDiscarding_evict hlast h y

/-! ## Tickets to spare -/

section Covered

variable [LT ι]

/-- There are tickets for all side items, and those that are left when an item of the main
queue comes out are later than it. -/
def Covered : List (Option ι) → List ι → Prop
  | [], side => side = []
  | some x :: main, side => (∀ y ∈ side, x < y) ∧ Covered main side
  | none :: main, side => Covered main side.tail

variable {main : List (Option ι)} {side : List ι} {x y : ι}

theorem covered_nil (main : List (Option ι)) : Covered main [] := by
  induction main with
  | nil => rfl
  | cons entry main ih =>
      cases entry with
      | some x => exact ⟨by simp, ih⟩
      | none => exact ih

/-- A side item is taken without a ticket. -/
theorem Covered.tail (h : Covered main side) : Covered main side.tail := by
  induction main generalizing side with
  | nil =>
      obtain rfl : side = [] := h
      rfl
  | cons entry main ih =>
      cases entry with
      | some x => exact ⟨fun y hy => h.1 y (List.mem_of_mem_tail hy), ih h.2⟩
      | none => exact ih h

theorem Covered.concat_some (h : Covered main side) : Covered (main ++ [some x]) side := by
  induction main generalizing side with
  | nil =>
      obtain rfl : side = [] := h
      exact covered_nil _
  | cons entry main ih =>
      cases entry with
      | some z => exact ⟨h.1, ih h.2⟩
      | none => exact ih h

/-- A new side item comes with its ticket, later than all items of the main queue. -/
theorem Covered.concat_none (h : Covered main side) (hlater : ∀ x, some x ∈ main → x < y) :
    Covered (main ++ [none]) (side ++ [y]) := by
  induction main generalizing side with
  | nil =>
      obtain rfl : side = [] := h
      rfl
  | cons entry main ih =>
      have hrest : ∀ x, some x ∈ main → x < y :=
        fun x hx => hlater x (List.mem_cons_of_mem _ hx)
      cases entry with
      | some z =>
          refine ⟨fun w hw => ?_, ih h.2 hrest⟩
          rcases List.mem_append.mp hw with hw | hw
          · exact h.1 w hw
          · obtain rfl := List.mem_singleton.mp hw
            exact hlater z List.mem_cons_self
      | none =>
          cases side with
          | nil => exact covered_nil _
          | cons first side => exact ih h hrest

end Covered

end RustAdmin.Support
