import Mathlib.Data.List.Basic

/-!
# A tail of futures

Each call replaces the tail by a future that waits for the one before it: the
links of the chain take their turns one at a time and in the order in which they
were added.
-/

namespace RustAdmin.Support

/-- How far a link of the chain is. -/
inductive Turn
  | queued
  | running
  | ended
deriving DecidableEq, Repr

structure Link (α : Type*) where
  payload : α
  turn : Turn := .queued
deriving DecidableEq, Repr

namespace Link

variable {α : Type*} {tail : List (Link α)} {i j n : ℕ}

def turnAt (tail : List (Link α)) (i : ℕ) : Option Turn := tail[i]?.map Link.turn

def setTurn (tail : List (Link α)) (i : ℕ) (turn : Turn) : List (Link α) :=
  tail.modify i fun link => { link with turn := turn }

/-- The future that was the tail when there were `n` links has completed. -/
def Awaited (tail : List (Link α)) (n : ℕ) : Prop := ∀ k, k + 1 = n → turnAt tail k = some .ended

/-- The link is the next to take its turn. -/
def Ready (tail : List (Link α)) (i : ℕ) : Prop := turnAt tail i = some .queued ∧ Awaited tail i

/-- A link that had its turn comes after links that ended theirs, so no two run at once. -/
def InOrder (tail : List (Link α)) : Prop :=
  ∀ i j turn, i < j → turnAt tail j = some turn → turn ≠ .queued → turnAt tail i = some .ended

theorem turnAt_setTurn (tail : List (Link α)) (i j : ℕ) (turn : Turn) :
    turnAt (setTurn tail i turn) j =
      if i = j then (turnAt tail j).map fun _ => turn else turnAt tail j := by
  unfold turnAt setTurn
  rw [List.getElem?_modify]
  split <;> cases tail[j]? <;> rfl

theorem turnAt_setTurn_of_ne {turn : Turn} (h : i ≠ j) :
    turnAt (setTurn tail i turn) j = turnAt tail j := by
  rw [turnAt_setTurn, if_neg h]

theorem turnAt_setTurn_self {turn old : Turn} (h : turnAt tail i = some old) :
    turnAt (setTurn tail i turn) i = some turn := by
  rw [turnAt_setTurn, if_pos rfl, h]
  rfl

theorem turnAt_push (tail : List (Link α)) (link : Link α) (j : ℕ) :
    turnAt (tail ++ [link]) j = if j = tail.length then some link.turn else turnAt tail j := by
  unfold turnAt
  rcases Nat.lt_trichotomy j tail.length with hlt | rfl | hgt
  · rw [if_neg (Nat.ne_of_lt hlt), List.getElem?_append_left hlt]
  · rw [if_pos rfl, List.getElem?_concat_length]
    rfl
  · rw [if_neg (Nat.ne_of_gt hgt), List.getElem?_eq_none (by simp; omega),
      List.getElem?_eq_none (Nat.le_of_lt hgt)]

theorem inOrder_nil : InOrder ([] : List (Link α)) := fun _ _ _ _ h => by simp [turnAt] at h

/-- The completed tail has all earlier links behind it. -/
theorem InOrder.ended_of_awaited (h : InOrder tail) (hn : Awaited tail n) (hi : i < n) :
    turnAt tail i = some .ended := by
  obtain ⟨k, rfl⟩ : ∃ k, n = k + 1 := ⟨n - 1, by omega⟩
  have hk := hn k rfl
  rcases Nat.lt_succ_iff_lt_or_eq.mp hi with hlt | rfl
  · exact h i k .ended hlt hk nofun
  · exact hk

/-- A new link waits for its turn. -/
theorem InOrder.push (h : InOrder tail) (payload : α) :
    InOrder (tail ++ [{ payload := payload }]) := by
  intro i j turn hij hj hturn
  rw [turnAt_push] at hj
  split at hj
  · exact absurd (Option.some.inj hj).symm hturn
  · next hne =>
      have hlt : j < tail.length := by
        by_contra hge
        rw [turnAt, List.getElem?_eq_none (by omega)] at hj
        cases hj
      rw [turnAt_push, if_neg (by omega)]
      exact h i j turn hij hj hturn

/-- A link moves on where all links before it have ended, and does not go back. -/
theorem InOrder.setTurn (h : InOrder tail) {turn old : Turn} (hold : turnAt tail i = some old)
    (hbefore : ∀ k < i, turnAt tail k = some .ended) (hturn : old = .queued ∨ turn = .ended) :
    InOrder (setTurn tail i turn) := by
  intro k j turn' hkj hj hne
  by_cases hji : i = j
  · subst hji
    rw [turnAt_setTurn_of_ne (by omega)]
    exact hbefore k hkj
  · rw [turnAt_setTurn_of_ne hji] at hj
    have hk := h k j turn' hkj hj hne
    by_cases hki : i = k
    · subst hki
      obtain rfl : old = .ended := Option.some.inj (hold.symm.trans hk)
      rw [turnAt_setTurn_self hold]
      rcases hturn with hqueued | hended
      · cases hqueued
      · rw [hended]
    · rwa [turnAt_setTurn_of_ne hki]

/-- The next link takes its turn, or ends it at once. -/
theorem InOrder.start (h : InOrder tail) (hready : Ready tail i) (turn : Turn) :
    InOrder (Link.setTurn tail i turn) :=
  h.setTurn hready.1 (fun _ hk => h.ended_of_awaited hready.2 hk) (.inl rfl)

/-- The link that runs ends its turn. -/
theorem InOrder.finish (h : InOrder tail) (hrunning : turnAt tail i = some .running) :
    InOrder (Link.setTurn tail i .ended) :=
  h.setTurn hrunning (fun k hk => h k i .running hk hrunning nofun) (.inr rfl)

end Link

end RustAdmin.Support
