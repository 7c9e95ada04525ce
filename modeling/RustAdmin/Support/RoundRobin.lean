import Mathlib.Data.Int.CardIntervalMod

/-!
# Round robin

A scheduler gives turns to the members `0, …, period - 1` in a circle.  `turns`
counts those a member gets among the first `n` turns from a given member on; no
two members are ever more than one turn apart.
-/

namespace RustAdmin.Support

/-- The turns of `member` among `n` turns that begin with the one of `first`. -/
def turns (period first member n : ℕ) : ℕ :=
  Nat.count (fun turn => (first + turn) % period = member) n

variable {period first member : ℕ}

@[simp] theorem turns_zero : turns period first member 0 = 0 := rfl

theorem turns_one : turns period first member 1 = if first % period = member then 1 else 0 := by
  simp [turns, Nat.count_succ]

/-- Turns that go on are counted from the member whose turn is next. -/
theorem turns_add (n m : ℕ) :
    turns period first member (n + m) =
      turns period first member n + turns period ((first + n) % period) member m := by
  unfold turns
  rw [Nat.count_add]
  congr 1
  simp only [Nat.mod_add_mod, Nat.add_assoc]

/-- Every member has the turns of all full circles, and at most one more. -/
theorem turns_eq (hperiod : 0 < period) (hmember : member < period) (first n : ℕ) :
    ∃ extra ≤ 1, turns period first member n = n / period + extra := by
  -- the turns of a member are those in one class modulo the period
  have hclass : ∀ turn, (first + turn) % period = member ↔
      turn ≡ member + (period - first % period) [MOD period] := by
    intro turn
    have hfirst : first % period < period := Nat.mod_lt _ hperiod
    have hshift : member + (period - first % period) + first % period = member + period := by omega
    calc (first + turn) % period = member
      _ ↔ turn + first % period ≡ member + period [MOD period] := by
          unfold Nat.ModEq
          rw [Nat.add_mod_mod, Nat.add_comm, Nat.add_mod_right, Nat.mod_eq_of_lt hmember]
      _ ↔ turn ≡ member + (period - first % period) [MOD period] := by
          rw [← hshift]
          exact ⟨fun h => h.add_right_cancel' _, fun h => h.add_right _⟩
  unfold turns
  simp only [hclass]
  rw [Nat.count_modEq_card n hperiod]
  split
  · exact ⟨1, le_rfl, rfl⟩
  · exact ⟨0, Nat.zero_le _, rfl⟩

theorem turns_le_succ {other : ℕ} (hperiod : 0 < period) (hmember : member < period)
    (hother : other < period) (n : ℕ) :
    turns period first member n ≤ turns period first other n + 1 := by
  obtain ⟨extra, hextra, hturns⟩ := turns_eq hperiod hmember first n
  obtain ⟨extra', -, hturns'⟩ := turns_eq hperiod hother first n
  omega

end RustAdmin.Support
