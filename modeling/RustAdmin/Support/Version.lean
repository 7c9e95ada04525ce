import Mathlib.Data.List.Induction

/-!
# Version counters

A state carries a number that every change increases.  While the counter has not
run into its limit, the number stands for the state: two states of one run with
the same number are the same state, so a number that has been left behind never
comes back.
-/

namespace RustAdmin.Support

variable {σ ε : Type*}

/-- A call that ends below `limit` left the state alone or increased its number. -/
def Versioned (call : σ → ε → σ) (version : σ → ℕ) (limit : ℕ) : Prop :=
  ∀ s event, version (call s event) < limit →
    call s event = s ∨ version s < version (call s event)

namespace Versioned

variable {call : σ → ε → σ} {version : σ → ℕ} {limit : ℕ}

theorem version_le (h : Versioned call version limit) {s : σ} {event : ε}
    (hlimit : version (call s event) < limit) : version s ≤ version (call s event) := by
  rcases h s event hlimit with hsame | hless
  · exact Nat.le_of_eq (congrArg version hsame.symm)
  · exact Nat.le_of_lt hless

theorem version_le_foldl (h : Versioned call version limit) (events : List ε) (s : σ)
    (hlimit : version (events.foldl call s) < limit) :
    version s ≤ version (events.foldl call s) := by
  induction events generalizing s with
  | nil => exact Nat.le_refl _
  | cons event events ih =>
      have hrest : version (call s event) ≤ version (events.foldl call (call s event)) :=
        ih _ hlimit
      calc version s ≤ version (call s event) := h.version_le (Nat.lt_of_le_of_lt hrest hlimit)
        _ ≤ version (events.foldl call (call s event)) := hrest

/-- A run that ends with the number it started with has not moved. -/
theorem foldl_eq_of_version_eq (h : Versioned call version limit) (events : List ε) (s : σ)
    (hlimit : version (events.foldl call s) < limit)
    (heq : version (events.foldl call s) = version s) : events.foldl call s = s := by
  induction events generalizing s with
  | nil => rfl
  | cons event events ih =>
      rw [List.foldl_cons] at hlimit heq ⊢
      have hrest := h.version_le_foldl events (call s event) hlimit
      rcases h s event (Nat.lt_of_le_of_lt hrest hlimit) with hsame | hless
      · rw [hsame] at hlimit heq ⊢
        exact ih s hlimit heq
      · omega

/-- Once a run has left a state, no later state has its number. -/
theorem version_ne_of_left (h : Versioned call version limit) {first second : List ε} {s : σ}
    (hlimit : version (second.foldl call (first.foldl call s)) < limit)
    (hleft : first.foldl call s ≠ s) :
    version (second.foldl call (first.foldl call s)) ≠ version s := by
  intro heq
  have hsecond := h.version_le_foldl second (first.foldl call s) hlimit
  have hfirst := h.version_le_foldl first s (by omega)
  exact hleft (h.foldl_eq_of_version_eq first s (by omega) (by omega))

end Versioned

end RustAdmin.Support
