import Mathlib.Logic.Function.Iterate
import Mathlib.Logic.Relation

/-!
# Functions simulated by an abstract machine

A function of the concrete state is simulated if, from a state with the invariant,
it keeps the invariant and the abstract machine follows in any number of steps.
Simulated functions compose, so a program is simulated part by part.
-/

namespace RustAdmin.Support

/-- From `s` with the invariant to `s'` with the invariant, and from the view of
`s` to the view of `s'` by abstract steps. -/
def Simulated {σ τ : Type*} (Inv : σ → Prop) (view : σ → τ) (Step : τ → τ → Prop) (s s' : σ) :
    Prop :=
  Inv s → Inv s' ∧ Relation.ReflTransGen Step (view s) (view s')

namespace Simulated

variable {σ τ ι : Type*} {Inv : σ → Prop} {view : σ → τ} {Step : τ → τ → Prop} {s s' s'' : σ}

theorem refl : Simulated Inv view Step s s := fun hs => ⟨hs, .refl⟩

theorem trans (first : Simulated Inv view Step s s') (second : Simulated Inv view Step s' s'') :
    Simulated Inv view Step s s'' := by
  intro hs
  obtain ⟨hs', hpath⟩ := first hs
  obtain ⟨hs'', hpath'⟩ := second hs'
  exact ⟨hs'', hpath.trans hpath'⟩

theorem foldl {f : σ → ι → σ} (hf : ∀ s x, Simulated Inv view Step s (f s x)) (l : List ι) (s : σ) :
    Simulated Inv view Step s (l.foldl f s) := by
  induction l generalizing s with
  | nil => exact refl
  | cons x l ih => exact (hf s x).trans (ih (f s x))

theorem iterate {f : σ → σ} (hf : ∀ s, Simulated Inv view Step s (f s)) (n : ℕ) (s : σ) :
    Simulated Inv view Step s (f^[n] s) := by
  induction n generalizing s with
  | zero => exact refl
  | succ n ih => exact (hf s).trans (ih (f s))

end Simulated

end RustAdmin.Support
