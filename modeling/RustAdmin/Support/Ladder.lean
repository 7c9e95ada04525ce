import Mathlib.Data.List.Dedup
import Mathlib.Data.List.Destutter
import Mathlib.Data.List.Sort

/-!
# Descending ladders

A ladder is a strictly descending list.  Sorting and removing repetitions makes one,
and the element after a rung is the highest rung below it.
-/

namespace RustAdmin.Support

variable {α : Type*} [LinearOrder α] {l : List α} {x y : α}

/-- Every rung is above the ones after it. -/
def Descending (l : List α) : Prop := l.Pairwise (· > ·)

theorem Descending.filter (h : Descending l) (p : α → Bool) : Descending (l.filter p) :=
  List.Pairwise.sublist List.filter_sublist h

theorem descending_of_nodup (hsorted : l.Pairwise (· ≥ ·)) (hnodup : l.Nodup) : Descending l := by
  have hne : l.Pairwise (· ≠ ·) := hnodup
  refine (hsorted.and hne).imp ?_
  rintro a b ⟨hge, hne⟩
  exact lt_of_le_of_ne hge (Ne.symm hne)

theorem descending_insertionSort (hnodup : l.Nodup) : Descending (l.insertionSort (· ≥ ·)) :=
  descending_of_nodup (List.pairwise_insertionSort _ l)
    ((List.perm_insertionSort (· ≥ ·) l).nodup_iff.mpr hnodup)

/-- Sorting and removing neighbours that are equal keeps each element once. -/
theorem destutter_insertionSort (l : List α) :
    (l.insertionSort (· ≥ ·)).destutter (· ≠ ·) = (l.insertionSort (· ≥ ·)).dedup :=
  List.Pairwise.destutter_eq_dedup (List.pairwise_insertionSort _ l)

theorem descending_destutter (l : List α) :
    Descending ((l.insertionSort (· ≥ ·)).destutter (· ≠ ·)) := by
  rw [destutter_insertionSort]
  exact descending_of_nodup
    (List.Pairwise.sublist (List.dedup_sublist _) (List.pairwise_insertionSort _ l))
    (List.nodup_dedup _)

theorem mem_destutter_insertionSort :
    x ∈ (l.insertionSort (· ≥ ·)).destutter (· ≠ ·) ↔ x ∈ l := by
  rw [destutter_insertionSort, List.mem_dedup, List.mem_insertionSort]

/-- The rung after `x` is the highest one below it. -/
theorem Descending.next (h : Descending l) (hx : x ∈ l) (hy : y ∈ l) (hless : y < x) :
    ∃ next, ((l.idxOf? x).bind fun i => l[i + 1]?) = some next ∧ next ∈ l ∧ y ≤ next ∧
      next < x := by
  obtain ⟨above, below, rfl⟩ := List.append_of_mem hx
  obtain ⟨-, hcons, habove⟩ := List.pairwise_append.mp h
  obtain ⟨hbelow, hrest⟩ := List.pairwise_cons.mp hcons
  have hfresh : x ∉ above := fun hmem => lt_irrefl x (habove x hmem x List.mem_cons_self)
  have hindex : (above ++ x :: below).idxOf? x = some above.length := by
    rw [List.idxOf?_eq_some_iff]
    refine ⟨by simp, by simp, ?_⟩
    intro j hj heq
    rw [List.getElem_append_left hj] at heq
    exact hfresh (heq ▸ List.getElem_mem hj)
  have hbelowY : y ∈ below := by
    rcases List.mem_append.mp hy with hy | hy
    · exact absurd hless (lt_asymm (habove y hy x List.mem_cons_self))
    · rcases List.mem_cons.mp hy with rfl | hy
      · exact absurd hless (lt_irrefl y)
      · exact hy
  cases below with
  | nil => cases hbelowY
  | cons next rest =>
      refine ⟨next, by simp [hindex], by simp, ?_, hbelow next List.mem_cons_self⟩
      rcases List.mem_cons.mp hbelowY with rfl | hy
      · exact le_refl _
      · exact le_of_lt ((List.pairwise_cons.mp hrest).1 y hy)

end RustAdmin.Support
