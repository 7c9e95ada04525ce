import Mathlib.Data.List.Induction
import Mathlib.Data.List.Chain

/-!
# Lists whose elements depend on their predecessor

`Linked R l`: every element of `l` is related to the element before it, and the
first one to `none`.  A stream of frames in which each frame is either
independent or refers to the one before it is such a list.
-/

namespace RustAdmin.Support

variable {ι : Type*} {R R' : Option ι → ι → Prop} {l m : List ι} {y : ι}

/-- Every element is related to its predecessor, the first one to `none`. -/
def Linked (R : Option ι → ι → Prop) (l : List ι) : Prop :=
  ∀ before y after, l = before ++ y :: after → R before.getLast? y

theorem linked_nil : Linked R [] := by
  intro before y after h
  simp at h

theorem Linked.of_append (h : Linked R (l ++ m)) : Linked R l := by
  intro before y after hl
  exact h before y (after ++ m) (by simp [hl])

theorem linked_concat : Linked R (l ++ [y]) ↔ Linked R l ∧ R l.getLast? y := by
  constructor
  · intro h
    exact ⟨h.of_append, h l y [] rfl⟩
  · rintro ⟨hl, hy⟩ before z after heq
    rcases List.eq_nil_or_concat after with rfl | ⟨after, last, rfl⟩
    · obtain ⟨rfl, hyz⟩ := List.append_inj' heq rfl
      obtain rfl : y = z := by simpa using hyz
      exact hy
    · refine hl before z after ?_
      have heq' : l ++ [y] = (before ++ z :: after) ++ [last] := by simpa using heq
      exact (List.append_inj' heq' rfl).1

/-- Elements that are related to any predecessor can be appended freely. -/
theorem Linked.append_of_forall (hl : Linked R l) (hm : ∀ y ∈ m, ∀ p, R p y) :
    Linked R (l ++ m) := by
  induction m using List.reverseRecOn with
  | nil => simpa using hl
  | append_singleton m y ih =>
      rw [← List.append_assoc, linked_concat]
      exact ⟨ih fun z hz => hm z (List.mem_append_left _ hz), hm y (by simp) _⟩

theorem Linked.mono (hl : Linked R l) (h : ∀ p y, R p y → R' p y) : Linked R' l :=
  fun before y after heq => h _ _ (hl before y after heq)

/-- If an element is `Base` or refers to its predecessor, every nonempty linked
list ends with an unbroken chain of references that starts at a base. -/
theorem Linked.exists_chain {Base : ι → Prop} {Ref : ι → ι → Prop}
    (hR : ∀ p y, R p y → Base y ∨ ∃ x, p = some x ∧ Ref x y) (hl : Linked R l) (hne : l ≠ []) :
    ∃ earlier base chain, l = earlier ++ base :: chain ∧ Base base ∧
      (base :: chain).IsChain Ref := by
  induction l using List.reverseRecOn with
  | nil => exact absurd rfl hne
  | append_singleton l y ih =>
      obtain ⟨hearlier, hy⟩ := linked_concat.mp hl
      rcases hR _ _ hy with hbase | ⟨x, hlast, href⟩
      · exact ⟨l, y, [], rfl, hbase, .singleton y⟩
      · have hl' : l ≠ [] := by
          rintro rfl
          simp at hlast
        obtain ⟨earlier, base, chain, rfl, hbase, hchain⟩ := ih hearlier hl'
        refine ⟨earlier, base, chain ++ [y], by simp, hbase, ?_⟩
        have hlast' : (base :: chain).getLast? = some x := by
          rw [List.getLast?_append] at hlast
          cases hchain' : (base :: chain).getLast? with
          | none => simp at hchain'
          | some z => simpa [hchain'] using hlast
        rw [← List.cons_append]
        refine List.isChain_append.mpr ⟨hchain, .singleton y, ?_⟩
        intro z hz w hw
        obtain rfl : x = z := by
          rw [Option.mem_def, hlast'] at hz
          exact Option.some.inj hz
        obtain rfl : y = w := by simpa using hw
        exact href

end RustAdmin.Support
