import Mathlib.Data.List.Nodup

/-!
# Reordering around barriers

Elements are numbered as they are pushed.  Some are barriers, the others belong
to tracks.  `Admissible pushed out` says what a consumer may rely on when tracks
are served fairly and elements may be dropped: nothing is invented or repeated,
nothing crosses a barrier, and every track keeps its order.  The rules are the
moves of such a queue: an element is pushed, skipped, dropped, or served past
elements of other tracks.
-/

namespace RustAdmin.Support

variable {ι δ : Type*} [DecidableEq δ]

/-- Serving `x` first does not show to a filter that keeps nothing it passes. -/
theorem filter_serve {p : ι → Bool} {x : ι} {first before after : List ι}
    (hbefore : p x = true → ∀ b ∈ before, p b = false) :
    (first ++ x :: (before ++ after)).filter p = (first ++ (before ++ x :: after)).filter p := by
  cases hx : p x with
  | false => simp [hx]
  | true =>
      have hnil : before.filter p = [] := by
        rw [List.filter_eq_nil_iff]
        intro b hb
        simp [hbefore hx b hb]
      simp [hx, hnil]

theorem pairwise_serve {R : ι → ι → Prop} {x : ι} {first before after : List ι}
    (h : (first ++ (before ++ x :: after)).Pairwise R) (hbefore : ∀ b ∈ before, R x b) :
    (first ++ x :: (before ++ after)).Pairwise R := by
  simp only [List.pairwise_append, List.pairwise_cons, List.mem_append, List.mem_cons] at h ⊢
  obtain ⟨hfirst, ⟨hb, ⟨hxa, ha⟩, hba⟩, hcross⟩ := h
  refine ⟨hfirst, ⟨?_, hb, ha, fun y hy z hz => hba y hy z (.inr hz)⟩, ?_⟩
  · rintro y (hy | hy)
    · exact hbefore y hy
    · exact hxa y hy
  · rintro y hy z (rfl | hz | hz)
    · exact hcross y hy z (.inr (.inl rfl))
    · exact hcross y hy z (.inl hz)
    · exact hcross y hy z (.inr (.inr hz))

variable (number : ι → ℕ) (barrier : ι → Bool) (track : ι → Option δ)

/-- `out` is a dropping and reordering of `pushed` that respects the barriers
and the order of every track. -/
structure Admissible (pushed out : List ι) : Prop where
  mem_pushed : ∀ x ∈ out, x ∈ pushed
  nodup : (out.map number).Nodup
  barriers : out.Pairwise fun x y => barrier x = true ∨ barrier y = true → number x < number y
  tracks : ∀ d, (out.filter fun x => track x == some d).Sublist
    (pushed.filter fun x => track x == some d)

namespace Admissible

variable {number barrier track} {pushed out out' : List ι} {x : ι}

theorem nil : Admissible number barrier track ([] : List ι) [] where
  mem_pushed := by simp
  nodup := by simp
  barriers := by simp
  tracks := by simp

/-- Elements may be dropped. -/
theorem drop (h : Admissible number barrier track pushed out) (hout : out'.Sublist out) :
    Admissible number barrier track pushed out' where
  mem_pushed := fun x hx => h.mem_pushed x (hout.subset hx)
  nodup := h.nodup.sublist (hout.map number)
  barriers := h.barriers.sublist hout
  tracks := fun d => (hout.filter _).trans (h.tracks d)

/-- A pushed element may be refused. -/
theorem skip (h : Admissible number barrier track pushed out) (x : ι) :
    Admissible number barrier track (pushed ++ [x]) out where
  mem_pushed := fun y hy => List.mem_append_left _ (h.mem_pushed y hy)
  nodup := h.nodup
  barriers := h.barriers
  tracks := by
    intro d
    rw [List.filter_append]
    exact (h.tracks d).trans (List.sublist_append_left _ _)

/-- A pushed element with a number of its own joins at the end. -/
theorem push (h : Admissible number barrier track pushed out)
    (hnumber : ∀ y ∈ pushed, number y < number x) :
    Admissible number barrier track (pushed ++ [x]) (out ++ [x]) where
  mem_pushed := by
    intro y hy
    rcases List.mem_append.mp hy with hy | hy
    · exact List.mem_append_left _ (h.mem_pushed y hy)
    · exact List.mem_append_right _ hy
  nodup := by
    rw [List.map_append, List.map_singleton]
    refine List.Nodup.append h.nodup (List.nodup_singleton _) ?_
    intro n hn hx
    obtain ⟨y, hy, rfl⟩ := List.mem_map.mp hn
    have hlt := hnumber y (h.mem_pushed y hy)
    rw [List.mem_singleton] at hx
    omega
  barriers := by
    refine List.pairwise_append.mpr ⟨h.barriers, List.pairwise_singleton _ _, ?_⟩
    intro y hy z hz _
    rw [List.mem_singleton] at hz
    rw [hz]
    exact hnumber y (h.mem_pushed y hy)
  tracks := by
    intro d
    simp only [List.filter_append]
    exact (h.tracks d).append (List.Sublist.refl _)

/-- An element may be served past elements that are no barriers and of other
tracks, a barrier past nothing. -/
theorem serve {first before after : List ι}
    (h : Admissible number barrier track pushed (first ++ (before ++ x :: after)))
    (hx : barrier x = true → before = [])
    (hbefore : ∀ b ∈ before, barrier b = false ∧ track b ≠ track x) :
    Admissible number barrier track pushed (first ++ x :: (before ++ after)) where
  mem_pushed := by
    intro y hy
    refine h.mem_pushed y ?_
    simp only [List.mem_append, List.mem_cons] at hy ⊢
    tauto
  nodup := by
    have hperm : List.Perm (first ++ x :: (before ++ after)) (first ++ (before ++ x :: after)) :=
      List.perm_middle.symm.append_left first
    exact (hperm.map number).nodup_iff.mpr h.nodup
  barriers := by
    refine pairwise_serve h.barriers fun b hb hbarrier => ?_
    rcases hbarrier with hbarrier | hbarrier
    · rw [hx hbarrier] at hb
      simp at hb
    · rw [(hbefore b hb).1] at hbarrier
      simp at hbarrier
  tracks := by
    intro d
    rw [filter_serve]
    · exact h.tracks d
    · intro hd b hb
      have hne := (hbefore b hb).2
      rw [beq_iff_eq] at hd
      rw [hd] at hne
      simpa using hne

end Admissible

end RustAdmin.Support
