import Mathlib.Data.List.Basic

/-!
# Where the frames of the movie queue are

Only the numbers of the frames matter for the chain, and where they are: in a hand, in
the queue, among the keyframes of the channel, or taken out without `discard_queue`
having been set.  Whatever arrived behind the last frame of the decoder, or behind a
keyframe that waits, and is not behind a later keyframe, is still in one of these places.

`Sound` is kept by each movement of a frame between the places.  A delta that is taken
or dropped is compared with the first keyframe of the channel (`Sound.after_key`), and
what is in the hand is before all that is to come (`Sound.after_hand`); together they
make the delta in the hand the next one (`Sound.hand_eq`).
-/

namespace RustAdmin.Viewer.Movie

/-- The numbers in each place. -/
structure Positions where
  reference : Option ℕ
  discard : Bool
  hand : List ℕ
  queue : List ℕ
  coming : List ℕ
  keys : List ℕ
  lost : List ℕ
  arrived : ℕ

namespace Positions

/-- The deltas on their way and the frame that is coming, in their order. -/
def line (p : Positions) : List ℕ := p.hand ++ p.queue ++ p.coming

/-- Where decoding goes on from: the last frame of the decoder, unless deltas are
discarded, and the keyframes that wait. -/
def IsStart (p : Positions) (r : ℕ) : Prop :=
  (p.discard = false ∧ p.reference = some r) ∨ r ∈ p.keys

structure Sound (p : Positions) : Prop where
  line_sorted : p.line.Pairwise (· < ·)
  keys_sorted : (p.keys ++ p.coming).Pairwise (· < ·)
  newest : ∀ n ∈ p.coming, n + 1 = p.arrived
  bound : ∀ n, n ∈ p.line ∨ n ∈ p.keys ∨ n ∈ p.lost ∨ p.reference = some n → n < p.arrived
  early : ∀ n, n ∈ p.hand ∨ n ∈ p.lost → ∀ k, k ∈ p.keys ∨ k ∈ p.coming → n < k
  ahead : ∀ last, p.reference = some last → ∀ n, n ∈ p.line ∨ n ∈ p.keys → last < n
  complete : ∀ r, p.IsStart r → ∀ n, r < n → n < p.arrived → (∀ k ∈ p.keys, r < k → n < k) →
    n ∈ p.line ∨ n ∈ p.lost

variable {p : Positions} {n : ℕ}

theorem mem_line : n ∈ p.line ↔ n ∈ p.hand ∨ n ∈ p.queue ∨ n ∈ p.coming := by
  simp only [line, List.mem_append, or_assoc]

theorem sound_start : Sound ⟨none, false, [], [], [], [], [], 0⟩ where
  line_sorted := by simp [line]
  keys_sorted := by simp
  newest := by simp
  bound := by simp [mem_line]
  early := by simp
  ahead := by simp
  complete := by simp [IsStart]

/-- A frame arrives. -/
theorem Sound.arrive (h : p.Sound) (hcoming : p.coming = []) :
    Sound { p with coming := [p.arrived], arrived := p.arrived + 1 } where
  line_sorted := by
    have hline := h.line_sorted
    have hbound := h.bound
    simp only [mem_line, hcoming] at hbound
    simp only [line, hcoming, List.append_nil] at hline ⊢
    exact List.pairwise_append.mpr ⟨hline, List.pairwise_singleton _ _, by grind⟩
  keys_sorted := by
    have hkeys := h.keys_sorted
    have hbound := h.bound
    simp only [hcoming, List.append_nil] at hkeys ⊢
    exact List.pairwise_append.mpr ⟨hkeys, List.pairwise_singleton _ _, by grind⟩
  newest := by simp
  bound := by
    intro n hn
    have hbound := h.bound n
    simp only [mem_line, hcoming] at hn hbound ⊢
    grind
  early := by
    intro n hn k hk
    have hearly := h.early n hn k
    have hbound := h.bound n
    simp only [mem_line] at hn hk hbound hearly
    grind
  ahead := by
    intro last hlast n hn
    have hahead := h.ahead last hlast n
    have hbound := h.bound last
    simp only [mem_line] at hn hahead hbound
    grind
  complete := by
    intro r hr n hrn hn hkeys
    have hcomplete := h.complete r hr n hrn
    simp only [mem_line, hcoming] at hcomplete hn ⊢
    grind

/-- The frame that was coming goes to the queue. -/
theorem Sound.push (h : p.Sound) :
    Sound { p with queue := p.queue ++ p.coming, coming := [] } where
  line_sorted := by simpa [line, List.append_assoc] using h.line_sorted
  keys_sorted := by
    have hkeys := (List.pairwise_append.mp h.keys_sorted).1
    simpa using hkeys
  newest := by simp
  bound := by
    intro n hn
    have hbound := h.bound n
    simp only [mem_line] at hn hbound ⊢
    grind
  early := by
    intro n hn k hk
    exact h.early n hn k (by grind)
  ahead := by
    intro last hlast n hn
    have hahead := h.ahead last hlast n
    simp only [mem_line] at hn hahead
    grind
  complete := by
    intro r hr n hrn hn hkeys
    have hcomplete := h.complete r hr n hrn hn hkeys
    simp only [mem_line] at hcomplete ⊢
    grind

/-- The keyframe that was coming goes to the channel. -/
theorem Sound.sendKey (h : p.Sound) :
    Sound { p with keys := p.keys ++ p.coming, coming := [] } where
  line_sorted := by
    have hline := (List.pairwise_append.mp h.line_sorted).1
    simpa [line] using hline
  keys_sorted := by simpa using h.keys_sorted
  newest := by simp
  bound := by
    intro n hn
    have hbound := h.bound n
    simp only [mem_line] at hn hbound ⊢
    grind
  early := by
    intro n hn k hk
    exact h.early n hn k (by grind)
  ahead := by
    intro last hlast n hn
    have hahead := h.ahead last hlast n
    simp only [mem_line] at hn hahead
    grind
  complete := by
    intro r hr n hrn hn hkeys
    have hnewest := h.newest
    -- Nothing has arrived behind the keyframe that was coming.
    have hold : p.IsStart r := by
      rcases hr with hr | hr
      · exact Or.inl hr
      · rcases List.mem_append.mp hr with hr | hr
        · exact Or.inr hr
        · have := hnewest r hr
          change n < p.arrived at hn
          omega
    have hcomplete := h.complete r hold n hrn hn (by grind)
    simp only [mem_line] at hcomplete ⊢
    grind

/-- A delta before all keyframes of the channel is dropped from the queue. -/
theorem Sound.lose {n : ℕ} {queue : List ℕ} (h : p.Sound) (hqueue : p.queue = n :: queue)
    (hkeys : ∀ k ∈ p.keys, n < k) :
    Sound { p with queue := queue, lost := p.lost ++ [n] } where
  line_sorted := by
    have hline := h.line_sorted
    have hsub : (p.hand ++ queue ++ p.coming).Sublist p.line := by
      rw [line, hqueue]
      exact ((List.Sublist.refl _).append (List.sublist_cons_self _ _)).append
        (List.Sublist.refl _)
    exact hline.sublist hsub
  keys_sorted := h.keys_sorted
  newest := h.newest
  bound := by
    intro m hm
    have hbound := h.bound m
    simp only [mem_line, hqueue] at hm hbound
    grind
  early := by
    intro m hm k hk
    have hearly := h.early m
    have hcoming : ∀ c ∈ p.coming, n < c := by
      intro c hc
      have hsorted := h.line_sorted
      rw [line, hqueue] at hsorted
      exact (List.pairwise_append.mp hsorted).2.2 n (by simp) c hc
    grind
  ahead := by
    intro last hlast m hm
    have hahead := h.ahead last hlast m
    simp only [mem_line, hqueue] at hm hahead
    grind
  complete := by
    intro r hr m hrm hm hbefore
    have hcomplete := h.complete r hr m hrm hm hbefore
    simp only [mem_line, hqueue] at hcomplete ⊢
    grind

/-- The worker takes such a delta into its hand. -/
theorem Sound.take {n : ℕ} {queue : List ℕ} (h : p.Sound) (hhand : p.hand = [])
    (hqueue : p.queue = n :: queue) (hkeys : ∀ k ∈ p.keys, n < k) :
    Sound { p with queue := queue, hand := [n] } where
  line_sorted := by
    have hline := h.line_sorted
    simpa [line, hhand, hqueue] using hline
  keys_sorted := h.keys_sorted
  newest := h.newest
  bound := by
    intro m hm
    have hbound := h.bound m
    simp only [mem_line, hqueue] at hm hbound
    grind
  early := by
    intro m hm k hk
    have hearly := h.early m
    have hline := h.line_sorted
    simp only [line, hhand, hqueue] at hline
    grind
  ahead := by
    intro last hlast m hm
    have hahead := h.ahead last hlast m
    simp only [mem_line, hqueue] at hm hahead
    grind
  complete := by
    intro r hr m hrm hm hbefore
    have hcomplete := h.complete r hr m hrm hm hbefore
    simp only [mem_line, hqueue] at hcomplete ⊢
    grind

/-- The worker skips the delta in its hand. -/
theorem Sound.skip (h : p.Sound) {lost : List ℕ}
    (hlost : ∀ n, n ∈ lost ↔ n ∈ p.lost ∨ n ∈ p.hand) :
    Sound { p with hand := [], lost := lost } where
  line_sorted := by
    have hline := h.line_sorted
    rw [line, List.append_assoc] at hline
    exact (List.pairwise_append.mp hline).2.1
  keys_sorted := h.keys_sorted
  newest := h.newest
  bound := by
    intro m hm
    have hbound := h.bound m
    simp only [mem_line] at hm hbound
    grind
  early := by
    intro m hm k hk
    exact h.early m (by grind) k hk
  ahead := by
    intro last hlast m hm
    have hahead := h.ahead last hlast m
    simp only [mem_line] at hm hahead
    grind
  complete := by
    intro r hr m hrm hm hbefore
    have hcomplete := h.complete r hr m hrm hm hbefore
    simp only [mem_line] at hcomplete ⊢
    grind

/-- `discard_queue` is set, which accounts for deltas that were lost. -/
theorem Sound.flag (h : p.Sound) {hand lost : List ℕ} (hhand : hand.Sublist p.hand)
    (hlost : ∀ n ∈ lost, n ∈ p.lost) :
    Sound { p with discard := true, hand := hand, lost := lost } where
  line_sorted := by
    have hsub : (hand ++ p.queue ++ p.coming).Sublist p.line :=
      (hhand.append (List.Sublist.refl _)).append (List.Sublist.refl _)
    exact h.line_sorted.sublist hsub
  keys_sorted := h.keys_sorted
  newest := h.newest
  bound := by
    intro m hm
    have hbound := h.bound m
    have hmem := hhand.subset
    simp only [mem_line] at hm hbound
    grind
  early := by
    intro m hm k hk
    have hmem := hhand.subset
    exact h.early m (by grind) k hk
  ahead := by
    intro last hlast m hm
    have hahead := h.ahead last hlast m
    have hmem := hhand.subset
    simp only [mem_line] at hm hahead
    grind
  complete := by
    intro r hr m hrm hm hbefore
    have hkey : r ∈ p.keys := by simpa [IsStart] using hr
    have hcomplete := h.complete r (Or.inr hkey) m hrm hm hbefore
    -- What is behind a waiting keyframe is neither in the hand nor lost.
    have hnot : ¬ (m ∈ p.hand ∨ m ∈ p.lost) := by
      intro hm
      have := h.early m hm r (Or.inl hkey)
      omega
    simp only [mem_line] at hcomplete ⊢
    grind

/-- The first keyframe of the channel is before the others and the frame that is coming. -/
theorem Sound.after_key {k : ℕ} {keys : List ℕ} (h : p.Sound) (hkeys : p.keys = k :: keys) :
    ∀ n, n ∈ keys ∨ n ∈ p.coming → k < n := by
  intro n hn
  have hsorted := h.keys_sorted
  rw [hkeys, List.cons_append] at hsorted
  exact (List.pairwise_cons.mp hsorted).1 n (List.mem_append.mpr hn)

/-- The delta in the hand is before everything that is to come. -/
theorem Sound.after_hand {n : ℕ} (h : p.Sound) (hhand : p.hand = [n]) :
    ∀ m, m ∈ p.queue ∨ m ∈ p.coming ∨ m ∈ p.keys → n < m := by
  intro m hm
  rw [← or_assoc] at hm
  rcases hm with hm | hm
  · have hsorted := h.line_sorted
    rw [line, hhand, List.append_assoc, List.singleton_append] at hsorted
    exact (List.pairwise_cons.mp hsorted).1 m (List.mem_append.mpr hm)
  · exact h.early n (Or.inl (by simp [hhand])) m (Or.inl hm)

/-- The worker receives the first keyframe of the channel, which is before the queue. -/
theorem Sound.receiveKey {k : ℕ} {keys : List ℕ} (h : p.Sound) (hhand : p.hand = [])
    (hkeys : p.keys = k :: keys) (hqueue : ∀ n ∈ p.queue, k < n) :
    Sound { p with reference := some k, discard := false, keys := keys } where
  line_sorted := h.line_sorted
  keys_sorted := by
    have hsorted := h.keys_sorted
    rw [hkeys] at hsorted
    exact hsorted.sublist (List.sublist_cons_self _ _)
  newest := h.newest
  bound := by
    intro m hm
    have hbound := h.bound m
    simp only [mem_line, hkeys] at hm hbound
    grind
  early := by
    intro m hm j hj
    exact h.early m hm j (by grind)
  ahead := by
    intro last hlast m hm
    obtain rfl : k = last := Option.some.inj hlast
    have hafter := h.after_key hkeys
    simp only [mem_line, hhand] at hm
    grind
  complete := by
    intro r hr m hrm hm hbefore
    have hafter := h.after_key hkeys
    have hstart : p.IsStart r := by
      rcases hr with ⟨-, hr⟩ | hr
      · obtain rfl : k = r := Option.some.inj hr
        exact Or.inr (by simp [hkeys])
      · exact Or.inr (by simp [hkeys, show r ∈ keys from hr])
    have hle : k ≤ r := by
      rcases hr with ⟨-, hr⟩ | hr
      · exact Nat.le_of_eq (Option.some.inj hr)
      · exact Nat.le_of_lt (hafter r (Or.inl hr))
    refine h.complete r hstart m hrm hm fun j hj hrj => ?_
    rw [hkeys] at hj
    rcases List.mem_cons.mp hj with rfl | hj
    · omega
    · exact hbefore j hj hrj

/-- The delta in the hand is the one after the reference, if nothing that was lost lies
between them. -/
theorem Sound.hand_eq {n last : ℕ} (h : p.Sound) (hhand : p.hand = [n])
    (hdiscard : p.discard = false) (hlast : p.reference = some last)
    (hlost : ∀ m ∈ p.lost, ¬ (last < m ∧ m < n)) : n = last + 1 := by
  have hahead : last < n := h.ahead last hlast n (Or.inl (by simp [mem_line, hhand]))
  by_contra hne
  have hbound : n < p.arrived := h.bound n (Or.inl (by simp [mem_line, hhand]))
  have hkeys : ∀ k ∈ p.keys, last < k → last + 1 < k := by
    intro k hk _
    have := h.early n (Or.inl (by simp [hhand])) k (Or.inl hk)
    omega
  -- The frame after the reference is on its way or lost, and the hand is its first place.
  have hnext := h.complete last (Or.inl ⟨hdiscard, hlast⟩) (last + 1) (by omega) (by omega) hkeys
  rcases hnext with hline | hm
  · have hsorted := h.line_sorted
    simp only [line, hhand] at hline hsorted
    grind
  · exact hlost (last + 1) hm (by omega)

/-- The worker hands over the delta in its hand. -/
theorem Sound.handOver {n : ℕ} {reference : Option ℕ} (h : p.Sound) (hhand : p.hand = [n])
    (hreference : reference = p.reference.map fun _ => n) :
    Sound { p with reference := reference, hand := [] } where
  line_sorted := by
    have hline := h.line_sorted
    rw [line, List.append_assoc] at hline
    exact (List.pairwise_append.mp hline).2.1
  keys_sorted := h.keys_sorted
  newest := h.newest
  bound := by
    intro m hm
    have hbound := h.bound m
    have hn : n < p.arrived := h.bound n (Or.inl (by simp [mem_line, hhand]))
    have hnew : reference = some m → m = n := by
      rw [hreference, Option.map_eq_some_iff]
      rintro ⟨_, -, rfl⟩
      rfl
    simp only [mem_line, hhand] at hm hbound
    grind
  early := by
    intro m hm k hk
    exact h.early m (by grind) k hk
  ahead := by
    intro last hlast m hm
    have hafter := h.after_hand hhand m
    obtain ⟨_, -, rfl⟩ := Option.map_eq_some_iff.mp (hreference.symm.trans hlast)
    simp only [mem_line] at hm
    grind
  complete := by
    intro r hr m hrm hm hbefore
    have hafter := h.after_hand hhand
    rcases hr with ⟨hdiscard, hr⟩ | hr
    -- What arrived behind the delta arrived behind the frame before it, too.
    · obtain ⟨last, hlast, rfl⟩ := Option.map_eq_some_iff.mp (hreference.symm.trans hr)
      have hahead : last < n := h.ahead last hlast n (Or.inl (by simp [mem_line, hhand]))
      have hkeys : ∀ k ∈ p.keys, last < k → m < k :=
        fun k hk _ => hbefore k hk (hafter k (Or.inr (Or.inr hk)))
      have hcomplete := h.complete last (Or.inl ⟨hdiscard, hlast⟩) m (by omega) hm hkeys
      simp only [mem_line, hhand, List.mem_singleton] at hcomplete ⊢
      grind
    · have hnr : n < r := hafter r (Or.inr (Or.inr hr))
      have hcomplete := h.complete r (Or.inr hr) m hrm hm hbefore
      simp only [mem_line, hhand, List.mem_singleton] at hcomplete ⊢
      grind

end Positions

end RustAdmin.Viewer.Movie
