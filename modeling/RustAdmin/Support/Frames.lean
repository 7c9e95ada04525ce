import Mathlib.Data.List.Basic

/-!
# Frames of one length

A list of items that stands for frames of one length.  Where the items are cut after
whole frames, the frames are cut.
-/

namespace RustAdmin.Support

variable {α : Type*} {size : ℕ} {frames more : List (List α)}

/-- All frames have this length. -/
def Framed (size : ℕ) (frames : List (List α)) : Prop := ∀ frame ∈ frames, frame.length = size

theorem framed_nil : Framed size ([] : List (List α)) := nofun

theorem Framed.append (h : Framed size frames) (hmore : Framed size more) :
    Framed size (frames ++ more) := by
  intro frame hframe
  rcases List.mem_append.mp hframe with hold | hnew
  · exact h frame hold
  · exact hmore frame hnew

theorem Framed.drop (h : Framed size frames) (k : ℕ) : Framed size (frames.drop k) :=
  fun frame hframe => h frame (List.mem_of_mem_drop hframe)

theorem Framed.take (h : Framed size frames) (k : ℕ) : Framed size (frames.take k) :=
  fun frame hframe => h frame (List.mem_of_mem_take hframe)

theorem Framed.length_flatten (h : Framed size frames) :
    frames.flatten.length = frames.length * size := by
  induction frames with
  | nil => simp
  | cons frame rest ih =>
      obtain ⟨hframe, hrest⟩ := List.forall_mem_cons.mp h
      rw [List.flatten_cons, List.length_append, hframe, ih hrest, List.length_cons, Nat.add_mul,
        Nat.one_mul, Nat.add_comm]

/-- Items dropped by whole frames are frames dropped. -/
theorem Framed.drop_flatten (h : Framed size frames) (k : ℕ) :
    frames.flatten.drop (k * size) = (frames.drop k).flatten := by
  induction k generalizing frames with
  | zero => simp
  | succ k ih =>
      cases frames with
      | nil => simp
      | cons frame rest =>
          obtain ⟨hframe, hrest⟩ := List.forall_mem_cons.mp h
          have hsize : (k + 1) * size = frame.length + k * size := by
            rw [hframe, Nat.add_mul, Nat.one_mul, Nat.add_comm]
          rw [List.flatten_cons, List.drop_succ_cons, hsize, List.drop_length_add_append, ih hrest]

theorem Framed.take_flatten (h : Framed size frames) (k : ℕ) :
    frames.flatten.take (k * size) = (frames.take k).flatten := by
  have hsplit : (frames.take k).flatten ++ (frames.drop k).flatten = frames.flatten := by
    rw [← List.flatten_append, List.take_append_drop]
  have htaken := List.take_append_drop (k * size) frames.flatten
  rw [h.drop_flatten, ← hsplit] at htaken
  rw [← hsplit]
  exact List.append_cancel_right htaken

/-- The items of one frame. -/
theorem Framed.slice (h : Framed size frames) {i : ℕ} {frame : List α}
    (hframe : frames[i]? = some frame) : (frames.flatten.drop (i * size)).take size = frame := by
  obtain ⟨hi, rfl⟩ := List.getElem?_eq_some_iff.mp hframe
  have hlength := h frames[i] (List.getElem_mem hi)
  rw [h.drop_flatten, List.drop_eq_getElem_cons hi, List.flatten_cons, ← hlength, List.take_left]

theorem Framed.getElem?_flatten (h : Framed size frames) {i item : ℕ} {frame : List α}
    (hframe : frames[i]? = some frame) (hitem : item < size) :
    frames.flatten[i * size + item]? = frame[item]? := by
  rw [← h.slice hframe, List.getElem?_take_of_lt hitem, List.getElem?_drop]

theorem exists_framed {items : List α} (h : size ∣ items.length) :
    ∃ frames, Framed size frames ∧ frames.flatten = items := by
  obtain ⟨k, hk⟩ := h
  induction k generalizing items with
  | zero => exact ⟨[], framed_nil, (List.length_eq_zero_iff.mp hk).symm⟩
  | succ k ih =>
      have hdrop : (items.drop size).length = size * k := by
        rw [List.length_drop, hk, Nat.mul_succ, Nat.add_sub_cancel]
      obtain ⟨frames, hframes, hflatten⟩ := ih hdrop
      have htake : (items.take size).length = size := by
        rw [List.length_take, hk, Nat.mul_succ]
        omega
      refine ⟨items.take size :: frames, List.forall_mem_cons.mpr ⟨htake, hframes⟩, ?_⟩
      rw [List.flatten_cons, hflatten, List.take_append_drop]

theorem exists_framed_packets {packets : List (List α)}
    (h : ∀ packet ∈ packets, size ∣ packet.length) :
    ∃ framed : List (List (List α)), (∀ frames ∈ framed, Framed size frames) ∧
      framed.map List.flatten = packets := by
  induction packets with
  | nil => exact ⟨[], nofun, rfl⟩
  | cons packet packets ih =>
      obtain ⟨hpacket, hrest⟩ := List.forall_mem_cons.mp h
      obtain ⟨frames, hframes, hflatten⟩ := exists_framed hpacket
      obtain ⟨framed, hframed, hmap⟩ := ih hrest
      refine ⟨frames :: framed, List.forall_mem_cons.mpr ⟨hframes, hframed⟩, ?_⟩
      rw [List.map_cons, hflatten, hmap]

end RustAdmin.Support
