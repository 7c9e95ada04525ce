import Mathlib.Algebra.BigOperators.Group.Finset.Basic
import Mathlib.Data.List.AList
import RustAdmin.Support.Arith

/-!
# Maps that count

A map from keys to positive counters counts a list of keys when every key of the
list is present with its number of occurrences and no other key is present.
Incrementing and decrementing a counter, with removal at zero, follow the list
when an occurrence is added or taken away.
-/

namespace RustAdmin.Support

variable {κ : Type*} [DecidableEq κ]

abbrev CountMap (κ : Type*) := AList fun _ : κ => ℕ

namespace CountMap

/-- The counter of a key, zero if it is absent. -/
def get (m : CountMap κ) (k : κ) : ℕ := (m.lookup k).getD 0

/-- One more occurrence of a key. -/
def increment (m : CountMap κ) (k : κ) : CountMap κ := m.insert k (m.get k + 1)

/-- One occurrence less, where the key is present; no value if its counter is zero. -/
def decrement (m : CountMap κ) (k : κ) : Option (CountMap κ) :=
  match m.lookup k with
  | none => some m
  | some count =>
      (checkedSub count 1).map fun count =>
        if count = 0 then m.erase k else m.insert k count

/-- The sum of all counters. -/
def total (m : CountMap κ) : ℕ := (m.entries.map Sigma.snd).sum

/-- The map counts the elements of the list. -/
def Counts (m : CountMap κ) (l : List κ) : Prop :=
  ∀ k, m.lookup k = if k ∈ l then some (l.count k) else none

variable {m : CountMap κ} {l : List κ} {k : κ}

theorem counts_nil : Counts (∅ : CountMap κ) [] := by
  intro k
  simp

theorem Counts.get_eq (h : m.Counts l) (k : κ) : m.get k = l.count k := by
  unfold get
  rw [h k]
  by_cases hk : k ∈ l
  · rw [if_pos hk, Option.getD_some]
  · rw [if_neg hk, Option.getD_none, List.count_eq_zero_of_not_mem hk]

theorem Counts.mem_iff (h : m.Counts l) : k ∈ m ↔ k ∈ l := by
  rw [← AList.lookup_isSome, h k]
  by_cases hk : k ∈ l <;> simp [hk]

theorem Counts.perm {l' : List κ} (h : m.Counts l) (hperm : l.Perm l') : m.Counts l' := by
  intro k
  rw [h k, hperm.count_eq k]
  simp only [hperm.mem_iff]

theorem Counts.increment (h : m.Counts l) (k : κ) : (m.increment k).Counts (k :: l) := by
  intro other
  unfold CountMap.increment
  by_cases hother : other = k
  · subst hother
    rw [AList.lookup_insert, h.get_eq, if_pos List.mem_cons_self, List.count_cons_self]
  · rw [AList.lookup_insert_ne hother, h other, List.count_cons_of_ne (Ne.symm hother)]
    simp [hother]

/-- Taking away an occurrence never takes a counter below zero. -/
theorem Counts.decrement (h : m.Counts l) (hk : k ∈ l) :
    ∃ m', m.decrement k = some m' ∧ m'.Counts (l.erase k) := by
  have hlookup : m.lookup k = some (l.count k) := by rw [h k, if_pos hk]
  have hpos : 0 < l.count k := List.count_pos_iff.mpr hk
  have hother : ∀ other, other ≠ k →
      m.lookup other = if other ∈ l.erase k then some ((l.erase k).count other) else none := by
    intro other hne
    rw [h other, List.count_erase_of_ne hne]
    simp only [List.mem_erase_of_ne hne]
  refine ⟨if l.count k - 1 = 0 then m.erase k else m.insert k (l.count k - 1), ?_,
    fun other => ?_⟩
  · unfold CountMap.decrement
    rw [hlookup]
    simp only [checkedSub_of_le hpos, Option.map_some]
  · by_cases hne : other = k
    · subst hne
      have hcount : (l.erase other).count other = l.count other - 1 := List.count_erase_self
      have hmem : other ∈ l.erase other ↔ l.count other - 1 ≠ 0 := by
        rw [← List.count_pos_iff, hcount]
        exact Nat.pos_iff_ne_zero
      split
      · next hzero => rw [AList.lookup_erase, if_neg fun hin => hmem.mp hin hzero]
      · next hzero => rw [AList.lookup_insert, if_pos (hmem.mpr hzero), hcount]
    · split
      · rw [AList.lookup_erase_ne hne]
        exact hother other hne
      · rw [AList.lookup_insert_ne hne]
        exact hother other hne

/-- The counters add up to the length of the list. -/
theorem Counts.total_eq (h : m.Counts l) : m.total = l.length := by
  have hvalues : m.entries.map Sigma.snd = m.keys.map l.count := by
    unfold AList.keys List.keys
    rw [List.map_map]
    refine List.map_congr_left fun entry hentry => ?_
    have hlookup : m.lookup entry.1 = some entry.2 := AList.mem_lookup_iff.mpr hentry
    rw [h entry.1] at hlookup
    by_cases hmem : entry.1 ∈ l
    · rw [if_pos hmem, Option.some_inj] at hlookup
      exact hlookup.symm
    · rw [if_neg hmem] at hlookup
      simp at hlookup
  have hkeys : m.keys.toFinset = l.toFinset := by
    ext k
    rw [List.mem_toFinset, List.mem_toFinset, ← AList.mem_keys, h.mem_iff]
  calc m.total = (m.keys.map l.count).sum := by rw [total, hvalues]
    _ = ∑ k ∈ m.keys.toFinset, l.count k := (List.sum_toFinset _ m.keys_nodup).symm
    _ = ∑ k ∈ l.toFinset, l.count k := by rw [hkeys]
    _ = l.length := List.sum_toFinset_count_eq_length l

end CountMap

end RustAdmin.Support
