import Mathlib.Data.List.Nodup
import Mathlib.Data.Multiset.Defs
import Mathlib.Data.Finset.Dedup
import Mathlib.Data.Finset.Lattice.Basic
import Mathlib.Data.List.Sort

/-!
# Insertion-ordered maps and sorted sets

A map that is iterated in the order in which its keys were first set: setting a
key again keeps its place, removing it and setting it again moves it to the end.
Sets are finite sets; where they are iterated, they are sorted first.

Everything is proved of `get?`: since no key occurs twice, an entry is in the list
exactly if it is what `get?` finds (`mem_entries_iff`), so each operation needs one
lemma on what is found after it.  Only the lemmas that count values look at the list
itself.
-/

namespace RustAdmin.Support

/-- A map with its entries in insertion order. -/
@[ext] structure LinkedMap (κ ν : Type*) where
  entries : List (κ × ν)
  nodup : (entries.map Prod.fst).Nodup

namespace LinkedMap

variable {κ ν : Type*} {m : LinkedMap κ ν} {k k' : κ} {v : ν}

def empty : LinkedMap κ ν := ⟨[], List.nodup_nil⟩

instance : EmptyCollection (LinkedMap κ ν) := ⟨empty⟩

def keys (m : LinkedMap κ ν) : List κ := m.entries.map Prod.fst

def values (m : LinkedMap κ ν) : List ν := m.entries.map Prod.snd

theorem eq_of_mem (h : (k, v) ∈ m.entries) {v' : ν} (h' : (k, v') ∈ m.entries) : v = v' := by
  have hinj := List.inj_on_of_nodup_map m.nodup h h' rfl
  exact congrArg Prod.snd hinj

variable [DecidableEq κ]

def get? (m : LinkedMap κ ν) (k : κ) : Option ν :=
  (m.entries.find? fun e => decide (e.1 = k)).map Prod.snd

def contains (m : LinkedMap κ ν) (k : κ) : Bool := (m.get? k).isSome

/-- The entry of `k` keeps its place; a new key goes to the end. -/
def set (m : LinkedMap κ ν) (k : κ) (v : ν) : LinkedMap κ ν :=
  if h : k ∈ m.keys then
    ⟨m.entries.map fun e => if e.1 = k then (k, v) else e, by
      have hkeys :
          (m.entries.map fun e => if e.1 = k then (k, v) else e).map Prod.fst = m.keys := by
        rw [List.map_map]
        refine List.map_congr_left fun e _ => ?_
        by_cases he : e.1 = k <;> simp [he]
      rw [hkeys]
      exact m.nodup⟩
  else
    ⟨m.entries ++ [(k, v)], by
      rw [List.map_append]
      exact List.Nodup.append m.nodup (List.nodup_singleton k) (by simpa [keys] using h)⟩

def remove (m : LinkedMap κ ν) (k : κ) : LinkedMap κ ν :=
  ⟨m.entries.filter fun e => decide (e.1 ≠ k), m.nodup.sublist (List.filter_sublist.map _)⟩

theorem mem_entries_iff : (k, v) ∈ m.entries ↔ m.get? k = some v := by
  constructor
  · intro hmem
    unfold get?
    cases hfind : m.entries.find? fun e => decide (e.1 = k) with
    | none =>
        have hnot := List.find?_eq_none.mp hfind (k, v) hmem
        simp at hnot
    | some e =>
        obtain ⟨k', v'⟩ := e
        have hkey : k' = k := by simpa using List.find?_some hfind
        subst hkey
        simpa using eq_of_mem (List.mem_of_find?_eq_some hfind) hmem
  · intro hget
    obtain ⟨⟨k', v'⟩, hfind, rfl⟩ := Option.map_eq_some_iff.mp hget
    have hkey : k' = k := by simpa using List.find?_some hfind
    subst hkey
    exact List.mem_of_find?_eq_some hfind

theorem mem_keys_iff : k ∈ m.keys ↔ ∃ v, m.get? k = some v := by
  constructor
  · intro hk
    obtain ⟨⟨k', v⟩, hmem, rfl⟩ := List.mem_map.mp hk
    exact ⟨v, mem_entries_iff.mp hmem⟩
  · rintro ⟨v, hget⟩
    exact List.mem_map.mpr ⟨(k, v), mem_entries_iff.mpr hget, rfl⟩

@[simp] theorem get?_empty : (∅ : LinkedMap κ ν).get? k = none := rfl

/-- A lookup is determined by the entries, whatever their order. -/
theorem get?_eq_of_mem_iff {m' : LinkedMap κ ν} {o : Option ν}
    (h : ∀ v, (k, v) ∈ m'.entries ↔ o = some v) : m'.get? k = o := by
  apply Option.ext
  intro v
  rw [← mem_entries_iff, h v]

theorem get?_set : (m.set k v).get? k' = if k' = k then some v else m.get? k' := by
  apply get?_eq_of_mem_iff
  intro w
  by_cases hk : k ∈ m.keys
  · obtain ⟨u, hu⟩ := mem_keys_iff.mp hk
    have hentries : (m.set k v).entries = m.entries.map fun e => if e.1 = k then (k, v) else e := by
      simp [set, hk]
    rw [hentries, List.mem_map]
    by_cases hkey : k' = k
    · subst hkey
      constructor
      · rintro ⟨e, -, he⟩
        by_cases hek : e.1 = k'
        · simp_all
        · rw [if_neg hek] at he
          exact absurd (congrArg Prod.fst he) hek
      · intro hw
        refine ⟨(k', u), mem_entries_iff.mpr hu, ?_⟩
        simp_all
    · rw [if_neg hkey, ← mem_entries_iff]
      constructor
      · rintro ⟨e, hmem, he⟩
        by_cases hek : e.1 = k
        · rw [if_pos hek] at he
          exact absurd (congrArg Prod.fst he).symm hkey
        · rw [if_neg hek] at he
          exact he ▸ hmem
      · intro hmem
        exact ⟨(k', w), hmem, if_neg hkey⟩
  · have hentries : (m.set k v).entries = m.entries ++ [(k, v)] := by simp [set, hk]
    rw [hentries, List.mem_append, List.mem_singleton]
    by_cases hkey : k' = k
    · subst hkey
      have hnone : (k', w) ∉ m.entries := fun hmem => hk (List.mem_map.mpr ⟨_, hmem, rfl⟩)
      simp [hnone, eq_comm]
    · simp [hkey, mem_entries_iff]

theorem get?_remove : (m.remove k).get? k' = if k' = k then none else m.get? k' := by
  apply get?_eq_of_mem_iff
  intro w
  have hentries : (m.remove k).entries = m.entries.filter fun e => decide (e.1 ≠ k) := rfl
  rw [hentries, List.mem_filter, mem_entries_iff]
  by_cases hkey : k' = k <;> simp [hkey]

/-- The entries with the property, `retain` of a hash map. -/
def filter (m : LinkedMap κ ν) (p : κ → ν → Bool) : LinkedMap κ ν :=
  ⟨m.entries.filter fun e => p e.1 e.2, m.nodup.sublist (List.filter_sublist.map Prod.fst)⟩

theorem get?_filter {p : κ → ν → Bool} : (m.filter p).get? k = (m.get? k).filter (p k) := by
  apply get?_eq_of_mem_iff
  intro w
  rw [Option.filter_eq_some_iff, ← mem_entries_iff]
  exact List.mem_filter

/-- Removing a key that is not there changes nothing. -/
theorem remove_of_get?_eq_none (h : m.get? k = none) : m.remove k = m := by
  apply LinkedMap.ext
  apply List.filter_eq_self.mpr
  rintro ⟨k', v⟩ hmem
  rw [decide_eq_true_eq]
  rintro rfl
  rw [mem_entries_iff, h] at hmem
  cases hmem

@[simp] theorem contains_iff : m.contains k = true ↔ ∃ v, m.get? k = some v := by
  rw [contains, Option.isSome_iff_exists]

theorem length_keys_set_le (m : LinkedMap κ ν) (k : κ) (v : ν) :
    m.keys.length ≤ (m.set k v).keys.length := by
  by_cases hk : k ∈ m.keys
  · have hset : (m.set k v).entries = m.entries.map fun e => if e.1 = k then (k, v) else e := by
      simp [set, hk]
    simp [keys, hset]
  · have hset : (m.set k v).entries = m.entries ++ [(k, v)] := by simp [set, hk]
    simp [keys, hset]

theorem length_keys_set (m : LinkedMap κ ν) (k : κ) (v : ν) :
    (m.set k v).keys.length = if k ∈ m.keys then m.keys.length else m.keys.length + 1 := by
  by_cases hk : k ∈ m.keys
  · have hset : (m.set k v).entries = m.entries.map fun e => if e.1 = k then (k, v) else e := by
      simp [set, hk]
    rw [if_pos hk]
    simp [keys, hset]
  · have hset : (m.set k v).entries = m.entries ++ [(k, v)] := by simp [set, hk]
    rw [if_neg hk]
    simp [keys, hset]

/-- Where keys are unique, replacing the value of one key changes one value. -/
theorem countP_replace_le (k : κ) (v : ν) (p : ν → Bool) {l : List (κ × ν)}
    (hnodup : (l.map Prod.fst).Nodup) :
    ((l.map fun e => if e.1 = k then (k, v) else e).map Prod.snd).countP p ≤
      (l.map Prod.snd).countP p + if p v then 1 else 0 := by
  induction l with
  | nil => simp
  | cons e l ih =>
      obtain ⟨hfresh, hl⟩ := List.nodup_cons.mp hnodup
      by_cases he : e.1 = k
      · have hrest : (l.map fun e => if e.1 = k then (k, v) else e) = l := by
          refine (List.map_congr_left fun other hother => ?_).trans (List.map_id l)
          refine if_neg fun hkey => hfresh ?_
          exact List.mem_map.mpr ⟨other, hother, hkey.trans he.symm⟩
        simp only [List.map_cons, if_pos he, hrest, List.countP_cons]
        omega
      · have := ih hl
        simp only [List.map_cons, if_neg he, List.countP_cons] at this ⊢
        omega

/-- Setting one key adds at most its own value to those with a property. -/
theorem countP_values_set_le (m : LinkedMap κ ν) (k : κ) (v : ν) (p : ν → Bool) :
    (m.set k v).values.countP p ≤ m.values.countP p + if p v then 1 else 0 := by
  by_cases hk : k ∈ m.keys
  · have hset : (m.set k v).entries = m.entries.map fun e => if e.1 = k then (k, v) else e := by
      simp [set, hk]
    rw [values, hset]
    exact countP_replace_le k v p m.nodup
  · have hset : (m.set k v).entries = m.entries ++ [(k, v)] := by simp [set, hk]
    simp [values, hset, List.countP_cons]

/-- Every entry of the list is set, one after the other. -/
def setAll (m : LinkedMap κ ν) (l : List (κ × ν)) : LinkedMap κ ν :=
  l.foldl (fun m e => m.set e.1 e.2) m

theorem get?_setAll (other : LinkedMap κ ν) :
    (m.setAll other.entries).get? k = (other.get? k).or (m.get? k) := by
  obtain ⟨l, hnodup⟩ := other
  unfold setAll
  induction l generalizing m with
  | nil => rfl
  | cons e l ih =>
      obtain ⟨k', v⟩ := e
      obtain ⟨hfresh, hl⟩ := List.nodup_cons.mp hnodup
      rw [List.foldl_cons, ih hl, get?_set]
      by_cases hk : k = k'
      · subst hk
        have hnone : (⟨l, hl⟩ : LinkedMap κ ν).get? k = none := by
          cases hget : (⟨l, hl⟩ : LinkedMap κ ν).get? k with
          | none => rfl
          | some w => exact absurd (mem_keys_iff.mpr ⟨w, hget⟩) hfresh
        have hhead : (⟨(k, v) :: l, hnodup⟩ : LinkedMap κ ν).get? k = some v := by simp [get?]
        rw [hnone, hhead, if_pos rfl]
        rfl
      · have htail : (⟨(k', v) :: l, hnodup⟩ : LinkedMap κ ν).get? k =
            (⟨l, hl⟩ : LinkedMap κ ν).get? k := by
          simp [get?, Ne.symm hk]
        rw [htail, if_neg hk]

/-- Every value is replaced, in its place. -/
def mapValues (m : LinkedMap κ ν) (f : κ → ν → ν) : LinkedMap κ ν :=
  ⟨m.entries.map fun e => (e.1, f e.1 e.2), by
    rw [List.map_map]
    exact m.nodup⟩

omit [DecidableEq κ] in
theorem keys_mapValues (m : LinkedMap κ ν) (f : κ → ν → ν) : (m.mapValues f).keys = m.keys := by
  simp only [keys, mapValues, List.map_map]
  rfl

theorem get?_mapValues {f : κ → ν → ν} : (m.mapValues f).get? k = (m.get? k).map (f k) := by
  apply get?_eq_of_mem_iff
  intro v
  rw [Option.map_eq_some_iff]
  constructor
  · intro hmem
    obtain ⟨⟨k', w⟩, hw, heq⟩ := List.mem_map.mp hmem
    obtain ⟨rfl, rfl⟩ := Prod.mk.inj heq
    exact ⟨w, mem_entries_iff.mp hw, rfl⟩
  · rintro ⟨w, hw, rfl⟩
    exact List.mem_map.mpr ⟨(k, w), mem_entries_iff.mpr hw, rfl⟩

/-- The map with other values. -/
def map {μ : Type*} (m : LinkedMap κ ν) (f : ν → μ) : LinkedMap κ μ :=
  ⟨m.entries.map fun e => (e.1, f e.2), by
    rw [List.map_map]
    exact m.nodup⟩

omit [DecidableEq κ] in
theorem keys_map {μ : Type*} (m : LinkedMap κ ν) (f : ν → μ) : (m.map f).keys = m.keys := by
  simp only [keys, map, List.map_map]
  rfl

theorem get?_map {μ : Type*} {f : ν → μ} : (m.map f).get? k = (m.get? k).map f := by
  apply get?_eq_of_mem_iff
  intro w
  rw [Option.map_eq_some_iff]
  constructor
  · intro hmem
    obtain ⟨⟨k', v⟩, hv, heq⟩ := List.mem_map.mp hmem
    obtain ⟨rfl, rfl⟩ := Prod.mk.inj heq
    exact ⟨v, mem_entries_iff.mp hv, rfl⟩
  · rintro ⟨v, hv, rfl⟩
    exact List.mem_map.mpr ⟨(k, v), mem_entries_iff.mpr hv, rfl⟩

theorem map_set {μ : Type*} (m : LinkedMap κ ν) (k : κ) (v : ν) (f : ν → μ) :
    (m.set k v).map f = (m.map f).set k (f v) := by
  apply LinkedMap.ext
  unfold set
  by_cases h : k ∈ m.keys
  · rw [dif_pos h, dif_pos (keys_map m f ▸ h)]
    simp only [map, List.map_map]
    refine List.map_congr_left fun e _ => ?_
    by_cases he : e.1 = k <;> simp [he]
  · rw [dif_neg h, dif_neg (keys_map m f ▸ h)]
    simp only [map, List.map_append, List.map_cons, List.map_nil]

theorem map_remove {μ : Type*} (m : LinkedMap κ ν) (k : κ) (f : ν → μ) :
    (m.remove k).map f = (m.map f).remove k := by
  apply LinkedMap.ext
  simp only [map, remove, List.filter_map]
  rfl

theorem remove_comm (m : LinkedMap κ ν) (k k' : κ) :
    (m.remove k).remove k' = (m.remove k').remove k := by
  apply LinkedMap.ext
  simp only [remove]
  exact List.filter_comm _ _ _

omit [DecidableEq κ] in
/-- Replacing the values gives none a property that it did not have. -/
theorem countP_values_mapValues_le (m : LinkedMap κ ν) {f : κ → ν → ν} {p : ν → Bool}
    (hf : ∀ k v, p (f k v) = true → p v = true) :
    (m.mapValues f).values.countP p ≤ m.values.countP p := by
  simp only [values, mapValues, List.map_map, List.countP_map]
  exact List.countP_mono_left fun e _ => hf e.1 e.2

/-- Of what the entries give, what belongs to one key is what its own value gives. -/
theorem filter_filterMap_entries {α : Type*} (f : κ → ν → Option α) (key : α → κ)
    (hkey : ∀ k v a, f k v = some a → key a = k) (m : LinkedMap κ ν) (k : κ) :
    (m.entries.filterMap fun e => f e.1 e.2).filter (fun a => decide (key a = k)) =
      ((m.get? k).bind (f k)).toList := by
  obtain ⟨entries, hnodup⟩ := m
  unfold get?
  induction entries with
  | nil => rfl
  | cons e entries ih =>
      obtain ⟨k', v⟩ := e
      obtain ⟨hnot, hrest⟩ := List.nodup_cons.mp hnodup
      by_cases hk : k' = k
      · subst hk
        -- The other entries have other keys.
        have hnone : entries.find? (fun e => decide (e.1 = k')) = none := by
          apply List.find?_eq_none.mpr
          intro e he
          rw [decide_eq_true_eq]
          rintro rfl
          exact hnot (List.mem_map.mpr ⟨e, he, rfl⟩)
        have hempty := ih hrest
        simp only [hnone, Option.map_none, Option.bind_none, Option.toList_none] at hempty
        cases hf : f k' v with
        | none => simpa [hf] using hempty
        | some a => simpa [hf, hkey k' v a hf] using hempty
      · have htail := ih hrest
        cases hf : f k' v with
        | none => simpa [hf, hk] using htail
        | some a => simpa [hf, hk, hkey k' v a hf] using htail

end LinkedMap

/-! ## Sorted sets -/

section Sorted

variable {α : Type*} [LinearOrder α] {s : Finset α} {a : α}

/-- The elements in order, by insertion. -/
def sortedList (s : Finset α) : List α :=
  Quotient.liftOn s.val (List.insertionSort (· ≤ ·)) fun _ _ hperm =>
    List.Perm.eq_of_pairwise (fun _ _ _ _ => le_antisymm)
      (List.pairwise_insertionSort _ _) (List.pairwise_insertionSort _ _)
      ((List.perm_insertionSort _ _).trans (hperm.trans (List.perm_insertionSort _ _).symm))

theorem coe_sortedList (s : Finset α) : (sortedList s : Multiset α) = s.val := by
  obtain ⟨val, hnodup⟩ := s
  induction val using Quotient.inductionOn with
  | h l => exact Multiset.coe_eq_coe.mpr (List.perm_insertionSort _ l)

@[simp] theorem mem_sortedList : a ∈ sortedList s ↔ a ∈ s := by
  rw [← Finset.mem_val, ← coe_sortedList, Multiset.mem_coe]

theorem nodup_sortedList (s : Finset α) : (sortedList s).Nodup := by
  rw [← Multiset.coe_nodup, coe_sortedList]
  exact s.nodup

end Sorted

end RustAdmin.Support
