import Mathlib.Order.Lattice
import Mathlib.Data.List.Pairwise
import Mathlib.Data.Nat.Notation

/-!
# Binary search

`binary_search` of a slice: the range that may hold the value is halved until it
has one place.
-/

namespace RustAdmin.Support

variable {α : Type*} [LinearOrder α]

/-- The last place of the halved range; every turn takes at least one of the
`size` places away. -/
def narrow (values : List α) (target : α) : ℕ → ℕ → ℕ → ℕ
  | 0, base, _ => base
  | fuel + 1, base, size =>
      if size ≤ 1 then base
      else
        let half := size / 2
        match values[base + half]? with
        | some value =>
            narrow values target fuel (if target < value then base else base + half) (size - half)
        | none => base

/-- Where the value is, if it is there. -/
def binarySearch (values : List α) (target : α) : Option ℕ :=
  let base := narrow values target values.length 0 values.length
  if values[base]? = some target then some base else none

/-- The value is nowhere outside the range. -/
def Within (values : List α) (target : α) (base size : ℕ) : Prop :=
  ∀ place, values[place]? = some target → base ≤ place ∧ place < base + size

omit [LinearOrder α] in
theorem within_all (values : List α) (target : α) :
    Within values target 0 values.length := by
  intro place hplace
  obtain ⟨hlt, -⟩ := List.getElem?_eq_some_iff.mp hplace
  omega

theorem lt_of_getElem? {values : List α} (hsorted : values.Pairwise (· < ·)) {i j : ℕ} {a b : α}
    (hi : values[i]? = some a) (hj : values[j]? = some b) (hlt : i < j) : a < b := by
  obtain ⟨hfirst, rfl⟩ := List.getElem?_eq_some_iff.mp hi
  obtain ⟨hsecond, rfl⟩ := List.getElem?_eq_some_iff.mp hj
  exact List.pairwise_iff_getElem.mp hsorted i j hfirst hsecond hlt

/-- One turn keeps the value within the range. -/
theorem within_half {values : List α} (hsorted : values.Pairwise (· < ·)) {target value : α}
    {base size : ℕ} (h : Within values target base size) (hsize : 1 < size)
    (hvalue : values[base + size / 2]? = some value) :
    Within values target (if target < value then base else base + size / 2) (size - size / 2) := by
  intro place hplace
  obtain ⟨hge, hlt⟩ := h place hplace
  by_cases hgreater : target < value
  · rw [if_pos hgreater]
    have hbelow : place < base + size / 2 := by
      by_contra hnot
      obtain heq | hafter := Nat.eq_or_lt_of_le (Nat.le_of_not_lt hnot)
      · rw [← heq, hvalue] at hplace
        exact absurd (Option.some.inj hplace) (ne_of_gt hgreater)
      · exact absurd (lt_of_getElem? hsorted hvalue hplace hafter) (not_lt_of_gt hgreater)
    omega
  · rw [if_neg hgreater]
    have habove : base + size / 2 ≤ place := by
      by_contra hnot
      have hbefore := lt_of_getElem? hsorted hplace hvalue (Nat.lt_of_not_le hnot)
      exact hgreater hbefore
    omega

/-- The search ends at the value, where it is in the list. -/
theorem narrow_eq {values : List α} (hsorted : values.Pairwise (· < ·)) {target : α} {place : ℕ}
    (hplace : values[place]? = some target) :
    ∀ (fuel base size : ℕ), size ≤ fuel → base + size ≤ values.length →
      Within values target base size → narrow values target fuel base size = place := by
  intro fuel
  induction fuel with
  | zero =>
      intro base size hfuel _ hwithin
      obtain ⟨hge, hlt⟩ := hwithin place hplace
      omega
  | succ fuel ih =>
      intro base size hfuel hlength hwithin
      unfold narrow
      by_cases hsize : size ≤ 1
      · rw [if_pos hsize]
        obtain ⟨hge, hlt⟩ := hwithin place hplace
        omega
      · rw [if_neg hsize]
        have hmid : base + size / 2 < values.length := by omega
        have hvalue := List.getElem?_eq_getElem hmid
        simp only [hvalue]
        refine ih _ _ (by omega) ?_ (within_half hsorted hwithin (by omega) hvalue)
        split <;> omega

/-- In a strictly increasing list the search finds exactly the values that are there. -/
theorem binarySearch_eq_some_iff {values : List α} (hsorted : values.Pairwise (· < ·))
    {target : α} {place : ℕ} :
    binarySearch values target = some place ↔ values[place]? = some target := by
  unfold binarySearch
  constructor
  · intro h
    dsimp only at h
    split at h
    · next hfound =>
        obtain rfl := Option.some.inj h
        exact hfound
    · simp at h
  · intro hplace
    have hnarrow := narrow_eq hsorted hplace values.length 0 values.length (Nat.le_refl _)
      (by omega) (within_all values target)
    simp only [hnarrow]
    rw [if_pos hplace]

theorem isSome_binarySearch_iff {values : List α} (hsorted : values.Pairwise (· < ·))
    {target : α} : (binarySearch values target).isSome ↔ target ∈ values := by
  rw [Option.isSome_iff_exists]
  simp only [binarySearch_eq_some_iff hsorted]
  exact List.mem_iff_getElem?.symm

end RustAdmin.Support
