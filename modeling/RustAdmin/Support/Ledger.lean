import Mathlib.Data.Set.Insert
import Mathlib.Logic.Relation

/-!
# Keys shared by holders

A key is held while at least one holder has it.  What is said about a key to the
outside is a sequence of brackets: the first holder opens one, a holder may say
that the key is still held, and the last one to go closes it.  A ledger is the
set of holders with the log of what was said.

`Bracketed` is a list together with the answer to whether its last bracket is open.
`Sound` says that it is open exactly for the keys that are held; each rule of `Step`
keeps that, and so does a path of steps.
-/

namespace RustAdmin.Support

/-- A sequence of brackets `opening holding* closing`.  The flag tells whether
the last one is still open. -/
inductive Bracketed {α : Type*} (opening holding closing : α → Prop) : List α → Bool → Prop
  | nil : Bracketed opening holding closing [] false
  | opened {actions : List α} {a : α} (hactions : Bracketed opening holding closing actions false)
      (ha : opening a) : Bracketed opening holding closing (actions ++ [a]) true
  | held {actions : List α} {a : α} (hactions : Bracketed opening holding closing actions true)
      (ha : holding a) : Bracketed opening holding closing (actions ++ [a]) true
  | closed {actions : List α} {a : α} (hactions : Bracketed opening holding closing actions true)
      (ha : closing a) : Bracketed opening holding closing (actions ++ [a]) false

/-- The first action of a sequence of brackets opens one. -/
theorem Bracketed.opening_head {α : Type*} {opening holding closing : α → Prop} {actions : List α}
    {isOpen : Bool} (h : Bracketed opening holding closing actions isOpen) :
    ∀ a ∈ actions.head?, opening a := by
  have hnonempty : ∀ {l : List α}, Bracketed opening holding closing l true → l ≠ [] := by
    intro l hl
    cases hl <;> simp
  induction h with
  | nil => simp
  | @opened actions a hactions ha ih =>
      cases actions with
      | nil => simpa using ha
      | cons b rest => simpa using ih
  | @held actions a hactions ha ih =>
      cases actions with
      | nil => exact absurd rfl (hnonempty hactions)
      | cons b rest => simpa using ih
  | @closed actions a hactions ha ih =>
      cases actions with
      | nil => exact absurd rfl (hnonempty hactions)
      | cons b rest => simpa using ih

/-- The holders and everything that was said about their keys. -/
structure Ledger (κ η α : Type*) where
  holders : Set η
  log : List (κ × α)

namespace Ledger

variable {κ η α : Type*} (keyOf : η → κ) (opening holding closing : α → Prop)

def Held (holders : Set η) (k : κ) : Prop := ∃ h ∈ holders, keyOf h = k

/-- A holder comes (`take`, `share`), speaks (`touch`), goes while another one
stays (`leave`), or all holders of a key go together (`close`). -/
inductive Step : Ledger κ η α → Ledger κ η α → Prop
  | take {H : Set η} {log : List (κ × α)} (h : η) {a : α} (hfree : ¬ Held keyOf H (keyOf h))
      (ha : opening a) : Step ⟨H, log⟩ ⟨insert h H, log ++ [(keyOf h, a)]⟩
  | share {H : Set η} {log : List (κ × α)} (h : η) (hheld : Held keyOf H (keyOf h)) :
      Step ⟨H, log⟩ ⟨insert h H, log⟩
  | touch {H : Set η} {log : List (κ × α)} {k : κ} {a : α} (hheld : Held keyOf H k)
      (ha : holding a) : Step ⟨H, log⟩ ⟨H, log ++ [(k, a)]⟩
  | leave {H : Set η} {log : List (κ × α)} (h : η) (hheld : Held keyOf (H \ {h}) (keyOf h)) :
      Step ⟨H, log⟩ ⟨H \ {h}, log⟩
  | close {H : Set η} {log : List (κ × α)} {k : κ} {a : α} (hheld : Held keyOf H k)
      (ha : closing a) : Step ⟨H, log⟩ ⟨{h ∈ H | keyOf h ≠ k}, log ++ [(k, a)]⟩

/-- Any number of steps. -/
abbrev Path : Ledger κ η α → Ledger κ η α → Prop :=
  Relation.ReflTransGen (Step keyOf opening holding closing)

variable {keyOf opening holding closing} {H : Set η} {h : η} {k : κ}

theorem held_insert : Held keyOf (insert h H) k ↔ keyOf h = k ∨ Held keyOf H k := by
  simp [Held]

theorem held_diff (hne : keyOf h ≠ k) : Held keyOf (H \ {h}) k ↔ Held keyOf H k := by
  constructor
  · rintro ⟨h', hmem, hkey⟩
    exact ⟨h', hmem.1, hkey⟩
  · rintro ⟨h', hmem, hkey⟩
    refine ⟨h', ⟨hmem, ?_⟩, hkey⟩
    rintro rfl
    exact hne hkey

theorem held_of_held_diff (hheld : Held keyOf (H \ {h}) k) : Held keyOf H k := by
  obtain ⟨h', hmem, hkey⟩ := hheld
  exact ⟨h', hmem.1, hkey⟩

theorem held_sep {k' : κ} : Held keyOf {h ∈ H | keyOf h ≠ k'} k ↔ k ≠ k' ∧ Held keyOf H k := by
  constructor
  · rintro ⟨h', ⟨hmem, hne⟩, rfl⟩
    exact ⟨hne, h', hmem, rfl⟩
  · rintro ⟨hne, h', hmem, rfl⟩
    exact ⟨h', ⟨hmem, hne⟩, rfl⟩

variable [DecidableEq κ] {l l' : Ledger κ η α}

/-- What was said about one key. -/
def actions (log : List (κ × α)) (k : κ) : List α :=
  log.filterMap fun e => if e.1 = k then some e.2 else none

theorem actions_concat {log : List (κ × α)} {k' : κ} {a : α} :
    actions (log ++ [(k', a)]) k = if k' = k then actions log k ++ [a] else actions log k := by
  by_cases hkey : k' = k <;> simp [actions, hkey]

variable (keyOf opening holding closing) in
/-- Every key's actions are brackets, open exactly for the held keys. -/
def Sound (l : Ledger κ η α) : Prop :=
  ∀ k, ∃ isOpen, Bracketed opening holding closing (actions l.log k) isOpen ∧
    (isOpen = true ↔ Held keyOf l.holders k)

theorem sound_empty : Sound keyOf opening holding closing (⟨∅, []⟩ : Ledger κ η α) := by
  intro k
  refine ⟨false, .nil, ?_⟩
  simp [Held]

theorem Step.sound (step : Step keyOf opening holding closing l l')
    (hl : Sound keyOf opening holding closing l) : Sound keyOf opening holding closing l' := by
  intro k
  obtain ⟨isOpen, hbracketed, hopen⟩ := hl k
  cases step with
  | take h hfree ha =>
      by_cases hkey : keyOf h = k
      · subst hkey
        have hclosed : isOpen = false := by simpa using fun hheld => hfree (hopen.mp hheld)
        subst hclosed
        refine ⟨true, ?_, by simp [held_insert]⟩
        rw [actions_concat, if_pos rfl]
        exact .opened hbracketed ha
      · refine ⟨isOpen, ?_, ?_⟩
        · rwa [actions_concat, if_neg hkey]
        · simpa [held_insert, hkey] using hopen
  | share h hheld =>
      refine ⟨isOpen, hbracketed, hopen.trans ?_⟩
      rw [held_insert]
      constructor
      · exact Or.inr
      · rintro (rfl | hk)
        · exact hheld
        · exact hk
  | @touch H log k' a hheld ha =>
      by_cases hkey : k' = k
      · subst hkey
        obtain rfl : isOpen = true := hopen.mpr hheld
        refine ⟨true, ?_, hopen⟩
        rw [actions_concat, if_pos rfl]
        exact .held hbracketed ha
      · refine ⟨isOpen, ?_, hopen⟩
        rwa [actions_concat, if_neg hkey]
  | leave h hheld =>
      refine ⟨isOpen, hbracketed, hopen.trans ?_⟩
      by_cases hkey : keyOf h = k
      · subst hkey
        exact ⟨fun _ => hheld, held_of_held_diff⟩
      · exact (held_diff hkey).symm
  | @close H log k' a hheld ha =>
      by_cases hkey : k' = k
      · subst hkey
        obtain rfl : isOpen = true := hopen.mpr hheld
        refine ⟨false, ?_, by simp [held_sep]⟩
        rw [actions_concat, if_pos rfl]
        exact .closed hbracketed ha
      · refine ⟨isOpen, ?_, ?_⟩
        · rwa [actions_concat, if_neg hkey]
        · rw [held_sep]
          exact hopen.trans ⟨fun hk => ⟨Ne.symm hkey, hk⟩, And.right⟩

theorem Path.sound (path : Path keyOf opening holding closing l l')
    (hl : Sound keyOf opening holding closing l) : Sound keyOf opening holding closing l' := by
  induction path with
  | refl => exact hl
  | tail _ step ih => exact step.sound ih

omit [DecidableEq κ] in
/-- All keys of a list are closed one after the other. -/
theorem path_closeAll {a : α} (ha : closing a) (ks : List κ) {H : Set η} {log : List (κ × α)}
    (hnodup : ks.Nodup) (hheld : ∀ k ∈ ks, Held keyOf H k) :
    Path keyOf opening holding closing ⟨H, log⟩
      ⟨{h ∈ H | keyOf h ∉ ks}, log ++ ks.map fun k => (k, a)⟩ := by
  induction ks generalizing H log with
  | nil => simpa using Relation.ReflTransGen.refl
  | cons k ks ih =>
      obtain ⟨hnot, hnodup⟩ := List.nodup_cons.mp hnodup
      have hclose : Step keyOf opening holding closing ⟨H, log⟩
          ⟨{h ∈ H | keyOf h ≠ k}, log ++ [(k, a)]⟩ := .close (hheld k (by simp)) ha
      have hrest : ∀ k' ∈ ks, Held keyOf {h ∈ H | keyOf h ≠ k} k' := by
        intro k' hk'
        exact held_sep.mpr ⟨fun heq => hnot (heq ▸ hk'), hheld k' (by simp [hk'])⟩
      have hholders : {h ∈ {h ∈ H | keyOf h ≠ k} | keyOf h ∉ ks} = {h ∈ H | keyOf h ∉ k :: ks} := by
        ext h
        simp [and_assoc]
      have hpath := @ih _ (log ++ [(k, a)]) hnodup hrest
      rw [hholders, List.append_assoc] at hpath
      exact .head hclose hpath

end Ledger

end RustAdmin.Support
