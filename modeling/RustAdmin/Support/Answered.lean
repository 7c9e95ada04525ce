import Mathlib.Data.List.Basic

/-!
# Requests in a log and their answers

Some entries of a log open a request and later entries answer it.  A request that
is not answered yet has to be carried by somebody outside the log.
-/

namespace RustAdmin.Support

variable {α : Type*} (opens : α → Prop) (answers : α → α → Prop)

/-- Every request of the log is carried or has an answer behind it. -/
def Answered (carried : α → Prop) : List α → Prop
  | [] => True
  | x :: rest => (opens x → carried x ∨ ∃ y ∈ rest, answers x y) ∧ Answered carried rest

/-- A request of the log that nothing behind it answers. -/
inductive Unanswered (x : α) : List α → Prop
  | here {rest : List α} (hopens : opens x) (hnone : ∀ y ∈ rest, ¬ answers x y) :
      Unanswered x (x :: rest)
  | there {y : α} {rest : List α} (hrest : Unanswered x rest) : Unanswered x (y :: rest)

variable {opens answers} {carried carried' : α → Prop} {log tail : List α} {x : α}

/-- What is carried may change when a tail is appended, if the tail answers what is
no longer carried. -/
theorem Answered.append (hlog : Answered opens answers carried log)
    (hkept : ∀ x, opens x → carried x → carried' x ∨ ∃ y ∈ tail, answers x y)
    (htail : Answered opens answers carried' tail) :
    Answered opens answers carried' (log ++ tail) := by
  induction log with
  | nil => exact htail
  | cons x log ih =>
      obtain ⟨hx, hrest⟩ := hlog
      refine ⟨?_, ih hrest⟩
      intro hopens
      rcases hx hopens with hcarried | ⟨y, hmem, hanswers⟩
      · rcases hkept x hopens hcarried with hstill | ⟨y, hmem, hanswers⟩
        · exact Or.inl hstill
        · exact Or.inr ⟨y, List.mem_append_right _ hmem, hanswers⟩
      · exact Or.inr ⟨y, List.mem_append_left _ hmem, hanswers⟩

theorem Answered.mono (hlog : Answered opens answers carried log)
    (hkept : ∀ x, opens x → carried x → carried' x) : Answered opens answers carried' log := by
  rw [← List.append_nil log]
  apply hlog.append
  · exact fun x hopens hcarried => Or.inl (hkept x hopens hcarried)
  · trivial

/-- Entries that open nothing need no answer. -/
theorem answered_of_silent (hsilent : ∀ x ∈ tail, ¬ opens x) :
    Answered opens answers carried tail := by
  induction tail with
  | nil => trivial
  | cons x tail ih =>
      refine ⟨fun hopens => absurd hopens (hsilent x List.mem_cons_self), ih ?_⟩
      exact fun y hmem => hsilent y (List.mem_cons_of_mem _ hmem)

theorem answered_singleton (hx : opens x → carried x) : Answered opens answers carried [x] :=
  ⟨fun hopens => Or.inl (hx hopens), trivial⟩

/-- Somebody carries what is not answered. -/
theorem Answered.carried_of_unanswered (hlog : Answered opens answers carried log)
    (hx : Unanswered opens answers x log) : carried x := by
  induction hx with
  | here hopens hnone =>
      rcases hlog.1 hopens with hcarried | ⟨y, hmem, hanswers⟩
      · exact hcarried
      · exact absurd hanswers (hnone y hmem)
  | there hrest ih => exact ih hlog.2

theorem Unanswered.append (hx : Unanswered opens answers x log)
    (hnone : ∀ y ∈ tail, ¬ answers x y) : Unanswered opens answers x (log ++ tail) := by
  induction hx with
  | here hopens hrest =>
      refine .here hopens ?_
      intro y hmem
      rcases List.mem_append.mp hmem with hold | hnew
      · exact hrest y hold
      · exact hnone y hnew
  | there hrest ih => exact .there ih

theorem unanswered_concat (log : List α) (hopens : opens x) :
    Unanswered opens answers x (log ++ [x]) := by
  induction log with
  | nil => exact .here hopens (by simp)
  | cons y log ih => exact .there ih

end RustAdmin.Support
