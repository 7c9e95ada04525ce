import Mathlib.Data.List.Induction

/-!
# Runs of a labelled step relation

A component is a step relation `Step : σ → ε → σ → Prop`: in a state, an event
(a call with its answer, a message, a timeout) leads to a next state.  `Run`
closes it under sequencing and remembers the events, so that a statement about
"every interleaving" is a statement about every `Run`, and what has been sent or
returned so far is a function of the event list.

`Run.invariant` is the induction over runs, with the events so far as an argument of
the invariant.  What is said of every event (`Always`) or of the time since an event
(`Since`) is unfolded at the end of the list, where a run grows.
-/

namespace RustAdmin.Support

variable {σ ε : Type*}

/-- `Run Step start events last`: the events lead from `start` to `last`. -/
inductive Run (Step : σ → ε → σ → Prop) (start : σ) : List ε → σ → Prop
  | nil : Run Step start [] start
  | snoc {events : List ε} {before after : σ} {event : ε}
      (run : Run Step start events before) (step : Step before event after) :
      Run Step start (events ++ [event]) after

namespace Run

variable {Step : σ → ε → σ → Prop} {start middle last : σ} {events more : List ε}

/-- The invariant rule: a property of the events and the state that holds at
the start and that every step keeps holds at the end of every run. -/
theorem invariant (Inv : List ε → σ → Prop) (hstart : Inv [] start)
    (hstep : ∀ events before event after, Inv events before → Step before event after →
      Inv (events ++ [event]) after)
    (run : Run Step start events last) : Inv events last := by
  induction run with
  | nil => exact hstart
  | snoc _ step ih => exact hstep _ _ _ _ ih step

/-- The invariant rule for a property of the state alone. -/
theorem stateInvariant (Inv : σ → Prop) (hstart : Inv start)
    (hstep : ∀ before event after, Inv before → Step before event after → Inv after)
    (run : Run Step start events last) : Inv last :=
  run.invariant (fun _ state => Inv state) hstart fun _ _ _ _ => hstep _ _ _

/-- A run that goes on is a run. -/
theorem append (first : Run Step start events middle) (second : Run Step middle more last) :
    Run Step start (events ++ more) last := by
  induction second with
  | nil => simpa using first
  | snoc _ step ih => simpa [← List.append_assoc] using ih.snoc step

theorem mono {Step' : σ → ε → σ → Prop} (run : Run Step start events last)
    (h : ∀ before event after, Step before event after → Step' before event after) :
    Run Step' start events last := by
  induction run with
  | nil => exact .nil
  | snoc _ step ih => exact ih.snoc (h _ _ _ step)

/-- A single step is a run. -/
theorem single {event : ε} (step : Step start event last) : Run Step start [event] last := by
  have hnil : Run Step start [] start := .nil
  simpa using hnil.snoc step

/-- A run of a nonempty event list ends with a step. -/
theorem snoc_inv {event : ε} (run : Run Step start (events ++ [event]) last) :
    ∃ before, Run Step start events before ∧ Step before event last := by
  generalize hall : events ++ [event] = all at run
  cases run with
  | nil => simp at hall
  | snoc run step =>
      obtain ⟨rfl, hevent⟩ := List.append_inj' hall rfl
      obtain rfl : event = _ := by simpa using hevent
      exact ⟨_, run, step⟩

/-- Every run of an event list passes through a state after each prefix. -/
theorem split (run : Run Step start (events ++ more) last) :
    ∃ middle, Run Step start events middle ∧ Run Step middle more last := by
  induction more using List.reverseRecOn generalizing last with
  | nil => exact ⟨last, by simpa using run, .nil⟩
  | append_singleton more event ih =>
      rw [← List.append_assoc] at run
      obtain ⟨before, hrun, hstep⟩ := run.snoc_inv
      obtain ⟨middle, hfirst, hsecond⟩ := ih hrun
      exact ⟨middle, hfirst, hsecond.snoc hstep⟩

/-- A run with events ends with a step. -/
theorem exists_last (run : Run Step start events last) (hevents : events ≠ []) :
    ∃ before event, Step before event last := by
  cases run with
  | nil => exact absurd rfl hevents
  | snoc _ step => exact ⟨_, _, step⟩

/-- A run without events stays. -/
theorem nil_inv (run : Run Step start [] last) : last = start := by
  generalize hall : ([] : List ε) = all at run
  cases run with
  | nil => rfl
  | snoc => simp at hall

/-- A run of a nonempty event list begins with a step. -/
theorem cons_inv {event : ε} (run : Run Step start (event :: events) last) :
    ∃ next, Step start event next ∧ Run Step next events last := by
  have hrun : Run Step start ([] ++ [event] ++ events) last := run
  obtain ⟨next, hfirst, hrest⟩ := hrun.split
  obtain ⟨before, hnil, hstep⟩ := hfirst.snoc_inv
  obtain rfl := hnil.nil_inv
  exact ⟨next, hstep, hrest⟩

end Run

/-! ## Calls that return -/

/-- Where every call on a state with the invariant returns such a state, every
sequence of calls does. -/
theorem exists_foldlM {call : σ → ε → Option σ} (Inv : σ → Prop)
    (hcall : ∀ s event, Inv s → ∃ s', call s event = some s' ∧ Inv s')
    (events : List ε) {start : σ} (hstart : Inv start) :
    ∃ last, events.foldlM call start = some last ∧ Inv last := by
  induction events generalizing start with
  | nil => exact ⟨start, rfl, hstart⟩
  | cons event events ih =>
      obtain ⟨next, hnext, hinv⟩ := hcall start event hstart
      obtain ⟨last, hlast, hlastInv⟩ := ih hinv
      refine ⟨last, ?_, hlastInv⟩
      rw [List.foldlM_cons, hnext]
      exact hlast

/-- Calls that return are a run. -/
theorem run_of_foldlM {call : σ → ε → Option σ} {start last : σ} {events : List ε}
    (h : events.foldlM call start = some last) :
    Run (fun s event s' => call s event = some s') start events last := by
  induction events using List.reverseRecOn generalizing last with
  | nil =>
      obtain rfl : start = last := Option.some.inj h
      exact .nil
  | append_singleton events event ih =>
      rw [List.foldlM_append] at h
      obtain ⟨before, hbefore, hlast⟩ := Option.bind_eq_some_iff.mp h
      refine (ih hbefore).snoc ?_
      simpa using hlast

/-! ## Properties of every event -/

/-- Every event satisfies `P` together with the events before it. -/
def Always (P : List ε → ε → Prop) (events : List ε) : Prop :=
  ∀ before event after, events = before ++ event :: after → P before event

theorem always_nil {P : List ε → ε → Prop} : Always P [] := by
  intro before event after h
  simp at h

theorem always_singleton {P : List ε → ε → Prop} {event : ε} : Always P [event] ↔ P [] event := by
  constructor
  · intro h
    exact h [] event [] rfl
  · intro h before other after heq
    rcases before with _ | ⟨first, rest⟩
    · obtain ⟨rfl, _⟩ := List.cons.inj heq
      exact h
    · simp at heq

theorem always_concat {P : List ε → ε → Prop} {events : List ε} {event : ε} :
    Always P (events ++ [event]) ↔ Always P events ∧ P events event := by
  constructor
  · intro h
    refine ⟨fun before other after heq => h before other (after ++ [event]) ?_, ?_⟩
    · simp [heq]
    · exact h events event [] rfl
  · rintro ⟨hevents, hevent⟩ before other after heq
    rcases List.eq_nil_or_concat after with rfl | ⟨after, last, rfl⟩
    · obtain ⟨rfl, hother⟩ := List.append_inj' heq rfl
      obtain rfl : event = other := by simpa using hother
      exact hevent
    · refine hevents before other after ?_
      have heq' : events ++ [event] = (before ++ other :: after) ++ [last] := by simpa using heq
      exact (List.append_inj' heq' rfl).1

/-! ## What has happened since -/

/-- Some event satisfies `P` together with the events before it, and no event
after it satisfies `q`. -/
def Since (P : List ε → ε → Prop) (q : ε → Prop) (events : List ε) : Prop :=
  ∃ before event after, events = before ++ event :: after ∧ P before event ∧
    ∀ later ∈ after, ¬ q later

theorem not_since_nil {P : List ε → ε → Prop} {q : ε → Prop} : ¬ Since P q [] := by
  rintro ⟨before, event, after, h, -⟩
  simp at h

theorem since_concat {P : List ε → ε → Prop} {q : ε → Prop} {events : List ε} {event : ε} :
    Since P q (events ++ [event]) ↔ P events event ∨ Since P q events ∧ ¬ q event := by
  constructor
  · rintro ⟨before, found, after, heq, hfound, hafter⟩
    rcases List.eq_nil_or_concat after with rfl | ⟨after, last, rfl⟩
    · obtain ⟨rfl, hlast⟩ := List.append_inj' heq rfl
      obtain rfl : event = found := by simpa using hlast
      exact .inl hfound
    · rw [List.concat_eq_append] at heq hafter
      have heq' : events ++ [event] = (before ++ found :: after) ++ [last] := by simpa using heq
      obtain ⟨rfl, hlast⟩ := List.append_inj' heq' rfl
      obtain rfl : event = last := by simpa using hlast
      refine .inr ⟨⟨before, found, after, rfl, hfound, fun later hlater => ?_⟩, ?_⟩
      · exact hafter later (List.mem_append_left _ hlater)
      · exact hafter event (by simp)
  · rintro (hevent | ⟨⟨before, found, after, rfl, hfound, hafter⟩, hevent⟩)
    · exact ⟨events, event, [], rfl, hevent, by simp⟩
    · refine ⟨before, found, after ++ [event], by simp, hfound, fun later hlater => ?_⟩
      rcases List.mem_append.mp hlater with hlater | hlater
      · exact hafter later hlater
      · obtain rfl : later = event := by simpa using hlater
        exact hevent

end RustAdmin.Support
