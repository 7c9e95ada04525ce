import Mathlib.Data.List.Basic

/-!
# Programs that can be cut short

A program calls a machine and goes on with its answers.  Every step of the program
takes one fault from a list, which decides how its call goes; a program that finds no
fault left has crashed.  `Holds` is the triple of such a program: what holds at each
call, what holds wherever it stops, and what holds when it returns.

Each rule goes along the list of faults: where it is empty, the state at hand must be
one in which a program may stop.  `Holds.bind` is the rule of sequencing, by induction
on the first program, and the rules for single calls follow from it.
-/

namespace RustAdmin.Support

variable {Op : Type*} {Ans : Op → Type*} {ε α γ κ φ σ : Type*}

/-- A program with calls `Op`, which are answered in `Ans`, and errors `ε`. -/
inductive Program (Op : Type*) (Ans : Op → Type*) (ε α : Type*)
  | ret (a : α)
  | fail (e : ε)
  | call (op : Op) (next : Ans op → Program Op Ans ε α)

inductive Outcome (ε α : Type*)
  | returned (a : α)
  | failed (e : ε)
  | crashed

/-- What a program did: each call with the state it found, and how it ended. -/
structure Execution (Op ε α σ : Type*) where
  calls : List (σ × Op)
  outcome : Outcome ε α
  last : σ

namespace Program

def bind : Program Op Ans ε α → (α → Program Op Ans ε γ) → Program Op Ans ε γ
  | .ret a, f => f a
  | .fail e, _ => .fail e
  | .call op next, f => .call op fun answer => (next answer).bind f

instance : Monad (Program Op Ans ε) where
  pure := .ret
  bind := .bind

def ofExcept : Except ε α → Program Op Ans ε α
  | .ok a => .ret a
  | .error e => .fail e

/-- The elements for which the program returns `true`, taken in order. -/
def filterIn (f : κ → Program Op Ans ε Bool) : List κ → Program Op Ans ε (List κ)
  | [] => .ret []
  | k :: ks => (f k).bind fun keep =>
      (filterIn f ks).bind fun rest => .ret (if keep then k :: rest else rest)

variable (machine : (op : Op) → φ → σ → Ans op × σ)

def run : Program Op Ans ε α → List φ → σ → Execution Op ε α σ
  | _, [], s => ⟨[], .crashed, s⟩
  | .ret a, _ :: _, s => ⟨[], .returned a, s⟩
  | .fail e, _ :: _, s => ⟨[], .failed e, s⟩
  | .call op next, fault :: faults, s =>
      let answer := machine op fault s
      let rest := (next answer.1).run faults answer.2
      ⟨(s, op) :: rest.calls, rest.outcome, rest.last⟩

variable {machine} {faults : List φ} {s : σ}

@[simp] theorem run_nil (p : Program Op Ans ε α) : p.run machine [] s = ⟨[], .crashed, s⟩ := by
  cases p <;> rfl

/-- A sequence returns only if its first part does, and ends as its second part does on
the faults that the calls of the first have left. -/
theorem run_bind_returned {p : Program Op Ans ε α} {f : α → Program Op Ans ε γ} {c : γ}
    (h : ((p.bind f).run machine faults s).outcome = .returned c) :
    let first := p.run machine faults s
    ∃ a, first.outcome = .returned a ∧
      ((f a).run machine (faults.drop first.calls.length) first.last).outcome = .returned c ∧
      ((p.bind f).run machine faults s).last =
        ((f a).run machine (faults.drop first.calls.length) first.last).last := by
  induction faults generalizing p s with
  | nil => simp at h
  | cons fault faults ih =>
      cases p with
      | ret a => exact ⟨a, rfl, h, rfl⟩
      | fail e => cases h
      | call op next => exact ih h

end Program

/-! ## Triples -/

open Program

/-- From a state with `Pre`, every call finds a state with `Guard`, the program stops in
a state with `Stop` wherever it is cut, and if it returns then with `Post`. -/
def Holds (machine : (op : Op) → φ → σ → Ans op × σ) (Guard : Op → σ → Prop) (Stop : σ → Prop)
    (Pre : σ → Prop) (p : Program Op Ans ε α) (Post : α → σ → Prop) : Prop :=
  ∀ faults s, Pre s →
    (∀ call ∈ (p.run machine faults s).calls, Guard call.2 call.1) ∧
    Stop (p.run machine faults s).last ∧
    ∀ a, (p.run machine faults s).outcome = .returned a → Post a (p.run machine faults s).last

namespace Holds

variable {machine : (op : Op) → φ → σ → Ans op × σ} {Guard : Op → σ → Prop} {Stop : σ → Prop}
  {Pre Pre' : σ → Prop} {p : Program Op Ans ε α} {f : α → Program Op Ans ε γ}
  {Mid Post' : α → σ → Prop} {Post : γ → σ → Prop}

theorem ret {a : γ} (hstop : ∀ s, Pre s → Stop s) (hpost : ∀ s, Pre s → Post a s) :
    Holds machine Guard Stop Pre (.ret a : Program Op Ans ε γ) Post := by
  intro faults s hpre
  cases faults with
  | nil => exact ⟨by simp, by simpa using hstop s hpre, by simp⟩
  | cons fault faults =>
      refine ⟨by simp [run], hstop s hpre, fun c hc => ?_⟩
      obtain rfl : a = c := by simpa [run] using hc
      exact hpost s hpre

theorem fail {e : ε} (hstop : ∀ s, Pre s → Stop s) :
    Holds machine Guard Stop Pre (.fail e : Program Op Ans ε γ) Post := by
  intro faults s hpre
  cases faults with
  | nil => exact ⟨by simp, by simpa using hstop s hpre, by simp⟩
  | cons fault faults => exact ⟨by simp [run], hstop s hpre, by simp [run]⟩

theorem call {op : Op} {next : Ans op → Program Op Ans ε γ} (hstop : ∀ s, Pre s → Stop s)
    (hguard : ∀ s, Pre s → Guard op s)
    (hnext : ∀ fault s, Pre s → Holds machine Guard Stop (fun s' => s' = (machine op fault s).2)
      (next (machine op fault s).1) Post) :
    Holds machine Guard Stop Pre (.call op next) Post := by
  intro faults s hpre
  cases faults with
  | nil => exact ⟨by simp, by simpa using hstop s hpre, by simp⟩
  | cons fault faults =>
      obtain ⟨hcalls, hlast, hreturned⟩ := hnext fault s hpre faults _ rfl
      refine ⟨fun c hc => ?_, hlast, hreturned⟩
      rcases List.mem_cons.mp hc with rfl | hc
      · exact hguard s hpre
      · exact hcalls c hc

theorem weaken (h : Holds machine Guard Stop Pre p Mid) (hpre : ∀ s, Pre' s → Pre s)
    (hpost : ∀ a s, Mid a s → Post' a s) : Holds machine Guard Stop Pre' p Post' := by
  intro faults s hs
  obtain ⟨hcalls, hlast, hreturned⟩ := h faults s (hpre s hs)
  exact ⟨hcalls, hlast, fun a ha => hpost a _ (hreturned a ha)⟩

/-- A fact that the precondition gives may be used for the whole program. -/
theorem assuming {fact : Prop} (hfact : ∀ s, Pre s → fact)
    (h : fact → Holds machine Guard Stop Pre p Mid) : Holds machine Guard Stop Pre p Mid := by
  intro faults s hpre
  exact h (hfact s hpre) faults s hpre

theorem pointwise (h : ∀ s, Pre s → Holds machine Guard Stop (fun s' => s' = s) p Mid) :
    Holds machine Guard Stop Pre p Mid := by
  intro faults s hpre
  exact h s hpre faults s rfl

/-- What a call leaves, the rest of the program starts from. -/
theorem next {op : Op} {next : Ans op → Program Op Ans ε γ}
    (h : Holds machine Guard Stop Pre (.call op next) Post) (fault : φ) {s : σ} (hs : Pre s) :
    Holds machine Guard Stop (fun s' => s' = (machine op fault s).2)
      (next (machine op fault s).1) Post := by
  intro faults s' hs'
  subst hs'
  obtain ⟨hcalls, hlast, hreturned⟩ := h (fault :: faults) s hs
  exact ⟨fun c hc => hcalls c (List.mem_cons_of_mem _ hc), hlast, hreturned⟩

theorem bind (h : Holds machine Guard Stop Pre p Mid)
    (hf : ∀ a, Holds machine Guard Stop (Mid a) (f a) Post) :
    Holds machine Guard Stop Pre (p.bind f) Post := by
  intro faults s hpre
  induction faults generalizing p Pre s with
  | nil => simpa using (h [] s hpre).2.1
  | cons fault faults ih =>
      cases p with
      | ret a => exact hf a (fault :: faults) s ((h [fault] s hpre).2.2 a rfl)
      | fail e => exact ⟨by simp [Program.bind, run], (h [fault] s hpre).2.1,
          by simp [Program.bind, run]⟩
      | call op next =>
          obtain ⟨hcalls, hlast, hreturned⟩ := ih (h.next fault hpre) _ rfl
          refine ⟨fun c hc => ?_, hlast, hreturned⟩
          rcases List.mem_cons.mp hc with rfl | hc
          · exact (h [fault] s hpre).1 (s, op) (by simp [run])
          · exact hcalls c hc

/-- A call whose answer is a result: the program goes on if it is `ok`. -/
theorem ofExcept {r : Except ε γ} (hstop : ∀ s, Pre s → Stop s)
    (hok : ∀ c s, r = .ok c → Pre s → Post c s) :
    Holds machine Guard Stop Pre (.ofExcept r : Program Op Ans ε γ) Post := by
  cases r with
  | ok c => exact ret hstop fun s => hok c s rfl
  | error e => exact fail hstop

/-- The loop rule: `P` is indexed by the elements that have been taken. -/
theorem filterIn {g : κ → Program Op Ans ε Bool} {P : List κ → σ → Prop}
    (hstop : ∀ l s, P l s → Stop s) {done ks : List κ}
    (hg : ∀ k ∈ ks, ∀ l, Holds machine Guard Stop (P l) (g k) fun _ => P (l ++ [k])) :
    Holds machine Guard Stop (P done) (Program.filterIn g ks) fun _ => P (done ++ ks) := by
  induction ks generalizing done with
  | nil => exact ret (hstop done) (by simp)
  | cons k ks ih =>
      refine bind (hg k List.mem_cons_self done) fun keep => ?_
      refine bind (ih fun k' hk' => hg k' (List.mem_cons_of_mem _ hk')) fun rest => ?_
      exact ret (hstop _) (by simp)

end Holds

end RustAdmin.Support
