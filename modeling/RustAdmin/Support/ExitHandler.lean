import RustAdmin.Support.Attempts

/-!
# Programs with an exit handler

A script leaves by an exit from any of its commands, and a handler takes up what it left.
`Exits` is the triple of such a script: beside what holds where it is cut and where it
returns, it says what holds where it exits.

`Exits` is the triple of a program with a handler behind it, and `handled` the rule
that takes the two apart.  The other rules follow the constructors of a program;
`bind` is `handled` with a handler that exits again.
-/

namespace RustAdmin.Support

variable {Op : Type*} {Ans : Op → Type*} {ε ε' α γ φ σ : Type*}

namespace Program

/-- The script, and the handler of its exits. -/
def handled (handler : ε → Program Op Ans ε' γ) (next : α → Program Op Ans ε' γ) :
    Program Op Ans ε α → Program Op Ans ε' γ
  | .ret a => next a
  | .fail e => handler e
  | .call op rest => .call op fun answer => (rest answer).handled handler next

theorem bind_eq_handled (p : Program Op Ans ε α) (f : α → Program Op Ans ε γ) :
    p.bind f = p.handled .fail f := by
  induction p with
  | ret a => rfl
  | fail e => rfl
  | call op rest ih => exact congrArg (Program.call op) (funext ih)

end Program

open Program

/-- From a state with `Pre`, every call finds a state with `Guard`, the script is in a state
with `Stop` wherever it is cut, with `Post` where it returns and with `Exit` where it
exits. -/
def Exits (machine : (op : Op) → φ → σ → Ans op × σ) (Guard : Op → σ → Prop) (Stop : σ → Prop)
    (Pre : σ → Prop) (p : Program Op Ans ε α) (Post : α → σ → Prop) (Exit : ε → σ → Prop) :
    Prop :=
  Holds machine Guard Stop Pre p Post ∧
    ∀ faults s, Pre s → ∀ e, (p.run machine faults s).outcome = .failed e →
      Exit e (p.run machine faults s).last

namespace Exits

variable {machine : (op : Op) → φ → σ → Ans op × σ} {Guard : Op → σ → Prop} {Stop : σ → Prop}
  {Pre Pre' : σ → Prop} {p : Program Op Ans ε α} {Mid : α → σ → Prop} {Post : γ → σ → Prop}
  {Exit : ε → σ → Prop} {Exit' : ε' → σ → Prop}

theorem ret {a : γ} (hstop : ∀ s, Pre s → Stop s) (hpost : ∀ s, Pre s → Post a s) :
    Exits machine Guard Stop Pre (.ret a : Program Op Ans ε γ) Post Exit := by
  refine ⟨Holds.ret hstop hpost, fun faults s _ e he => ?_⟩
  cases faults <;> simp [run] at he

theorem fail {e : ε} (hstop : ∀ s, Pre s → Stop s) (hexit : ∀ s, Pre s → Exit e s) :
    Exits machine Guard Stop Pre (.fail e : Program Op Ans ε γ) Post Exit := by
  refine ⟨Holds.fail hstop, fun faults s hs e' he => ?_⟩
  cases faults with
  | nil => simp at he
  | cons fault faults =>
      obtain rfl : e = e' := by simpa [run] using he
      exact hexit s hs

theorem call {op : Op} {rest : Ans op → Program Op Ans ε γ} (hstop : ∀ s, Pre s → Stop s)
    (hguard : ∀ s, Pre s → Guard op s)
    (hnext : ∀ fault s, Pre s → Exits machine Guard Stop (fun s' => s' = (machine op fault s).2)
      (rest (machine op fault s).1) Post Exit) :
    Exits machine Guard Stop Pre (.call op rest) Post Exit := by
  refine ⟨Holds.call hstop hguard fun fault s hs => (hnext fault s hs).1,
    fun faults s hs e he => ?_⟩
  cases faults with
  | nil => simp at he
  | cons fault faults => exact (hnext fault s hs).2 faults _ rfl e he

theorem consequence (Q : σ → Prop) (hpre : ∀ s, Pre s → Q s)
    (h : Exits machine Guard Stop Q p Mid Exit) : Exits machine Guard Stop Pre p Mid Exit :=
  ⟨h.1.weaken hpre fun _ _ hmid => hmid, fun faults s hs => h.2 faults s (hpre s hs)⟩

/-- A single call, and what follows on its answer. -/
theorem ask {op : Op} {f : Ans op → Program Op Ans ε γ} {Q : Ans op → σ → Prop}
    (hstop : ∀ s, Pre s → Stop s) (hguard : ∀ s, Pre s → Guard op s)
    (hnext : ∀ fault s, Pre s → Q (machine op fault s).1 (machine op fault s).2)
    (hf : ∀ answer, Exits machine Guard Stop (Q answer) (f answer) Post Exit) :
    Exits machine Guard Stop Pre ((Program.ask op).bind f) Post Exit := by
  refine call hstop hguard fun fault s hs => (hf _).consequence _ ?_
  rintro _ rfl
  exact hnext fault s hs

theorem weaken {Mid' : α → σ → Prop} {Exit' : ε → σ → Prop}
    (h : Exits machine Guard Stop Pre p Mid Exit) (hpost : ∀ a s, Mid a s → Mid' a s)
    (hexit : ∀ e s, Exit e s → Exit' e s) : Exits machine Guard Stop Pre p Mid' Exit' :=
  ⟨h.1.weaken (fun _ hs => hs) hpost, fun faults s hs e he => hexit e _ (h.2 faults s hs e he)⟩

/-- What a call leaves, the rest of the script starts from. -/
theorem next {op : Op} {rest : Ans op → Program Op Ans ε α}
    (h : Exits machine Guard Stop Pre (.call op rest) Mid Exit) (fault : φ) {s : σ} (hs : Pre s) :
    Exits machine Guard Stop (fun s' => s' = (machine op fault s).2)
      (rest (machine op fault s).1) Mid Exit := by
  refine ⟨h.1.next fault hs, fun faults s' hs' e he => ?_⟩
  subst hs'
  exact h.2 (fault :: faults) s hs e he

/-- Where there is no fault left, nothing runs. -/
theorem of_fault (hstop : ∀ s, Pre s → Stop s) (h : φ → Exits machine Guard Stop Pre p Mid Exit) :
    Exits machine Guard Stop Pre p Mid Exit := by
  constructor
  · intro faults s hs
    cases faults with
    | nil => exact ⟨by simp, by simpa using hstop s hs, by simp⟩
    | cons fault faults => exact (h fault).1 (fault :: faults) s hs
  · intro faults s hs e he
    cases faults with
    | nil => simp at he
    | cons fault faults => exact (h fault).2 (fault :: faults) s hs e he

theorem stop (h : Exits machine Guard Stop Pre p Mid Exit) {s : σ} (hs : Pre s) : Stop s := by
  simpa using (h.1 [] s hs).2.1

/-- The handler starts where the script has exited. -/
theorem handled {handler : ε → Program Op Ans ε' γ} {next : α → Program Op Ans ε' γ}
    (h : Exits machine Guard Stop Pre p Mid Exit)
    (hnext : ∀ a, Exits machine Guard Stop (Mid a) (next a) Post Exit')
    (hhandler : ∀ e, Exits machine Guard Stop (Exit e) (handler e) Post Exit') :
    Exits machine Guard Stop Pre (p.handled handler next) Post Exit' := by
  refine of_fault (fun s => h.stop) fun fault => ?_
  induction p generalizing Pre with
  | ret a => exact (hnext a).consequence _ fun s hs => (h.1 [fault] s hs).2.2 a rfl
  | fail e => exact (hhandler e).consequence _ fun s hs => h.2 [fault] s hs e rfl
  | call op rest ih =>
      refine call (fun s => h.stop) (fun s hs => ?_) fun fault s hs => ih _ (h.next fault hs)
      exact (h.1 [fault] s hs).1 (s, op) (by simp [run])

theorem bind {p : Program Op Ans ε α} {f : α → Program Op Ans ε γ}
    (h : Exits machine Guard Stop Pre p Mid Exit)
    (hf : ∀ a, Exits machine Guard Stop (Mid a) (f a) Post Exit)
    (hstop : ∀ e s, Exit e s → Stop s) : Exits machine Guard Stop Pre (p.bind f) Post Exit := by
  rw [bind_eq_handled]
  exact h.handled hf fun e => fail (hstop e) fun s hs => hs

/-- A fact that the precondition gives may be used for the whole script. -/
theorem assuming {fact : Prop} (hfact : ∀ s, Pre s → fact)
    (h : fact → Exits machine Guard Stop Pre p Mid Exit) :
    Exits machine Guard Stop Pre p Mid Exit :=
  ⟨fun faults s hs => (h (hfact s hs)).1 faults s hs,
    fun faults s hs => (h (hfact s hs)).2 faults s hs⟩

/-- Both branches of a test. -/
theorem ite {c : Prop} [Decidable c] {p q : Program Op Ans ε α}
    (hp : c → Exits machine Guard Stop Pre p Mid Exit)
    (hq : ¬ c → Exits machine Guard Stop Pre q Mid Exit) :
    Exits machine Guard Stop Pre (if c then p else q) Mid Exit := by
  split
  · next h => exact hp h
  · next h => exact hq h

end Exits

end RustAdmin.Support
