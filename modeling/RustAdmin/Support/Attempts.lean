import RustAdmin.Support.CrashProgram

/-!
# Programs that go on after a failure

A caller that looks at the result of a program, failed or not, and decides what to do
next, as a loop of retries does.

`attempt` turns a failure into an answer, so that what follows can look at it.  Its
triple has one condition for both results; where the call that fails has changed
nothing, `attemptChecked` keeps the condition from before it.
-/

namespace RustAdmin.Support

universe u

variable {Op : Type*} {Ans : Op → Type*} {ε α γ φ σ : Type*}

deriving instance DecidableEq for Outcome

namespace Program

/-- The program with its failure as a result. -/
def attempt : Program Op Ans ε α → Program Op Ans ε (Except ε α)
  | .ret a => .ret (.ok a)
  | .fail e => .ret (.error e)
  | .call op next => .call op fun answer => (next answer).attempt

/-- A call that is answered with a result. -/
def checked (op : Op) (result : Ans op → Except ε α) : Program Op Ans ε α :=
  .call op fun answer => .ofExcept (result answer)

theorem attempt_ofExcept (r : Except ε α) :
    (ofExcept r : Program Op Ans ε α).attempt = .ret r := by
  cases r <;> rfl

/-- A call whose answer is the result. -/
def ask (op : Op) : Program Op Ans ε (Ans op) := .call op .ret

/-! ## Runs to the end -/

variable (answer : (op : Op) → σ → Ans op × σ)

/-- The program where nothing cuts it short. -/
def exec : Program Op Ans ε α → σ → Except ε α × σ
  | .ret a, s => (.ok a, s)
  | .fail e, s => (.error e, s)
  | .call op next, s => (next (answer op s).1).exec (answer op s).2

variable {answer} {s s' : σ}

@[simp] theorem exec_ret (a : α) : (.ret a : Program Op Ans ε α).exec answer s = (.ok a, s) := rfl

@[simp] theorem exec_pure (a : α) : (pure a : Program Op Ans ε α).exec answer s = (.ok a, s) := rfl

@[simp] theorem exec_fail (e : ε) :
    (.fail e : Program Op Ans ε α).exec answer s = (.error e, s) := rfl

@[simp] theorem exec_ask (op : Op) :
    (.ask op : Program Op Ans ε (Ans op)).exec answer s =
      (.ok (answer op s).1, (answer op s).2) := rfl

@[simp] theorem exec_ofExcept (r : Except ε α) :
    (.ofExcept r : Program Op Ans ε α).exec answer s = (r, s) := by
  cases r <;> rfl

@[simp] theorem exec_checked (op : Op) (result : Ans op → Except ε α) :
    (.checked op result : Program Op Ans ε α).exec answer s =
      (result (answer op s).1, (answer op s).2) := exec_ofExcept _

/-- A sequence goes on where its first part has ended. -/
theorem exec_bind {κ ι : Type u} {p : Program Op Ans ε κ} {f : κ → Program Op Ans ε ι} {a : κ}
    (h : p.exec answer s = (.ok a, s')) : (p >>= f).exec answer s = (f a).exec answer s' := by
  induction p generalizing s with
  | ret b =>
      obtain ⟨rfl, rfl⟩ : b = a ∧ s = s' := by simpa [exec] using h
      rfl
  | fail e => simp [exec] at h
  | call op next ih => exact ih _ h

/-- A machine that answers with one fault throughout lets the program come to its end. -/
theorem run_replicate (machine : (op : Op) → φ → σ → Ans op × σ) (fault : φ)
    (p : Program Op Ans ε α) (s : σ) :
    ∃ n, (p.run machine (List.replicate n fault) s).last =
        (p.exec (fun op => machine op fault) s).2 ∧
      (p.run machine (List.replicate n fault) s).outcome =
        match (p.exec (fun op => machine op fault) s).1 with
        | .ok a => .returned a
        | .error e => .failed e := by
  induction p generalizing s with
  | ret a => exact ⟨1, rfl, rfl⟩
  | fail e => exact ⟨1, rfl, rfl⟩
  | call op next ih =>
      obtain ⟨n, hlast, houtcome⟩ := ih (machine op fault s).1 (machine op fault s).2
      exact ⟨n + 1, hlast, houtcome⟩

/-- What every call of a run keeps holds where the run stops. -/
theorem last_of_calls {machine : (op : Op) → φ → σ → Ans op × σ} {J : σ → Prop}
    {p : Program Op Ans ε α} {faults : List φ} {s : σ} (hstart : J s)
    (hkeep : ∀ fault, ∀ c ∈ (p.run machine faults s).calls,
      J c.1 → J (machine c.2 fault c.1).2) :
    J (p.run machine faults s).last := by
  induction faults generalizing p s with
  | nil => simpa using hstart
  | cons fault faults ih =>
      cases p with
      | ret a => exact hstart
      | fail e => exact hstart
      | call op next =>
          refine ih (hkeep fault (s, op) (by simp [run]) hstart) ?_
          exact fun other c hc => hkeep other c (List.mem_cons_of_mem _ hc)

end Program

namespace Holds

variable {machine : (op : Op) → φ → σ → Ans op × σ} {Guard : Op → σ → Prop} {Stop : σ → Prop}
  {Pre : σ → Prop} {p : Program Op Ans ε α} {Mid : α → σ → Prop}

/-- Where the program fails, all that is known is what holds wherever it stops. -/
theorem attempt (h : Holds machine Guard Stop Pre p Mid) :
    Holds machine Guard Stop Pre p.attempt
      fun result s => Stop s ∧ ∀ a, result = .ok a → Mid a s := by
  intro faults s hpre
  induction faults generalizing p Pre s with
  | nil => simpa using (h [] s hpre).2.1
  | cons fault faults ih =>
      cases p with
      | ret a =>
          have hret := h [fault] s hpre
          refine ⟨by simp [Program.attempt, Program.run], hret.2.1, ?_⟩
          intro result hresult
          obtain rfl : .ok a = result := by simpa [Program.attempt, Program.run] using hresult
          refine ⟨hret.2.1, fun c hc => ?_⟩
          obtain rfl := Except.ok.inj hc
          exact hret.2.2 a rfl
      | fail e =>
          have hfail := h [fault] s hpre
          refine ⟨by simp [Program.attempt, Program.run], hfail.2.1, ?_⟩
          intro result hresult
          obtain rfl : .error e = result := by simpa [Program.attempt, Program.run] using hresult
          refine ⟨hfail.2.1, fun c hc => ?_⟩
          cases hc
      | call op next =>
          obtain ⟨hcalls, hlast, hreturned⟩ := ih (h.next fault hpre) _ rfl
          refine ⟨fun c hc => ?_, hlast, hreturned⟩
          rcases List.mem_cons.mp hc with rfl | hc
          · exact (h [fault] s hpre).1 (s, op) (by simp [Program.run])
          · exact hcalls c hc

/-- The rest of a program needs only a part of what is known. -/
theorem consequence (Q : σ → Prop) (hpre : ∀ s, Pre s → Q s)
    (h : Holds machine Guard Stop Q p Mid) : Holds machine Guard Stop Pre p Mid :=
  h.weaken hpre fun _ _ hmid => hmid

/-- What no allowed call breaks holds from the start on. -/
theorem frame {J : σ → Prop} (h : Holds machine Guard Stop Pre p Mid)
    (hkeep : ∀ op fault s, Guard op s → J s → J (machine op fault s).2) :
    Holds machine Guard (fun s => Stop s ∧ J s) (fun s => Pre s ∧ J s) p
      fun a s => Mid a s ∧ J s := by
  intro faults s hs
  obtain ⟨hcalls, hlast, hreturned⟩ := h faults s hs.1
  have hj := Program.last_of_calls hs.2 fun fault c hc => hkeep c.2 fault c.1 (hcalls c hc)
  exact ⟨hcalls, ⟨hlast, hj⟩, fun a ha => ⟨hreturned a ha, hj⟩⟩

/-- Less is asked of where the program stops. -/
theorem relaxStop {Stop' : σ → Prop} (h : Holds machine Guard Stop Pre p Mid)
    (hstop : ∀ s, Stop s → Stop' s) : Holds machine Guard Stop' Pre p Mid := by
  intro faults s hs
  obtain ⟨hcalls, hlast, hreturned⟩ := h faults s hs
  exact ⟨hcalls, hstop _ hlast, hreturned⟩

/-- More calls are allowed. -/
theorem relaxGuard {Guard' : Op → σ → Prop} (h : Holds machine Guard Stop Pre p Mid)
    (hguard : ∀ op s, Guard op s → Guard' op s) : Holds machine Guard' Stop Pre p Mid := by
  intro faults s hs
  obtain ⟨hcalls, hlast, hreturned⟩ := h faults s hs
  exact ⟨fun c hc => hguard c.2 c.1 (hcalls c hc), hlast, hreturned⟩

/-- A single call. -/
theorem ask {op : Op} {Post : Ans op → σ → Prop} (hstop : ∀ s, Pre s → Stop s)
    (hguard : ∀ s, Pre s → Guard op s)
    (hnext : ∀ fault s, Pre s → Stop (machine op fault s).2 ∧
      Post (machine op fault s).1 (machine op fault s).2) :
    Holds machine Guard Stop Pre (.ask op : Program Op Ans ε (Ans op)) Post := by
  refine call hstop hguard fun fault s hs => ret ?_ ?_
  · rintro _ rfl
    exact (hnext fault s hs).1
  · rintro _ rfl
    exact (hnext fault s hs).2

/-- A single call that can fail. -/
theorem checked {op : Op} {result : Ans op → Except ε α} {Post : α → σ → Prop}
    (hstop : ∀ s, Pre s → Stop s) (hguard : ∀ s, Pre s → Guard op s)
    (hnext : ∀ fault s, Pre s → Stop (machine op fault s).2 ∧
      ∀ a, result (machine op fault s).1 = .ok a → Post a (machine op fault s).2) :
    Holds machine Guard Stop Pre (.checked op result : Program Op Ans ε α) Post := by
  refine call hstop hguard fun fault s hs => ofExcept ?_ ?_
  · rintro _ rfl
    exact (hnext fault s hs).1
  · rintro a _ hresult rfl
    exact (hnext fault s hs).2 a hresult

/-- A single call that can fail, with its failure as a result. -/
theorem attemptChecked {op : Op} {result : Ans op → Except ε α} {Q : σ → Prop}
    (hstop : ∀ s, Pre s → Stop s) (hguard : ∀ s, Pre s → Guard op s)
    (hnext : ∀ fault s, Pre s → Stop (machine op fault s).2 ∧ Q (machine op fault s).2) :
    Holds machine Guard Stop Pre (Program.checked op result).attempt fun _ s => Q s := by
  refine call hstop hguard fun fault s hs => ?_
  rw [Program.attempt_ofExcept]
  refine ret ?_ ?_
  · rintro _ rfl
    exact (hnext fault s hs).1
  · rintro _ rfl
    exact (hnext fault s hs).2

/-- Both branches of a test. -/
theorem ite {c : Prop} [Decidable c] {p q : Program Op Ans ε α}
    (hp : c → Holds machine Guard Stop Pre p Mid) (hq : ¬ c → Holds machine Guard Stop Pre q Mid) :
    Holds machine Guard Stop Pre (if c then p else q) Mid := by
  split
  · next h => exact hp h
  · next h => exact hq h

end Holds

end RustAdmin.Support
