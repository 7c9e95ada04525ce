import RustAdmin.Support.Arith
import RustAdmin.Support.Version

/-!
# Who may draw on the screen

Screen content belongs to one authenticated connection runtime.  The authority
keeps the connection, a generation that every change increases, and whether the
runtime has been authorized or has ended; the calls of replaced connections may
still arrive at any time.

`Explained` says how the fields follow from the calls: the connection is the last one
that began and was not superseded, and authorized means that it was authorized since.
A call without effect supersedes nothing in force, so the explanation is kept by all
calls while the counter has room.  That a pair is never accepted again follows from
the generation, which stands for the state (`versioned`).
-/

namespace RustAdmin.Viewer

open RustAdmin.Support

structure ScreenViewAuthority where
  connectionGeneration : ℕ
  generation : ℕ
  allowed : Bool
  ended : Bool
  deriving DecidableEq, Repr

namespace ScreenViewAuthority

/-- `ScreenViewAuthority::default`. -/
def default : ScreenViewAuthority := ⟨0, 0, false, false⟩

/-- `begin`: the state after it and what it returns. -/
def begin (s : ScreenViewAuthority) (connection : ℕ) : ScreenViewAuthority × Bool :=
  if connection ≤ s.connectionGeneration then (s, false)
  else (⟨connection, saturatingAdd s.generation 1, false, false⟩, true)

def authorize (s : ScreenViewAuthority) (connection : ℕ) : ScreenViewAuthority × Bool :=
  if connection ≠ s.connectionGeneration ∨ s.generation = 0 ∨ s.ended ∨ s.allowed then (s, false)
  else ({ s with allowed := true, generation := saturatingAdd s.generation 1 }, true)

/-- `end`.  A connection that has not begun can already be ended. -/
def endRuntime (s : ScreenViewAuthority) (connection : ℕ) : ScreenViewAuthority × Bool :=
  if connection < s.connectionGeneration ∨ (connection = s.connectionGeneration ∧ s.ended) then
    (s, false)
  else (⟨connection, saturatingAdd s.generation 1, false, true⟩, true)

def accepts (s : ScreenViewAuthority) (connection generation : ℕ) : Bool :=
  s.allowed && s.connectionGeneration == connection && s.generation == generation

end ScreenViewAuthority

/-- The calls that reach the authority, from whatever runtime. -/
inductive AuthorityCall
  | begin (connection : ℕ)
  | authorize (connection : ℕ)
  | endRuntime (connection : ℕ)
  deriving DecidableEq, Repr

namespace ScreenViewAuthority

def call (s : ScreenViewAuthority) : AuthorityCall → ScreenViewAuthority
  | .begin connection => (s.begin connection).1
  | .authorize connection => (s.authorize connection).1
  | .endRuntime connection => (s.endRuntime connection).1

/-- The authority after the calls. -/
def afterCalls (calls : List AuthorityCall) : ScreenViewAuthority := calls.foldl call default

theorem accepts_iff {s : ScreenViewAuthority} {c g : ℕ} :
    s.accepts c g = true ↔ s.allowed = true ∧ s.connectionGeneration = c ∧ s.generation = g := by
  simp [accepts, and_assoc]

/-- What one call does: nothing, or one of the three changes, each with the next
generation. -/
theorem call_cases (s : ScreenViewAuthority) (x : AuthorityCall) :
    s.call x = s ∨
    (∃ c, x = .begin c ∧ s.connectionGeneration < c ∧
      s.call x = ⟨c, saturatingAdd s.generation 1, false, false⟩) ∨
    (x = .authorize s.connectionGeneration ∧ s.generation ≠ 0 ∧ s.ended = false ∧
      s.allowed = false ∧
      s.call x = ⟨s.connectionGeneration, saturatingAdd s.generation 1, true, false⟩) ∨
    (∃ c, x = .endRuntime c ∧ s.connectionGeneration ≤ c ∧
      s.call x = ⟨c, saturatingAdd s.generation 1, false, true⟩) := by
  cases x with
  | begin c =>
      by_cases hc : c ≤ s.connectionGeneration
      · exact Or.inl (by simp [call, begin, hc])
      · exact Or.inr (Or.inl ⟨c, rfl, by omega, by simp [call, begin, hc]⟩)
  | authorize c =>
      by_cases hc : c ≠ s.connectionGeneration ∨ s.generation = 0 ∨ s.ended ∨ s.allowed
      · exact Or.inl (by rw [call, authorize, if_pos hc])
      · refine Or.inr (Or.inr (Or.inl ?_))
        simp only [not_or, not_not, Bool.not_eq_true] at hc
        obtain ⟨rfl, hgeneration, hended, hallowed⟩ := hc
        refine ⟨rfl, hgeneration, hended, hallowed, ?_⟩
        simp [call, authorize, hgeneration, hended, hallowed]
  | endRuntime c =>
      by_cases hc : c < s.connectionGeneration ∨ (c = s.connectionGeneration ∧ s.ended)
      · exact Or.inl (by rw [call, endRuntime, if_pos hc])
      · refine Or.inr (Or.inr (Or.inr ⟨c, rfl, by omega, ?_⟩))
        rw [call, endRuntime, if_neg hc]

/-! ## The generation -/

/-- A call keeps the state or takes the next generation. -/
theorem call_generation (s : ScreenViewAuthority) (x : AuthorityCall) :
    s.call x = s ∨ (s.call x).generation = saturatingAdd s.generation 1 := by
  rcases s.call_cases x with h | ⟨c, -, -, h⟩ | ⟨-, -, -, -, h⟩ | ⟨c, -, -, h⟩
  · exact Or.inl h
  all_goals exact Or.inr (by rw [h])

/-- Up to its largest value the generation stands for the state. -/
theorem versioned : Versioned call generation usizeMax := by
  intro s x hlimit
  rcases s.call_generation x with h | h
  · exact Or.inl h
  · right
    rw [h] at hlimit ⊢
    unfold saturatingAdd at hlimit ⊢
    omega

/-! ## What an authorized runtime has behind it -/

/-- The call takes the screen from connection `c`: a newer connection begins, or
`c` or a newer one ends. -/
def Supersedes (c : ℕ) : AuthorityCall → Prop
  | .begin c' => c < c'
  | .authorize _ => False
  | .endRuntime c' => c ≤ c'

/-- `c` began and nothing has superseded it since. -/
def Begun (calls : List AuthorityCall) (c : ℕ) : Prop :=
  ∃ earlier later, calls = earlier ++ .begin c :: later ∧ ∀ x ∈ later, ¬ Supersedes c x

/-- `c` began, was authorized after that, and nothing has superseded it since it began. -/
def Authorized (calls : List AuthorityCall) (c : ℕ) : Prop :=
  ∃ earlier between later, calls = earlier ++ .begin c :: (between ++ .authorize c :: later) ∧
    ∀ x ∈ between ++ later, ¬ Supersedes c x

theorem Begun.concat {calls : List AuthorityCall} {c : ℕ} (h : Begun calls c)
    {x : AuthorityCall} (hx : ¬ Supersedes c x) : Begun (calls ++ [x]) c := by
  obtain ⟨earlier, later, rfl, hlater⟩ := h
  refine ⟨earlier, later ++ [x], by simp, ?_⟩
  intro y hy
  rcases List.mem_append.mp hy with hy | hy
  · exact hlater y hy
  · obtain rfl : y = x := by simpa using hy
    exact hx

theorem Begun.authorized {calls : List AuthorityCall} {c : ℕ} (h : Begun calls c) :
    Authorized (calls ++ [.authorize c]) c := by
  obtain ⟨earlier, later, rfl, hlater⟩ := h
  exact ⟨earlier, later, [], by simp, by simpa using hlater⟩

theorem Authorized.concat {calls : List AuthorityCall} {c : ℕ} (h : Authorized calls c)
    {x : AuthorityCall} (hx : ¬ Supersedes c x) : Authorized (calls ++ [x]) c := by
  obtain ⟨earlier, between, later, rfl, hlater⟩ := h
  refine ⟨earlier, between, later ++ [x], by simp, ?_⟩
  intro y hy
  rw [← List.append_assoc] at hy
  rcases List.mem_append.mp hy with hy | hy
  · exact hlater y hy
  · obtain rfl : y = x := by simpa using hy
    exact hx

/-- How the fields follow from the calls.  Before the first change the connection is
the one of `default`, which no runtime has. -/
structure Explained (calls : List AuthorityCall) (s : ScreenViewAuthority) : Prop where
  fresh : s.generation = 0 → s = default
  begun : s.generation ≠ 0 → s.ended = false → Begun calls s.connectionGeneration
  authorized : s.allowed = true → Authorized calls s.connectionGeneration
  notEnded : s.allowed = true → s.ended = false

theorem explained_default : Explained [] default where
  fresh _ := rfl
  begun h := absurd rfl h
  authorized h := by simp [default] at h
  notEnded h := by simp [default] at h

theorem saturatingAdd_one_ne_zero (g : ℕ) : saturatingAdd g 1 ≠ 0 := by
  unfold saturatingAdd usizeMax
  omega

/-- A call without effect supersedes nothing that is in force. -/
theorem not_supersedes_of_call_eq {s : ScreenViewAuthority} {x : AuthorityCall}
    (h : s.call x = s) (hgeneration : s.generation < usizeMax) (hended : s.ended = false) :
    ¬ Supersedes s.connectionGeneration x := by
  have hchange : ∀ g, saturatingAdd s.generation 1 = g → g ≠ s.generation := by
    intro g hg
    unfold saturatingAdd at hg
    omega
  intro hx
  cases x with
  | begin c =>
      simp only [Supersedes] at hx
      have hnot : ¬ c ≤ s.connectionGeneration := by omega
      rw [call, begin, if_neg hnot] at h
      exact hchange _ rfl (congrArg generation h)
  | authorize c => exact hx
  | endRuntime c =>
      simp only [Supersedes] at hx
      have hnot : ¬ (c < s.connectionGeneration ∨ (c = s.connectionGeneration ∧ s.ended)) := by
        simp [hended, hx]
      rw [call, endRuntime, if_neg hnot] at h
      exact hchange _ rfl (congrArg generation h)

/-- One call keeps the explanation. -/
theorem Explained.call {calls : List AuthorityCall} {s : ScreenViewAuthority}
    (h : Explained calls s) (x : AuthorityCall) (hlimit : (s.call x).generation < usizeMax) :
    Explained (calls ++ [x]) (s.call x) := by
  rcases s.call_cases x with hsame | ⟨c, rfl, -, hs⟩ | ⟨rfl, hgen, hended, -, hs⟩ |
    ⟨c, rfl, -, hs⟩
  -- A call without effect is about no connection that is in force.
  · rw [hsame] at hlimit ⊢
    have hkeep := not_supersedes_of_call_eq hsame hlimit
    exact {
      fresh := h.fresh
      begun := fun hgen hended => (h.begun hgen hended).concat (hkeep hended)
      authorized := fun hallowed => (h.authorized hallowed).concat (hkeep (h.notEnded hallowed))
      notEnded := h.notEnded }
  · rw [hs]
    exact {
      fresh := fun hgen => absurd hgen (saturatingAdd_one_ne_zero _)
      begun := fun _ _ => ⟨calls, [], rfl, by simp⟩
      authorized := fun hallowed => absurd hallowed Bool.false_ne_true
      notEnded := fun hallowed => absurd hallowed Bool.false_ne_true }
  · rw [hs]
    have hbegun : Begun calls s.connectionGeneration := h.begun hgen hended
    exact {
      fresh := fun hgen => absurd hgen (saturatingAdd_one_ne_zero _)
      begun := fun _ _ => hbegun.concat (fun hx => hx)
      authorized := fun _ => hbegun.authorized
      notEnded := fun _ => rfl }
  · rw [hs]
    exact {
      fresh := fun hgen => absurd hgen (saturatingAdd_one_ne_zero _)
      begun := fun _ hended => absurd hended.symm Bool.false_ne_true
      authorized := fun hallowed => absurd hallowed Bool.false_ne_true
      notEnded := fun hallowed => absurd hallowed Bool.false_ne_true }

/-- All the calls explain the state, while the counter has room. -/
theorem explained_afterCalls (calls : List AuthorityCall)
    (hlimit : (afterCalls calls).generation < usizeMax) :
    Explained calls (afterCalls calls) := by
  induction calls using List.reverseRecOn with
  | nil => exact explained_default
  | append_singleton calls x ih =>
      have hlast : afterCalls (calls ++ [x]) = (afterCalls calls).call x := by
        simp [afterCalls]
      rw [hlast] at hlimit ⊢
      have hle := versioned.version_le hlimit
      exact (ih (by omega)).call x hlimit

/-! ## The authority over all calls -/

/-- Once the authority has stopped to accept a pair it never accepts it again, and
an accepted connection began and was authorized with nothing to supersede it since
it began. -/
theorem failClosed (calls : List AuthorityCall)
    (hlimit : (afterCalls calls).generation < usizeMax) (c g : ℕ) :
    (∀ first second third, calls = first ++ second ++ third →
      (afterCalls first).accepts c g = true → (afterCalls (first ++ second)).accepts c g = false →
      (afterCalls calls).accepts c g = false) ∧
    ((afterCalls calls).accepts c g = true → Authorized calls c) := by
  constructor
  · rintro first second third rfl hfirst hsecond
    obtain ⟨-, -, hg⟩ := accepts_iff.mp hfirst
    -- The state has changed, and its generation does not come back.
    have hleft : second.foldl call (afterCalls first) ≠ afterCalls first := by
      intro hsame
      rw [afterCalls, List.foldl_append, ← afterCalls, hsame, hfirst] at hsecond
      exact Bool.noConfusion hsecond
    have hrun : afterCalls (first ++ second ++ third) =
        third.foldl call (second.foldl call (afterCalls first)) := by
      simp [afterCalls]
    rw [hrun] at hlimit ⊢
    have hne := versioned.version_ne_of_left hlimit hleft
    rw [← Bool.not_eq_true, accepts_iff]
    rintro ⟨-, -, hgeneration⟩
    exact hne (hgeneration.trans hg.symm)
  · intro haccepts
    obtain ⟨hallowed, rfl, -⟩ := accepts_iff.mp haccepts
    exact (explained_afterCalls calls hlimit).authorized hallowed

/-- Connection 2 replaces connection 1: the pair of 1 is gone for good. -/
theorem failClosed_replaced :
    (afterCalls [.begin 1, .authorize 1]).accepts 1 2 = true ∧
    (afterCalls [.begin 1, .authorize 1, .begin 2, .authorize 1, .authorize 2]).accepts 1 2 =
      false ∧
    Authorized [.begin 1, .authorize 1, .begin 2, .authorize 1, .authorize 2] 2 := by
  have hlimit : (afterCalls [.begin 1, .authorize 1, .begin 2, .authorize 1,
      .authorize 2]).generation < usizeMax := by decide
  refine ⟨by decide, ?_, ?_⟩
  · exact (failClosed _ hlimit 1 2).1 [.begin 1, .authorize 1] [.begin 2]
      [.authorize 1, .authorize 2] rfl (by decide) (by decide)
  · exact (failClosed _ hlimit 2 4).2 (by decide)

end ScreenViewAuthority

end RustAdmin.Viewer
