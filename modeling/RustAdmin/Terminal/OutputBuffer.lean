import Mathlib.Algebra.BigOperators.Group.List.Basic
import Mathlib.Data.List.Infix
import RustAdmin.Support.Arith

/-!
# The output buffer of a terminal

`OutputBuffer` in `src/src/server/terminal_service.rs`: the recent output of a
terminal, in lines, with a counter of their bytes.  Output arrives in chunks that
end anywhere, so the last line may be incomplete.

Complete lines are counted when they are pushed and uncounted when they are dropped
(`pushLines_total`, `trimLoop_total`), so an exact counter stays exact, and an error
in it stays too (`appendLines_not_accounted`).  What differs is the partial line at
the end: `append_completed` and `append_continued` compute the counter for a chunk
that completes it and for one that goes on with it.  The equivalence for one call
gives that for a sequence by induction.
-/

namespace RustAdmin.Terminal

open RustAdmin.Support

def maxOutputBufferSize : ℕ := 1024 * 1024
def maxBufferLines : ℕ := 10000

/-- The byte `\n`. -/
def newline : UInt8 := 10

structure OutputBuffer where
  lines : List (List UInt8)
  totalSize : ℕ
  lastLineIncomplete : Bool
deriving DecidableEq, Repr

def OutputBuffer.new : OutputBuffer := ⟨[], 0, false⟩

/-- Where `append` does not come back: the counter would go below zero, or the
trimming waits for lines to drop and has none. -/
inductive Fault
  | underflow
  | endless
deriving DecidableEq, Repr

/-! ## Append -/

def OutputBuffer.pushLine (b : OutputBuffer) (line : List UInt8) : OutputBuffer :=
  { b with totalSize := b.totalSize + line.length, lines := b.lines ++ [line] }

/-- The loop over the lines of a chunk; only the last one has no newline behind it. -/
def OutputBuffer.pushLines (endsWithNewline : Bool) :
    List (List UInt8) → OutputBuffer → OutputBuffer
  | [], b => b
  | [line], b =>
      let b := if !endsWithNewline && !line.isEmpty then { b with lastLineIncomplete := true }
        else b
      if !line.isEmpty then b.pushLine (if endsWithNewline then line ++ [newline] else line)
      else b
  | line :: next :: rest, b =>
      OutputBuffer.pushLines endsWithNewline (next :: rest) (b.pushLine (line ++ [newline]))

/-- Drops lines from the front until the buffer is within its limits. -/
def OutputBuffer.trimLoop (incomplete : Bool) : List (List UInt8) → ℕ → Except Fault OutputBuffer
  | [], totalSize =>
      if maxOutputBufferSize < totalSize then .error .endless else .ok ⟨[], totalSize, incomplete⟩
  | removed :: lines, totalSize =>
      if maxOutputBufferSize < totalSize ∨ maxBufferLines < lines.length + 1 then
        match checkedSub totalSize removed.length with
        | none => .error .underflow
        | some totalSize => OutputBuffer.trimLoop incomplete lines totalSize
      else .ok ⟨removed :: lines, totalSize, incomplete⟩

def OutputBuffer.trim (b : OutputBuffer) : Except Fault OutputBuffer :=
  OutputBuffer.trimLoop b.lastLineIncomplete b.lines b.totalSize

/-- The part of `append` behind the completion of a partial line. -/
def OutputBuffer.appendLines (b : OutputBuffer) (remaining : List UInt8) :
    Except Fault OutputBuffer :=
  (OutputBuffer.pushLines (remaining.getLast? == some newline)
    (remaining.splitOnP (· == newline)) b).trim

def OutputBuffer.append (b : OutputBuffer) (data : List UInt8) : Except Fault OutputBuffer :=
  if data = [] then .ok b
  else
    match b.lastLineIncomplete, b.lines.getLast? with
    | true, some lastLine =>
        match data.findIdx? (· == newline) with
        | some newlinePos =>
            { b with
              lines := b.lines.dropLast ++ [lastLine ++ data.take (newlinePos + 1)]
              lastLineIncomplete := false }.appendLines (data.drop (newlinePos + 1))
        | none =>
            -- still no newline
            .ok { b with
              lines := b.lines.dropLast ++ [lastLine ++ data]
              totalSize := b.totalSize + data.length }
    | _, _ => b.appendLines data

/-! ## Get recent -/

/-- The offset moved over at most `fuel` continuation bytes. -/
def skipContinuation (text : List UInt8) : ℕ → ℕ → ℕ
  | 0, offset => offset
  | fuel + 1, offset =>
      match text[offset]? with
      | some byte =>
          if byte &&& 0b11000000 = 0b10000000 then skipContinuation text fuel (offset + 1)
          else offset
      | none => offset

/-- The tail of a line that is too long, from a character boundary on. -/
def recentTail (line : List UInt8) (maxBytes : ℕ) : List UInt8 :=
  line.drop (skipContinuation line 3 (line.length - maxBytes))

/-- The loop of `get_recent` over the lines, the newest first; the result is in
chronological order. -/
def recentLines (maxBytes : ℕ) : List (List UInt8) → ℕ → List UInt8
  | [], _ => []
  | line :: older, size =>
      if maxBytes < size + line.length then
        if size = 0 ∧ maxBytes < line.length then recentTail line maxBytes else []
      else recentLines maxBytes older (size + line.length) ++ line

def OutputBuffer.getRecent (b : OutputBuffer) (maxBytes : ℕ) : List UInt8 :=
  if maxBytes = 0 then [] else recentLines maxBytes b.lines.reverse 0

/-! ## Accounting -/

def lineSum (lines : List (List UInt8)) : ℕ := (lines.map List.length).sum

/-- The counter is exact and the limits hold. -/
structure OutputBuffer.Accounted (b : OutputBuffer) : Prop where
  total : b.totalSize = lineSum b.lines
  size_le : b.totalSize ≤ maxOutputBufferSize
  lines_le : b.lines.length ≤ maxBufferLines

@[simp] theorem lineSum_nil : lineSum [] = 0 := rfl

@[simp] theorem lineSum_cons (line : List UInt8) (lines : List (List UInt8)) :
    lineSum (line :: lines) = line.length + lineSum lines := by
  simp [lineSum]

@[simp] theorem lineSum_append (first second : List (List UInt8)) :
    lineSum (first ++ second) = lineSum first + lineSum second := by
  simp [lineSum]

theorem initial_accounted : OutputBuffer.new.Accounted where
  total := rfl
  size_le := Nat.zero_le _
  lines_le := Nat.zero_le _

/-- New lines are counted as they are pushed. -/
theorem pushLines_total (endsWithNewline : Bool) (lines : List (List UInt8)) :
    ∀ b : OutputBuffer, (OutputBuffer.pushLines endsWithNewline lines b).totalSize +
        lineSum b.lines =
      b.totalSize + lineSum (OutputBuffer.pushLines endsWithNewline lines b).lines := by
  have hpush : ∀ (b : OutputBuffer) line,
      (b.pushLine line).totalSize + lineSum b.lines =
        b.totalSize + lineSum (b.pushLine line).lines := by
    intro b line
    simp only [OutputBuffer.pushLine, lineSum_append, lineSum_cons, lineSum_nil]
    omega
  induction lines with
  | nil => intro b; rfl
  | cons line rest ih =>
      intro b
      cases rest with
      | nil =>
          unfold OutputBuffer.pushLines
          dsimp only
          split <;> split
          · exact hpush { b with lastLineIncomplete := true } _
          · exact hpush b _
          · rfl
          · rfl
      | cons next rest =>
          have hnext := ih (b.pushLine (line ++ [newline]))
          have hline := hpush b (line ++ [newline])
          rw [OutputBuffer.pushLines]
          omega

/-- Trimming takes the dropped lines off the counter, so an error in it stays. -/
theorem trimLoop_total {incomplete : Bool} {b : OutputBuffer} (lines : List (List UInt8)) :
    ∀ totalSize, OutputBuffer.trimLoop incomplete lines totalSize = .ok b →
      totalSize + lineSum b.lines = b.totalSize + lineSum lines := by
  induction lines with
  | nil =>
      intro totalSize h
      unfold OutputBuffer.trimLoop at h
      split at h
      · simp at h
      · rw [← Except.ok.inj h]
  | cons removed lines ih =>
      intro totalSize h
      unfold OutputBuffer.trimLoop at h
      split at h
      · unfold checkedSub at h
        split at h
        · simp at h
        · next rest hrest =>
            split at hrest
            · next hle =>
                have hlines := ih rest h
                have hrest' := Option.some.inj hrest
                rw [lineSum_cons]
                omega
            · simp at hrest
      · rw [← Except.ok.inj h]

/-- With an exact counter trimming comes to an end, within the limits. -/
theorem trimLoop_accounted (incomplete : Bool) (lines : List (List UInt8)) :
    ∃ b, OutputBuffer.trimLoop incomplete lines (lineSum lines) = .ok b ∧ b.Accounted := by
  induction lines with
  | nil => exact ⟨⟨[], 0, incomplete⟩, rfl, rfl, Nat.zero_le _, Nat.zero_le _⟩
  | cons removed lines ih =>
      unfold OutputBuffer.trimLoop
      rw [lineSum_cons]
      split
      · rw [Nat.add_comm, checkedSub_add_right]
        exact ih
      · next hlimits =>
          refine ⟨_, rfl, (lineSum_cons _ _).symm, ?_, ?_⟩
          · exact not_lt.mp fun hlt => hlimits (.inl hlt)
          · exact not_lt.mp fun hlt => hlimits (.inr hlt)

theorem appendLines_accounted {b : OutputBuffer} (hb : b.totalSize = lineSum b.lines)
    (remaining : List UInt8) : ∃ b', b.appendLines remaining = .ok b' ∧ b'.Accounted := by
  have htotal := pushLines_total (remaining.getLast? == some newline)
    (remaining.splitOnP (· == newline)) b
  unfold OutputBuffer.appendLines OutputBuffer.trim
  generalize OutputBuffer.pushLines _ _ b = pushed at htotal ⊢
  have hpushed : pushed.totalSize = lineSum pushed.lines := by omega
  rw [hpushed]
  exact trimLoop_accounted _ _

/-- An error in the counter stays through the rest of `append`. -/
theorem appendLines_not_accounted {b b' : OutputBuffer} (hb : b.totalSize ≠ lineSum b.lines)
    {remaining : List UInt8} (h : b.appendLines remaining = .ok b') :
    b'.totalSize ≠ lineSum b'.lines := by
  have htotal := pushLines_total (remaining.getLast? == some newline)
    (remaining.splitOnP (· == newline)) b
  have htrim := trimLoop_total _ _ h
  omega

/-! ## When the accounting holds -/

/-- The chunk does not touch a partial line, or goes on with it without a
newline and without exceeding the size limit. -/
def OutputBuffer.Countable (b : OutputBuffer) (data : List UInt8) : Prop :=
  data = [] ∨ b.lastLineIncomplete = false ∨ b.lines = [] ∨
    (newline ∉ data ∧ b.totalSize + data.length ≤ maxOutputBufferSize)

theorem newline_mem_of_findIdx? {data : List UInt8} {newlinePos : ℕ}
    (hfind : data.findIdx? (· == newline) = some newlinePos) :
    newlinePos < data.length ∧ newline ∈ data := by
  obtain ⟨hlt, hfound, -⟩ := List.findIdx?_eq_some_iff_getElem.mp hfind
  refine ⟨hlt, ?_⟩
  rw [← beq_iff_eq.mp hfound]
  exact List.getElem_mem hlt

theorem newline_notMem_of_findIdx? {data : List UInt8}
    (hfind : data.findIdx? (· == newline) = none) : newline ∉ data := by
  intro hmem
  have hnone := List.findIdx?_eq_none_iff.mp hfind newline hmem
  simp at hnone

/-- The lines of a buffer, split at its last line. -/
theorem OutputBuffer.Accounted.total_of_getLast? {b : OutputBuffer} (hb : b.Accounted)
    {lastLine : List UInt8} (hlast : b.lines.getLast? = some lastLine) :
    b.totalSize = lineSum b.lines.dropLast + lastLine.length ∧
      b.lines.length = b.lines.dropLast.length + 1 := by
  obtain ⟨earlier, hlines⟩ := List.getLast?_eq_some_iff.mp hlast
  rw [hb.total, hlines]
  simp

/-- The bytes that complete a partial line are never counted. -/
theorem append_completed {b b' : OutputBuffer} (hb : b.Accounted)
    (hincomplete : b.lastLineIncomplete = true) {lastLine data : List UInt8}
    (hlast : b.lines.getLast? = some lastLine) {newlinePos : ℕ}
    (hfind : data.findIdx? (· == newline) = some newlinePos) (h : b.append data = .ok b') :
    b'.totalSize ≠ lineSum b'.lines := by
  obtain ⟨hlt, hmem⟩ := newline_mem_of_findIdx? hfind
  have hempty : data ≠ [] := List.ne_nil_of_mem hmem
  obtain ⟨htotal, -⟩ := hb.total_of_getLast? hlast
  unfold OutputBuffer.append at h
  rw [if_neg hempty, hincomplete, hlast] at h
  dsimp only at h
  rw [hfind] at h
  refine appendLines_not_accounted ?_ h
  simp only [lineSum_append, lineSum_cons, lineSum_nil, List.length_append, List.length_take]
  omega

/-- The bytes that go on with a partial line are counted, but not limited. -/
theorem append_continued {b : OutputBuffer} (hb : b.Accounted)
    (hincomplete : b.lastLineIncomplete = true) {lastLine data : List UInt8}
    (hlast : b.lines.getLast? = some lastLine)
    (hfind : data.findIdx? (· == newline) = none) (hempty : data ≠ []) :
    ∃ b', b.append data = .ok b' ∧ b'.totalSize = b.totalSize + data.length ∧
      b'.totalSize = lineSum b'.lines ∧ b'.lines.length = b.lines.length := by
  obtain ⟨htotal, hlength⟩ := hb.total_of_getLast? hlast
  unfold OutputBuffer.append
  rw [if_neg hempty, hincomplete, hlast]
  dsimp only
  rw [hfind]
  refine ⟨_, rfl, rfl, ?_, ?_⟩
  · simp only [htotal, lineSum_append, lineSum_cons, lineSum_nil, List.length_append]
    omega
  · rw [List.length_append, List.length_singleton, hlength]

/-- One call keeps the accounting exactly if its chunk is countable. -/
theorem append_accounted_iff {b : OutputBuffer} (hb : b.Accounted) (data : List UInt8) :
    (∃ b', b.append data = .ok b' ∧ b'.Accounted) ↔ b.Countable data := by
  by_cases hempty : data = []
  · exact iff_of_true ⟨b, by rw [OutputBuffer.append, if_pos hempty], hb⟩ (.inl hempty)
  cases hincomplete : b.lastLineIncomplete with
  | false =>
      refine iff_of_true ?_ (.inr (.inl hincomplete))
      unfold OutputBuffer.append
      rw [if_neg hempty, hincomplete]
      exact appendLines_accounted hb.total data
  | true =>
      cases hlast : b.lines.getLast? with
      | none =>
          refine iff_of_true ?_ (.inr (.inr (.inl (List.getLast?_eq_none_iff.mp hlast))))
          unfold OutputBuffer.append
          rw [if_neg hempty, hincomplete, hlast]
          exact appendLines_accounted hb.total data
      | some lastLine =>
          have hne : b.lines ≠ [] := List.ne_nil_of_mem (List.mem_of_getLast? hlast)
          cases hfind : data.findIdx? (· == newline) with
          | some newlinePos =>
              have hmem := (newline_mem_of_findIdx? hfind).2
              have hnot : ¬ b.Countable data := by
                simp [OutputBuffer.Countable, hempty, hincomplete, hne, hmem]
              refine iff_of_false ?_ hnot
              rintro ⟨b', happend, hb'⟩
              exact append_completed hb hincomplete hlast hfind happend hb'.total
          | none =>
              have hmem := newline_notMem_of_findIdx? hfind
              obtain ⟨b', happend, hsize, htotal, hlength⟩ :=
                append_continued hb hincomplete hlast hfind hempty
              constructor
              · rintro ⟨b'', happend', hb''⟩
                obtain rfl := Except.ok.inj (happend.symm.trans happend')
                exact .inr (.inr (.inr ⟨hmem, hsize ▸ hb''.size_le⟩))
              · intro hcountable
                have hfits : b.totalSize + data.length ≤ maxOutputBufferSize := by
                  simpa [OutputBuffer.Countable, hempty, hincomplete, hne, hmem] using hcountable
                exact ⟨b', happend, htotal, hsize ▸ hfits, hlength ▸ hb.lines_le⟩

/-- The buffer after a sequence of chunks. -/
def OutputBuffer.appendAll (b : OutputBuffer) (chunks : List (List UInt8)) :
    Except Fault OutputBuffer :=
  chunks.foldlM OutputBuffer.append b

theorem appendAll_concat (b : OutputBuffer) (chunks : List (List UInt8)) (data : List UInt8) :
    b.appendAll (chunks ++ [data]) = b.appendAll chunks >>= fun b => b.append data := by
  simp [OutputBuffer.appendAll]

/-- **Terminal output accounting.**  After every call of a sequence the counter
is exact and the limits hold, exactly if every chunk is countable where it is
appended. -/
theorem appendAll_accounted_iff (chunks : List (List UInt8)) :
    (∀ before, before <+: chunks →
        ∃ b, OutputBuffer.new.appendAll before = .ok b ∧ b.Accounted) ↔
      ∀ before data, before ++ [data] <+: chunks →
        ∀ b, OutputBuffer.new.appendAll before = .ok b → b.Countable data := by
  constructor
  · intro haccounted before data hfront b hb
    obtain ⟨b', hb', hbefore⟩ :=
      haccounted before ((List.prefix_append before [data]).trans hfront)
    obtain rfl := Except.ok.inj (hb.symm.trans hb')
    obtain ⟨next, hnext, hafter⟩ := haccounted _ hfront
    rw [appendAll_concat, hb] at hnext
    exact (append_accounted_iff hbefore data).mp ⟨next, hnext, hafter⟩
  · intro hcountable before
    induction before using List.reverseRecOn with
    | nil => exact fun _ => ⟨.new, rfl, initial_accounted⟩
    | append_singleton before data ih =>
        intro hfront
        obtain ⟨b, hb, hbefore⟩ := ih ((List.prefix_append before [data]).trans hfront)
        obtain ⟨next, hnext, hafter⟩ :=
          (append_accounted_iff hbefore data).mpr (hcountable before data hfront b hb)
        refine ⟨next, ?_, hafter⟩
        rw [appendAll_concat, hb]
        exact hnext

/-- A partial line of one byte, completed by two more: the counter stays at one. -/
theorem completedLine_not_accounted :
    ¬ ∀ before, before <+: [[97], [98, newline]] →
      ∃ b, OutputBuffer.new.appendAll before = .ok b ∧ b.Accounted := by
  intro haccounted
  obtain ⟨b, hb, htotal, -, -⟩ := haccounted _ (List.prefix_refl _)
  have hrun : OutputBuffer.new.appendAll [[97], [98, newline]] =
      .ok ⟨[[97, 98, newline]], 1, false⟩ := rfl
  rw [← Except.ok.inj (hrun.symm.trans hb)] at htotal
  simp at htotal

end RustAdmin.Terminal
