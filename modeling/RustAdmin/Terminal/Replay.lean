import RustAdmin.Support.Utf8
import RustAdmin.Terminal.OutputBuffer

/-!
# The replay of terminal output

`OutputBuffer::get_recent` (`src/src/server/terminal_service.rs`) replays the end
of what a terminal has written: the stored lines are the end of the stream of all
chunks, and the replay is the end of the stored lines.

`append_suffix` is the invariant: the stored lines, joined, are a suffix of the
stream.  Pushing keeps it since a chunk is the pieces it is split into
(`flatten_pushLines`), and trimming drops from the front.  Trimming comes back
wherever the counter is at most what is stored (`trimLoop_ne_endless`).  The replay is
a suffix of what is stored, and begins with a character since continuation bytes are
skipped (`skipContinuation_eq`).
-/

namespace RustAdmin.Terminal

open RustAdmin.Support

/-! ## What append keeps of the stream -/

/-- The pieces of a chunk are pushed as the chunk, where the last piece is empty
behind a newline. -/
theorem flatten_pushLines {endsWithNewline : Bool} {pieces : List (List UInt8)}
    (hpieces : pieces ≠ []) (hlast : endsWithNewline = true → pieces.getLast? = some []) :
    ∀ b : OutputBuffer, (OutputBuffer.pushLines endsWithNewline pieces b).lines.flatten =
      b.lines.flatten ++ [newline].intercalate pieces := by
  induction pieces with
  | nil => exact absurd rfl hpieces
  | cons piece rest ih =>
      intro b
      cases rest with
      | nil =>
          cases piece with
          | nil => simp [OutputBuffer.pushLines]
          | cons byte piece =>
              have hopen : endsWithNewline = false := by
                by_contra hends
                have := hlast (by simpa using hends)
                simp at this
              simp [OutputBuffer.pushLines, OutputBuffer.pushLine, hopen]
      | cons next rest =>
          have hnext := ih (by simp) (by simpa using hlast) (b.pushLine (piece ++ [newline]))
          rw [OutputBuffer.pushLines, hnext]
          simp [OutputBuffer.pushLine, List.intercalate]

/-- A chunk that ends with a newline has an empty last piece. -/
theorem getLast?_splitOnP_newline {remaining : List UInt8}
    (hends : remaining.getLast? = some newline) :
    (remaining.splitOnP (· == newline)).getLast? = some [] := by
  obtain ⟨front, rfl⟩ := List.getLast?_eq_some_iff.mp hends
  rw [List.splitOnP_append_cons front [] (by simp)]
  simp

theorem trimLoop_suffix {incomplete : Bool} {b : OutputBuffer} (lines : List (List UInt8)) :
    ∀ totalSize, OutputBuffer.trimLoop incomplete lines totalSize = .ok b → b.lines <:+ lines := by
  induction lines with
  | nil =>
      intro totalSize h
      unfold OutputBuffer.trimLoop at h
      split at h
      · simp at h
      · rw [← Except.ok.inj h]
  | cons removed lines ih =>
      intro totalSize h
      unfold OutputBuffer.trimLoop at h
      split at h
      · split at h
        · simp at h
        · next rest _ => exact (ih rest h).trans (List.suffix_cons removed lines)
      · rw [← Except.ok.inj h]

theorem flatten_suffix {first second : List (List UInt8)} (h : first <:+ second) :
    first.flatten <:+ second.flatten := by
  obtain ⟨front, rfl⟩ := h
  rw [List.flatten_append]
  exact List.suffix_append _ _

theorem suffix_append_right {first second : List UInt8} (h : first <:+ second)
    (more : List UInt8) : first ++ more <:+ second ++ more := by
  obtain ⟨front, rfl⟩ := h
  rw [List.append_assoc]
  exact List.suffix_append _ _

theorem appendLines_suffix {b b' : OutputBuffer} {remaining : List UInt8}
    (h : b.appendLines remaining = .ok b') :
    b'.lines.flatten <:+ b.lines.flatten ++ remaining := by
  have hlast : (remaining.getLast? == some newline) = true →
      (remaining.splitOnP (· == newline)).getLast? = some [] := fun hends =>
    getLast?_splitOnP_newline (by simpa using hends)
  have hjoined : [newline].intercalate (remaining.splitOnP (· == newline)) = remaining := by
    rw [← List.splitOn_eq_splitOnP]
    exact List.intercalate_splitOn newline
  have hpushed := flatten_pushLines (List.splitOnP_ne_nil _ _) hlast b
  rw [hjoined] at hpushed
  rw [← hpushed]
  exact flatten_suffix (trimLoop_suffix _ _ h)

/-- What is stored stays the end of the stream. -/
theorem append_suffix {b b' : OutputBuffer} {data : List UInt8} (h : b.append data = .ok b') :
    b'.lines.flatten <:+ b.lines.flatten ++ data := by
  unfold OutputBuffer.append at h
  split at h
  · next hempty =>
      obtain rfl := Except.ok.inj h
      rw [hempty, List.append_nil]
  · split at h
    · next lastLine _ hlast =>
        obtain ⟨front, hlines⟩ := List.getLast?_eq_some_iff.mp hlast
        split at h
        · next newlinePos _ =>
            have hsuffix := appendLines_suffix h
            rw [hlines] at hsuffix ⊢
            simpa using hsuffix
        · obtain rfl := Except.ok.inj h
          rw [hlines]
          simp
    · exact appendLines_suffix h

/-! ## The only fault is the counter -/

/-- The counter is at most what is stored, so trimming does not run out of lines. -/
theorem trimLoop_ne_endless (incomplete : Bool) (lines : List (List UInt8)) :
    ∀ totalSize, totalSize ≤ lineSum lines →
      OutputBuffer.trimLoop incomplete lines totalSize ≠ .error .endless := by
  induction lines with
  | nil =>
      intro totalSize hle
      unfold OutputBuffer.trimLoop
      rw [lineSum_nil] at hle
      rw [if_neg (by omega)]
      simp
  | cons removed lines ih =>
      intro totalSize hle
      unfold OutputBuffer.trimLoop
      rw [lineSum_cons] at hle
      split
      · cases hrest : checkedSub totalSize removed.length with
        | none => simp
        | some rest =>
            refine ih rest ?_
            unfold checkedSub at hrest
            split at hrest
            · have := Option.some.inj hrest
              omega
            · simp at hrest
      · simp

theorem appendLines_counted {b : OutputBuffer} (hb : b.totalSize ≤ lineSum b.lines)
    (remaining : List UInt8) :
    b.appendLines remaining ≠ .error .endless ∧
      ∀ b', b.appendLines remaining = .ok b' → b'.totalSize ≤ lineSum b'.lines := by
  have htotal := pushLines_total (remaining.getLast? == some newline)
    (remaining.splitOnP (· == newline)) b
  constructor
  · exact trimLoop_ne_endless _ _ _ (by omega)
  · intro b' h
    have htrim := trimLoop_total _ _ h
    omega

theorem append_counted {b : OutputBuffer} (hb : b.totalSize ≤ lineSum b.lines)
    (data : List UInt8) :
    b.append data ≠ .error .endless ∧
      ∀ b', b.append data = .ok b' → b'.totalSize ≤ lineSum b'.lines := by
  unfold OutputBuffer.append
  split
  · refine ⟨by simp, ?_⟩
    intro b' h
    rwa [← Except.ok.inj h]
  · split
    · next lastLine _ hlast =>
        obtain ⟨front, hlines⟩ := List.getLast?_eq_some_iff.mp hlast
        rw [hlines, lineSum_append, lineSum_cons, lineSum_nil] at hb
        split
        · refine appendLines_counted ?_ _
          simp only [hlines, List.dropLast_concat, lineSum_append, lineSum_cons, lineSum_nil,
            List.length_append]
          omega
        · refine ⟨by simp, ?_⟩
          intro b' h
          rw [← Except.ok.inj h]
          simp only [hlines, List.dropLast_concat, lineSum_append, lineSum_cons, lineSum_nil,
            List.length_append]
          omega
    · exact appendLines_counted hb data

/-- A sequence of chunks whose counter does not underflow comes back, with the
end of the stream stored. -/
theorem appendAll_suffix {chunks : List (List UInt8)}
    (h : OutputBuffer.new.appendAll chunks ≠ .error .underflow) :
    ∃ b, OutputBuffer.new.appendAll chunks = .ok b ∧ b.totalSize ≤ lineSum b.lines ∧
      b.lines.flatten <:+ chunks.flatten := by
  induction chunks using List.reverseRecOn with
  | nil => exact ⟨.new, rfl, Nat.le_refl _, List.suffix_refl _⟩
  | append_singleton chunks data ih =>
      rw [appendAll_concat] at h
      have hfront : OutputBuffer.new.appendAll chunks ≠ .error .underflow := by
        intro hunderflow
        rw [hunderflow] at h
        exact h rfl
      obtain ⟨b, hb, hcounted, hsuffix⟩ := ih hfront
      obtain ⟨hendless, hkept⟩ := append_counted hcounted data
      rw [hb] at h
      rw [appendAll_concat, hb]
      cases hdata : b.append data with
      | error fault =>
          cases fault with
          | underflow => exact absurd hdata h
          | endless => exact absurd hdata hendless
      | ok b' =>
          refine ⟨b', hdata, hkept b' hdata, (append_suffix hdata).trans ?_⟩
          rw [List.flatten_append, List.flatten_singleton]
          exact suffix_append_right hsuffix data

/-! ## What get_recent returns -/

theorem le_skipContinuation (text : List UInt8) (fuel : ℕ) :
    ∀ offset, offset ≤ skipContinuation text fuel offset := by
  induction fuel with
  | zero => exact fun offset => Nat.le_refl offset
  | succ fuel ih =>
      intro offset
      unfold skipContinuation
      split
      · split
        · exact (Nat.le_succ offset).trans (ih (offset + 1))
        · exact Nat.le_refl offset
      · exact Nat.le_refl offset

theorem recentTail_spec {line : List UInt8} {maxBytes : ℕ} (hlong : maxBytes < line.length) :
    recentTail line maxBytes <:+ line ∧ (recentTail line maxBytes).length ≤ maxBytes := by
  refine ⟨List.drop_suffix _ _, ?_⟩
  have hskip := le_skipContinuation line 3 (line.length - maxBytes)
  rw [recentTail, List.length_drop]
  omega

/-- The collected lines are the newest ones, within the bound. -/
theorem recentLines_spec {maxBytes : ℕ} (newest : List (List UInt8)) :
    ∀ size, size ≤ maxBytes →
      recentLines maxBytes newest size <:+ newest.reverse.flatten ∧
        size + (recentLines maxBytes newest size).length ≤ maxBytes := by
  induction newest with
  | nil => exact fun size hsize => ⟨List.suffix_refl _, hsize⟩
  | cons line older ih =>
      intro size hsize
      have hflatten : (line :: older).reverse.flatten = older.reverse.flatten ++ line := by simp
      unfold recentLines
      rw [hflatten]
      split
      · split
        · next hlong =>
            obtain ⟨rfl, hlong⟩ := hlong
            obtain ⟨hsuffix, hlength⟩ := recentTail_spec hlong
            exact ⟨hsuffix.trans (List.suffix_append _ _), by omega⟩
        · exact ⟨List.nil_suffix, hsize⟩
      · next hfits =>
          obtain ⟨hsuffix, hlength⟩ := ih (size + line.length) (by omega)
          refine ⟨suffix_append_right hsuffix line, ?_⟩
          rw [List.length_append]
          omega

theorem getRecent_spec (b : OutputBuffer) (maxBytes : ℕ) :
    b.getRecent maxBytes <:+ b.lines.flatten ∧ (b.getRecent maxBytes).length ≤ maxBytes := by
  unfold OutputBuffer.getRecent
  split
  · exact ⟨List.nil_suffix, Nat.zero_le _⟩
  · obtain ⟨hsuffix, hlength⟩ := recentLines_spec b.lines.reverse 0 (Nat.zero_le maxBytes)
    rw [List.reverse_reverse] at hsuffix
    exact ⟨hsuffix, by omega⟩

/-! ## Characters -/

/-- Over continuation bytes the offset moves to the character behind them. -/
theorem skipContinuation_eq {skipped : List UInt8} (rest : List Char)
    (hskipped : ∀ byte ∈ skipped, IsContinuation byte) :
    ∀ (front : List UInt8) (fuel : ℕ), skipped.length ≤ fuel →
      skipContinuation (front ++ skipped ++ encodeUtf8 rest) fuel front.length =
        front.length + skipped.length := by
  induction skipped with
  | nil =>
      intro front fuel _
      cases fuel with
      | zero => rfl
      | succ fuel =>
          have hnext : (front ++ [] ++ encodeUtf8 rest)[front.length]? =
              (encodeUtf8 rest).head? := by
            rw [List.append_nil, List.getElem?_append_right (Nat.le_refl _), Nat.sub_self,
              List.head?_eq_getElem?]
          unfold skipContinuation
          rw [hnext]
          split
          · next byte hbyte =>
              exact if_neg (head_not_continuation hbyte)
          · rfl
  | cons byte skipped ih =>
      intro front fuel hfuel
      obtain ⟨hbyte, hskipped⟩ := List.forall_mem_cons.mp hskipped
      rw [List.length_cons] at hfuel
      cases fuel with
      | zero => omega
      | succ fuel =>
          have hnext : (front ++ byte :: skipped ++ encodeUtf8 rest)[front.length]? =
              some byte := by simp
          have hmore := ih hskipped (front ++ [byte]) fuel (by omega)
          rw [List.length_append, List.length_singleton, List.append_assoc front,
            List.singleton_append] at hmore
          unfold skipContinuation
          rw [hnext]
          dsimp only
          rw [if_pos (show byte &&& 0b11000000 = 0b10000000 from hbyte), hmore, List.length_cons]
          omega

/-- In a text the tail of a line begins with a character. -/
theorem recentTail_eq_encodeUtf8 {text : List Char} {line : List UInt8}
    (hline : line <:+ encodeUtf8 text) {maxBytes : ℕ} (hlong : maxBytes < line.length) :
    ∃ rest, rest <:+ text ∧ recentTail line maxBytes = encodeUtf8 rest := by
  obtain ⟨before, hbefore⟩ := hline
  have hcut : encodeUtf8 text =
      (before ++ line.take (line.length - maxBytes)) ++ line.drop (line.length - maxBytes) := by
    rw [List.append_assoc, List.take_append_drop, hbefore]
  obtain ⟨skipped, rest, hback, hrest, hshort, hskipped⟩ := exists_boundary hcut
  have hsplit : line = line.take (line.length - maxBytes) ++ skipped ++ encodeUtf8 rest := by
    rw [List.append_assoc, ← hback, List.take_append_drop]
  have hlength : (line.take (line.length - maxBytes)).length = line.length - maxBytes := by
    rw [List.length_take]
    omega
  have hskip := skipContinuation_eq rest hskipped (line.take (line.length - maxBytes)) 3 hshort
  rw [← hsplit, hlength] at hskip
  refine ⟨rest, hrest, ?_⟩
  rw [recentTail, hskip, ← List.drop_drop, hback]
  simp

/-- The newest line alone is too long: its tail is returned. -/
theorem getRecent_of_long {b : OutputBuffer} {line : List UInt8}
    (hlast : b.lines.getLast? = some line) {maxBytes : ℕ} (hlong : maxBytes < line.length) :
    b.getRecent maxBytes = if maxBytes = 0 then [] else recentTail line maxBytes := by
  obtain ⟨front, hlines⟩ := List.getLast?_eq_some_iff.mp hlast
  unfold OutputBuffer.getRecent
  rw [hlines, List.reverse_append, List.reverse_singleton, List.singleton_append]
  have hcut : recentLines maxBytes (line :: front.reverse) 0 = recentTail line maxBytes := by
    rw [recentLines, Nat.zero_add, if_pos hlong, if_pos ⟨rfl, hlong⟩]
  rw [hcut]

/-- **Terminal replay.**  As long as the counter does not underflow, the stored
lines and every replay are the end of the stream of all chunks; a replay has at
most the bytes asked for, and in a text it does not begin inside a character of a
newest line that is too long. -/
theorem getRecent_suffix {chunks : List (List UInt8)}
    (h : OutputBuffer.new.appendAll chunks ≠ .error .underflow) :
    ∃ b, OutputBuffer.new.appendAll chunks = .ok b ∧ b.lines.flatten <:+ chunks.flatten ∧
      ∀ maxBytes, b.getRecent maxBytes <:+ chunks.flatten ∧
        (b.getRecent maxBytes).length ≤ maxBytes ∧
        ∀ text line, chunks.flatten = encodeUtf8 text → b.lines.getLast? = some line →
          maxBytes < line.length →
            ∃ rest, rest <:+ text ∧ b.getRecent maxBytes = encodeUtf8 rest := by
  obtain ⟨b, hb, -, hsuffix⟩ := appendAll_suffix h
  refine ⟨b, hb, hsuffix, ?_⟩
  intro maxBytes
  obtain ⟨hrecent, hlength⟩ := getRecent_spec b maxBytes
  refine ⟨hrecent.trans hsuffix, hlength, ?_⟩
  intro text line htext hlast hlong
  rw [getRecent_of_long hlast hlong]
  split
  · exact ⟨[], List.nil_suffix, rfl⟩
  · refine recentTail_eq_encodeUtf8 ?_ hlong
    obtain ⟨front, hlines⟩ := List.getLast?_eq_some_iff.mp hlast
    rw [← htext]
    refine List.IsSuffix.trans ?_ hsuffix
    rw [hlines]
    simp

/-- Two characters of two bytes, the first one cut between two chunks. -/
theorem getRecent_suffix_cut :
    ∃ b, OutputBuffer.new.appendAll [[0xc3], [0xa9, 0xc3, 0xa9]] = .ok b ∧
      b.getRecent 3 <:+ [0xc3, 0xa9, 0xc3, 0xa9] ∧ (b.getRecent 3).length ≤ 3 := by
  have hrun : OutputBuffer.new.appendAll [[0xc3], [0xa9, 0xc3, 0xa9]] ≠ .error .underflow := by
    have hok : OutputBuffer.new.appendAll [[0xc3], [0xa9, 0xc3, 0xa9]] =
        .ok ⟨[[0xc3, 0xa9, 0xc3, 0xa9]], 4, true⟩ := rfl
    rw [hok]
    simp
  obtain ⟨b, hb, -, hrecent⟩ := getRecent_suffix hrun
  exact ⟨b, hb, (hrecent 3).1, (hrecent 3).2.1⟩

end RustAdmin.Terminal
