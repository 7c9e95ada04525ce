import Mathlib.Data.List.DropRight
import Mathlib.Data.PNat.Basic
import RustAdmin.Support.Utf8

/-!
# Committed text

`send_committed_text_v2_with_source_layout` of `src/src/ui_session_interface.rs`
splits one edit of a text field (delete before and after the cursor, then insert
a text) into messages of bounded size.

The messages are applied to an abstract editor, so that to split an edit is to find
edits with the same effect.  Deletions add up (`apply_apply_deletion`), and
`deleteLoop_spec` gives what each loop sends and leaves.  The text is cut at the last
boundary within the limit: `splitLoop_spec` says that the pieces are the text, or that
a character is too long.  `applyAll_chunks` puts the pieces behind one another, and
`applyAll_deletions` the deletions in front.
-/

namespace RustAdmin.Viewer.TextEdit

open RustAdmin.Support

/-! ## Text by bytes -/

/-- `str::len`. -/
def byteLength (text : List Char) : ℕ := (encodeUtf8 text).length

/-- `str::is_char_boundary`. -/
def isCharBoundary : List Char → ℕ → Bool
  | _, 0 => true
  | [], _ + 1 => false
  | c :: text, index + 1 =>
      c.utf8Size ≤ index + 1 && isCharBoundary text (index + 1 - c.utf8Size)

/-- `&text[..index]`, for a boundary. -/
def takeBytes : List Char → ℕ → List Char
  | _, 0 => []
  | [], _ + 1 => []
  | c :: text, index + 1 => c :: takeBytes text (index + 1 - c.utf8Size)

/-- `&text[index..]`, for a boundary. -/
def dropBytes : List Char → ℕ → List Char
  | text, 0 => text
  | [], _ + 1 => []
  | c :: text, index + 1 => dropBytes text (index + 1 - c.utf8Size)

theorem length_dropBytes_le (text : List Char) (index : ℕ) :
    (dropBytes text index).length ≤ text.length := by
  induction text generalizing index with
  | nil => cases index <;> simp [dropBytes]
  | cons c text ih =>
      cases index with
      | zero => exact Nat.le_refl _
      | succ index => exact (ih _).trans (Nat.le_succ _)

/-! ## Splitting a text -/

/-- The inner loop of `split_committed_text`: back to a character boundary. -/
def boundaryBelow (text : List Char) : ℕ → ℕ
  | 0 => 0
  | index + 1 => if isCharBoundary text (index + 1) then index + 1 else boundaryBelow text index

/-- The outer loop of `split_committed_text`, on what is left of the text; `none`
where a character is too long. -/
def splitLoop (maxBytes : ℕ) (text : List Char) : Option (List (List Char)) :=
  match text with
  | [] => some []
  | c :: rest =>
      match boundaryBelow (c :: rest) (min (byteLength (c :: rest)) maxBytes) with
      | 0 => none
      | index + 1 =>
          (splitLoop maxBytes (dropBytes (c :: rest) (index + 1))).map
            (takeBytes (c :: rest) (index + 1) :: ·)
termination_by text.length
decreasing_by exact Nat.lt_succ_of_le (length_dropBytes_le rest _)

/-- `split_committed_text`. -/
def splitCommittedText (value : List Char) (maxBytes : ℕ) : List (List Char) :=
  if value = [] ∨ maxBytes = 0 then [] else (splitLoop maxBytes value).getD []

/-! ## Messages -/

/-- The limits of `hbb_common::keyboard`. -/
structure KeyboardLimits where
  maxCommittedTextBytes : ℕ
  maxTextDeleteGraphemes : ℕ+

/-- What every message of an edit repeats. -/
structure SourceLayout where
  sourceLanguageTag : String
  sourceLayoutType : String
  preferPhysical : Bool
deriving DecidableEq, Repr

structure CommittedText where
  text : List Char
  deleteBeforeGraphemes : ℕ
  deleteAfterGraphemes : ℕ
  layout : SourceLayout
deriving DecidableEq, Repr

/-- The limit of a peer that advertises some bytes, or none. -/
def KeyboardLimits.maxBytes (limits : KeyboardLimits) (advertised : ℕ) : ℕ :=
  let advertisedMax := if 0 < advertised then advertised else limits.maxCommittedTextBytes
  min (max advertisedMax 1) limits.maxCommittedTextBytes

/-- A loop over deletions: the message is sent until the count is within the
limit; the rest of the count stays. -/
def deleteLoop (limit : ℕ+) (message : CommittedText) (count : ℕ) : List CommittedText × ℕ :=
  if limit < count then
    let (sent, left) := deleteLoop limit message (count - limit)
    (message :: sent, left)
  else ([], count)
termination_by count
decreasing_by
  have := limit.pos
  omega

/-- `send_committed_text_v2_with_source_layout`: the messages, or the error that
is shown. -/
def sendCommittedText (limits : KeyboardLimits) (value : List Char) (deleteBefore deleteAfter : ℕ)
    (advertised : ℕ) (layout : SourceLayout) : Except String (List CommittedText) :=
  let chunks := splitCommittedText value (limits.maxBytes advertised)
  if value ≠ [] ∧ chunks = [] then .error "Invalid format"
  else
    let limit := limits.maxTextDeleteGraphemes
    let (sentBefore, deleteBefore) := deleteLoop limit ⟨[], limit, 0, layout⟩ deleteBefore
    let (sentAfter, deleteAfter) := deleteLoop limit ⟨[], 0, limit, layout⟩ deleteAfter
    match chunks with
    | [] =>
        if value = [] ∧ (deleteBefore ≠ 0 ∨ deleteAfter ≠ 0) then
          .ok (sentBefore ++ sentAfter ++ [⟨[], deleteBefore, deleteAfter, layout⟩])
        else .ok (sentBefore ++ sentAfter)
    | chunk :: chunks =>
        .ok (sentBefore ++ sentAfter ++ ⟨chunk, deleteBefore, deleteAfter, layout⟩ ::
          chunks.map fun chunk => ⟨chunk, 0, 0, layout⟩)

/-! ## The editor -/

/-- A division of texts into graphemes. -/
structure Graphemes where
  divide : List Char → List (List Char)
  flatten_divide : ∀ text, (divide text).flatten = text

/-- The graphemes before and after the cursor of a text field. -/
structure Editor where
  before : List (List Char)
  after : List (List Char)
deriving DecidableEq, Repr

/-- Deletes graphemes as far as they exist, then inserts the text before the
cursor, where it may join the graphemes it comes to. -/
def Editor.apply (graphemes : Graphemes) (editor : Editor) (edit : CommittedText) : Editor where
  before :=
    let before := editor.before.rdrop edit.deleteBeforeGraphemes
    if edit.text = [] then before else graphemes.divide (before.flatten ++ edit.text)
  after := editor.after.drop edit.deleteAfterGraphemes

/-! ## The chunks -/

theorem byteLength_cons (c : Char) (text : List Char) :
    byteLength (c :: text) = c.utf8Size + byteLength text := by
  simp [byteLength]

/-- A text is cut at a boundary into the bytes before it and the rest. -/
theorem takeBytes_append_dropBytes (text : List Char) :
    ∀ index, takeBytes text index ++ dropBytes text index = text := by
  induction text with
  | nil => intro index; cases index <;> rfl
  | cons c text ih =>
      intro index
      cases index with
      | zero => rfl
      | succ index => exact congrArg (c :: ·) (ih _)

theorem byteLength_takeBytes {text : List Char} :
    ∀ {index : ℕ}, isCharBoundary text index = true →
      byteLength (takeBytes text index) = index := by
  induction text with
  | nil =>
      intro index hboundary
      cases index with
      | zero => rfl
      | succ index => simp [isCharBoundary] at hboundary
  | cons c text ih =>
      intro index hboundary
      cases index with
      | zero => rfl
      | succ index =>
          obtain ⟨hle, hrest⟩ : c.utf8Size ≤ index + 1 ∧
              isCharBoundary text (index + 1 - c.utf8Size) = true := by
            simpa [isCharBoundary] using hboundary
          rw [takeBytes, byteLength_cons, ih hrest]
          omega

theorem isCharBoundary_boundaryBelow (text : List Char) (index : ℕ) :
    isCharBoundary text (boundaryBelow text index) = true ∧ boundaryBelow text index ≤ index := by
  induction index with
  | zero => exact ⟨by cases text <;> rfl, Nat.le_refl 0⟩
  | succ index ih =>
      unfold boundaryBelow
      split
      · next hboundary => exact ⟨hboundary, Nat.le_refl _⟩
      · exact ⟨ih.1, ih.2.trans (Nat.le_succ index)⟩

/-- A boundary is found unless the first character is too long. -/
theorem boundaryBelow_eq_zero_iff (c : Char) (text : List Char) (index : ℕ) :
    boundaryBelow (c :: text) index = 0 ↔ index < c.utf8Size := by
  have hfirst : isCharBoundary (c :: text) c.utf8Size = true := by
    obtain ⟨size, hsize⟩ := Nat.exists_eq_succ_of_ne_zero c.utf8Size_pos.ne'
    rw [hsize, isCharBoundary, ← Nat.succ_eq_add_one, ← hsize, Nat.sub_self]
    cases text <;> simp [isCharBoundary]
  induction index with
  | zero => exact iff_of_true rfl c.utf8Size_pos
  | succ index ih =>
      unfold boundaryBelow
      split
      · next hboundary =>
          have hle : c.utf8Size ≤ index + 1 := by
            have := hboundary
            simp only [isCharBoundary, Bool.and_eq_true, decide_eq_true_eq] at this
            exact this.1
          omega
      · next hno =>
          have hne : index + 1 ≠ c.utf8Size := fun heq => hno (heq ▸ hfirst)
          refine ih.trans ?_
          omega

/-- The chunks of a text: no character is too long, and they are the text in
nonempty pieces within the limit. -/
def Chunks (maxBytes : ℕ) (text : List Char) (chunks : List (List Char)) : Prop :=
  chunks.flatten = text ∧ ∀ chunk ∈ chunks, chunk ≠ [] ∧ byteLength chunk ≤ maxBytes

theorem utf8Size_le_byteLength {c : Char} {text : List Char} (h : c ∈ text) :
    c.utf8Size ≤ byteLength text := by
  induction text with
  | nil => simp at h
  | cons d text ih =>
      rw [byteLength_cons]
      obtain rfl | h := List.mem_cons.mp h
      · omega
      · have := ih h
        omega

/-- The loop splits exactly the texts without a character that is too long. -/
theorem splitLoop_spec (maxBytes : ℕ) (text : List Char) :
    ((∃ c ∈ text, maxBytes < c.utf8Size) ∧ splitLoop maxBytes text = none) ∨
      ((∀ c ∈ text, c.utf8Size ≤ maxBytes) ∧
        ∃ chunks, splitLoop maxBytes text = some chunks ∧ Chunks maxBytes text chunks) := by
  fun_induction splitLoop maxBytes text with
  | case1 => exact .inr ⟨by simp, [], rfl, rfl, by simp⟩
  | case2 c rest hzero =>
      rw [boundaryBelow_eq_zero_iff, byteLength_cons] at hzero
      exact .inl ⟨⟨c, List.mem_cons_self, by omega⟩, rfl⟩
  | case3 c rest index hindex ih =>
      obtain ⟨hboundary, hle⟩ := isCharBoundary_boundaryBelow (c :: rest)
        (min (byteLength (c :: rest)) maxBytes)
      rw [hindex] at hboundary hle
      have hcut := takeBytes_append_dropBytes (c :: rest) (index + 1)
      have hlength : byteLength (takeBytes (c :: rest) (index + 1)) = index + 1 :=
        byteLength_takeBytes hboundary
      have hfits : byteLength (takeBytes (c :: rest) (index + 1)) ≤ maxBytes := by omega
      obtain ⟨⟨d, hd, hlong⟩, hnone⟩ | ⟨hshort, chunks, hsome, hflatten, hchunks⟩ := ih
      · refine .inl ⟨⟨d, ?_, hlong⟩, by rw [hnone]; rfl⟩
        rw [← hcut]
        exact List.mem_append_right _ hd
      · refine .inr ⟨?_, takeBytes (c :: rest) (index + 1) :: chunks, by rw [hsome]; rfl, ?_, ?_⟩
        · intro d hd
          rw [← hcut] at hd
          obtain hd | hd := List.mem_append.mp hd
          · exact (utf8Size_le_byteLength hd).trans hfits
          · exact hshort d hd
        · rw [List.flatten_cons, hflatten, hcut]
        · refine List.forall_mem_cons.mpr ⟨⟨?_, hfits⟩, hchunks⟩
          simp [takeBytes]

theorem splitCommittedText_spec (value : List Char) (maxBytes : ℕ) :
    ((∃ c ∈ value, maxBytes < c.utf8Size) ∧ splitCommittedText value maxBytes = []) ∨
      ((∀ c ∈ value, c.utf8Size ≤ maxBytes) ∧
        Chunks maxBytes value (splitCommittedText value maxBytes)) := by
  unfold splitCommittedText
  split
  · next hnone =>
      cases value with
      | nil => exact .inr ⟨by simp, rfl, by simp⟩
      | cons c rest =>
          obtain rfl : maxBytes = 0 := by simpa using hnone
          exact .inl ⟨⟨c, List.mem_cons_self, c.utf8Size_pos⟩, rfl⟩
  · obtain ⟨hlong, hnone⟩ | ⟨hshort, chunks, hsome, hchunks⟩ := splitLoop_spec maxBytes value
    · exact .inl ⟨hlong, by rw [hnone]; rfl⟩
    · exact .inr ⟨hshort, by rw [hsome]; exact hchunks⟩

/-! ## The deletions -/

theorem rdrop_rdrop {α : Type*} (values : List α) (first second : ℕ) :
    (values.rdrop first).rdrop second = values.rdrop (first + second) := by
  simp [List.rdrop_eq_reverse_drop_reverse]

/-- Two edits without text in a row delete what one does. -/
theorem apply_apply_deletion (graphemes : Graphemes) (editor : Editor) {first : CommittedText}
    (hfirst : first.text = []) (second : CommittedText) :
    (editor.apply graphemes first).apply graphemes second =
      editor.apply graphemes { second with
        deleteBeforeGraphemes := first.deleteBeforeGraphemes + second.deleteBeforeGraphemes
        deleteAfterGraphemes := first.deleteAfterGraphemes + second.deleteAfterGraphemes } := by
  simp [Editor.apply, hfirst, rdrop_rdrop]

def Editor.applyAll (graphemes : Graphemes) (editor : Editor) (edits : List CommittedText) :
    Editor :=
  edits.foldl (Editor.apply graphemes) editor

theorem applyAll_append (graphemes : Graphemes) (editor : Editor)
    (first second : List CommittedText) :
    editor.applyAll graphemes (first ++ second) =
      (editor.applyAll graphemes first).applyAll graphemes second :=
  List.foldl_append

/-- A loop of deletions sends whole messages and leaves a count within the
limit; what it sends and what it leaves are the count. -/
theorem deleteLoop_spec (limit : ℕ+) (message : CommittedText) (count : ℕ) :
    ∃ times left, deleteLoop limit message count = (List.replicate times message, left) ∧
      times * limit + left = count ∧ left ≤ limit ∧ (left = 0 → count = 0) := by
  fun_induction deleteLoop limit message count with
  | case1 count hlt sent left hrest ih =>
      obtain ⟨times, left', hloop, hcount, hleft, hzero⟩ := ih
      obtain ⟨rfl, rfl⟩ := Prod.mk.inj (hrest.symm.trans hloop)
      refine ⟨times + 1, left, rfl, ?_, hleft, fun h => ?_⟩
      · rw [Nat.add_mul, Nat.one_mul]
        omega
      · have := hzero h
        omega
  | case2 count hle => exact ⟨0, count, rfl, by simp, by omega, id⟩

/-- Deletions that are repeated, then an edit. -/
theorem applyAll_replicate (graphemes : Graphemes) {message : CommittedText}
    (hmessage : message.text = []) (edit : CommittedText) (times : ℕ) :
    ∀ editor : Editor,
      (editor.applyAll graphemes (List.replicate times message)).apply graphemes edit =
        editor.apply graphemes { edit with
          deleteBeforeGraphemes :=
            times * message.deleteBeforeGraphemes + edit.deleteBeforeGraphemes
          deleteAfterGraphemes :=
            times * message.deleteAfterGraphemes + edit.deleteAfterGraphemes } := by
  induction times with
  | zero => intro editor; simp [Editor.applyAll]
  | succ times ih =>
      intro editor
      rw [List.replicate_succ]
      refine (ih (editor.apply graphemes message)).trans ?_
      rw [apply_apply_deletion graphemes editor hmessage]
      dsimp only
      congr 2 <;> rw [Nat.add_mul, Nat.one_mul] <;> omega

/-! ## The text -/

/-- The chunks behind the first one come to the text that is already there. -/
theorem applyAll_chunks (graphemes : Graphemes) (layout : SourceLayout)
    {chunks : List (List Char)} (hchunks : ∀ chunk ∈ chunks, chunk ≠ []) :
    ∀ (editor : Editor) (edit : CommittedText), edit.text ≠ [] →
      (editor.apply graphemes edit).applyAll graphemes
          (chunks.map fun chunk => ⟨chunk, 0, 0, layout⟩) =
        editor.apply graphemes { edit with text := edit.text ++ chunks.flatten } := by
  induction chunks with
  | nil => intro editor edit _; simp [Editor.applyAll]
  | cons chunk chunks ih =>
      intro editor edit hedit
      obtain ⟨hchunk, hrest⟩ := List.forall_mem_cons.mp hchunks
      have hjoin : (editor.apply graphemes edit).apply graphemes ⟨chunk, 0, 0, layout⟩ =
          editor.apply graphemes { edit with text := edit.text ++ chunk } := by
        simp [Editor.apply, hedit, hchunk, graphemes.flatten_divide, List.rdrop_zero]
      have hmore := ih hrest editor { edit with text := edit.text ++ chunk } (by simp [hedit])
      rw [← hjoin] at hmore
      rw [List.map_cons, List.flatten_cons, ← List.append_assoc]
      exact hmore

/-- The two loops of deletions and an edit with what they leave. -/
theorem applyAll_deletions (graphemes : Graphemes) (editor : Editor) (layout : SourceLayout)
    (limit : ℕ+) (timesBefore timesAfter : ℕ) (edit : CommittedText) :
    (editor.applyAll graphemes
        (List.replicate timesBefore ⟨[], limit, 0, layout⟩ ++
          List.replicate timesAfter ⟨[], 0, limit, layout⟩)).apply graphemes edit =
      editor.apply graphemes { edit with
        deleteBeforeGraphemes := timesBefore * limit + edit.deleteBeforeGraphemes
        deleteAfterGraphemes := timesAfter * limit + edit.deleteAfterGraphemes } := by
  rw [applyAll_append, applyAll_replicate graphemes rfl, applyAll_replicate graphemes rfl]
  simp

/-- An edit that changes no editor has no text and no deletions. -/
theorem eq_of_apply_eq {graphemes : Graphemes} {edit : CommittedText}
    (h : ∀ editor : Editor, editor.apply graphemes edit = editor) :
    edit.text = [] ∧ edit.deleteBeforeGraphemes = 0 ∧ edit.deleteAfterGraphemes = 0 := by
  have htext : edit.text = [] := by
    by_contra hne
    have hbefore := congrArg Editor.before (h ⟨[], []⟩)
    simp only [Editor.apply, List.rdrop_nil, List.flatten_nil, List.nil_append, if_neg hne]
      at hbefore
    have hflatten := graphemes.flatten_divide edit.text
    rw [hbefore] at hflatten
    exact hne hflatten.symm
  have hone := h ⟨[[]], [[]]⟩
  simp only [Editor.apply, htext, if_true, Editor.mk.injEq] at hone
  refine ⟨htext, ?_, ?_⟩
  · by_contra hne
    have hlength := congrArg List.length hone.1
    simp only [List.rdrop, List.length_take, List.length_singleton] at hlength
    omega
  · by_contra hne
    have hlength := congrArg List.length hone.2
    simp only [List.length_drop, List.length_singleton] at hlength
    omega

/-- The messages are within the limits, they edit like the whole edit, and there
are none for an edit that changes nothing. -/
structure Preserves (maxBytes : ℕ) (limit : ℕ+) (edit : CommittedText)
    (sent : List CommittedText) : Prop where
  bounded : ∀ message ∈ sent, byteLength message.text ≤ maxBytes ∧
    message.deleteBeforeGraphemes ≤ limit ∧ message.deleteAfterGraphemes ≤ limit
  applied : ∀ graphemes (editor : Editor),
    editor.applyAll graphemes sent = editor.apply graphemes edit
  idle : ∀ graphemes, (∀ editor : Editor, editor.apply graphemes edit = editor) → sent = []

theorem bounded_deletions {maxBytes : ℕ} {limit : ℕ+} {layout : SourceLayout}
    {timesBefore timesAfter : ℕ} :
    ∀ message : CommittedText,
      message ∈ List.replicate timesBefore ⟨[], limit, 0, layout⟩ ++
        List.replicate timesAfter ⟨[], 0, limit, layout⟩ →
      byteLength message.text ≤ maxBytes ∧
        message.deleteBeforeGraphemes ≤ limit ∧ message.deleteAfterGraphemes ≤ limit := by
  intro message hmem
  obtain hmem | hmem := List.mem_append.mp hmem
  · rw [List.eq_of_mem_replicate hmem]
    exact ⟨Nat.zero_le _, Nat.le_refl _, Nat.zero_le _⟩
  · rw [List.eq_of_mem_replicate hmem]
    exact ⟨Nat.zero_le _, Nat.zero_le _, Nat.le_refl _⟩

section Deletions

variable {maxBytes : ℕ} {limit : ℕ+} {layout : SourceLayout}
  {timesBefore timesAfter leftBefore leftAfter : ℕ}

/-- The deletions of an edit without text. -/
theorem preserves_deletions (hleft : leftBefore ≠ 0 ∨ leftAfter ≠ 0)
    (hleBefore : leftBefore ≤ limit) (hleAfter : leftAfter ≤ limit) :
    Preserves maxBytes limit
      ⟨[], timesBefore * limit + leftBefore, timesAfter * limit + leftAfter, layout⟩
      (List.replicate timesBefore ⟨[], limit, 0, layout⟩ ++
        List.replicate timesAfter ⟨[], 0, limit, layout⟩ ++
          [⟨[], leftBefore, leftAfter, layout⟩]) := by
  refine ⟨?_, ?_, ?_⟩
  · intro message hmem
    obtain hmem | hmem := List.mem_append.mp hmem
    · exact bounded_deletions message hmem
    · obtain rfl := List.mem_singleton.mp hmem
      exact ⟨Nat.zero_le _, hleBefore, hleAfter⟩
  · intro graphemes editor
    rw [applyAll_append]
    exact applyAll_deletions graphemes editor layout _ _ _ _
  · intro graphemes hsame
    obtain ⟨-, hnoBefore, hnoAfter⟩ := eq_of_apply_eq hsame
    dsimp only at hnoBefore hnoAfter
    omega

theorem preserves_nothing : Preserves maxBytes limit ⟨[], 0, 0, layout⟩ [] :=
  ⟨nofun, fun _ _ => by simp [Editor.applyAll, Editor.apply], fun _ _ => rfl⟩

/-- The deletions of an edit with text, then the chunks of the text. -/
theorem preserves_chunks {chunk : List Char} {chunks : List (List Char)}
    (hchunks : ∀ other ∈ chunk :: chunks, other ≠ [] ∧ byteLength other ≤ maxBytes)
    (hleBefore : leftBefore ≤ limit) (hleAfter : leftAfter ≤ limit) :
    Preserves maxBytes limit
      ⟨chunk ++ chunks.flatten, timesBefore * limit + leftBefore,
        timesAfter * limit + leftAfter, layout⟩
      (List.replicate timesBefore ⟨[], limit, 0, layout⟩ ++
        List.replicate timesAfter ⟨[], 0, limit, layout⟩ ++
          ⟨chunk, leftBefore, leftAfter, layout⟩ ::
            chunks.map fun other => ⟨other, 0, 0, layout⟩) := by
  obtain ⟨⟨hchunk, hlength⟩, hrest⟩ := List.forall_mem_cons.mp hchunks
  refine ⟨?_, ?_, ?_⟩
  · intro message hmem
    obtain hmem | hmem := List.mem_append.mp hmem
    · exact bounded_deletions message hmem
    · obtain rfl | hmem := List.mem_cons.mp hmem
      · exact ⟨hlength, hleBefore, hleAfter⟩
      · obtain ⟨other, hother, rfl⟩ := List.mem_map.mp hmem
        exact ⟨(hrest other hother).2, Nat.zero_le _, Nat.zero_le _⟩
  · intro graphemes editor
    rw [applyAll_append]
    refine (applyAll_chunks graphemes layout (fun other hother => (hrest other hother).1) _
      ⟨chunk, leftBefore, leftAfter, layout⟩ hchunk).trans ?_
    exact applyAll_deletions graphemes editor layout _ _ _ _
  · intro graphemes hsame
    obtain ⟨hvalue, -⟩ := eq_of_apply_eq hsame
    exact absurd (List.append_eq_nil_iff.mp hvalue).1 hchunk

end Deletions

/-- **Splitting an edit preserves it.**  Either a character is too long for the
limit of the peer and nothing is sent, or the messages are within the limits and
edit like the whole edit. -/
theorem sendCommittedText_preserves (limits : KeyboardLimits) (value : List Char)
    (deleteBefore deleteAfter advertised : ℕ) (layout : SourceLayout) :
    ((∃ c ∈ value, limits.maxBytes advertised < c.utf8Size) ∧
        sendCommittedText limits value deleteBefore deleteAfter advertised layout =
          .error "Invalid format") ∨
      ((∀ c ∈ value, c.utf8Size ≤ limits.maxBytes advertised) ∧
        ∃ sent, sendCommittedText limits value deleteBefore deleteAfter advertised layout =
            .ok sent ∧
          Preserves (limits.maxBytes advertised) limits.maxTextDeleteGraphemes
            ⟨value, deleteBefore, deleteAfter, layout⟩ sent) := by
  obtain ⟨timesBefore, leftBefore, hbefore, hcountBefore, hleBefore, hzeroBefore⟩ :=
    deleteLoop_spec limits.maxTextDeleteGraphemes
      ⟨[], limits.maxTextDeleteGraphemes, 0, layout⟩ deleteBefore
  obtain ⟨timesAfter, leftAfter, hafter, hcountAfter, hleAfter, hzeroAfter⟩ :=
    deleteLoop_spec limits.maxTextDeleteGraphemes
      ⟨[], 0, limits.maxTextDeleteGraphemes, layout⟩ deleteAfter
  unfold sendCommittedText
  dsimp only
  rw [hbefore, hafter]
  obtain ⟨hlong, hnone⟩ | ⟨hshort, hflatten, hchunks⟩ :=
    splitCommittedText_spec value (limits.maxBytes advertised)
  · refine .inl ⟨hlong, ?_⟩
    obtain ⟨c, hc, -⟩ := hlong
    rw [hnone, if_pos ⟨List.ne_nil_of_mem hc, rfl⟩]
  · refine .inr ⟨hshort, ?_⟩
    cases hsplit : splitCommittedText value (limits.maxBytes advertised) with
    | nil =>
        rw [hsplit] at hflatten
        obtain rfl : [] = value := hflatten
        rw [if_neg (by simp)]
        dsimp only
        split
        · next hleft =>
            refine ⟨_, rfl, ?_⟩
            rw [← hcountBefore, ← hcountAfter]
            exact preserves_deletions (by omega) hleBefore hleAfter
        · next hleft =>
            -- nothing is left, so there was nothing to delete
            obtain rfl : deleteBefore = 0 := hzeroBefore (by simp at hleft; omega)
            obtain rfl : deleteAfter = 0 := hzeroAfter (by simp at hleft; omega)
            have hpos := limits.maxTextDeleteGraphemes.ne_zero
            have htimes : timesBefore = 0 ∧ timesAfter = 0 := by
              constructor
              · have hmul : timesBefore * limits.maxTextDeleteGraphemes = 0 := by omega
                simpa [hpos] using hmul
              · have hmul : timesAfter * limits.maxTextDeleteGraphemes = 0 := by omega
                simpa [hpos] using hmul
            obtain ⟨rfl, rfl⟩ := htimes
            exact ⟨_, rfl, preserves_nothing⟩
    | cons chunk chunks =>
        rw [hsplit] at hflatten hchunks
        rw [List.flatten_cons] at hflatten
        rw [if_neg (by simp)]
        refine ⟨_, rfl, ?_⟩
        rw [← hflatten, ← hcountBefore, ← hcountAfter]
        exact preserves_chunks hchunks hleBefore hleAfter

end RustAdmin.Viewer.TextEdit
