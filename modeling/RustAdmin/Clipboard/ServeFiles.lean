import RustAdmin.Clipboard.PositionedReads

/-!
# Serving file contents

`read_file_contents` and `ClipFiles::serve_file_contents`
(`platform/unix/serv_files.rs`) answer a peer's request for the size or a range
of a copied file.  The peer chooses every field of the request.  The end of the
range is a sum of two 64-bit numbers, so the functions are partial: `none` is
the sum that does not fit.

The sums are followed as `Option`, so that overflow is `none` and nothing else is.
Each function gets two lemmas: what it answers where its sum fits
(`serveRange_answers`), and when the sum does not (`serveRange_eq_none_iff`,
`readSize_eq_none_iff`).  `clamped_iff_not_overflows` only has to split on the kind of
the request.
-/

namespace RustAdmin.Clipboard

open RustAdmin.Support

/-- Addition of 64-bit numbers; it has no value where the sum does not fit. -/
def checkedAdd (a b : ℕ) : Option ℕ := if a + b ≤ usizeMax then some (a + b) else none

/-- The answers among `ClipboardFile`. -/
inductive ServedClip
  | fileContentsResponse (msgFlags streamId : ℤ) (requestedData : List UInt8)
  | files (files : List (String × UInt64))
deriving DecidableEq, Repr

/-- What `ClipFiles` needs to serve its files. -/
structure ClipFiles where
  fileList : List OpenFile
  firstFileIndex : ℕ
deriving DecidableEq, Repr

/-- The file system: what a file holds, and which paths are files. -/
structure Disk where
  content : FilePath → List UInt8
  isFile : FilePath → Bool

/-- What the system answers during one request: to the read, and to the opening
of the next file. -/
structure ServeIo where
  read : Io := {}
  reloadError : Option ℤ := none
deriving DecidableEq, Repr

def ClipFiles.getFilesForAudit (clip : ClipFiles) (disk : Disk) :
    FileContentsRequest → Option ServedClip
  | .range _ fileIdx offset _ =>
      if fileIdx = clip.firstFileIndex ∧ offset = 0 then
        let files := clip.fileList.filterMap fun f =>
          if disk.isFile f.file.path then some (f.file.path.toText, f.file.size) else none
        if files.isEmpty then none else some (.files files)
      else none
  | .size _ _ => none

/-- The length of the buffer for a range. -/
def readSize (size offset length : ℕ) : Option ℕ := do
  let fileEnd ← checkedAdd offset length
  some (if size < fileEnd then size - offset else length)

def invalidFileIndex (fileIdx : ℕ) (connId : ℤ) : ServeError :=
  .cliprdr (.invalidRequest s!"invalid file index {fileIdx} requested from conn: {connId}")

def invalidReadingOffset (connId : ℤ) : ServeError :=
  .cliprdr (.invalidRequest s!"invalid reading offset requested from conn: {connId}")

/-- Hot reload of the next file: the first one that is not a directory. -/
def reloadNext (reloadError : Option ℤ) : List OpenFile → Except ServeError (List OpenFile)
  | [] => .ok []
  | f :: rest =>
      if !f.file.isDir then
        match f.loadHandle reloadError with
        | .error err => .error err
        | .ok f => .ok (f :: rest)
      else
        match reloadNext reloadError rest with
        | .error err => .error err
        | .ok rest => .ok (f :: rest)

/-- The end of `serve_file_contents`: the answer is given once the next file is
loaded. -/
def ClipFiles.respond (clip : ClipFiles) (io : ServeIo) (fileIdx : ℕ) (response : ServedClip) :
    Except ServeError ServedClip × ClipFiles :=
  match reloadNext io.reloadError (clip.fileList.drop (fileIdx + 1)) with
  | .error err => (.error err, clip)
  | .ok rest => (.ok response, { clip with fileList := clip.fileList.take (fileIdx + 1) ++ rest })

/-- `serve_file_contents` of a range of a file. -/
def ClipFiles.serveRange (clip : ClipFiles) (disk : Disk) (io : ServeIo) (connId streamId : ℤ)
    (fileIdx : ℕ) (file : OpenFile) (offset length : ℕ) :
    Option (Except ServeError ServedClip × ClipFiles) :=
  if file.file.size.toNat < offset then some (.error (invalidReadingOffset connId), clip)
  else do
    let readSize ← readSize file.file.size.toNat offset length
    let (result, file) :=
      file.readExactAt (disk.content file.file.path) io.read readSize offset
    let clip := { clip with fileList := clip.fileList.set fileIdx file }
    match result with
    | .error err => some (.error err, clip)
    | .ok buf => some (clip.respond io fileIdx (.fileContentsResponse 0x1 streamId buf))

def ClipFiles.serveFileContents (clip : ClipFiles) (disk : Disk) (io : ServeIo) (connId : ℤ) :
    FileContentsRequest → Option (Except ServeError ServedClip × ClipFiles)
  | .size streamId fileIdx =>
      match clip.fileList[fileIdx]? with
      | none => some (.error (invalidFileIndex fileIdx connId), clip)
      | some file => some (clip.respond io fileIdx
          (.fileContentsResponse 0x1 streamId (putLe 8 file.file.size.toNat)))
  | .range streamId fileIdx offset length =>
      match clip.fileList[fileIdx]? with
      | none => some (.error (invalidFileIndex fileIdx connId), clip)
      | some file => clip.serveRange disk io connId streamId fileIdx file offset length

/-- `read_file_contents`: the results for the peer, and the files after it. -/
def ClipFiles.readFileContents (clip : ClipFiles) (disk : Disk) (io : ServeIo) (connId : ℤ)
    (message : FileContentsRequestMessage) :
    Option (List (Except ServeError ServedClip) × ClipFiles) :=
  match fileContentsRequest message with
  | .error err => some ([.error (.cliprdr err)], clip)
  | .ok request => do
      let audit := (clip.getFilesForAudit disk request).toList.map Except.ok
      let (result, clip) ← clip.serveFileContents disk io connId request
      some (audit ++ [result], clip)

/-! ## What comes back -/

theorem length_of_readFrom {f : OpenFile} {content : List UInt8} {io : Io} {length offset : ℕ}
    {buf : List UInt8} (h : (f.readFrom content io length offset).1 = .ok buf) :
    buf.length = length := by
  obtain ⟨err, herr, -⟩ | ⟨position, -, -, hfits, hread⟩ :=
    readFrom_cases f content io length offset
  · rw [herr] at h
    simp at h
  · rw [hread] at h
    obtain rfl := Except.ok.inj h
    rw [List.length_take, List.length_drop]
    omega

/-- A read that returns has filled its buffer. -/
theorem length_of_readExactAt {f : OpenFile} {content : List UInt8} {io : Io}
    {length offset : ℕ} {buf : List UInt8}
    (h : (f.readExactAt content io length offset).1 = .ok buf) : buf.length = length := by
  unfold OpenFile.readExactAt at h
  split at h
  · simp at h
  · exact length_of_readFrom h

theorem checkedAdd_eq_none_iff {a b : ℕ} : checkedAdd a b = none ↔ usizeMax < a + b := by
  unfold checkedAdd
  split <;> simp_all

theorem readSize_eq {size offset length : ℕ} (hsum : offset + length ≤ usizeMax)
    (hoffset : offset ≤ size) :
    readSize size offset length = some (min length (size - offset)) := by
  have hadd : checkedAdd offset length = some (offset + length) := if_pos hsum
  have hmin : (if size < offset + length then size - offset else length) =
      min length (size - offset) := by
    split <;> omega
  simp [readSize, hadd, hmin]

theorem readSize_eq_none_iff {size offset length : ℕ} :
    readSize size offset length = none ↔ usizeMax < offset + length := by
  rw [← checkedAdd_eq_none_iff]
  cases h : checkedAdd offset length <;> simp [readSize, h]

theorem respond_fst (clip : ClipFiles) (io : ServeIo) (fileIdx : ℕ) (response : ServedClip) :
    (∃ err, (clip.respond io fileIdx response).1 = .error err) ∨
      (clip.respond io fileIdx response).1 = .ok response := by
  unfold ClipFiles.respond
  split
  · exact .inl ⟨_, rfl⟩
  · exact .inr rfl

/-- The answer to a range of a file: an error, or what is left of the range. -/
def AnswersRange (file : LocalFile) (streamId : ℤ) (offset length : ℕ)
    (result : Except ServeError ServedClip) : Prop :=
  (∃ err, result = .error err) ∨
    offset ≤ file.size.toNat ∧
      ∃ buf, result = .ok (.fileContentsResponse 0x1 streamId buf) ∧
        buf.length = min length (file.size.toNat - offset)

theorem serveRange_answers (clip : ClipFiles) (disk : Disk) (io : ServeIo) (connId streamId : ℤ)
    (fileIdx : ℕ) (file : OpenFile) {offset length : ℕ}
    (hsum : offset ≤ file.file.size.toNat → offset + length ≤ usizeMax) :
    ∃ result clip', clip.serveRange disk io connId streamId fileIdx file offset length =
      some (result, clip') ∧ AnswersRange file.file streamId offset length result := by
  unfold ClipFiles.serveRange
  split
  · exact ⟨_, _, rfl, .inl ⟨_, rfl⟩⟩
  · next hoffset =>
      have hoffset' : offset ≤ file.file.size.toNat := Nat.le_of_not_lt hoffset
      rw [readSize_eq (hsum hoffset') hoffset', Option.bind_eq_bind, Option.bind_some]
      dsimp only
      split
      · exact ⟨_, _, rfl, .inl ⟨_, rfl⟩⟩
      · next buf hread =>
          refine ⟨_, _, rfl, (respond_fst _ io fileIdx _).imp id fun hok => ?_⟩
          exact ⟨hoffset', buf, hok, length_of_readExactAt hread⟩

/-- A range of a file overflows exactly where its end does, unless the offset is
refused before. -/
theorem serveRange_eq_none_iff (clip : ClipFiles) (disk : Disk) (io : ServeIo)
    (connId streamId : ℤ) (fileIdx : ℕ) (file : OpenFile) {offset length : ℕ} :
    clip.serveRange disk io connId streamId fileIdx file offset length = none ↔
      offset ≤ file.file.size.toNat ∧ usizeMax < offset + length := by
  unfold ClipFiles.serveRange
  split
  · next hoffset => simp [hoffset]
  · next hoffset =>
      have hoffset' : offset ≤ file.file.size.toNat := Nat.le_of_not_lt hoffset
      cases hsize : readSize file.file.size.toNat offset length with
      | none => simp [hoffset', readSize_eq_none_iff.mp hsize]
      | some size =>
          have hfits : ¬ usizeMax < offset + length := by
            rw [← readSize_eq_none_iff, hsize]
            simp
          simp only [Option.bind_eq_bind, Option.bind_some, hfits, and_false, iff_false]
          split <;> simp

/-! ## Requests -/

/-- The request is for a range of `file`. -/
def ClipFiles.Asks (clip : ClipFiles) (message : FileContentsRequestMessage) (streamId : ℤ)
    (file : LocalFile) (offset length : ℕ) : Prop :=
  ∃ fileIdx, fileContentsRequest message = .ok (.range streamId fileIdx offset length) ∧
    (clip.fileList[fileIdx]?.map OpenFile.file) = some file

/-- The end of the range does not fit 64 bits. -/
def ClipFiles.RangeOverflows (clip : ClipFiles) (message : FileContentsRequestMessage) : Prop :=
  ∃ streamId file offset length, clip.Asks message streamId file offset length ∧
    offset ≤ file.size.toNat ∧ usizeMax < offset + length

/-- No sum overflows, and the answer, which follows at most a list of files for
the audit, is an error or, to a range, no more and no less than what is left of it;
the buffer has that size already before the read. -/
def ClipFiles.Clamped (clip : ClipFiles) (message : FileContentsRequestMessage) : Prop :=
  ∀ disk io connId, ∃ audit result clip',
    clip.readFileContents disk io connId message = some (audit ++ [result], clip') ∧
      (∀ entry ∈ audit, ∃ files, entry = .ok (.files files)) ∧
      ((∃ err, result = .error err) ∨
        (∃ streamId fileIdx, fileContentsRequest message = .ok (.size streamId fileIdx)) ∨
        ∃ streamId file offset length, clip.Asks message streamId file offset length ∧
          AnswersRange file streamId offset length result) ∧
      ∀ streamId file offset length, clip.Asks message streamId file offset length →
        offset ≤ file.size.toNat →
          readSize file.size.toNat offset length = some (min length (file.size.toNat - offset))

theorem getFilesForAudit_files (clip : ClipFiles) (disk : Disk) (request : FileContentsRequest)
    {entry : Except ServeError ServedClip}
    (h : entry ∈ (clip.getFilesForAudit disk request).toList.map Except.ok) :
    ∃ files, entry = .ok (.files files) := by
  obtain ⟨answer, hanswer, rfl⟩ := List.mem_map.mp h
  rw [Option.mem_toList] at hanswer
  unfold ClipFiles.getFilesForAudit at hanswer
  split at hanswer
  · split at hanswer
    · dsimp only at hanswer
      split at hanswer
      · simp at hanswer
      · exact ⟨_, congrArg Except.ok (Option.some.inj hanswer).symm⟩
    · simp at hanswer
  · simp at hanswer

theorem not_clamped_of_overflows {clip : ClipFiles} {message : FileContentsRequestMessage}
    (h : clip.RangeOverflows message) (disk : Disk) (io : ServeIo) (connId : ℤ) :
    clip.readFileContents disk io connId message = none := by
  obtain ⟨streamId, file, offset, length, ⟨fileIdx, hrequest, hfile⟩, hoffset, hsum⟩ := h
  obtain ⟨f, hf, rfl⟩ := Option.map_eq_some_iff.mp hfile
  have hnone := (serveRange_eq_none_iff clip disk io connId streamId fileIdx f).mpr ⟨hoffset, hsum⟩
  simp [ClipFiles.readFileContents, hrequest, ClipFiles.serveFileContents, hf, hnone]

/-- Where the sums fit, every request is answered. -/
theorem serveFileContents_answers {clip : ClipFiles} {message : FileContentsRequestMessage}
    {request : FileContentsRequest} (hrequest : fileContentsRequest message = .ok request)
    (hsum : ∀ streamId file offset length, clip.Asks message streamId file offset length →
      offset ≤ file.size.toNat → offset + length ≤ usizeMax)
    (disk : Disk) (io : ServeIo) (connId : ℤ) :
    ∃ result clip', clip.serveFileContents disk io connId request = some (result, clip') ∧
      ((∃ err, result = .error err) ∨
        (∃ streamId fileIdx, fileContentsRequest message = .ok (.size streamId fileIdx)) ∨
        ∃ streamId file offset length, clip.Asks message streamId file offset length ∧
          AnswersRange file streamId offset length result) := by
  cases request with
  | size streamId fileIdx =>
      unfold ClipFiles.serveFileContents
      dsimp only
      split
      · exact ⟨_, _, rfl, .inl ⟨_, rfl⟩⟩
      · exact ⟨_, _, rfl, .inr (.inl ⟨_, _, hrequest⟩)⟩
  | range streamId fileIdx offset length =>
      cases hfile : clip.fileList[fileIdx]? with
      | none =>
          have hserve : clip.serveFileContents disk io connId
              (.range streamId fileIdx offset length) =
                some (.error (invalidFileIndex fileIdx connId), clip) := by
            simp [ClipFiles.serveFileContents, hfile]
          exact ⟨_, _, hserve, .inl ⟨_, rfl⟩⟩
      | some f =>
          have hasks : clip.Asks message streamId f.file offset length :=
            ⟨fileIdx, hrequest, by simp [hfile]⟩
          obtain ⟨result, clip', hserve, hanswers⟩ := serveRange_answers clip disk io connId
            streamId fileIdx f (hsum _ _ _ _ hasks)
          refine ⟨result, clip', ?_, .inr (.inr ⟨_, _, _, _, hasks, hanswers⟩)⟩
          simpa [ClipFiles.serveFileContents, hfile] using hserve

/-- **Range requests.**  For every file list and every request the answer is
clamped to the file exactly if the end of the range does not overflow. -/
theorem clamped_iff_not_overflows (clip : ClipFiles) (message : FileContentsRequestMessage) :
    clip.Clamped message ↔ ¬ clip.RangeOverflows message := by
  constructor
  · intro hclamped hoverflows
    obtain ⟨audit, result, clip', hresult, -⟩ := hclamped ⟨fun _ => [], fun _ => false⟩ {} 0
    rw [not_clamped_of_overflows hoverflows] at hresult
    simp at hresult
  · intro hfits disk io connId
    have hsum : ∀ streamId file offset length, clip.Asks message streamId file offset length →
        offset ≤ file.size.toNat → offset + length ≤ usizeMax := by
      intro streamId file offset length hasks hoffset
      exact Nat.le_of_not_lt fun hlt => hfits ⟨streamId, file, offset, length, hasks, hoffset, hlt⟩
    have hbuffer : ∀ streamId file offset length, clip.Asks message streamId file offset length →
        offset ≤ file.size.toNat →
          readSize file.size.toNat offset length = some (min length (file.size.toNat - offset)) :=
      fun streamId file offset length hasks hoffset =>
        readSize_eq (hsum streamId file offset length hasks hoffset) hoffset
    cases hrequest : fileContentsRequest message with
    | error err =>
        have hresult : clip.readFileContents disk io connId message =
            some ([] ++ [.error (.cliprdr err)], clip) := by
          simp [ClipFiles.readFileContents, hrequest]
        exact ⟨[], _, clip, hresult, by simp, .inl ⟨_, rfl⟩, hbuffer⟩
    | ok request =>
        obtain ⟨result, clip', hserve, hanswers⟩ :=
          serveFileContents_answers hrequest hsum disk io connId
        have hresult : clip.readFileContents disk io connId message =
            some ((clip.getFilesForAudit disk request).toList.map Except.ok ++ [result],
              clip') := by
          simp [ClipFiles.readFileContents, hrequest, hserve]
        rw [← hrequest]
        exact ⟨_, result, clip', hresult, fun _ => getFilesForAudit_files clip disk _, hanswers,
          hbuffer⟩

/-- A request for 2^64 - 1 bytes from the second byte of a file on. -/
def wrappingRequest : FileContentsRequestMessage :=
  { streamId := 7, listIndex := 0, dwFlags := 2, nPositionLow := 1, nPositionHigh := 0,
    cbRequested := -1, haveClipDataId := false, clipDataId := 0 }

/-- The end of its range is 2^64. -/
theorem not_clamped_wrappingRequest :
    ¬ (⟨[OpenFile.tryOpen (sampleFile ["a.txt"])], 0⟩ : ClipFiles).Clamped wrappingRequest := by
  intro hclamped
  obtain ⟨audit, result, clip', hresult, -⟩ := hclamped ⟨fun _ => [10, 11, 12], fun _ => true⟩ {} 1
  have hnone : (⟨[OpenFile.tryOpen (sampleFile ["a.txt"])], 0⟩ : ClipFiles).readFileContents
      ⟨fun _ => [10, 11, 12], fun _ => true⟩ {} 1 wrappingRequest = none := by
    rfl
  rw [hnone] at hresult
  simp at hresult

end RustAdmin.Clipboard
