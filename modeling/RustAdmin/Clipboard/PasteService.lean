import RustAdmin.Clipboard.PasteCompletion
import RustAdmin.Clipboard.ServeFiles

/-!
# A paste from the other side's files

The paste task against `serve_clip_messages` (`clipboard_file.rs`), which answers each of
its requests from the files that were copied.  The task has one request under way at a
time, and a file is asked for from its start to its end.

An open file is `Aligned` where its handle stands at its cached offset; a served read
that does not fail keeps that (`aligned_readExactAt`), so the range that comes back is
the one that was asked for (`serves_range`).  `answers_request` puts the two sides
together for one request of the task: its offset is always the number of bytes that
were taken, and above 2 GiB it is understood as another one (`le_joined_halves`),
which lies behind the file.
-/

namespace RustAdmin.Clipboard

open RustAdmin.Support

/-! ## The answering side -/

/-- An open file is where its cached offset says. -/
structure OpenFile.Aligned (f : OpenFile) : Prop where
  reset : f.Reset
  position : ∀ position, f.handle = some position → position = f.offset

theorem aligned_loadHandle {f g : OpenFile} (h : f.Aligned) {openError : Option ℤ}
    (hload : f.loadHandle openError = .ok g) : g.Aligned ∧ g.file = f.file := by
  obtain ⟨err, herr⟩ | hsame | ⟨hnone, hopened⟩ := loadHandle_cases f openError
  · rw [herr] at hload
    cases hload
  · rw [hsame] at hload
    obtain rfl := Except.ok.inj hload
    exact ⟨h, rfl⟩
  · rw [hopened] at hload
    obtain rfl := Except.ok.inj hload
    refine ⟨⟨?_, fun position hposition => ?_⟩, rfl⟩
    · intro hclosed
      cases hclosed
    · obtain rfl := Option.some.inj hposition
      exact (h.reset hnone).symm

theorem aligned_advance (f : OpenFile) (newOffset : ℕ) :
    (f.advance newOffset newOffset).Aligned := by
  refine ⟨advance_reset f _ _, fun position hposition => ?_⟩
  unfold OpenFile.advance at hposition ⊢
  split at hposition
  · cases hposition
  · next hlt =>
      rw [if_neg hlt]
      exact (Option.some.inj hposition).symm

theorem advance_file (f : OpenFile) (position newOffset : ℕ) :
    (f.advance position newOffset).file = f.file := by
  unfold OpenFile.advance
  split <;> rfl

/-- A read inside the file, where no read of the system fails, leaves the file aligned, and
what it returns was asked for. -/
theorem aligned_readExactAt {f : OpenFile} (h : f.Aligned) {content : List UInt8} {io : Io}
    (hread : io.readError = none) {length offset : ℕ} (hfits : offset + length ≤ content.length) :
    (f.readExactAt content io length offset).2.Aligned ∧
      (f.readExactAt content io length offset).2.file = f.file ∧
      ∀ buf, (f.readExactAt content io length offset).1 = .ok buf →
        buf = (content.drop offset).take length := by
  unfold OpenFile.readExactAt
  cases hload : f.loadHandle io.openError with
  | error err => exact ⟨h, rfl, fun _ hbuf => by cases hbuf⟩
  | ok g =>
      obtain ⟨hg, hfile⟩ := aligned_loadHandle h hload
      dsimp only
      unfold OpenFile.readFrom
      split
      · exact ⟨hg, hfile, fun _ hbuf => by cases hbuf⟩
      · next position hhandle =>
          split
          · exact ⟨hg, hfile, fun _ hbuf => by cases hbuf⟩
          · next target hseek =>
              obtain rfl : target = offset := by
                rcases reads_of_seek hhandle hseek with heq | ⟨hposition, hoffset⟩
                · exact heq
                · exact (hg.position target hposition).trans hoffset.symm
              have hok : readExact content io.readError target length =
                  (.ok ((content.drop target).take length), target + length) := by
                unfold readExact
                rw [hread]
                dsimp only
                split
                · next hzero => simp [hzero]
                · rfl
              rw [hok]
              exact ⟨aligned_advance g _, (advance_file g _ _).trans hfile,
                fun buf hbuf => (Except.ok.inj hbuf).symm⟩

/-- The files that are served, each where its cached offset says. -/
structure ClipFiles.Serves (clip : ClipFiles) (files : List LocalFile) : Prop where
  files : clip.fileList.map OpenFile.file = files
  aligned : ∀ f ∈ clip.fileList, f.Aligned

theorem serves_set {clip : ClipFiles} {files : List LocalFile} (h : clip.Serves files) {i : ℕ}
    {f g : OpenFile} (hf : clip.fileList[i]? = some f) (hg : g.Aligned) (hfile : g.file = f.file) :
    ClipFiles.Serves { clip with fileList := clip.fileList.set i g } files where
  files := by
    change (clip.fileList.set i g).map OpenFile.file = files
    rw [List.map_set, hfile, ← h.files]
    refine List.ext_getElem? fun j => ?_
    rw [List.getElem?_set]
    split
    · next heq =>
        subst heq
        rw [if_pos (by simpa using (List.getElem?_eq_some_iff.mp hf).1), List.getElem?_map, hf]
        rfl
    · rfl
  aligned := by
    intro f' hf'
    rcases List.mem_or_eq_of_mem_set hf' with hmem | rfl
    · exact h.aligned f' hmem
    · exact hg

theorem reloadNext_serves {reloadError : Option ℤ} {fs gs : List OpenFile}
    (h : ∀ f ∈ fs, f.Aligned) (hreload : reloadNext reloadError fs = .ok gs) :
    gs.map OpenFile.file = fs.map OpenFile.file ∧ ∀ g ∈ gs, g.Aligned := by
  induction fs generalizing gs with
  | nil =>
      obtain rfl := Except.ok.inj hreload
      exact ⟨rfl, h⟩
  | cons f rest ih =>
      rw [reloadNext] at hreload
      split at hreload
      · split at hreload
        · cases hreload
        · next g hload =>
            obtain rfl := Except.ok.inj hreload
            obtain ⟨hg, hfile⟩ := aligned_loadHandle (h f List.mem_cons_self) hload
            refine ⟨by simp [hfile], fun f' hf' => ?_⟩
            rcases List.mem_cons.mp hf' with rfl | hmem
            · exact hg
            · exact h f' (List.mem_cons_of_mem _ hmem)
      · split at hreload
        · cases hreload
        · next rest' hrest =>
            obtain rfl := Except.ok.inj hreload
            obtain ⟨hfiles, haligned⟩ := ih (fun f' hf' => h f' (List.mem_cons_of_mem _ hf')) hrest
            refine ⟨by simp [hfiles], fun f' hf' => ?_⟩
            rcases List.mem_cons.mp hf' with rfl | hmem
            · exact h f' List.mem_cons_self
            · exact haligned f' hmem

theorem serves_respond {clip : ClipFiles} {files : List LocalFile} (h : clip.Serves files)
    (io : ServeIo) (fileIdx : ℕ) (response : ServedClip) :
    (clip.respond io fileIdx response).2.Serves files := by
  unfold ClipFiles.respond
  split
  · exact h
  · next rest hreload =>
      obtain ⟨hfiles, haligned⟩ := reloadNext_serves
        (fun f hf => h.aligned f (List.mem_of_mem_drop hf)) hreload
      refine ⟨?_, fun f hf => ?_⟩
      · change (clip.fileList.take (fileIdx + 1) ++ rest).map OpenFile.file = files
        rw [List.map_append, hfiles, ← List.map_append, List.take_append_drop]
        exact h.files
      · rcases List.mem_append.mp hf with hmem | hmem
        · exact h.aligned f (List.mem_of_mem_take hmem)
        · exact haligned f hmem

/-- A range of an unchanged file is answered with its bytes, or with an error. -/
theorem serves_range {clip : ClipFiles} {files : List LocalFile} (h : clip.Serves files)
    {disk : Disk} {io : ServeIo} (hread : io.read.readError = none) {file : LocalFile}
    (hcontent : (disk.content file.path).length = file.size.toNat)
    (hsize : file.size.toNat < 2 ^ 63) {idx offset length : ℕ} (hfile : files[idx]? = some file)
    (hfits : offset ≤ file.size.toNat → offset + length ≤ file.size.toNat) (connId streamId : ℤ) :
    ∃ result clip', clip.serveFileContents disk io connId (.range streamId idx offset length) =
      some (result, clip') ∧ clip'.Serves files ∧ ((∃ err, result = .error err) ∨
        offset ≤ file.size.toNat ∧ result = .ok (.fileContentsResponse 0x1 streamId
          (((disk.content file.path).drop offset).take length))) := by
  obtain ⟨f, hf, hfileOf⟩ : ∃ f, clip.fileList[idx]? = some f ∧ f.file = file := by
    rw [← h.files, List.getElem?_map] at hfile
    exact Option.map_eq_some_iff.mp hfile
  have haligned : f.Aligned := h.aligned f (List.mem_of_getElem? hf)
  subst hfileOf
  have hserve : clip.serveFileContents disk io connId (.range streamId idx offset length) =
      clip.serveRange disk io connId streamId idx f offset length := by
    simp [ClipFiles.serveFileContents, hf]
  rw [hserve]
  unfold ClipFiles.serveRange
  split
  · exact ⟨_, clip, rfl, h, .inl ⟨_, rfl⟩⟩
  · next hoffset =>
      have hinside : offset + length ≤ f.file.size.toNat := hfits (by omega)
      have hlength : readSize f.file.size.toNat offset length = some length := by
        rw [readSize_eq (by unfold usizeMax; omega) (by omega), Nat.min_eq_left (by omega)]
      rw [hlength, Option.bind_eq_bind, Option.bind_some]
      obtain ⟨hg, hsame, hbytes⟩ := aligned_readExactAt haligned hread
        (hcontent ▸ hinside : offset + length ≤ (disk.content f.file.path).length)
      have hset := serves_set h hf hg hsame
      dsimp only
      split
      · exact ⟨_, _, rfl, hset, .inl ⟨_, rfl⟩⟩
      · next buf hbuf =>
          obtain rfl := hbytes buf hbuf
          refine ⟨_, _, rfl, serves_respond hset io idx _, ?_⟩
          rcases respond_fst _ io idx _ with herr | hok
          · exact .inl herr
          · exact .inr ⟨by omega, hok⟩

/-- The halves of an offset whose bit 31 is set are joined near the end of the 64-bit range. -/
theorem le_joined_halves {offset : ℕ} (hsign : 2 ^ 31 ≤ offset % 2 ^ 32) :
    2 ^ 64 - 2 ^ 32 ≤ ((castU64 (castI32 ((offset : ℤ) / 2 ^ 32)) <<< 32) % 2 ^ 64 |||
      castU64 (castI32 ((offset : ℤ) % 2 ^ 32))) := by
  have hlow : 2 ^ 64 - 2 ^ 32 ≤ castU64 (castI32 ((offset : ℤ) % 2 ^ 32)) :=
    le_castU64_castI32 (by omega) (by omega)
  exact hlow.trans Nat.right_le_or

namespace Paste

variable {κ : Type} {resolve : FilePath → κ}

/-- The request of an open file is the one of a read of its node. -/
theorem request_eq {p : Paste κ} {contents : List (List UInt8)} {taken : List UInt8}
    {desc : FileDescription} (h : Opened resolve p contents taken desc)
    (hfew : p.task.files.length < 2 ^ 31) :
    p.request desc = FuseNode.readRequest ⟨desc.connId, contents.length, contents.length⟩
      taken.length (min blockSize (desc.size - taken.length)) := by
  have hlt := h.lt
  have hindex : castI32 (contents.length : ℤ) = contents.length := by
    unfold castI32
    rw [Int.bmod_def]
    omega
  have hmask : (taken.length &&& (2 ^ 32 - 1) : ℕ) = taken.length % 2 ^ 32 :=
    Nat.and_two_pow_sub_one_eq_mod _ _
  unfold request FuseNode.readRequest
  rw [h.listIndex, h.offset, hmask, Nat.shiftRight_eq_div_pow, hindex]
  push_cast
  rfl

/-- What comes back for the block of a file that starts after `taken`. -/
structure Answers (disk : Disk) (file : LocalFile) (i : ℕ) (taken : List UInt8)
    (desc : FileDescription) (response : FileContentsResponse) : Prop where
  connId : response.connId = desc.connId
  streamId : response.streamId = i
  block : response.msgFlags = 0x01 → taken.length % 2 ^ 32 < 2 ^ 31 ∧
    response.requestedData = ((disk.content file.path).drop taken.length).take
      (min blockSize (desc.size - taken.length))

end Paste

/-- The answers of `serve_clip_messages` that reach the task: the list of files for the audit
does not, and an error is answered with `resp_file_contents_fail`. -/
def responseOf (connId streamId : ℤ) : Except ServeError ServedClip → Option FileContentsResponse
  | .ok (.fileContentsResponse msgFlags streamId requestedData) =>
      some ⟨connId, msgFlags, streamId, requestedData⟩
  | .ok (.files _) => none
  | .error _ => some ⟨connId, 0x2, streamId, []⟩

theorem filterMap_audit (clip : ClipFiles) (disk : Disk) (request : FileContentsRequest)
    (connId streamId : ℤ) :
    ((clip.getFilesForAudit disk request).toList.map Except.ok).filterMap
      (responseOf connId streamId) = [] := by
  refine List.filterMap_eq_nil_iff.mpr fun entry hentry => ?_
  obtain ⟨files, rfl⟩ := getFilesForAudit_files clip disk request hentry
  rfl

/-- The files that are served, and the list of them on the other side. -/
structure Listed (disk : Disk) (files : List LocalFile) (descs : List FileDescription) :
    Prop where
  sizes : List.Forall₂ (fun file desc => desc.size = file.size.toNat) files descs
  unchanged : ∀ file ∈ files, (disk.content file.path).length = file.size.toNat
  bounded : ∀ file ∈ files, file.size.toNat < 2 ^ 63
  few : descs.length < 2 ^ 31

variable {κ : Type} {resolve : FilePath → κ}

/-- The request of an open file has one answer, which is an error or the next block. -/
theorem answers_request {disk : Disk} {files : List LocalFile} {clip : ClipFiles}
    {p : Paste κ} {contents : List (List UInt8)} {taken : List UInt8} {desc : FileDescription}
    {file : LocalFile} (hlisted : Listed disk files p.task.files) (hserves : clip.Serves files)
    (h : p.Opened resolve contents taken desc) (hfile : files[contents.length]? = some file)
    (hsize : desc.size = file.size.toNat) {io : ServeIo} (hread : io.read.readError = none) :
    ∃ results clip' response,
      clip.readFileContents disk io desc.connId (p.request desc) = some (results, clip') ∧
      clip'.Serves files ∧
      results.filterMap (responseOf desc.connId (p.request desc).streamId) = [response] ∧
      Paste.Answers disk file contents.length taken desc response := by
  have hmem : file ∈ files := List.mem_of_getElem? hfile
  have hbounded := hlisted.bounded file hmem
  have hincomplete := h.incomplete
  have hindex : castU64 (castI32 (contents.length : ℤ)) = contents.length := by
    have hlt := h.lt
    have hfew := hlisted.few
    rw [castU64_castI32_of_lt (by omega) (by omega), Int.toNat_natCast]
  have hblock : castU64 (castI32 ((min blockSize (desc.size - taken.length) : ℕ) : ℤ)) =
      min blockSize (desc.size - taken.length) := by
    have hle : min blockSize (desc.size - taken.length) ≤ blockSize := Nat.min_le_left _ _
    unfold blockSize at hle ⊢
    rw [castU64_castI32_of_lt (by omega) (by omega), Int.toNat_natCast]
  have hrequest := fileContentsRequest_readRequest
    ⟨desc.connId, contents.length, contents.length⟩ taken.length
    (min blockSize (desc.size - taken.length))
  rw [hblock, ← Paste.request_eq h hlisted.few] at hrequest
  dsimp only at hrequest
  rw [hindex] at hrequest
  have hstream : (p.request desc).streamId = contents.length := h.listIndex
  generalize hoffset : ((castU64 (castI32 ((taken.length : ℤ) / 2 ^ 32)) <<< 32) % 2 ^ 64 |||
    castU64 (castI32 ((taken.length : ℤ) % 2 ^ 32))) = offset at hrequest
  -- an offset with bit 31 set is beyond every file
  have hplace : offset ≤ file.size.toNat →
      taken.length % 2 ^ 32 < 2 ^ 31 ∧ offset = taken.length := by
    intro hle
    have hclear : taken.length % 2 ^ 32 < 2 ^ 31 := by
      by_contra hsign
      have hbeyond := le_joined_halves (Nat.le_of_not_lt hsign)
      omega
    exact ⟨hclear, hoffset ▸ (joined_halves_eq_iff (by omega)).mpr hclear⟩
  have hfits : offset ≤ file.size.toNat →
      offset + min blockSize (desc.size - taken.length) ≤ file.size.toNat := by
    intro hle
    obtain ⟨-, rfl⟩ := hplace hle
    omega
  obtain ⟨result, clip', hserve, hserves', hresult⟩ := serves_range hserves hread
    (hlisted.unchanged file hmem) hbounded hfile hfits desc.connId contents.length
  obtain ⟨audit, haudit, hread'⟩ : ∃ audit : List (Except ServeError ServedClip),
      audit.filterMap (responseOf desc.connId (p.request desc).streamId) = [] ∧
      clip.readFileContents disk io desc.connId (p.request desc) =
        some (audit ++ [result], clip') := by
    refine ⟨_, filterMap_audit clip disk (.range contents.length contents.length offset
      (min blockSize (desc.size - taken.length))) _ _, ?_⟩
    simp [ClipFiles.readFileContents, hrequest, hserve]
  have hanswers : ∀ response, responseOf desc.connId (p.request desc).streamId result =
      some response →
        (audit ++ [result]).filterMap (responseOf desc.connId (p.request desc).streamId) =
          [response] := by
    intro response hresponse
    rw [List.filterMap_append, haudit, List.nil_append]
    simp [hresponse]
  rcases hresult with ⟨err, rfl⟩ | ⟨hinside, rfl⟩
  · refine ⟨_, clip', _, hread', hserves', hanswers _ rfl, ⟨rfl, hstream, fun hflags => ?_⟩⟩
    simp at hflags
  · obtain ⟨hclear, rfl⟩ := hplace hinside
    exact ⟨_, clip', _, hread', hserves', hanswers _ rfl, ⟨rfl, rfl, fun _ => ⟨hclear, rfl⟩⟩⟩

/-! ## Both sides -/

/-- A paste, the files it is from, the number of its requests that were taken up, and the
answers under way. -/
structure PasteSystem (κ : Type) where
  world : PasteWorld κ
  clip : ClipFiles
  served : ℕ := 0
  inFlight : List FileContentsResponse := []

inductive PasteSystemEvent
  | serve (io : ServeIo)
  | deliver (io : PasteIo) (now : ℕ)
  | cancel (io : PasteIo)
  | timeout (io : PasteIo) (now : ℕ)

namespace PasteSystem

variable [DecidableEq κ] (resolve) (disk : Disk)

/-- The other side takes up the next request. -/
def serve (io : ServeIo) (s : PasteSystem κ) : PasteSystem κ :=
  match s.world.sent[s.served]? with
  | none => s
  | some (connId, message) =>
      match s.clip.readFileContents disk io connId message with
      | none => { s with served := s.served + 1 }
      | some (results, clip) =>
          { s with
            clip
            served := s.served + 1
            inFlight := s.inFlight ++ results.filterMap (responseOf connId message.streamId) }

def deliver (io : PasteIo) (now : ℕ) (s : PasteSystem κ) : PasteSystem κ :=
  match s.inFlight with
  | [] => s
  | response :: rest =>
      { s with world := s.world.receive resolve io now response, inFlight := rest }

def step (s : PasteSystem κ) : PasteSystemEvent → PasteSystem κ
  | .serve io => s.serve disk io
  | .deliver io now => s.deliver resolve io now
  | .cancel io => { s with world := s.world.cancel resolve io }
  | .timeout io now => { s with world := s.world.timeout resolve io now }

def run (s : PasteSystem κ) (events : List PasteSystemEvent) : PasteSystem κ :=
  events.foldl (step resolve disk) s

/-- A paste begins. -/
def begin (io : PasteIo) (now : ℕ) (targetDir : String) (descs : List FileDescription)
    (volume : Volume κ) (clip : ClipFiles) : PasteSystem κ where
  world := PasteWorld.start resolve io now targetDir descs ⟨volume, none, 0, []⟩
  clip

end PasteSystem

end RustAdmin.Clipboard
