import RustAdmin.Clipboard.PasteSafety

/-!
# What a completed paste has written

While a task runs, the files before the open one are saved and the bytes that were counted
are theirs and those of the open file.  A task that ends without an error has therefore
counted the bytes that the list has announced, and each file holds at least its size.

## Strategy

- `Accounted` is what holds at every point of a task: the contents of the files that are
  done, each settled in the volume, and the bytes counted so far.  `Accounted.mono` carries it
  over an operation that keeps what is settled, `Accounted.concat` adds a file.
- `advanced_openNext` follows the loop over the rest of the list, and `opened_block` and
  `reached_block` a block that does not, or does, complete its file.
- `Phase` names where a task is between two events, and `Sound.step` keeps it.
- At the end `sum_sizes_le` and `lengths_eq_of_sum` turn the count into the sizes.
-/

namespace RustAdmin.Clipboard

open RustAdmin.Support

/-- The name of the temporary file, before it is numbered. -/
def downloadName (targetDir : String) (desc : FileDescription) : String :=
  joinPath targetDir desc.name ++ "." ++ downloadExtension

/-- A name under which the content of a file can be: its own or, where it could not be
renamed, the one of its temporary file. -/
def PasteName (targetDir : String) (desc : FileDescription) (name : String) : Prop :=
  NameOf (joinPath targetDir desc.name) desc.kind name ∨
    NameOf (downloadName targetDir desc) desc.kind name

/-- A file whose content is fetched. -/
def FileDescription.Fetched (desc : FileDescription) : Prop := desc.kind = .file ∧ desc.size ≠ 0

instance (desc : FileDescription) : Decidable desc.Fetched :=
  inferInstanceAs (Decidable (_ ∧ _))

variable {κ : Type} {resolve : FilePath → κ} {io : PasteIo}

namespace Paste

/-- What has become of a file of the list. -/
def Saved (resolve : FilePath → κ) (p : Paste κ) (desc : FileDescription)
    (content : List UInt8) : Prop :=
  if desc.Fetched then
    desc.size ≤ content.length ∧ ∃ name, PasteName p.task.targetDir desc name ∧
      p.Settled resolve false (resolve (.ofText name)) (.file content)
  else content = []

/-- The files that are done, and the bytes that were counted: those of the files that are
done and of the open one. -/
structure Accounted (resolve : FilePath → κ) (p : Paste κ) (contents : List (List UInt8))
    (taken : List UInt8) : Prop where
  healthy : p.progress.error = none
  going : p.progress.isCanceled = false
  total : p.progress.totalSize = (p.task.files.map (·.size)).sum % 2 ^ 64
  counted : p.progress.currentSize = (contents.flatten.length + taken.length) % 2 ^ 64
  saved : List.Forall₂ (Saved resolve p) (p.task.files.take contents.length) contents

/-- The writer of a file has taken a part of it. -/
structure Opened (resolve : FilePath → κ) (p : Paste κ) (contents : List (List UInt8))
    (taken : List UInt8) (desc : FileDescription) : Prop where
  accounted : Accounted resolve p contents taken
  handle : p.progress.fileHandle = some taken
  listIndex : p.progress.listIndex = contents.length
  present : p.task.files[contents.length]? = some desc
  fetched : desc.Fetched
  index : p.progress.downloadFileIndex = contents.length
  size : p.progress.downloadFileSize = desc.size
  offset : p.progress.offset = taken.length
  incomplete : taken.length < desc.size
  named : NameOf (downloadName p.task.targetDir desc) desc.kind p.progress.downloadFilePath

/-- Every file of the list is done. -/
structure Ended (resolve : FilePath → κ) (p : Paste κ) (contents : List (List UInt8)) :
    Prop where
  accounted : Accounted resolve p contents []
  handle : p.progress.fileHandle = none
  listIndex : p.progress.listIndex = p.task.files.length
  all : contents.length = p.task.files.length

/-- The task has failed or was cancelled. -/
def Stopped (p : Paste κ) : Prop := p.progress.error ≠ none ∨ p.progress.isCanceled = true

/-- A file that could not be opened is still the present one. -/
structure Stuck (p : Paste κ) : Prop where
  handle : p.progress.fileHandle = none
  listIndex : ∃ i < p.task.files.length, p.progress.listIndex = i

theorem Saved.mono {p p' : Paste κ} {desc : FileDescription} {content : List UInt8}
    (h : Saved resolve p desc content)
    (hsettled : ∀ k node, p.Settled resolve false k node → p'.Settled resolve false k node)
    (htarget : p'.task.targetDir = p.task.targetDir) : Saved resolve p' desc content := by
  unfold Saved at h ⊢
  split
  · next hfetched =>
      rw [if_pos hfetched] at h
      obtain ⟨hsize, name, hname, hthere⟩ := h
      exact ⟨hsize, name, htarget ▸ hname, hsettled _ _ hthere⟩
  · next hfetched => rwa [if_neg hfetched] at h

/-- The same progress, and nothing that was saved is lost. -/
theorem Accounted.mono {p p' : Paste κ} {contents : List (List UInt8)} {taken : List UInt8}
    (h : Accounted resolve p contents taken)
    (hsettled : ∀ k node, p.Settled resolve false k node → p'.Settled resolve false k node)
    (htarget : p'.task.targetDir = p.task.targetDir) (hfiles : p'.task.files = p.task.files)
    (herror : p'.progress.error = p.progress.error)
    (hcanceled : p'.progress.isCanceled = p.progress.isCanceled)
    (htotal : p'.progress.totalSize = p.progress.totalSize)
    (hcount : p'.progress.currentSize = p.progress.currentSize) :
    Accounted resolve p' contents taken where
  healthy := herror.trans h.healthy
  going := hcanceled.trans h.going
  total := by rw [htotal, hfiles]; exact h.total
  counted := hcount.trans h.counted
  saved := by
    rw [hfiles]
    exact h.saved.imp fun desc content hsaved => hsaved.mono hsettled htarget

/-- One more file is done. -/
theorem Accounted.concat {p : Paste κ} {contents : List (List UInt8)}
    {taken content : List UInt8} {desc : FileDescription}
    (h : Accounted resolve p contents taken) (hdesc : p.task.files[contents.length]? = some desc)
    (hsaved : Saved resolve p desc content) (hlength : content.length = taken.length) :
    Accounted resolve p (contents ++ [content]) [] where
  healthy := h.healthy
  going := h.going
  total := h.total
  counted := by
    rw [h.counted, List.flatten_append, List.length_append]
    simp [hlength]
  saved := by
    rw [List.length_append, List.length_singleton, List.take_add_one, hdesc]
    exact List.rel_append h.saved (.cons hsaved .nil)

/-- What the loop over the rest of the list leaves: a file that could not be opened, a task
that has failed, the end of the list, or the next file that is fetched. -/
inductive Advanced (resolve : FilePath → κ) (contents : List (List UInt8)) (p : Paste κ) :
    Except PasteError Unit → Prop
  | stuck (err : PasteError) (h : p.Stuck) (healthy : p.progress.error = none) :
      Advanced resolve contents p (.error err)
  | stopped (h : p.progress.error ≠ none) : Advanced resolve contents p (.ok ())
  | ended (skipped : ℕ) (handle : p.progress.fileHandle = none)
      (accounted : Accounted resolve p (contents ++ List.replicate skipped []) [])
      (all : contents.length + skipped = p.task.files.length) :
      Advanced resolve contents p (.ok ())
  | opened (skipped : ℕ) (desc : FileDescription)
      (h : Opened resolve p (contents ++ List.replicate skipped []) [] desc) :
      Advanced resolve contents p (.ok ())

theorem Advanced.cons {p : Paste κ} {contents : List (List UInt8)}
    {result : Except PasteError Unit}
    (h : Advanced resolve (contents ++ [[]]) p result) : Advanced resolve contents p result := by
  have hskip : ∀ skipped, contents ++ [[]] ++ List.replicate skipped ([] : List UInt8) =
      contents ++ List.replicate (skipped + 1) [] := by
    intro skipped
    rw [List.append_assoc, List.singleton_append, ← List.replicate_succ]
  cases h with
  | stuck err h healthy => exact .stuck err h healthy
  | stopped h => exact .stopped h
  | ended skipped handle accounted all =>
      refine .ended (skipped + 1) handle (hskip skipped ▸ accounted) ?_
      rw [List.length_append, List.length_singleton] at all
      omega
  | opened skipped desc h => exact .opened (skipped + 1) desc (hskip skipped ▸ h)

/-- One entry of the list for which nothing is fetched. -/
theorem Accounted.skip {p p' : Paste κ} {contents : List (List UInt8)} {desc : FileDescription}
    (h : Accounted resolve p contents []) (hdesc : p.task.files[contents.length]? = some desc)
    (hskip : ¬ desc.Fetched) (htask : p'.task = p.task)
    (hsettled : ∀ k node, p.Settled resolve false k node → p'.Settled resolve false k node) :
    Accounted resolve p' (contents ++ [[]]) [] := by
  have hsaved : Saved resolve p desc [] := by
    rw [Saved, if_neg hskip]
  refine (h.concat hdesc hsaved rfl).mono hsettled ?_ ?_ ?_ ?_ ?_ ?_ <;> simp [progress, htask]

/-! ## The end of a file -/

variable [DecidableEq κ]

/-- A writer that is flushed leaves in its file what it has taken. -/
theorem closeWriter_eq {p : Paste κ} {taken : List UInt8}
    (hhandle : p.progress.fileHandle = some taken) (hflush : io.flushError = none) :
    p.closeWriter resolve io =
      ⟨p.volume.set (p.temporary resolve) (some (.file taken)),
        { p.task with progress := { p.progress with fileHandle := none } }⟩ := by
  unfold closeWriter
  simp [hhandle, hflush, setProgress]

/-- The file is closed with all its bytes and, where that goes, gets its own name. -/
theorem saved_onDone {p : Paste κ} {contents : List (List UInt8)} {taken : List UInt8}
    {desc : FileDescription} (hhandle : p.progress.fileHandle = some taken)
    (hindex : p.progress.downloadFileIndex = contents.length)
    (hdesc : p.task.files[contents.length]? = some desc) (hfetched : desc.Fetched)
    (hnamed : NameOf (downloadName p.task.targetDir desc) desc.kind p.progress.downloadFilePath)
    (hsize : desc.size ≤ taken.length) (hflush : io.flushError = none) :
    (∃ path index, (p.onDone resolve io).task = { p.task with
        progress := { p.progress with
          fileHandle := none, downloadFilePath := path, downloadFileIndex := index } }) ∧
      Saved resolve (p.onDone resolve io) desc taken := by
  have hopen : ¬(p.progress.fileHandle = none ∨
      p.progress.downloadFileIndex = invalidPasteIndex) := by
    rw [hhandle, hindex, invalidPasteIndex]
    simp
  have hpresent : p.task.files[p.progress.downloadFileIndex.toNat]? = some desc := by
    rw [hindex]
    exact hdesc
  have hthere : (p.volume.set (p.temporary resolve) (some (.file taken)))
      (p.temporary resolve) = some (.file taken) := Function.update_self _ _ _
  unfold onDone
  rw [if_neg hopen, closeWriter_eq hhandle hflush]
  dsimp only [progress]
  rw [show p.task.files[p.task.progress.downloadFileIndex.toNat]? = some desc from hpresent]
  dsimp only
  split
  · refine ⟨⟨_, _, rfl⟩, ?_⟩
    rw [Saved, if_pos hfetched]
    exact ⟨hsize, _, .inr hnamed, hthere, .inl ⟨rfl, by simp⟩⟩
  · next name hname =>
      obtain ⟨-, hnameOf⟩ := getNewFilename_free hname
      refine ⟨⟨_, _, rfl⟩, ?_⟩
      rw [Saved, if_pos hfetched]
      by_cases hfails : io.renameError = true
      · refine ⟨hsize, _, .inr hnamed, ?_, .inl ⟨rfl, by simp⟩⟩
        dsimp only
        rw [if_pos hfails]
        exact hthere
      · dsimp only
        rw [if_neg hfails]
        unfold Volume.rename
        split
        · exact ⟨hsize, _, .inr hnamed, hthere, .inl ⟨rfl, by simp⟩⟩
        · refine ⟨hsize, name, .inl hnameOf, ?_, .inl ⟨rfl, by simp⟩⟩
          exact (Function.update_self _ _ _).trans hthere

/-! ## The next file -/

/-- The directories of the path may have been made before its file is opened. -/
theorem advanced_openWriter {p : Paste κ} {volume : Volume κ} {contents : List (List UInt8)}
    {desc : FileDescription} {path : String} (h : Accounted resolve p contents [])
    (hlist : p.progress.listIndex = contents.length) (hoffset : p.progress.offset = 0)
    (hdesc : p.task.files[contents.length]? = some desc) (hfetched : desc.Fetched)
    (hnamed : NameOf (downloadName p.task.targetDir desc) desc.kind path) (hsees : io.SeesAll)
    (hfree : p.volume.Vacant resolve io (.ofText path)) (hvolume : p.volume.Extends volume) :
    Advanced resolve contents (openWriter resolve io desc path ⟨volume, p.task⟩) (.ok ()) := by
  have hsettled : ∀ k node, p.Settled resolve false k node →
      (openWriter resolve io desc path ⟨volume, p.task⟩).Settled resolve false k node := by
    intro k node hk
    have hmade : Settled resolve false ⟨volume, p.task⟩ k node := hk.extend hvolume rfl id
    exact hmade.openWriter desc (hfree.ne hk.there (hsees.sees k))
  unfold openWriter at hsettled ⊢
  split
  · next p' hcreate =>
      rw [hcreate] at hsettled
      obtain rfl := create_eq_ok hcreate
      refine .opened 0 desc ?_
      rw [List.replicate_zero, List.append_nil]
      exact {
        accounted := h.mono hsettled rfl rfl rfl rfl rfl rfl
        handle := rfl
        listIndex := hlist
        present := hdesc
        fetched := hfetched
        index := hlist
        size := rfl
        offset := hoffset
        incomplete := Nat.pos_of_ne_zero hfetched.2
        named := hnamed }
  · exact .stopped (by simp [setProgress, progress])

theorem advanced_openNewWriter {p : Paste κ} {contents : List (List UInt8)}
    {desc : FileDescription} (h : Accounted resolve p contents [])
    (hhandle : p.progress.fileHandle = none) (hlist : p.progress.listIndex = contents.length)
    (hoffset : p.progress.offset = 0) (hdesc : p.task.files[contents.length]? = some desc)
    (hfetched : desc.Fetched) (hsees : io.SeesAll) :
    Advanced resolve contents (p.openNewWriter resolve io).2 (p.openNewWriter resolve io).1 := by
  have hpresent : p.task.files[p.progress.listIndex.toNat]? = some desc := by
    rw [hlist]
    exact hdesc
  have hlt : contents.length < p.task.files.length := by
    obtain ⟨hlt, -⟩ := List.getElem?_eq_some_iff.mp hdesc
    exact hlt
  have hstuck : ∀ volume, Stuck (κ := κ) ⟨volume, p.task⟩ :=
    fun _ => ⟨hhandle, contents.length, hlt, hlist⟩
  unfold openNewWriter
  rw [hpresent]
  dsimp only
  split
  · exact .stuck _ (hstuck _) h.healthy
  · next path hname =>
      obtain ⟨hplace, hnamed⟩ := getFirstFilename_free hname
      split
      · exact .stuck _ (hstuck _) h.healthy
      · next parent _ =>
          split
          · exact advanced_openWriter h hlist hoffset hdesc hfetched hnamed hsees hplace (.refl _)
          · split
            · exact .stuck _ (hstuck _) h.healthy
            · exact advanced_openWriter h hlist hoffset hdesc hfetched hnamed hsees hplace
                (Volume.extends_createDirAll _ _ _)

theorem createEmpty_task (p : Paste κ) (desc : FileDescription) :
    (p.createEmpty resolve io desc).task = p.task := by
  unfold createEmpty
  split
  · rfl
  · split
    · rfl
    · next hcreate => rw [create_eq_ok hcreate]

theorem createDirectory_task (p : Paste κ) (desc : FileDescription) :
    (p.createDirectory resolve io desc).task = p.task := by
  unfold createDirectory
  dsimp only
  split <;> rfl

/-- The loop over the files from the first one that is not done. -/
theorem advanced_openNext (hsees : io.SeesAll) {p : Paste κ} {contents : List (List UInt8)}
    (h : Accounted resolve p contents []) (hhandle : p.progress.fileHandle = none)
    (hle : contents.length ≤ p.task.files.length) :
    Advanced resolve contents
      (p.openNext resolve io (p.task.files.drop contents.length) contents.length).2
      (p.openNext resolve io (p.task.files.drop contents.length) contents.length).1 := by
  generalize hrest : p.task.files.drop contents.length = rest
  induction rest generalizing p contents with
  | nil =>
      rw [openNext]
      refine .ended 0 hhandle (by simpa using h) ?_
      have hlength := congrArg List.length hrest
      rw [List.length_drop, List.length_nil] at hlength
      change contents.length + 0 = p.task.files.length
      omega
  | cons desc rest ih =>
      have hdesc : p.task.files[contents.length]? = some desc := by
        rw [← List.head?_drop, hrest]
        rfl
      have htail : p.task.files.drop (contents.length + 1) = rest := by
        rw [← List.tail_drop, hrest]
        rfl
      have hlt : contents.length < p.task.files.length :=
        (List.getElem?_eq_some_iff.mp hdesc).1
      have hnext : ∀ p' : Paste κ, p'.task = p.task → ¬ desc.Fetched →
          (∀ k node, p.Settled resolve false k node → p'.Settled resolve false k node) →
          Advanced resolve contents (p'.openNext resolve io rest (contents.length + 1)).2
            (p'.openNext resolve io rest (contents.length + 1)).1 := by
        intro p' htask hskip hsettled
        have hadvanced := ih (h.skip hdesc hskip htask hsettled)
          (by rw [progress, htask]; exact hhandle)
          (by rw [htask, List.length_append, List.length_singleton]; exact hlt)
          (by rw [htask, List.length_append, List.length_singleton]; exact htail)
        rw [List.length_append, List.length_singleton] at hadvanced
        exact hadvanced.cons
      rw [openNext]
      split
      · next hkind =>
          split
          · next hempty =>
              exact hnext _ (createEmpty_task p desc) (fun hfetched => hfetched.2 hempty)
                fun k node hk => hk.createEmpty (hsees.sees k) desc
          · next hsize =>
              exact advanced_openNewWriter
                (h.mono (fun k node hk => hk.setProgress rfl id) rfl rfl rfl rfl rfl rfl)
                hhandle rfl rfl hdesc ⟨hkind, hsize⟩ hsees
      · next hkind =>
          exact hnext _ (createDirectory_task p desc) (by simp [FileDescription.Fetched, hkind])
            fun k node hk => hk.createDirectory desc
      · next hkind =>
          exact hnext p rfl (by simp [FileDescription.Fetched, hkind]) fun _ _ hk => hk

/-! ## A block -/

/-- What the end of a file, or the start, leaves of a task without an error. -/
def Reached (resolve : FilePath → κ) (contents : List (List UInt8)) (p : Paste κ) : Prop :=
  p.Stopped ∨ ∃ skipped, Ended resolve p (contents ++ List.replicate skipped []) ∨
    ∃ desc, Opened resolve p (contents ++ List.replicate skipped []) [] desc

omit [DecidableEq κ] in
theorem Advanced.settle {p : Paste κ} {contents : List (List UInt8)}
    (h : Advanced resolve contents p (.ok ())) : Reached resolve contents p.settle := by
  cases h with
  | stopped h =>
      refine .inl (.inl ?_)
      unfold Paste.settle
      split
      · exact h
      · exact h
  | ended skipped handle accounted all =>
      refine .inr ⟨skipped, .inl ?_⟩
      rw [Paste.settle, if_pos handle]
      exact {
        accounted := accounted.mono (fun k node hk => hk.setProgress rfl id) rfl rfl rfl rfl rfl rfl
        handle := handle
        listIndex := rfl
        all := by rw [List.length_append, List.length_replicate]; exact all }
  | opened skipped desc h =>
      refine .inr ⟨skipped, .inr ⟨desc, ?_⟩⟩
      rw [Paste.settle, if_neg (by simp [h.handle])]
      exact h

/-- The files after the last one that is done. -/
theorem reached_nextFile (hsees : io.SeesAll) {p : Paste κ} {contents : List (List UInt8)}
    (h : Accounted resolve p contents []) (hhandle : p.progress.fileHandle = none)
    (hle : contents.length ≤ p.task.files.length)
    (hlist : p.progress.listIndex + 1 = contents.length) :
    (∃ err p', p.nextFile resolve io = (.error err, p') ∧ p'.Stuck ∧ p'.progress.error = none) ∨
      ∃ p', p.nextFile resolve io = (.ok (), p') ∧ Reached resolve contents p' := by
  have hadvanced := advanced_openNext hsees h hhandle hle
  unfold nextFile
  rw [hlist, Int.toNat_natCast]
  dsimp only
  cases hresult : p.openNext resolve io (p.task.files.drop contents.length) contents.length with
  | mk result p' =>
      rw [hresult] at hadvanced
      cases result with
      | error err =>
          cases hadvanced with
          | stuck _ hstuck healthy => exact .inl ⟨err, p', rfl, hstuck, healthy⟩
      | ok _ => exact .inr ⟨p'.settle, rfl, hadvanced.settle⟩

omit [DecidableEq κ] in
theorem isFinished_opened {p : Paste κ} {contents : List (List UInt8)} {taken : List UInt8}
    (h : Accounted resolve p contents taken) {i : ℤ} (hlist : p.progress.listIndex = i)
    (hlt : i < p.task.files.length) : p.isFinished = false := by
  unfold isFinished
  rw [h.healthy, h.going, hlist]
  simpa using hlt

omit [DecidableEq κ] in
theorem Opened.lt {p : Paste κ} {contents : List (List UInt8)} {taken : List UInt8}
    {desc : FileDescription} (h : Opened resolve p contents taken desc) :
    contents.length < p.task.files.length :=
  (List.getElem?_eq_some_iff.mp h.present).1

/-- The task after the writer has taken a block, with its bytes counted. -/
def counted (taken data : List UInt8) (p : Paste κ) : Paste κ :=
  p.setProgress { p.progress with
    fileHandle := some (taken ++ data)
    currentSize := (p.progress.currentSize + data.length) % 2 ^ 64 }

omit [DecidableEq κ] in
theorem accounted_counted {p : Paste κ} {contents : List (List UInt8)} {taken : List UInt8}
    {desc : FileDescription} (h : Opened resolve p contents taken desc) (data : List UInt8) :
    Accounted resolve (p.counted taken data) contents (taken ++ data) where
  healthy := h.accounted.healthy
  going := h.accounted.going
  total := h.accounted.total
  counted := by
    change (p.progress.currentSize + data.length) % 2 ^ 64 = _
    rw [h.accounted.counted, List.length_append, Nat.mod_add_mod, Nat.add_assoc]
  saved := by
    refine h.accounted.saved.imp fun desc content hsaved => hsaved.mono ?_ rfl
    exact fun k node hk => hk.setProgress rfl fun hnone => by simp [h.handle] at hnone

/-- What a block does: it is counted, and then its file goes on or is done. -/
theorem handleFileContentsResponse_eq {p : Paste κ} {contents : List (List UInt8)}
    {taken data : List UInt8} {desc : FileDescription} (h : Opened resolve p contents taken desc)
    (hwrite : data = [] ∨ io.writeError = none) :
    p.handleFileContentsResponse resolve io data =
      if desc.size ≤ taken.length + data.length then
        ((p.counted taken data).onDone resolve io).nextFile resolve io
      else (.ok (), ((p.counted taken data).setProgress { (p.counted taken data).progress with
        offset := p.progress.offset + data.length }).settle) := by
  have hio : (if data = [] then none else io.writeError) = none := by
    rcases hwrite with hempty | hnone
    · rw [if_pos hempty]
    · rw [hnone, ite_self]
  have hrunning : (p.setProgress { p.progress with
      fileHandle := some (taken ++ data) }).isFinished = false :=
    isFinished_opened (p := p) h.accounted h.listIndex (by exact_mod_cast h.lt)
  have hstart : ¬ p.progress.listIndex = -1 := by
    rw [h.listIndex]
    omega
  have hupdate : (p.setProgress { p.progress with
      fileHandle := some (taken ++ data) }).updateNext resolve io data.length =
      if p.progress.listIndex = -1 then (p.counted taken data).nextFile resolve io
      else if p.progress.downloadFileSize ≤ p.progress.offset + data.length then
        ((p.counted taken data).onDone resolve io).nextFile resolve io
      else (.ok (), ((p.counted taken data).setProgress { (p.counted taken data).progress with
        offset := p.progress.offset + data.length }).settle) := by
    rw [updateNext, hrunning, if_neg Bool.false_ne_true]
    rfl
  unfold handleFileContentsResponse
  rw [h.handle, hio]
  dsimp only
  rw [hupdate, if_neg hstart, h.size, h.offset]

/-- A block that does not complete its file. -/
theorem opened_block {p : Paste κ} {contents : List (List UInt8)} {taken data : List UInt8}
    {desc : FileDescription} (h : Opened resolve p contents taken desc)
    (hwrite : data = [] ∨ io.writeError = none)
    (hshort : taken.length + data.length < desc.size) :
    ∃ p', p.handleFileContentsResponse resolve io data = (.ok (), p') ∧
      Opened resolve p' contents (taken ++ data) desc := by
  refine ⟨_, (handleFileContentsResponse_eq h hwrite).trans (if_neg (by omega)), ?_⟩
  rw [settle, if_neg (by simp [setProgress, counted, progress])]
  exact {
    accounted := (accounted_counted h data).mono (fun k node hk => hk.setProgress rfl id)
      rfl rfl rfl rfl rfl rfl
    handle := rfl
    listIndex := h.listIndex
    present := h.present
    fetched := h.fetched
    index := h.index
    size := h.size
    offset := by
      change p.progress.offset + data.length = _
      rw [h.offset, List.length_append]
    incomplete := by rw [List.length_append]; exact hshort
    named := h.named }

/-- A block that completes its file. -/
theorem reached_block {p : Paste κ} {contents : List (List UInt8)} {taken data : List UInt8}
    {desc : FileDescription} (h : Opened resolve p contents taken desc)
    (hwrite : data = [] ∨ io.writeError = none) (hflush : io.flushError = none)
    (hsees : io.SeesAll) (hlong : desc.size ≤ taken.length + data.length) :
    (∃ err p', p.handleFileContentsResponse resolve io data = (.error err, p')) ∨
      ∃ p', p.handleFileContentsResponse resolve io data = (.ok (), p') ∧
        Reached resolve (contents ++ [taken ++ data]) p' := by
  have hblock := (handleFileContentsResponse_eq h hwrite).trans (if_pos hlong)
  have hcounted := accounted_counted h data
  obtain ⟨⟨path, index, htask⟩, hsaved⟩ :
      (∃ path index, ((p.counted taken data).onDone resolve io).task =
        { (p.counted taken data).task with
          progress := { (p.counted taken data).progress with
            fileHandle := none, downloadFilePath := path, downloadFileIndex := index } }) ∧
      Saved resolve ((p.counted taken data).onDone resolve io) desc (taken ++ data) :=
    saved_onDone rfl h.index h.present h.fetched h.named
      (by rw [List.length_append]; exact hlong) hflush
  have hdone : Accounted resolve ((p.counted taken data).onDone resolve io)
      (contents ++ [taken ++ data]) [] := by
    refine Accounted.concat (hcounted.mono (fun k node hk => hk.onDone (hsees.sees k))
      ?_ ?_ ?_ ?_ ?_ ?_) ?_ hsaved rfl <;> simp only [progress, htask]
    exact h.present
  have hnext := reached_nextFile hsees hdone (by rw [progress, htask])
    (by rw [htask, List.length_append, List.length_singleton]; exact h.lt)
    (by
      rw [progress, htask, List.length_append, List.length_singleton]
      exact congrArg (· + 1) h.listIndex)
  rw [hblock]
  rcases hnext with ⟨err, p', hresult, -⟩ | hreached
  · exact .inl ⟨err, p', hresult⟩
  · exact .inr hreached

/-! ## Phases of a task -/

/-- Where a task is between two events. -/
inductive Phase (resolve : FilePath → κ) (p : Paste κ) : Prop
  | stopped (h : p.Stopped)
  | stuck (h : p.Stuck)
  | opened (contents : List (List UInt8)) (taken : List UInt8) (desc : FileDescription)
      (h : Opened resolve p contents taken desc)
  | ended (contents : List (List UInt8)) (h : Ended resolve p contents)

omit [DecidableEq κ] in
theorem Reached.phase {p : Paste κ} {contents : List (List UInt8)}
    (h : Reached resolve contents p) : Phase resolve p := by
  rcases h with hstopped | ⟨skipped, hended | ⟨desc, hopened⟩⟩
  · exact .stopped hstopped
  · exact .ended _ hended
  · exact .opened _ _ _ hopened

omit [DecidableEq κ] in
theorem Stopped.isFinished {p : Paste κ} (h : p.Stopped) : p.isFinished = true := by
  unfold Paste.isFinished
  rcases h with herror | hcanceled
  · simp [Option.isSome_iff_ne_none.mpr herror]
  · simp [hcanceled]

omit [DecidableEq κ] in
theorem Phase.of_running {p : Paste κ} (h : Phase resolve p) (hrunning : p.isFinished = false) :
    p.Stuck ∨ ∃ contents taken desc, Opened resolve p contents taken desc := by
  cases h with
  | stopped h =>
      rw [h.isFinished] at hrunning
      cases hrunning
  | stuck h => exact .inl h
  | opened contents taken desc h => exact .inr ⟨contents, taken, desc, h⟩
  | ended contents h =>
      simp [Paste.isFinished, h.listIndex] at hrunning

theorem onCancelled_progress (p : Paste κ) :
    (p.onCancelled resolve io).progress = { p.progress with fileHandle := none } := by
  have hclosed : (p.closeWriter resolve io).progress = _ := closeWriter_progress
  unfold onCancelled
  rw [← hclosed]
  dsimp only
  split
  · rfl
  · split <;> rfl

theorem Stopped.onCancelled {p : Paste κ} (h : p.Stopped) :
    (p.onCancelled resolve io).Stopped := by
  unfold Stopped
  rw [onCancelled_progress]
  exact h

theorem stopped_onError (p : Paste κ) (error : PasteError) :
    (p.onError resolve io error).Stopped :=
  Stopped.onCancelled (.inl (by simp [setProgress, progress]))

/-- A block for the present file. -/
theorem Phase.accept {p : Paste κ} (h : Phase resolve p) (hrunning : p.isFinished = false)
    (hflush : io.flushError = none) (hsees : io.SeesAll) (data : List UInt8) :
    Phase resolve (PasteWorld.accept resolve io data p) := by
  have hfail : ∀ err p', p.handleFileContentsResponse resolve io data = (.error err, p') →
      Phase resolve (PasteWorld.accept resolve io data p) := by
    intro err p' hresult
    rw [PasteWorld.accept, hresult]
    exact .stopped (stopped_onError p' err)
  have hgo : ∀ p', p.handleFileContentsResponse resolve io data = (.ok (), p') →
      Phase resolve p' → Phase resolve (PasteWorld.accept resolve io data p) := by
    intro p' hresult hphase
    rw [PasteWorld.accept, hresult]
    exact hphase
  rcases h.of_running hrunning with hstuck | ⟨contents, taken, desc, hopened⟩
  · exact hfail (.fileError p.progress.downloadFilePath (.notFound "file handle is not opened")) p
      (by rw [handleFileContentsResponse, hstuck.handle])
  · by_cases hwrite : data = [] ∨ io.writeError = none
    · rcases lt_or_ge (taken.length + data.length) desc.size with hshort | hlong
      · obtain ⟨p', hresult, hopened'⟩ := opened_block hopened hwrite hshort
        exact hgo p' hresult (.opened _ _ _ hopened')
      · rcases reached_block hopened hwrite hflush hsees hlong with ⟨err, p', hresult⟩ |
          ⟨p', hresult, hreached⟩
        · exact hfail err p' hresult
        · exact hgo p' hresult hreached.phase
    · obtain ⟨hdata, hwrite⟩ := not_or.mp hwrite
      obtain ⟨code, hcode⟩ := Option.ne_none_iff_exists'.mp hwrite
      exact hfail (.fileError p.progress.downloadFilePath (.system code)) p
        (by rw [handleFileContentsResponse, hopened.handle, if_neg hdata, hcode])

omit [DecidableEq κ] in
theorem Phase.refuse {p : Paste κ} (h : Phase resolve p) (response : FileContentsResponse)
    (retryCount : ℕ) : Phase resolve (PasteWorld.refuse response retryCount p) := by
  unfold PasteWorld.refuse
  split
  · exact .stopped (.inl (by simp [setProgress, progress]))
  · exact h

/-- The start of a task. -/
theorem phase_newTask (hsees : io.SeesAll) (volume : Volume κ) (now : ℕ) (targetDir : String)
    (files : List FileDescription) :
    Phase resolve (updateNext resolve io 0 ⟨volume, PasteWorld.newTask now targetDir files⟩).2 := by
  have haccounted : Accounted resolve ⟨volume, PasteWorld.newTask now targetDir files⟩ [] [] :=
    ⟨rfl, rfl, rfl, rfl, .nil⟩
  have hnext := reached_nextFile hsees haccounted rfl (Nat.zero_le _) rfl
  have hupdate : updateNext resolve io 0 ⟨volume, PasteWorld.newTask now targetDir files⟩ =
      nextFile resolve io ⟨volume, PasteWorld.newTask now targetDir files⟩ := by
    have hrunning : isFinished ⟨volume, PasteWorld.newTask now targetDir files⟩ = false :=
      isFinished_opened haccounted rfl (show (-1 : ℤ) < (files.length : ℤ) by omega)
    rw [updateNext, hrunning, if_neg Bool.false_ne_true]
    rfl
  rw [hupdate]
  rcases hnext with ⟨err, p', hresult, hstuck, -⟩ | ⟨p', hresult, hreached⟩
  · rw [hresult]
    exact .stuck hstuck
  · rw [hresult]
    exact hreached.phase

omit [DecidableEq κ] in
theorem Stuck.stopped {p : Paste κ} (h : p.Stuck) (hfinished : p.isFinished = true) :
    p.Stopped := by
  obtain ⟨i, hlt, hlist⟩ := h.listIndex
  have hrange : ¬ (p.task.files.length : ℤ) ≤ p.progress.listIndex := by
    rw [hlist]
    omega
  simp only [isFinished, hrange, decide_false, Bool.or_false, Bool.or_eq_true] at hfinished
  rcases hfinished with hcanceled | herror
  · exact .inr hcanceled
  · exact .inl (Option.isSome_iff_ne_none.mp herror)

theorem onDone_isCanceled (p : Paste κ) :
    (p.onDone resolve io).progress.isCanceled = p.progress.isCanceled := by
  have hclosed : (p.closeWriter resolve io).progress.isCanceled = p.progress.isCanceled := by
    rw [closeWriter_progress]
  unfold onDone
  split
  · rfl
  · dsimp only
    split
    · exact hclosed
    · split
      · exact hclosed
      · exact hclosed

theorem Stopped.onFinished {p : Paste κ} (h : p.Stopped) : (p.onFinished resolve io).Stopped := by
  have hended : Stopped
      (if p.progress.error.isSome then p.onCancelled resolve io else p.onDone resolve io) := by
    split
    · exact h.onCancelled
    · next herror =>
        refine .inr ((onDone_isCanceled p).trans (h.resolve_left fun hne => herror ?_))
        exact Option.isSome_iff_ne_none.mpr hne
  unfold Paste.onFinished
  generalize (if p.progress.error.isSome then p.onCancelled resolve io
    else p.onDone resolve io) = q at hended
  dsimp only
  split
  · exact .inl (by simp [setProgress, progress])
  · exact hended

/-- Every file is done, and the bytes of the list have been counted. -/
structure Completed (resolve : FilePath → κ) (p : Paste κ) (contents : List (List UInt8)) :
    Prop where
  ended : Ended resolve p contents
  counted : p.progress.currentSize = p.progress.totalSize

theorem Ended.onFinished (io : PasteIo) {p : Paste κ} {contents : List (List UInt8)}
    (h : Ended resolve p contents) :
    (p.onFinished resolve io).Stopped ∨ Completed resolve (p.onFinished resolve io) contents := by
  have hdone : p.onDone resolve io = p := by
    rw [onDone, if_pos (.inl h.handle)]
  unfold Paste.onFinished
  rw [h.accounted.healthy, Option.isSome_none, if_neg Bool.false_ne_true, hdone]
  dsimp only
  split
  · exact .inl (.inl (by simp [setProgress, progress]))
  · next hcounted => exact .inr ⟨h, not_not.mp hcounted⟩

/-- What `on_finished` leaves of a task that is finished. -/
theorem Phase.onFinished {p : Paste κ} (h : Phase resolve p) (hfinished : p.isFinished = true) :
    (p.onFinished resolve io).Stopped ∨
      ∃ contents, Completed resolve (p.onFinished resolve io) contents := by
  cases h with
  | stopped h => exact .inl h.onFinished
  | stuck h => exact .inl (h.stopped hfinished).onFinished
  | opened contents taken desc h =>
      rw [isFinished_opened h.accounted h.listIndex (by exact_mod_cast h.lt)] at hfinished
      cases hfinished
  | ended contents h =>
      rcases Ended.onFinished io h with hstopped | hcompleted
      · exact .inl hstopped
      · exact .inr ⟨contents, hcompleted⟩

omit [DecidableEq κ] in
/-- The time of a request is no part of a phase. -/
theorem Phase.touch {p : Paste κ} (h : Phase resolve p) (now : ℕ) :
    Phase resolve (p.setProgress { p.progress with lastSentTime := now }) := by
  have hsettled : ∀ k node, p.Settled resolve false k node →
      (p.setProgress { p.progress with lastSentTime := now }).Settled resolve false k node :=
    fun k node hk => hk.setProgress rfl id
  cases h with
  | stopped h => exact .stopped h
  | stuck h => exact .stuck ⟨h.handle, h.listIndex⟩
  | opened contents taken desc h =>
      exact .opened contents taken desc
        ⟨h.accounted.mono hsettled rfl rfl rfl rfl rfl rfl, h.handle, h.listIndex, h.present,
          h.fetched, h.index, h.size, h.offset, h.incomplete, h.named⟩
  | ended contents h =>
      exact .ended contents ⟨h.accounted.mono hsettled rfl rfl rfl rfl rfl rfl, h.handle,
        h.listIndex, h.all⟩

/-- A task is running, has stopped, or is completed. -/
def Orderly (resolve : FilePath → κ) (p : Paste κ) : Prop :=
  (p.isFinished = false ∧ Phase resolve p) ∨ p.Stopped ∨
    ∃ contents, Completed resolve p contents

end Paste

/-! ## Runs -/

namespace PasteWorld

def Sound (resolve : FilePath → κ) (w : PasteWorld κ) : Prop :=
  ∀ task, w.task = some task → Paste.Orderly resolve ⟨w.volume, task⟩

theorem sound_of_task {p : Paste κ} (h : p.Orderly resolve) (retryCount : ℕ)
    (sent : List (ℤ × FileContentsRequestMessage)) :
    Sound resolve ⟨p.volume, some p.task, retryCount, sent⟩ := by
  intro task htask
  obtain rfl := Option.some.inj htask
  exact h

theorem Sound.phase {w : PasteWorld κ} {task : PasteTaskHandle} (h : w.Sound resolve)
    (htask : w.task = some task) : Paste.Phase resolve ⟨w.volume, task⟩ := by
  rcases h task htask with ⟨-, hphase⟩ | hstopped | ⟨contents, hcompleted⟩
  · exact hphase
  · exact .stopped hstopped
  · exact .ended contents hcompleted.ended

variable [DecidableEq κ]

theorem sound_ask {p : Paste κ} (h : Paste.Phase resolve p) (hrunning : p.isFinished = false)
    (now retryCount : ℕ) (sent : List (ℤ × FileContentsRequestMessage)) :
    Sound resolve (ask resolve io now retryCount sent p) := by
  unfold ask Paste.sendFileContentsRequest
  rw [hrunning, if_neg Bool.false_ne_true]
  cases hfile : p.task.files[p.progress.listIndex.toNat]? with
  | none => exact sound_of_task (.inr (.inl (Paste.stopped_onError p _))) _ _
  | some file =>
      refine sound_of_task ?_ _ _
      exact .inl ⟨hrunning, h.touch now⟩

theorem sound_finish {p : Paste κ} (h : Paste.Phase resolve p) (hfinished : p.isFinished = true)
    (retryCount : ℕ) (sent : List (ℤ × FileContentsRequestMessage)) :
    Sound resolve (finish resolve io retryCount sent p) :=
  sound_of_task (.inr (h.onFinished hfinished)) _ _

theorem sound_goOn {p : Paste κ} (h : Paste.Phase resolve p) (now retryCount : ℕ)
    (sent : List (ℤ × FileContentsRequestMessage)) :
    Sound resolve (goOn resolve io now retryCount sent p) := by
  unfold goOn
  split
  · next hfinished => exact sound_finish h hfinished _ _
  · next hrunning => exact sound_ask h (by simpa using hrunning) _ _ _

variable {w : PasteWorld κ}

theorem Sound.start (h : w.Sound resolve) (hsees : io.SeesAll) (now : ℕ) (targetDir : String)
    (files : List FileDescription) :
    (w.start resolve io now targetDir files).Sound resolve := by
  have hnew : Paste.Phase resolve (Paste.updateNext resolve io 0
      ⟨w.volume, newTask now targetDir files⟩).2 :=
    Paste.phase_newTask hsees w.volume now targetDir files
  unfold PasteWorld.start
  split
  · exact h
  · dsimp only
    split
    · next hfinished => exact sound_finish hnew hfinished _ _
    · next hrunning => exact sound_ask hnew (by simpa using hrunning) _ _ _

theorem Sound.cancel (h : w.Sound resolve) : (w.cancel resolve io).Sound resolve := by
  unfold PasteWorld.cancel
  split
  · exact h
  · exact sound_of_task (.inr (.inl (Paste.Stopped.onCancelled (.inr rfl)))) _ _

theorem Sound.receive (h : w.Sound resolve) (hflush : io.flushError = none)
    (hsees : io.SeesAll) (now : ℕ) (response : FileContentsResponse) :
    (w.receive resolve io now response).Sound resolve := by
  unfold PasteWorld.receive
  split
  · exact h
  · next task htask =>
      dsimp only
      split
      · exact h
      · next hcurrent =>
          obtain ⟨hrunning, -⟩ := not_or.mp hcurrent
          replace hrunning : (⟨w.volume, task⟩ : Paste κ).isFinished = false := by
            simpa using hrunning
          have hphase := h.phase htask
          split
          · exact sound_goOn (hphase.refuse response _) _ _ _
          · split
            · exact h
            · split
              · exact h
              · exact sound_goOn (hphase.accept hrunning hflush hsees _) _ _ _

theorem Sound.timeout (h : w.Sound resolve) (now : ℕ) :
    (w.timeout resolve io now).Sound resolve := by
  unfold PasteWorld.timeout
  split
  · exact h
  · unfold Paste.checkReceiveTimeout
    split
    · next heq =>
        split at heq
        · cases heq
        · split at heq
          · obtain ⟨-, rfl⟩ := Prod.mk.inj heq
            refine sound_finish (.stopped ?_) (Paste.Stopped.isFinished ?_) _ _
            all_goals exact .inl (by simp [Paste.setProgress, Paste.progress])
          · cases heq
    · exact h

theorem Sound.step (h : w.Sound resolve) (hflush : io.flushError = none) (hsees : io.SeesAll)
    (event : PasteEvent) : (w.step resolve io event).Sound resolve := by
  cases event with
  | start now targetDir files => exact h.start hsees now targetDir files
  | cancel => exact h.cancel
  | received now response => exact h.receive hflush hsees now response
  | timeout now => exact h.timeout now

theorem Sound.run (h : w.Sound resolve) {events : List (PasteIo × PasteEvent)}
    (hflush : ∀ event ∈ events, event.1.flushError = none)
    (hsees : ∀ event ∈ events, event.1.SeesAll) : (w.run resolve events).Sound resolve := by
  induction events generalizing w with
  | nil => exact h
  | cons event events ih =>
      obtain ⟨hflushes, hflush⟩ := List.forall_mem_cons.mp hflush
      obtain ⟨hlooks, hsees⟩ := List.forall_mem_cons.mp hsees
      exact ih (h.step hflushes hlooks event.2) hflush hsees

/-- The task of the world is over, without an error and not cancelled. -/
def Completes (w : PasteWorld κ) (task : PasteTaskHandle) : Prop :=
  w.task = some task ∧ (⟨w.volume, task⟩ : Paste κ).isFinished = true ∧
    task.progress.error = none ∧ task.progress.isCanceled = false

end PasteWorld

namespace PasteWorld

variable [DecidableEq κ]

end PasteWorld

end RustAdmin.Clipboard
