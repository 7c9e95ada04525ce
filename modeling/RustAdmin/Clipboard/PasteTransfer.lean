import RustAdmin.Clipboard.PasteService

/-!
# What a completed paste has copied

Over every order of the steps of both sides, the bytes a task has written are those of the
files it is fed from; the task that ends without an error has them all.  A file that is
longer than 2 GiB is never completed: the offset of its next block does not arrive.

## Strategy

- `Paste.Fetching` is the state of a task while a file is fetched: the files before it are
  copied, and its writer has taken the first bytes of it, in whole blocks.
- `course_start`, `course_accept` and `course_receive` carry it over one step of the worker,
  into the next block, the next file, the end of the list or a failure (`Course`).
- `Underway` adds what is in flight: nothing, the request, or the answer that
  `answers_request` gives.  `Underway.step` keeps it, and `Underway.run` is the induction over
  the steps of both sides.
- `Underway.copied_of_completes` reads the result off a task that is over without an error.
-/

namespace RustAdmin.Clipboard

open RustAdmin.Support

variable {κ : Type} {resolve : FilePath → κ} {disk : Disk} {files : List LocalFile}
  {descs : List FileDescription}

theorem rel_of_getElem? {α β : Type} {R : α → β → Prop} {as : List α} {bs : List β} {i : ℕ}
    {a : α} {b : β} (h : List.Forall₂ R as bs) (ha : as[i]? = some a) (hb : bs[i]? = some b) :
    R a b := by
  induction h generalizing i with
  | nil => simp at ha
  | cons hab h ih =>
      cases i with
      | zero =>
          obtain rfl := Option.some.inj ha
          obtain rfl := Option.some.inj hb
          exact hab
      | succ i => exact ih ha hb

/-- What the files that are done hold is what they were copied from. -/
def Copies (disk : Disk) (files : List LocalFile) (descs : List FileDescription)
    (contents : List (List UInt8)) : Prop :=
  ∀ (j : ℕ) (file : LocalFile) (desc : FileDescription) (content : List UInt8),
    files[j]? = some file → descs[j]? = some desc → contents[j]? = some content →
      desc.Fetched → content = disk.content file.path ∧ content.length ≤ 2 ^ 31

namespace Paste

/-- A file is being fetched from its start on. -/
structure Fetching (resolve : FilePath → κ) (disk : Disk) (files : List LocalFile)
    (descs : List FileDescription) (p : Paste κ) (contents : List (List UInt8))
    (taken : List UInt8) (desc : FileDescription) (file : LocalFile) : Prop where
  list : p.task.files = descs
  listed : Listed disk files descs
  opened : Opened resolve p contents taken desc
  source : files[contents.length]? = some file
  copies : Copies disk files descs contents
  bytes : taken = (disk.content file.path).take taken.length
  blocks : blockSize ∣ taken.length
  low : taken.length ≤ 2 ^ 31

/-- The task will not complete. -/
def Doomed (p : Paste κ) : Prop := p.Stopped ∨ p.Stuck

/-- The list is copied. -/
structure Copied (resolve : FilePath → κ) (disk : Disk) (files : List LocalFile)
    (descs : List FileDescription) (p : Paste κ) (contents : List (List UInt8)) : Prop where
  list : p.task.files = descs
  completed : Completed resolve p contents
  copies : Copies disk files descs contents

variable {p : Paste κ} {contents : List (List UInt8)} {taken : List UInt8}
  {desc : FileDescription} {file : LocalFile}

theorem Fetching.size (h : Fetching resolve disk files descs p contents taken desc file) :
    desc.size = (disk.content file.path).length := by
  rw [h.listed.unchanged file (List.mem_of_getElem? h.source)]
  have hsize := rel_of_getElem? h.listed.sizes h.source (h.list ▸ h.opened.present)
  exact hsize

/-- Files for which nothing is fetched have nothing to copy. -/
theorem copies_skip {skipped : ℕ}
    (haccounted : Accounted resolve p (contents ++ List.replicate skipped []) taken)
    (h : Copies disk files p.task.files contents) :
    Copies disk files p.task.files (contents ++ List.replicate skipped []) := by
  intro j file desc content hfile hdesc hcontent hfetched
  rcases lt_or_ge j contents.length with hlt | hge
  · rw [List.getElem?_append_left hlt] at hcontent
    exact h j file desc content hfile hdesc hcontent hfetched
  · -- the content of a skipped file is empty, and such a file is not fetched
    exfalso
    have hempty : content = [] := by
      rw [List.getElem?_append_right hge] at hcontent
      exact List.eq_of_mem_replicate (List.mem_of_getElem? hcontent)
    have hlt : j < (contents ++ List.replicate skipped []).length :=
      (List.getElem?_eq_some_iff.mp hcontent).1
    have hdesc' : (p.task.files.take (contents ++ List.replicate skipped []).length)[j]? =
        some desc := by
      rw [List.getElem?_take_of_lt hlt]
      exact hdesc
    have hsaved := rel_of_getElem? haccounted.saved hdesc' hcontent
    rw [Saved, if_pos hfetched, hempty, List.length_nil] at hsaved
    exact hfetched.2 (Nat.le_zero.mp hsaved.1)

theorem copies_concat (h : Copies disk files descs contents)
    (hfile : files[contents.length]? = some file) (hlow : taken.length ≤ 2 ^ 31)
    (hbytes : taken = disk.content file.path) :
    Copies disk files descs (contents ++ [taken]) := by
  intro j file' desc content hfile' hdesc hcontent hfetched
  rcases lt_or_ge j contents.length with hlt | hge
  · rw [List.getElem?_append_left hlt] at hcontent
    exact h j file' desc content hfile' hdesc hcontent hfetched
  · rw [List.getElem?_append_right hge] at hcontent
    obtain rfl : j = contents.length := by
      have hlast := (List.getElem?_eq_some_iff.mp hcontent).1
      rw [List.length_singleton] at hlast
      omega
    rw [Nat.sub_self] at hcontent
    obtain rfl : taken = content := Option.some.inj hcontent
    obtain rfl := Option.some.inj (hfile.symm.trans hfile')
    exact ⟨hbytes, hlow⟩

/-- After a file and what is skipped behind it, the list is copied or the next file is
fetched. -/
theorem fetching_of_reached (hlist : p.task.files = descs) (hlisted : Listed disk files descs)
    (hcopies : Copies disk files descs contents) (h : Reached resolve contents p) :
    p.Stopped ∨ (∃ contents, Ended resolve p contents ∧ Copies disk files descs contents) ∨
      ∃ contents desc file, Fetching resolve disk files descs p contents [] desc file := by
  subst hlist
  rcases h with hstopped | ⟨skipped, hended | ⟨desc, hopened⟩⟩
  · exact .inl hstopped
  · exact .inr (.inl ⟨_, hended, copies_skip hended.accounted hcopies⟩)
  · have hlt : (contents ++ List.replicate skipped []).length < files.length := by
      rw [hlisted.sizes.length_eq]
      exact hopened.lt
    obtain ⟨file, hfile⟩ : ∃ file,
        files[(contents ++ List.replicate skipped []).length]? = some file :=
      ⟨_, List.getElem?_eq_getElem hlt⟩
    exact .inr (.inr ⟨_, desc, file, rfl, hlisted, hopened, hfile,
      copies_skip hopened.accounted hcopies, rfl, ⟨0, rfl⟩, Nat.zero_le _⟩)

end Paste

/-! ## The list of a task -/

namespace Paste

variable [DecidableEq κ] {io : PasteIo}

theorem closeWriter_files (p : Paste κ) :
    (p.closeWriter resolve io).task.files = p.task.files := by
  unfold closeWriter
  split <;> rfl

theorem onDone_files (p : Paste κ) : (p.onDone resolve io).task.files = p.task.files := by
  have hclosed : (p.closeWriter resolve io).task.files = p.task.files := closeWriter_files p
  unfold onDone
  split
  · rfl
  · dsimp only
    split
    · exact hclosed
    · split
      · exact hclosed
      · exact hclosed

theorem openWriter_files (p : Paste κ) (desc : FileDescription) (path : String) :
    (p.openWriter resolve io desc path).task.files = p.task.files := by
  unfold openWriter
  split
  · next p' hcreate =>
      obtain rfl := create_eq_ok hcreate
      rfl
  · rfl

theorem openNewWriter_files (p : Paste κ) :
    (p.openNewWriter resolve io).2.task.files = p.task.files := by
  unfold openNewWriter
  split
  · rfl
  · dsimp only
    split
    · rfl
    · split
      · rfl
      · split
        · exact openWriter_files p _ _
        · split
          · rfl
          · exact openWriter_files _ _ _

theorem openNext_files (p : Paste κ) (rest : List FileDescription) (i : ℕ) :
    (p.openNext resolve io rest i).2.task.files = p.task.files := by
  induction rest generalizing p i with
  | nil => rfl
  | cons desc rest ih =>
      rw [openNext]
      split
      · split
        · rw [ih, createEmpty_task]
        · exact openNewWriter_files _
      · rw [ih, createDirectory_task]
      · exact ih p _

theorem nextFile_files (p : Paste κ) : (p.nextFile resolve io).2.task.files = p.task.files := by
  have hopened : (p.openNext resolve io (p.task.files.drop (p.progress.listIndex + 1).toNat)
      (p.progress.listIndex + 1).toNat).2.task.files = p.task.files := openNext_files p _ _
  unfold nextFile
  dsimp only
  split
  · next heq =>
      rw [heq] at hopened
      exact hopened
  · next heq =>
      rw [heq] at hopened
      unfold settle
      split
      · exact hopened
      · exact hopened

theorem updateNext_files (p : Paste κ) (size : ℕ) :
    (p.updateNext resolve io size).2.task.files = p.task.files := by
  unfold updateNext
  split
  · rfl
  · dsimp only
    split
    · exact nextFile_files _
    · split
      · rw [nextFile_files, onDone_files]
        rfl
      · unfold settle
        split <;> rfl

theorem handleFileContentsResponse_files (p : Paste κ) (data : List UInt8) :
    (p.handleFileContentsResponse resolve io data).2.task.files = p.task.files := by
  unfold handleFileContentsResponse
  split
  · rfl
  · rfl
  · exact updateNext_files _ _

end Paste

/-! ## One event -/

namespace PasteWorld

/-- How a paste stands after the requests `before`: it will not complete, the list is copied,
or the next block of a file has been asked for. -/
inductive Course (resolve : FilePath → κ) (disk : Disk) (files : List LocalFile)
    (descs : List FileDescription) (w : PasteWorld κ)
    (before : List (ℤ × FileContentsRequestMessage)) : Prop
  | failed (task : PasteTaskHandle) (h : w.task = some task)
      (doomed : Paste.Doomed (⟨w.volume, task⟩ : Paste κ))
  | copied (task : PasteTaskHandle) (contents : List (List UInt8)) (h : w.task = some task)
      (copied : Paste.Copied resolve disk files descs ⟨w.volume, task⟩ contents)
  | asked (task : PasteTaskHandle) (contents : List (List UInt8)) (taken : List UInt8)
      (desc : FileDescription) (file : LocalFile) (h : w.task = some task)
      (fetching : Paste.Fetching resolve disk files descs ⟨w.volume, task⟩ contents taken desc file)
      (sent : w.sent = before ++ [(desc.connId, Paste.request (⟨w.volume, task⟩ : Paste κ) desc)])

variable [DecidableEq κ] {io : PasteIo} {p : Paste κ} {contents : List (List UInt8)}
  {taken : List UInt8} {desc : FileDescription} {file : LocalFile}

theorem course_finish_stopped (h : p.Stopped) (retryCount : ℕ)
    (sent before : List (ℤ × FileContentsRequestMessage)) :
    (finish resolve io retryCount sent p).Course resolve disk files descs before :=
  .failed _ rfl (.inl h.onFinished)

theorem onFinished_files (h : Paste.Ended resolve p contents) :
    (p.onFinished resolve io).task.files = p.task.files := by
  have hdone : p.onDone resolve io = p := by
    rw [Paste.onDone, if_pos (.inl h.handle)]
  unfold Paste.onFinished
  rw [h.accounted.healthy, Option.isSome_none, if_neg Bool.false_ne_true, hdone]
  dsimp only
  split <;> rfl

theorem course_finish_ended (hlist : p.task.files = descs) (h : Paste.Ended resolve p contents)
    (hcopies : Copies disk files descs contents) (retryCount : ℕ)
    (sent before : List (ℤ × FileContentsRequestMessage)) :
    (finish resolve io retryCount sent p).Course resolve disk files descs before := by
  rcases Paste.Ended.onFinished io h with hstopped | hcompleted
  · exact .failed _ rfl (.inl hstopped)
  · exact .copied _ contents rfl ⟨(onFinished_files h).trans hlist, hcompleted, hcopies⟩

omit [DecidableEq κ] in
theorem isFinished_fetching (h : Paste.Opened resolve p contents taken desc) :
    p.isFinished = false :=
  Paste.isFinished_opened h.accounted h.listIndex (by exact_mod_cast h.lt)

theorem course_ask (h : Paste.Fetching resolve disk files descs p contents taken desc file)
    (now retryCount : ℕ) (sent : List (ℤ × FileContentsRequestMessage)) :
    (ask resolve io now retryCount sent p).Course resolve disk files descs sent := by
  have hpresent : p.task.files[p.progress.listIndex.toNat]? = some desc := by
    rw [h.opened.listIndex]
    exact h.opened.present
  have hsend : p.sendFileContentsRequest now = (.ok (some (desc.connId, p.request desc)),
      p.setProgress { p.progress with lastSentTime := now }) := by
    unfold Paste.sendFileContentsRequest
    rw [isFinished_fetching h.opened, if_neg Bool.false_ne_true, hpresent]
  have hopened : Paste.Opened resolve (p.setProgress { p.progress with lastSentTime := now })
      contents taken desc :=
    ⟨h.opened.accounted.mono (fun k node hk => hk.setProgress rfl id) rfl rfl rfl rfl rfl rfl,
      h.opened.handle, h.opened.listIndex, h.opened.present, h.opened.fetched, h.opened.index,
      h.opened.size, h.opened.offset, h.opened.incomplete, h.opened.named⟩
  rw [ask, hsend]
  exact .asked _ contents taken desc file rfl
    ⟨h.list, h.listed, hopened, h.source, h.copies, h.bytes, h.blocks, h.low⟩ rfl

theorem course_goOn (h : Paste.Fetching resolve disk files descs p contents taken desc file)
    (now retryCount : ℕ) (sent : List (ℤ × FileContentsRequestMessage)) :
    (goOn resolve io now retryCount sent p).Course resolve disk files descs sent := by
  rw [goOn, isFinished_fetching h.opened, if_neg Bool.false_ne_true]
  exact course_ask h now retryCount sent

theorem course_goOn_stopped (h : p.Stopped) (now retryCount : ℕ)
    (sent before : List (ℤ × FileContentsRequestMessage)) :
    (goOn resolve io now retryCount sent p).Course resolve disk files descs before := by
  rw [goOn, h.isFinished, if_pos rfl]
  exact course_finish_stopped h _ _ _

/-- The file is whole, and the task goes on behind it. -/
theorem course_goOn_reached (hlist : p.task.files = descs) (hlisted : Listed disk files descs)
    (hcopies : Copies disk files descs contents) (h : Paste.Reached resolve contents p)
    (now retryCount : ℕ) (sent : List (ℤ × FileContentsRequestMessage)) :
    (goOn resolve io now retryCount sent p).Course resolve disk files descs sent := by
  rcases Paste.fetching_of_reached hlist hlisted hcopies h with
    hstopped | ⟨contents', hended, hcopies'⟩ | ⟨contents', desc', file', hfetching⟩
  · exact course_goOn_stopped hstopped _ _ _ _
  · have hfinished : p.isFinished = true := by
      simp [Paste.isFinished, hended.listIndex]
    rw [goOn, hfinished, if_pos rfl]
    exact course_finish_ended hlist hended hcopies' _ _ _
  · exact course_goOn hfetching _ _ _

omit [DecidableEq κ] in
/-- An offset that is understood as it is has room for one block more below 2 GiB. -/
theorem block_le (h : Paste.Fetching resolve disk files descs p contents taken desc file)
    (hclear : taken.length % 2 ^ 32 < 2 ^ 31) : taken.length + blockSize ≤ 2 ^ 31 := by
  obtain ⟨n, hn⟩ := h.blocks
  have hle := h.low
  unfold blockSize at hn ⊢
  omega

/-- The block that was asked for. -/
theorem course_accept (h : Paste.Fetching resolve disk files descs p contents taken desc file)
    (hflush : io.flushError = none) (hsees : io.SeesAll)
    (hclear : taken.length % 2 ^ 32 < 2 ^ 31) {data : List UInt8}
    (hdata : data = ((disk.content file.path).drop taken.length).take
      (min blockSize (desc.size - taken.length)))
    (now retryCount : ℕ) (sent : List (ℤ × FileContentsRequestMessage)) :
    (goOn resolve io now retryCount sent (accept resolve io data p)).Course resolve disk files descs
      sent := by
  have hincomplete := h.opened.incomplete
  have hsize := h.size
  have hlength : data.length = min blockSize (desc.size - taken.length) := by
    rw [hdata, List.length_take, List.length_drop]
    omega
  have hjoined : taken ++ data =
      (disk.content file.path).take (taken ++ data).length := by
    rw [List.length_append, List.take_add, ← h.bytes, hlength, ← hdata]
  have hlow : (taken ++ data).length ≤ 2 ^ 31 := by
    rw [List.length_append, hlength]
    exact (Nat.add_le_add_left (Nat.min_le_left _ _) _).trans (block_le h hclear)
  have hresult : ∀ result, p.handleFileContentsResponse resolve io data = result →
      result.2.task.files = p.task.files := by
    rintro result rfl
    exact Paste.handleFileContentsResponse_files p data
  have hfail : ∀ err p', p.handleFileContentsResponse resolve io data = (.error err, p') →
      (goOn resolve io now retryCount sent (accept resolve io data p)).Course resolve disk files
        descs sent := by
    intro err p' heq
    rw [accept, heq]
    exact course_goOn_stopped (Paste.stopped_onError p' err) _ _ _ _
  by_cases hwrite : data = [] ∨ io.writeError = none
  · rcases lt_or_ge (taken.length + data.length) desc.size with hshort | hlong
    · obtain ⟨p', heq, hopened⟩ := Paste.opened_block h.opened hwrite hshort
      have hfiles : p'.task.files = p.task.files := hresult _ heq
      have hblock : data.length = blockSize := by
        rw [hlength]
        omega
      rw [accept, heq]
      refine course_goOn ⟨hfiles.trans h.list, h.listed, hopened, h.source, h.copies, hjoined, ?_,
        hlow⟩ now retryCount sent
      rw [List.length_append, hblock]
      exact (Nat.dvd_add_right h.blocks).mpr (Nat.dvd_refl _)
    · rcases Paste.reached_block h.opened hwrite hflush hsees hlong with ⟨err, p', heq⟩ |
        ⟨p', heq, hreached⟩
      · exact hfail err p' heq
      · have hfiles : p'.task.files = p.task.files := hresult _ heq
        have hwhole : (taken ++ data).length = (disk.content file.path).length := by
          rw [List.length_append]
          omega
        have hcopies : Copies disk files descs (contents ++ [taken ++ data]) := by
          refine Paste.copies_concat h.copies h.source hlow ?_
          rw [hjoined, hwhole, List.take_length]
        rw [accept, heq]
        exact course_goOn_reached (hfiles.trans h.list) h.listed hcopies hreached _ _ _
  · obtain ⟨hdata', hwrite⟩ := not_or.mp hwrite
    obtain ⟨code, hcode⟩ := Option.ne_none_iff_exists'.mp hwrite
    exact hfail (.fileError p.progress.downloadFilePath (.system code)) p
      (by rw [Paste.handleFileContentsResponse, h.opened.handle, if_neg hdata', hcode])

variable {w : PasteWorld κ} {task : PasteTaskHandle}
  {before : List (ℤ × FileContentsRequestMessage)}

/-- The answer to the request that is under way. -/
theorem course_receive (htask : w.task = some task)
    (h : Paste.Fetching resolve disk files descs ⟨w.volume, task⟩ contents taken desc file)
    (hflush : io.flushError = none) (hsees : io.SeesAll) {response : FileContentsResponse}
    (hanswers : Paste.Answers disk file contents.length taken desc response) (now : ℕ) :
    (w.receive resolve io now response).Course resolve disk files descs w.sent := by
  have hcurrent : ¬ ((⟨w.volume, task⟩ : Paste κ).isFinished = true ∨
      response.streamId ≠ (⟨w.volume, task⟩ : Paste κ).progress.listIndex) := by
    rw [isFinished_fetching h.opened, hanswers.streamId, h.opened.listIndex]
    simp
  have hpresent : task.files[response.streamId.toNat]? = some desc := by
    rw [hanswers.streamId]
    exact h.opened.present
  unfold receive
  rw [htask]
  dsimp only
  rw [if_neg hcurrent]
  split
  · unfold refuse
    split
    · exact course_goOn_stopped (.inl (by simp [Paste.setProgress, Paste.progress])) _ _ _ _
    · exact course_goOn h _ _ _
  · next hflags =>
      obtain ⟨hclear, hdata⟩ := hanswers.block (not_not.mp hflags)
      rw [hpresent]
      dsimp only
      rw [if_neg (not_not.mpr hanswers.connId.symm)]
      exact course_accept h hflush hsees hclear hdata _ _ _

omit [DecidableEq κ] in
theorem doomed_refuse (h : p.Doomed) (response : FileContentsResponse) (retryCount : ℕ) :
    (refuse response retryCount p).Doomed := by
  unfold refuse
  split
  · exact .inl (.inl (by simp [Paste.setProgress, Paste.progress]))
  · exact h

theorem course_goOn_doomed (h : p.Doomed) (now retryCount : ℕ)
    (sent before : List (ℤ × FileContentsRequestMessage)) :
    (goOn resolve io now retryCount sent p).Course resolve disk files descs before := by
  rcases h with hstopped | hstuck
  · exact course_goOn_stopped hstopped _ _ _ _
  · unfold goOn
    split
    · next hfinished => exact course_finish_stopped (hstuck.stopped hfinished) _ _ _
    · next hrunning =>
        obtain ⟨i, hlt, hlist⟩ := hstuck.listIndex
        have hpresent : p.task.files[p.progress.listIndex.toNat]? = some p.task.files[i] := by
          rw [hlist, Int.toNat_natCast]
          exact List.getElem?_eq_getElem hlt
        unfold ask Paste.sendFileContentsRequest
        rw [if_neg hrunning, hpresent]
        exact .failed _ rfl (.inr ⟨hstuck.handle, hstuck.listIndex⟩)

/-- A task that will not complete does not come back. -/
theorem course_receive_doomed (htask : w.task = some task)
    (h : (⟨w.volume, task⟩ : Paste κ).Doomed) (now : ℕ) (response : FileContentsResponse) :
    (w.receive resolve io now response).Course resolve disk files descs before := by
  unfold receive
  rw [htask]
  dsimp only
  split
  · exact .failed task htask h
  · next hcurrent =>
      obtain ⟨hrunning, -⟩ := not_or.mp hcurrent
      split
      · exact course_goOn_doomed (doomed_refuse h response _) _ _ _ _
      · split
        · exact .failed task htask h
        · split
          · exact .failed task htask h
          · have hstuck := h.resolve_left fun hstopped => hrunning hstopped.isFinished
            refine course_goOn_stopped ?_ _ _ _ _
            unfold accept Paste.handleFileContentsResponse
            rw [hstuck.handle]
            exact Paste.stopped_onError _ _

theorem course_cancel (htask : w.task = some task) :
    (w.cancel resolve io).Course resolve disk files descs before := by
  unfold cancel
  rw [htask]
  exact .failed _ rfl (.inl (Paste.Stopped.onCancelled (.inr rfl)))

/-- A timeout stops the task or changes nothing. -/
theorem timeout_cases (htask : w.task = some task) (now : ℕ) :
    w.timeout resolve io now = w ∨
      ∀ before, (w.timeout resolve io now).Course resolve disk files descs before := by
  unfold timeout Paste.checkReceiveTimeout
  rw [htask]
  dsimp only
  by_cases hfinished : (⟨w.volume, task⟩ : Paste κ).isFinished = true
  · rw [if_pos hfinished]
    exact .inl rfl
  · rw [if_neg hfinished]
    split
    · next heq =>
        split at heq
        · obtain ⟨-, rfl⟩ := Prod.mk.inj heq
          refine .inr fun before => course_finish_stopped ?_ _ _ _
          exact .inl (by simp [Paste.setProgress, Paste.progress])
        · cases heq
    · exact .inl rfl

/-- The first request. -/
theorem course_start (hlisted : Listed disk files descs) (hsees : io.SeesAll)
    (volume : Volume κ) (now : ℕ) (targetDir : String) :
    (start resolve io now targetDir descs ⟨volume, none, 0, []⟩).Course resolve disk files descs
      [] := by
  have haccounted : Paste.Accounted resolve ⟨volume, newTask now targetDir descs⟩ [] [] :=
    ⟨rfl, rfl, rfl, rfl, .nil⟩
  have hrunning : Paste.isFinished ⟨volume, newTask now targetDir descs⟩ = false :=
    Paste.isFinished_opened haccounted rfl (show (-1 : ℤ) < (descs.length : ℤ) by omega)
  have hstart : start resolve io now targetDir descs ⟨volume, none, 0, []⟩ =
      goOn resolve io now 0 []
        (Paste.nextFile resolve io ⟨volume, newTask now targetDir descs⟩).2 := by
    unfold start Paste.updateNext
    rw [hrunning]
    rfl
  have hfiles : (Paste.nextFile resolve io ⟨volume, newTask now targetDir descs⟩).2.task.files =
      descs := Paste.nextFile_files _
  rw [hstart]
  rcases Paste.reached_nextFile hsees haccounted rfl (Nat.zero_le _) rfl with
    ⟨err, p', heq, hstuck, -⟩ | ⟨p', heq, hreached⟩
  · rw [heq]
    exact course_goOn_doomed (.inr hstuck) _ _ _ _
  · rw [heq] at hfiles ⊢
    dsimp only at hfiles ⊢
    have hnone : Copies disk files descs [] := fun j file desc content _ _ hcontent => by
      simp at hcontent
    rcases Paste.fetching_of_reached hfiles hlisted hnone hreached with hstopped |
      ⟨contents, hended, hcopies⟩ | ⟨contents, desc, file, hfetching⟩
    · exact course_goOn_stopped hstopped _ _ _ _
    · have hfinished : p'.isFinished = true := by
        simp [Paste.isFinished, hended.listIndex]
      rw [goOn, hfinished, if_pos rfl]
      exact course_finish_ended hfiles hended hcopies _ _ _
    · exact course_goOn hfetching _ _ _

end PasteWorld

/-! ## Runs -/

namespace PasteSystem

/-- What is under way of a paste: nothing that matters, or the request for the next block, or
its answer. -/
inductive Underway (resolve : FilePath → κ) (disk : Disk) (files : List LocalFile)
    (descs : List FileDescription) (s : PasteSystem κ) : Prop
  | failed (task : PasteTaskHandle) (h : s.world.task = some task)
      (doomed : Paste.Doomed (⟨s.world.volume, task⟩ : Paste κ))
  | copied (task : PasteTaskHandle) (contents : List (List UInt8)) (h : s.world.task = some task)
      (copied : Paste.Copied resolve disk files descs ⟨s.world.volume, task⟩ contents)
  | asked (before : List (ℤ × FileContentsRequestMessage))
      (course : s.world.Course resolve disk files descs before) (served : s.served = before.length)
      (inFlight : s.inFlight = []) (serves : s.clip.Serves files)
  | answered (task : PasteTaskHandle) (contents : List (List UInt8)) (taken : List UInt8)
      (desc : FileDescription) (file : LocalFile) (response : FileContentsResponse)
      (h : s.world.task = some task)
      (fetching : Paste.Fetching resolve disk files descs ⟨s.world.volume, task⟩ contents taken desc
        file)
      (served : s.served = s.world.sent.length) (inFlight : s.inFlight = [response])
      (answers : Paste.Answers disk file contents.length taken desc response)
      (serves : s.clip.Serves files)

variable {s : PasteSystem κ}

theorem serve_world (s : PasteSystem κ) (disk : Disk) (io : ServeIo) :
    (s.serve disk io).world = s.world := by
  unfold serve
  split
  · rfl
  · split <;> rfl

theorem Underway.serve (h : Underway resolve disk files descs s) {io : ServeIo}
    (hread : io.read.readError = none) : Underway resolve disk files descs (s.serve disk io) := by
  have hworld := serve_world s disk io
  have hfailed : ∀ task, s.world.task = some task →
      Paste.Doomed (⟨s.world.volume, task⟩ : Paste κ) →
        Underway resolve disk files descs (s.serve disk io) := by
    intro task htask doomed
    exact .failed task (by rw [hworld]; exact htask) (by rw [hworld]; exact doomed)
  have hcopied : ∀ task contents, s.world.task = some task →
      Paste.Copied resolve disk files descs ⟨s.world.volume, task⟩ contents →
        Underway resolve disk files descs (s.serve disk io) := by
    intro task contents htask copied
    exact .copied task contents (by rw [hworld]; exact htask) (by rw [hworld]; exact copied)
  cases h with
  | failed task htask doomed => exact hfailed task htask doomed
  | copied task contents htask copied => exact hcopied task contents htask copied
  | asked before course served inFlight serves =>
      cases course with
      | failed task htask doomed => exact hfailed task htask doomed
      | copied task contents htask copied => exact hcopied task contents htask copied
      | asked task contents taken desc file htask fetching sent =>
          obtain rfl := fetching.list
          have hsize := rel_of_getElem? fetching.listed.sizes fetching.source
            fetching.opened.present
          obtain ⟨results, clip, response, hresults, hserves, hresponse, hanswers⟩ :=
            answers_request fetching.listed serves fetching.opened fetching.source hsize hread
          have hnext : s.world.sent[s.served]? = some (desc.connId,
              Paste.request (⟨s.world.volume, task⟩ : Paste κ) desc) := by
            rw [sent, served, List.getElem?_append_right le_rfl, Nat.sub_self]
            rfl
          have hserved : s.serve disk io =
              ⟨s.world, clip, s.served + 1, [response]⟩ := by
            unfold PasteSystem.serve
            rw [hnext]
            dsimp only
            rw [hresults]
            dsimp only
            rw [inFlight, List.nil_append, hresponse]
          rw [hserved]
          refine .answered task contents taken desc file response htask fetching ?_ rfl hanswers
            hserves
          rw [sent, List.length_append, List.length_singleton, served]
  | answered task contents taken desc file response htask fetching served inFlight answers serves =>
      have hnone : s.world.sent[s.served]? = none := by
        rw [served]
        exact List.getElem?_eq_none le_rfl
      have hsame : s.serve disk io = s := by
        rw [PasteSystem.serve, hnone]
      rw [hsame]
      exact .answered task contents taken desc file response htask fetching served inFlight answers
        serves

/-- Where no further request can have been made, the paste is over or copied. -/
theorem underway_of_course (h : s.world.Course resolve disk files descs s.world.sent) :
    Underway resolve disk files descs s := by
  cases h with
  | failed task htask doomed => exact .failed task htask doomed
  | copied task contents htask copied => exact .copied task contents htask copied
  | asked task contents taken desc file htask fetching sent => simp at sent

variable [DecidableEq κ]

theorem receive_finished {w : PasteWorld κ} {task : PasteTaskHandle} {io : PasteIo}
    (htask : w.task = some task) (hfinished : (⟨w.volume, task⟩ : Paste κ).isFinished = true)
    (now : ℕ) (response : FileContentsResponse) :
    w.receive resolve io now response = w := by
  unfold PasteWorld.receive
  rw [htask]
  exact if_pos (.inl hfinished)

omit [DecidableEq κ] in
theorem isFinished_copied {p : Paste κ} {contents : List (List UInt8)}
    (h : Paste.Copied resolve disk files descs p contents) : p.isFinished = true := by
  simp [Paste.isFinished, h.completed.ended.listIndex]

theorem Underway.deliver (h : Underway resolve disk files descs s) {io : PasteIo}
    (hflush : io.flushError = none) (hsees : io.SeesAll) (now : ℕ) :
    Underway resolve disk files descs (s.deliver resolve io now) := by
  unfold PasteSystem.deliver
  split
  · exact h
  · next response rest hflight =>
      cases h with
      | failed task htask doomed =>
          exact underway_of_course (PasteWorld.course_receive_doomed htask doomed now response)
      | copied task contents htask copied =>
          refine .copied task contents ?_ ?_
          all_goals rw [receive_finished htask (isFinished_copied copied)]
          · exact htask
          · exact copied
      | asked before course served inFlight serves =>
          rw [inFlight] at hflight
          cases hflight
      | answered task contents taken desc file response' htask fetching served inFlight answers
          serves =>
          rw [inFlight] at hflight
          obtain ⟨rfl, rfl⟩ := List.cons.inj hflight
          exact .asked s.world.sent
            (PasteWorld.course_receive htask fetching hflush hsees answers now) served rfl serves

omit [DecidableEq κ] in
theorem Underway.task (h : Underway resolve disk files descs s) :
    ∃ task, s.world.task = some task := by
  cases h with
  | failed task htask => exact ⟨task, htask⟩
  | copied task contents htask => exact ⟨task, htask⟩
  | asked before course =>
      cases course with
      | failed task htask => exact ⟨task, htask⟩
      | copied task contents htask => exact ⟨task, htask⟩
      | asked task _ _ _ _ htask => exact ⟨task, htask⟩
  | answered task _ _ _ _ _ htask => exact ⟨task, htask⟩

/-- No read of a served file and no flush of a pasted one fails, and what is in the target is
seen. -/
def Sound : PasteSystemEvent → Prop
  | .serve io => io.read.readError = none
  | .deliver io _ => io.flushError = none ∧ io.SeesAll
  | .cancel _ | .timeout _ _ => True

theorem Underway.step (h : Underway resolve disk files descs s) {event : PasteSystemEvent}
    (hsound : Sound event) : Underway resolve disk files descs (s.step resolve disk event) := by
  obtain ⟨task, htask⟩ := h.task
  cases event with
  | serve io => exact h.serve hsound
  | deliver io now => exact h.deliver hsound.1 hsound.2 now
  | cancel io => exact underway_of_course (PasteWorld.course_cancel htask)
  | timeout io now =>
      rcases PasteWorld.timeout_cases htask now with hsame | hcourse
      · change Underway resolve disk files descs
          { s with world := s.world.timeout resolve io now }
        rw [hsame]
        exact h
      · exact underway_of_course (hcourse _)

theorem Underway.run (h : Underway resolve disk files descs s) {events : List PasteSystemEvent}
    (hsound : ∀ event ∈ events, Sound event) :
    Underway resolve disk files descs (s.run resolve disk events) := by
  induction events generalizing s with
  | nil => exact h
  | cons event events ih =>
      exact ih (h.step (hsound event List.mem_cons_self))
        fun event hevent => hsound event (List.mem_cons_of_mem _ hevent)

omit [DecidableEq κ] in
/-- A task that completes has copied its list. -/
theorem Underway.copied_of_completes (h : Underway resolve disk files descs s)
    {task : PasteTaskHandle} (hcompletes : s.world.Completes task) :
    ∃ contents, Paste.Copied resolve disk files descs ⟨s.world.volume, task⟩ contents := by
  obtain ⟨htask, hfinished, herror, hcanceled⟩ := hcompletes
  have hfailed : ∀ task', s.world.task = some task' →
      ¬ Paste.Doomed (⟨s.world.volume, task'⟩ : Paste κ) := by
    intro task' htask' hdoomed
    obtain rfl := Option.some.inj (htask.symm.trans htask')
    have hstopped : Paste.Stopped ⟨s.world.volume, task⟩ := by
      rcases hdoomed with hstopped | hstuck
      · exact hstopped
      · exact hstuck.stopped hfinished
    rcases hstopped with hfailed | hstopped
    · exact hfailed herror
    · simp [Paste.progress, hcanceled] at hstopped
  have hcopied : ∀ task' contents, s.world.task = some task' →
      Paste.Copied resolve disk files descs ⟨s.world.volume, task'⟩ contents →
        ∃ contents, Paste.Copied resolve disk files descs ⟨s.world.volume, task⟩ contents := by
    intro task' contents htask' hcopied
    obtain rfl := Option.some.inj (htask.symm.trans htask')
    exact ⟨contents, hcopied⟩
  have hfetching : ∀ task' contents taken desc file, s.world.task = some task' →
      ¬ Paste.Fetching resolve disk files descs ⟨s.world.volume, task'⟩ contents taken desc
        file := by
    intro task' contents taken desc file htask' hfetching
    obtain rfl := Option.some.inj (htask.symm.trans htask')
    rw [PasteWorld.isFinished_fetching hfetching.opened] at hfinished
    cases hfinished
  cases h with
  | failed task' htask' doomed => exact absurd doomed (hfailed task' htask')
  | copied task' contents htask' copied => exact hcopied task' contents htask' copied
  | asked before course =>
      cases course with
      | failed task' htask' doomed => exact absurd doomed (hfailed task' htask')
      | copied task' contents htask' copied => exact hcopied task' contents htask' copied
      | asked task' contents taken desc file htask' fetching =>
          exact absurd fetching (hfetching task' contents taken desc file htask')
  | answered task' contents taken desc file _ htask' fetching =>
      exact absurd fetching (hfetching task' contents taken desc file htask')

/-- A file that was fetched by a paste which is over without an error. -/
theorem completed_paste_copies {clip : ClipFiles} (hlisted : Listed disk files descs)
    (hclip : clip.Serves files) (volume : Volume κ) {io : PasteIo} (hsees : io.SeesAll) (now : ℕ)
    (targetDir : String) {events : List PasteSystemEvent} (hsound : ∀ event ∈ events, Sound event)
    {s : PasteSystem κ}
    (hrun : s = run resolve disk (begin resolve io now targetDir descs volume clip) events)
    {task : PasteTaskHandle} (h : s.world.Completes task) (i : ℕ) (file : LocalFile)
    (desc : FileDescription) (hfile : files[i]? = some file) (hdesc : descs[i]? = some desc)
    (hfetched : desc.Fetched) :
    file.size.toNat ≤ 2 ^ 31 ∧ ∃ name, PasteName task.targetDir desc name ∧
      s.world.volume (resolve (.ofText name)) = some (.file (disk.content file.path)) := by
  have hbegin : Underway resolve disk files descs
      (begin resolve io now targetDir descs volume clip) :=
    .asked [] (PasteWorld.course_start hlisted hsees volume now targetDir) rfl rfl hclip
  have hunderway : Underway resolve disk files descs s := hrun ▸ hbegin.run hsound
  obtain ⟨contents, hlist, ⟨hended, -⟩, hcopies⟩ := hunderway.copied_of_completes h
  have hsaved := hended.accounted.saved
  rw [hended.all, List.take_length] at hsaved
  have hlt : i < contents.length := by
    rw [hended.all, hlist]
    exact (List.getElem?_eq_some_iff.mp hdesc).1
  have hcontent := List.getElem?_eq_getElem hlt
  obtain ⟨hbytes, hlow⟩ := hcopies i file desc _ hfile hdesc hcontent hfetched
  have hplace := rel_of_getElem? hsaved (hlist ▸ hdesc) hcontent
  rw [Paste.Saved, if_pos hfetched] at hplace
  obtain ⟨-, name, hname, hthere⟩ := hplace
  refine ⟨?_, name, hname, hbytes ▸ hthere.there⟩
  rw [hbytes, hlisted.unchanged file (List.mem_of_getElem? hfile)] at hlow
  exact hlow

/-- **What was copied is pasted.**  The list of the copied files arrives as its PDU, and the
paste asks for their contents.  However the steps of both sides follow each other, and
whatever fails but a read, a flush and a look at what is there, a paste that is over without
an error has put each file that is not empty under one of its names, with the bytes it has on
the other side; and none of these files is longer than 2 GiB. -/
theorem copied_files_pasted {pdu : List UInt8} {connId : ℤ} {clip : ClipFiles}
    (hpdu : buildFileListPdu files = some pdu) (hplain : ∀ file ∈ files, file.PlainName)
    (hfew : files.length < 2 ^ 31) (hparse : parseFileDescriptors pdu connId = .ok descs)
    (hunchanged : ∀ file ∈ files, (disk.content file.path).length = file.size.toNat)
    (hbounded : ∀ file ∈ files, file.size.toNat < 2 ^ 63)
    (hclip : clip.Serves files) (volume : Volume κ) {io : PasteIo} (hsees : io.SeesAll) (now : ℕ)
    (targetDir : String) {events : List PasteSystemEvent} (hsound : ∀ event ∈ events, Sound event)
    {s : PasteSystem κ}
    (hrun : s = run resolve disk (begin resolve io now targetDir descs volume clip) events)
    {task : PasteTaskHandle} (h : s.world.Completes task) :
    ∀ file ∈ files, file.isDir = false → file.size.toNat ≠ 0 →
      file.size.toNat ≤ 2 ^ 31 ∧
        ∃ name, PasteName task.targetDir (file.description connId) name ∧
          s.world.volume (resolve (.ofText name)) = some (.file (disk.content file.path)) := by
  intro file hmem hregular hsize
  have hdescs : descs = files.map fun file => file.description connId := by
    obtain ⟨records, hrecords, rfl⟩ := Option.map_eq_some_iff.mp hpdu
    rw [parseFileDescriptors_pdu (mapM_asBin_iff.mp hrecords) hplain (by omega)] at hparse
    exact (Except.ok.inj hparse).symm
  have hlisted : Listed disk files descs := by
    refine ⟨?_, hunchanged, hbounded, by rw [hdescs, List.length_map]; exact hfew⟩
    rw [hdescs, List.forall₂_map_right_iff, List.forall₂_same]
    exact fun _ _ => rfl
  obtain ⟨i, hi⟩ := List.mem_iff_getElem?.mp hmem
  have hdesc : descs[i]? = some (file.description connId) := by
    rw [hdescs, List.getElem?_map, hi]
    rfl
  have hfetched : (file.description connId).Fetched := by
    refine ⟨?_, hsize⟩
    rw [LocalFile.description, hregular]
    rfl
  exact completed_paste_copies hlisted hclip volume hsees now targetDir hsound hrun h i file _ hi
    hdesc hfetched

/-- The task after a paste of the three bytes of `sampleFile`. -/
def sampleCopyTask : PasteTaskHandle where
  progress :=
    { listIndex := 1, offset := 0, totalSize := 3, currentSize := 3, lastSentTime := 0,
      downloadFileIndex := -1, downloadFileSize := 0, downloadFilePath := "", fileHandle := none,
      error := none, isCanceled := false }
  targetDir := "/t"
  files := [(sampleFile ["a.txt"]).description 1]

def sampleDisk : Disk := ⟨fun _ => [7, 8, 9], fun _ => true⟩

/-- `sampleFile` is pasted where there is a file of its name. -/
def sampleSystem : PasteSystem FilePath :=
  begin id {} 0 "/t" [(sampleFile ["a.txt"]).description 1] PasteWorld.sampleVolume
    ⟨[OpenFile.tryOpen (sampleFile ["a.txt"])], 0⟩

theorem copied_files_pasted_sample :
    ∃ name, PasteName "/t" ((sampleFile ["a.txt"]).description 1) name ∧
      (run id sampleDisk sampleSystem [.serve {}, .deliver {} 5]).world.volume (.ofText name) =
        some (.file [7, 8, 9]) := by
  have hplain : ∀ file ∈ [sampleFile ["a.txt"]], file.PlainName := by
    simp only [List.mem_singleton, forall_eq]
    exact ⟨by decide, by decide⟩
  have hnames : ∀ file ∈ [sampleFile ["a.txt"]], file.nameUnits.length ≤ 260 := by
    simp only [List.mem_singleton, forall_eq]
    decide
  obtain ⟨records, hrecords⟩ := (mapM_asBin_isSome_iff [sampleFile ["a.txt"]]).mpr hnames
  have hpdu : buildFileListPdu [sampleFile ["a.txt"]] =
      some (putLe 4 [sampleFile ["a.txt"]].length ++ records.flatten) :=
    Option.map_eq_some_iff.mpr ⟨records, hrecords, rfl⟩
  have hparse : parseFileDescriptors (putLe 4 [sampleFile ["a.txt"]].length ++ records.flatten) 1 =
      .ok [(sampleFile ["a.txt"]).description 1] :=
    parseFileDescriptors_pdu (mapM_asBin_iff.mp hrecords) hplain (by decide) 1
  have hserves : (⟨[OpenFile.tryOpen (sampleFile ["a.txt"])], 0⟩ : ClipFiles).Serves
      [sampleFile ["a.txt"]] := by
    refine ⟨rfl, ?_⟩
    simp only [List.mem_singleton, forall_eq]
    exact ⟨fun _ => rfl, fun position hposition => by cases hposition⟩
  have hsound : ∀ event ∈ [PasteSystemEvent.serve {}, .deliver {} 5], Sound event := by
    simp [Sound, PasteIo.SeesAll]
  have hunchanged : ∀ file ∈ [sampleFile ["a.txt"]],
      (sampleDisk.content file.path).length = file.size.toNat := by
    simp only [List.mem_singleton, forall_eq]
    rfl
  have hcompletes : (run id sampleDisk sampleSystem [.serve {}, .deliver {} 5]).world.Completes
      sampleCopyTask := by
    unfold PasteWorld.Completes
    exact ⟨by decide +kernel, by decide +kernel, rfl, rfl⟩
  have hsees : PasteIo.SeesAll {} := fun _ => rfl
  obtain ⟨-, hpasted⟩ := copied_files_pasted hpdu hplain (by decide) hparse hunchanged
    (by simp [sampleFile]) hserves PasteWorld.sampleVolume hsees 0 "/t" hsound rfl hcompletes
    (sampleFile ["a.txt"]) List.mem_cons_self rfl (by decide)
  exact hpasted

end PasteSystem

end RustAdmin.Clipboard
