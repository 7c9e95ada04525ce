import RustAdmin.Clipboard.PasteTask

/-!
# What a paste leaves alone

A name is taken only where nothing is seen at its place, and the only node that a task
removes or replaces is its own temporary file.  What is settled, in the target or by an
earlier paste, stays whatever the other side sends and whatever call fails, as long as it is
seen when its place is looked at.

## Strategy

- A node is settled (`Paste.Settled`) when it is there and is not the temporary file of the
  task.  One lemma for each operation says that a settled node stays so.
- An operation writes to the temporary file or to a place that it has found vacant.
  `getFirstFilename_free` and `getNewFilename_free` give the place, and `Volume.Vacant.ne`
  keeps it apart from every settled node that is seen.
- `Settled.step` collects the events of the worker, and `Settled.run` follows them by
  induction on the list.
-/

namespace RustAdmin.Clipboard

open RustAdmin.Support

variable {κ : Type} {resolve : FilePath → κ} {io : PasteIo}

/-! ## Volumes -/

/-- Every node that is there stays. -/
def Volume.Extends (volume volume' : Volume κ) : Prop :=
  ∀ k node, volume k = some node → volume' k = some node

theorem Volume.Extends.refl (volume : Volume κ) : volume.Extends volume := fun _ _ h => h

theorem Volume.Extends.trans {volume volume' volume'' : Volume κ} (h : volume.Extends volume')
    (h' : volume'.Extends volume'') : volume.Extends volume'' :=
  fun k node hk => h' k node (h k node hk)

/-- Whether something is at the place `k` is seen on every path that leads there. -/
def PasteIo.Sees (resolve : FilePath → κ) (io : PasteIo) (k : κ) : Prop :=
  ∀ path, resolve path = k → io.existsError path = false

/-- Whatever is there is seen. -/
def PasteIo.SeesAll (io : PasteIo) : Prop := ∀ path, io.existsError path = false

theorem PasteIo.SeesAll.sees (h : io.SeesAll) (k : κ) : io.Sees resolve k := fun path _ => h path

/-- Nothing is at the place of the path, or it is not seen. -/
def Volume.Vacant (resolve : FilePath → κ) (io : PasteIo) (volume : Volume κ)
    (path : FilePath) : Prop :=
  io.Sees resolve (resolve path) → volume (resolve path) = none

theorem Volume.vacant_of_not_exists {volume : Volume κ} {path : FilePath}
    (h : volume.exists resolve io path = false) : volume.Vacant resolve io path := by
  intro hsees
  simpa [Volume.exists, hsees path rfl] using h

/-! ## Free names -/

theorem firstFree_free {taken : String → Bool} {name : ℕ → String} {attempts i : ℕ}
    {path : String} (h : firstFree taken name attempts i = some path) :
    taken path = false ∧ ∃ n, i ≤ n ∧ n < i + attempts ∧ path = name n := by
  induction attempts generalizing i with
  | zero => cases h
  | succ attempts ih =>
      rw [firstFree] at h
      split at h
      · obtain ⟨hfree, n, hlow, hhigh, rfl⟩ := ih h
        exact ⟨hfree, n, by omega, by omega, rfl⟩
      · next hfree =>
          obtain rfl := Option.some.inj h
          exact ⟨by simpa using hfree, i, le_rfl, by omega, rfl⟩

/-- A name that a file may get: its own, or a numbered one. -/
def NameOf (path : String) (kind : FileType) (name : String) : Prop :=
  name = path ∨ ∃ n, 1 ≤ n ∧ n < 9999999 ∧ name = numberedName path kind n

theorem getFirstFilename_free {volume : Volume κ} {path name : String} {kind : FileType}
    (h : getFirstFilename resolve volume io path kind = some name) :
    volume.Vacant resolve io (.ofText name) ∧ NameOf path kind name := by
  unfold getFirstFilename at h
  dsimp only at h
  split at h
  · next hfree =>
      obtain rfl := Option.some.inj h
      exact ⟨Volume.vacant_of_not_exists (by simpa using hfree), .inl rfl⟩
  · split at h
    · cases h
    · obtain ⟨hfree, n, hlow, hhigh, rfl⟩ := firstFree_free h
      exact ⟨Volume.vacant_of_not_exists hfree, .inr ⟨n, hlow, by omega, rfl⟩⟩

theorem getNewFilename_free {volume : Volume κ} {targetDir name : String}
    {fileDesc : FileDescription}
    (h : getNewFilename resolve volume io targetDir fileDesc = some name) :
    volume.Vacant resolve io (.ofText name) ∧
      NameOf (joinPath targetDir fileDesc.name) fileDesc.kind name := by
  unfold getNewFilename at h
  dsimp only at h
  split at h
  · exact getFirstFilename_free h
  · next hfree =>
      obtain rfl := Option.some.inj h
      exact ⟨Volume.vacant_of_not_exists (by simpa using hfree), .inl rfl⟩

/-! ## Settled nodes -/

/-- The temporary file is no longer written to, and where it must be `renamed`, it has been. -/
def PasteTaskProgress.Idle (renamed : Bool) (progress : PasteTaskProgress) : Prop :=
  progress.fileHandle = none ∧ (renamed → progress.downloadFilePath = "")

/-- The node is there, and it is not the temporary file of the task. -/
structure Paste.Settled (resolve : FilePath → κ) (renamed : Bool) (p : Paste κ) (k : κ)
    (node : Node) : Prop where
  there : p.volume k = some node
  apart : p.progress.Idle renamed ∨ k ≠ p.temporary resolve

variable {renamed : Bool}

/-- The volume has grown, and the temporary file is what it was. -/
theorem Paste.Settled.extend {p p' : Paste κ} {k : κ} {node : Node}
    (h : p.Settled resolve renamed k node)
    (hvolume : p.volume.Extends p'.volume)
    (hpath : p'.progress.downloadFilePath = p.progress.downloadFilePath)
    (hhandle : p.progress.fileHandle = none → p'.progress.fileHandle = none) :
    p'.Settled resolve renamed k node := by
  refine ⟨hvolume k node h.there, ?_⟩
  rcases h.apart with ⟨hnone, hempty⟩ | hne
  · exact .inl ⟨hhandle hnone, fun hrenamed => hpath.trans (hempty hrenamed)⟩
  · refine .inr ?_
    rw [temporary, hpath]
    exact hne

theorem Paste.Settled.setProgress {p : Paste κ} {k : κ} {node : Node}
    (h : p.Settled resolve renamed k node) {progress : PasteTaskProgress}
    (hpath : progress.downloadFilePath = p.progress.downloadFilePath)
    (hhandle : p.progress.fileHandle = none → progress.fileHandle = none) :
    (p.setProgress progress).Settled resolve renamed k node :=
  h.extend (.refl _) hpath hhandle

theorem Volume.Vacant.ne {volume : Volume κ} {path : FilePath}
    (h : volume.Vacant resolve io path) {k : κ} {node : Node} (hthere : volume k = some node)
    (hsees : io.Sees resolve k) : k ≠ resolve path := by
  rintro rfl
  rw [h hsees] at hthere
  cases hthere

theorem Paste.Settled.settle {p : Paste κ} {k : κ} {node : Node}
    (h : p.Settled resolve renamed k node) : p.settle.Settled resolve renamed k node := by
  unfold Paste.settle
  split
  · exact h.setProgress rfl id
  · exact h

/-! ## Calls of the system -/

variable [DecidableEq κ]

theorem Volume.extends_set {volume : Volume κ} {place : κ} (h : volume place = none)
    (node : Option Node) : volume.Extends (volume.set place node) := by
  intro k old hk
  have hne : k ≠ place := by
    rintro rfl
    rw [h] at hk
    cases hk
  rw [Volume.set, Function.update_of_ne hne, hk]

theorem Volume.extends_createDirs (volume : Volume κ) (dirs : List FilePath) :
    volume.Extends (volume.createDirs resolve dirs) := by
  induction dirs generalizing volume with
  | nil => exact .refl volume
  | cons dir rest ih =>
      rw [createDirs]
      refine .trans ?_ (ih _)
      split
      · exact .refl volume
      · next h => exact extends_set (by simpa using h) _

theorem Volume.extends_createDirAll (volume : Volume κ) (io : PasteIo) (path : FilePath) :
    volume.Extends (volume.createDirAll resolve io path).2 := by
  unfold createDirAll
  cases io.createDirError path with
  | none => exact extends_createDirs volume _
  | some failure => exact extends_createDirs volume _

theorem Volume.rename_of_ne {volume : Volume κ} {source target : FilePath} {k : κ}
    (hsource : k ≠ resolve source) (htarget : k ≠ resolve target) :
    volume.rename resolve source target k = volume k := by
  unfold rename
  split
  · rfl
  · rw [set, Function.update_of_ne htarget, set, Function.update_of_ne hsource]

/-! ## One task -/

namespace Paste

variable {p : Paste κ} {k : κ} {node : Node}

theorem Settled.set (h : Settled resolve renamed p k node) {place : κ} (hne : k ≠ place)
    (other : Option Node) :
    Settled resolve renamed { p with volume := p.volume.set place other } k node :=
  ⟨(Function.update_of_ne hne _ _).trans h.there, h.apart⟩

theorem Settled.closeWriter (h : Settled resolve renamed p k node) :
    Settled resolve renamed (p.closeWriter resolve io) k node := by
  unfold Paste.closeWriter
  cases hhandle : p.progress.fileHandle with
  | none => exact h
  | some taken =>
      have hne : k ≠ p.temporary resolve :=
        h.apart.resolve_left fun hidle => by simp [hidle.1] at hhandle
      exact ⟨by simpa [Volume.set, hne] using h.there, .inr hne⟩

theorem closeWriter_progress :
    (p.closeWriter resolve io).progress = { p.progress with fileHandle := none } := by
  unfold Paste.closeWriter
  cases hhandle : p.progress.fileHandle with
  | none =>
      change p.progress = _
      rw [← hhandle]
  | some taken => rfl

theorem Settled.onCancelled (h : Settled resolve true p k node) :
    Settled resolve true (p.onCancelled resolve io) k node := by
  have hclosed : Settled resolve true (p.closeWriter resolve io) k node := h.closeWriter
  unfold Paste.onCancelled
  generalize p.closeWriter resolve io = q at hclosed
  dsimp only
  split
  · exact hclosed
  · next hpath =>
      have hne : k ≠ q.temporary resolve :=
        hclosed.apart.resolve_left fun hidle => hpath (.inl (hidle.2 rfl))
      split
      · exact ⟨by simpa [Volume.set, hne] using hclosed.there, .inr hne⟩
      · exact hclosed

theorem Settled.onError (h : Settled resolve true p k node) (error : PasteError) :
    Settled resolve true (p.onError resolve io error) k node :=
  Settled.onCancelled (h.setProgress rfl id)

theorem Settled.onDone (h : Settled resolve renamed p k node) (hsees : io.Sees resolve k) :
    Settled resolve renamed (p.onDone resolve io) k node := by
  have hclosed : Settled resolve renamed (p.closeWriter resolve io) k node := h.closeWriter
  unfold Paste.onDone
  split
  · exact h
  · next hopen =>
      have hne : k ≠ p.temporary resolve :=
        h.apart.resolve_left fun hidle => hopen (.inl hidle.1)
      have hprogress : (p.closeWriter resolve io).progress = _ := closeWriter_progress
      generalize p.closeWriter resolve io = q at hclosed hprogress
      dsimp only
      split
      · exact hclosed
      · split
        · exact hclosed
        · next fileDesc _ name hname =>
            have hsource : k ≠ resolve (.ofText q.progress.downloadFilePath) := by
              rw [hprogress]
              exact hne
            have htarget : k ≠ resolve (.ofText name) :=
              (getNewFilename_free hname).1.ne hclosed.there hsees
            have hhandle : q.progress.fileHandle = none := by rw [hprogress]
            refine ⟨?_, .inl ⟨hhandle, fun _ => rfl⟩⟩
            have hrename : (q.volume.rename resolve (.ofText q.progress.downloadFilePath)
                (.ofText name)) k = q.volume k := Volume.rename_of_ne hsource htarget
            by_cases hfails : io.renameError = true
            · simpa [hfails] using hclosed.there
            · simpa [hfails, hrename] using hclosed.there

theorem Settled.onFinished (h : Settled resolve true p k node) (hsees : io.Sees resolve k) :
    Settled resolve true (p.onFinished resolve io) k node := by
  have hended : Settled resolve true
      (if p.progress.error.isSome then p.onCancelled resolve io else p.onDone resolve io)
      k node := by
    split
    · exact h.onCancelled
    · exact h.onDone hsees
  unfold Paste.onFinished
  generalize (if p.progress.error.isSome then p.onCancelled resolve io
    else p.onDone resolve io) = q at hended
  dsimp only
  split
  · exact hended.setProgress rfl id
  · exact hended

theorem create_eq_ok {path : String} {p' : Paste κ} (h : p.create resolve io path = .ok p') :
    p' = { p with volume := p.volume.set (resolve (.ofText path)) (some (.file [])) } := by
  unfold create at h
  split at h
  · cases h
  · split at h
    · cases h
    · exact (Except.ok.inj h).symm

theorem Settled.createEmpty (h : Settled resolve renamed p k node) (hsees : io.Sees resolve k)
    (fileDesc : FileDescription) :
    Settled resolve renamed (p.createEmpty resolve io fileDesc) k node := by
  unfold Paste.createEmpty
  split
  · exact h
  · next name hname =>
      split
      · exact h
      · next p' hcreate =>
          obtain rfl := create_eq_ok hcreate
          exact h.set ((getNewFilename_free hname).1.ne h.there hsees) _

theorem Settled.createDirectory (h : Settled resolve renamed p k node)
    (fileDesc : FileDescription) :
    Settled resolve renamed (p.createDirectory resolve io fileDesc) k node := by
  unfold Paste.createDirectory
  dsimp only
  split
  · exact h
  · exact h.extend (Volume.extends_createDirAll _ _ _) rfl id

/-- A new writer makes a place the temporary file where nothing was. -/
theorem Settled.openWriter (h : Settled resolve renamed p k node) (file : FileDescription)
    {path : String} (hne : k ≠ resolve (.ofText path)) :
    Settled resolve renamed (p.openWriter resolve io file path) k node := by
  unfold Paste.openWriter
  split
  · next p' hcreate =>
      obtain rfl := create_eq_ok hcreate
      refine ⟨?_, .inr hne⟩
      exact (Function.update_of_ne hne _ _).trans h.there
  · exact h.setProgress rfl id

theorem Settled.openNewWriter (h : Settled resolve renamed p k node)
    (hsees : io.Sees resolve k) :
    Settled resolve renamed (p.openNewWriter resolve io).2 k node := by
  unfold Paste.openNewWriter
  split
  · exact h
  · dsimp only
    split
    · exact h
    · next path hname =>
        have hne : k ≠ resolve (.ofText path) :=
          (getFirstFilename_free hname).1.ne h.there hsees
        split
        · exact h
        · next parent _ =>
            split
            · exact h.openWriter _ hne
            · have hmade : Settled resolve renamed
                  { p with volume := (p.volume.createDirAll resolve io parent).2 } k node :=
                h.extend (Volume.extends_createDirAll _ _ _) rfl id
              split
              · exact hmade
              · exact hmade.openWriter _ hne

theorem Settled.openNext (h : Settled resolve renamed p k node) (hsees : io.Sees resolve k)
    (files : List FileDescription) (i : ℕ) :
    Settled resolve renamed (p.openNext resolve io files i).2 k node := by
  induction files generalizing i p with
  | nil => exact h
  | cons fileDesc rest ih =>
      rw [Paste.openNext]
      split
      · split
        · exact ih (h.createEmpty hsees fileDesc) _
        · exact Settled.openNewWriter (h.setProgress rfl id) hsees
      · exact ih (h.createDirectory fileDesc) _
      · exact ih h _

theorem Settled.nextFile (h : Settled resolve renamed p k node) (hsees : io.Sees resolve k) :
    Settled resolve renamed (p.nextFile resolve io).2 k node := by
  have hopened := h.openNext hsees
    (p.task.files.drop (p.progress.listIndex + 1).toNat) (p.progress.listIndex + 1).toNat
  unfold Paste.nextFile
  dsimp only
  split
  · next heq =>
      rw [heq] at hopened
      exact hopened
  · next heq =>
      rw [heq] at hopened
      exact hopened.settle

theorem Settled.updateNext (h : Settled resolve renamed p k node) (hsees : io.Sees resolve k)
    (size : ℕ) :
    Settled resolve renamed (p.updateNext resolve io size).2 k node := by
  unfold Paste.updateNext
  split
  · exact h
  · have hcounted : Settled resolve renamed (p.setProgress { p.progress with
        currentSize := (p.progress.currentSize + size) % 2 ^ 64 }) k node := h.setProgress rfl id
    generalize p.setProgress { p.progress with
      currentSize := (p.progress.currentSize + size) % 2 ^ 64 } = q at hcounted
    dsimp only
    split
    · exact hcounted.nextFile hsees
    · split
      · exact (hcounted.onDone hsees).nextFile hsees
      · exact Settled.settle (hcounted.setProgress rfl id)

theorem Settled.handleFileContentsResponse (h : Settled resolve renamed p k node)
    (hsees : io.Sees resolve k) (data : List UInt8) :
    Settled resolve renamed (p.handleFileContentsResponse resolve io data).2 k node := by
  unfold Paste.handleFileContentsResponse
  split
  · exact h
  · exact h
  · next taken hhandle _ =>
      have hwritten : Settled resolve renamed
          (p.setProgress { p.progress with fileHandle := some (taken ++ data) }) k node := by
        refine h.setProgress rfl fun hnone => ?_
        rw [hhandle] at hnone
        cases hnone
      exact hwritten.updateNext hsees _

end Paste

/-! ## Runs -/

namespace PasteWorld

/-- The node is there, and it is not the temporary file of a task. -/
structure Settled (resolve : FilePath → κ) (w : PasteWorld κ) (k : κ) (node : Node) : Prop where
  there : w.volume k = some node
  apart : ∀ task, w.task = some task → Paste.Settled resolve true ⟨w.volume, task⟩ k node

variable {w : PasteWorld κ} {k : κ} {node : Node}

omit [DecidableEq κ] in
theorem settled_of_task {p : Paste κ} (h : p.Settled resolve true k node) (retryCount : ℕ)
    (sent : List (ℤ × FileContentsRequestMessage)) :
    Settled resolve ⟨p.volume, some p.task, retryCount, sent⟩ k node := by
  refine ⟨h.there, fun task htask => ?_⟩
  obtain rfl := Option.some.inj htask
  exact h

theorem settled_ask {p : Paste κ} (h : p.Settled resolve true k node) (now retryCount : ℕ)
    (sent : List (ℤ × FileContentsRequestMessage)) :
    (ask resolve io now retryCount sent p).Settled resolve k node := by
  unfold ask Paste.sendFileContentsRequest
  split
  · next heq =>
      split at heq
      · obtain ⟨-, rfl⟩ := Prod.mk.inj heq
        exact settled_of_task h _ _
      · split at heq
        · cases heq
        · obtain ⟨-, rfl⟩ := Prod.mk.inj heq
          refine settled_of_task ?_ _ _
          exact h.setProgress rfl id
  · next err p' heq =>
      split at heq
      · cases heq
      · split at heq
        · obtain ⟨-, rfl⟩ := Prod.mk.inj heq
          exact settled_of_task (h.onError err) _ _
        · cases heq

theorem settled_finish {p : Paste κ} (h : p.Settled resolve true k node)
    (hsees : io.Sees resolve k) (retryCount : ℕ) (sent : List (ℤ × FileContentsRequestMessage)) :
    (finish resolve io retryCount sent p).Settled resolve k node :=
  settled_of_task (h.onFinished hsees) _ _

theorem settled_goOn {p : Paste κ} (h : p.Settled resolve true k node)
    (hsees : io.Sees resolve k) (now retryCount : ℕ)
    (sent : List (ℤ × FileContentsRequestMessage)) :
    (goOn resolve io now retryCount sent p).Settled resolve k node := by
  unfold goOn
  split
  · exact settled_finish h hsees 0 sent
  · exact settled_ask h now retryCount sent

theorem Settled.start (h : w.Settled resolve k node) (hsees : io.Sees resolve k) (now : ℕ)
    (targetDir : String) (files : List FileDescription) :
    (w.start resolve io now targetDir files).Settled resolve k node := by
  have hnew : Paste.Settled resolve true ⟨w.volume, newTask now targetDir files⟩ k node :=
    ⟨h.there, .inl ⟨rfl, fun _ => rfl⟩⟩
  have hopened := hnew.updateNext hsees 0
  unfold PasteWorld.start
  split
  · exact h
  · dsimp only
    split
    · exact settled_finish hopened hsees _ _
    · exact settled_ask hopened _ _ _

theorem Settled.cancel (h : w.Settled resolve k node) :
    (w.cancel resolve io).Settled resolve k node := by
  unfold PasteWorld.cancel
  split
  · exact h
  · next task htask =>
      have hp : Paste.Settled resolve true ⟨w.volume, task⟩ k node := h.apart task htask
      refine settled_of_task (Paste.Settled.onCancelled ?_) _ _
      exact hp.setProgress rfl id

theorem settled_accept {p : Paste κ} (h : p.Settled resolve true k node)
    (hsees : io.Sees resolve k) (data : List UInt8) :
    (accept resolve io data p).Settled resolve true k node := by
  have hwritten := h.handleFileContentsResponse hsees data
  unfold accept
  split
  · next heq =>
      rw [heq] at hwritten
      exact hwritten
  · next heq =>
      rw [heq] at hwritten
      exact hwritten.onError _

omit [DecidableEq κ] in
theorem settled_refuse {p : Paste κ} (h : p.Settled resolve true k node)
    (response : FileContentsResponse) (retryCount : ℕ) :
    (refuse response retryCount p).Settled resolve true k node := by
  unfold refuse
  split
  · exact h.setProgress rfl id
  · exact h

theorem Settled.receive (h : w.Settled resolve k node) (hsees : io.Sees resolve k) (now : ℕ)
    (response : FileContentsResponse) :
    (w.receive resolve io now response).Settled resolve k node := by
  unfold PasteWorld.receive
  split
  · exact h
  · next task htask =>
      have hp : Paste.Settled resolve true ⟨w.volume, task⟩ k node := h.apart task htask
      dsimp only
      split
      · exact h
      · split
        · exact settled_goOn (settled_refuse hp response _) hsees _ _ _
        · split
          · exact h
          · split
            · exact h
            · exact settled_goOn (settled_accept hp hsees _) hsees _ _ _

theorem Settled.timeout (h : w.Settled resolve k node) (hsees : io.Sees resolve k) (now : ℕ) :
    (w.timeout resolve io now).Settled resolve k node := by
  unfold PasteWorld.timeout
  split
  · exact h
  · next task htask =>
      have hp : Paste.Settled resolve true ⟨w.volume, task⟩ k node := h.apart task htask
      unfold Paste.checkReceiveTimeout
      split
      · next heq =>
          split at heq
          · cases heq
          · split at heq
            · obtain ⟨-, rfl⟩ := Prod.mk.inj heq
              refine settled_finish (Paste.Settled.setProgress hp ?_ ?_) hsees 0 w.sent
              · rfl
              · exact id
            · cases heq
      · exact h

theorem Settled.step (h : w.Settled resolve k node) (hsees : io.Sees resolve k)
    (event : PasteEvent) : (w.step resolve io event).Settled resolve k node := by
  cases event with
  | start now targetDir files => exact h.start hsees now targetDir files
  | cancel => exact h.cancel
  | received now response => exact h.receive hsees now response
  | timeout now => exact h.timeout hsees now

theorem Settled.run (h : w.Settled resolve k node) {events : List (PasteIo × PasteEvent)}
    (hsees : ∀ event ∈ events, event.1.Sees resolve k) :
    (w.run resolve events).Settled resolve k node := by
  induction events generalizing w with
  | nil => exact h
  | cons event events ih =>
      exact ih (h.step (hsees event List.mem_cons_self) event.2)
        fun event hevent => hsees event (List.mem_cons_of_mem _ hevent)

/-- **Nothing settled is touched.**  What is in the target before a paste, and what an
earlier paste has put there, stays as it is through every later event in which it is seen
when its place is looked at: whatever the other side sends, and whatever other call fails. -/
theorem settled_nodes_stay (volume : Volume κ) (earlier later : List (PasteIo × PasteEvent))
    {k : κ} {node : Node}
    (h : (run resolve ⟨volume, none, 0, []⟩ earlier).Settled resolve k node)
    (hsees : ∀ event ∈ later, event.1.Sees resolve k) :
    (run resolve ⟨volume, none, 0, []⟩ (earlier ++ later)).volume k = some node := by
  rw [run, List.foldl_append]
  exact (h.run hsees).there

def sampleVolume : Volume FilePath := fun path =>
  if path.parts = ["t"] then some .directory
  else if path.parts = ["t", "a.txt"] then some (.file [9]) else none

def sampleDescription (name : String) (size : ℕ) : FileDescription :=
  ⟨1, name, .file, 0, 0, 0, 0, size, 0o644⟩

/-- A paste of one file whose bytes come in one answer. -/
def samplePaste (name : String) (data : List UInt8) : List (PasteIo × PasteEvent) :=
  [({}, .start 0 "/t" [sampleDescription name data.length]), ({}, .received 10 ⟨1, 1, 0, data⟩)]

omit [DecidableEq κ] in
/-- Without a temporary file, whatever is there is settled. -/
theorem settled_of_there (h : w.volume k = some node)
    (htask : w.task.all fun task =>
      task.progress.fileHandle = none ∧ task.progress.downloadFilePath = "") :
    w.Settled resolve k node := by
  refine ⟨h, fun task heq => ⟨h, .inl ?_⟩⟩
  have hidle : task.progress.fileHandle = none ∧ task.progress.downloadFilePath = "" := by
    simpa [heq] using htask
  exact ⟨hidle.1, fun _ => hidle.2⟩

theorem settled_nodes_stay_paste :
    (run id ⟨sampleVolume, none, 0, []⟩ (samplePaste "a.txt" [1, 2] ++
      samplePaste "a.txt" [3, 4, 5])).volume ⟨true, ["t", "a-1.txt"]⟩ = some (.file [1, 2]) := by
  have hsettled : (run id ⟨sampleVolume, none, 0, []⟩ (samplePaste "a.txt" [1, 2])).Settled id
      ⟨true, ["t", "a-1.txt"]⟩ (.file [1, 2]) :=
    settled_of_there (by decide +kernel) (by decide +kernel)
  refine settled_nodes_stay sampleVolume _ _ hsettled ?_
  simp [samplePaste, PasteIo.Sees]

/-- A file that cannot be looked at is replaced. -/
example : (run id ⟨sampleVolume, none, 0, []⟩
    [({}, .start 0 "/t" [sampleDescription "a.txt" 2]),
      ({ existsError := fun _ => true }, .received 10 ⟨1, 1, 0, [1, 2]⟩)]).volume
        ⟨true, ["t", "a.txt"]⟩ = some (.file [1, 2]) := by
  decide +kernel

end PasteWorld

end RustAdmin.Clipboard
