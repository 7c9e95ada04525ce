import RustAdmin.Clipboard.PositionedReads

/-!
# The paste task

On macOS the copied files of the other side are pasted by `PasteTask`
(`platform/unix/macos/paste_task.rs`): one worker asks for the blocks of one file after
the other, writes what comes back to a temporary file, and renames it when the file is
complete.  A stream id is the index of a file in the list.
-/

namespace RustAdmin.Clipboard

open RustAdmin.Support

/-! ## Paths -/

/-- The components of a path; empty ones and `.` do not count. -/
def FilePath.ofText (text : String) : FilePath :=
  ⟨text.toList.head? = some '/',
    ((text.toList.splitOn '/').map String.ofList).filter fun part => part ≠ "" ∧ part ≠ "."⟩

def FilePath.parent (path : FilePath) : Option FilePath :=
  if path.parts = [] then none else some { path with parts := path.parts.dropLast }

/-- `Path::join`, as text. -/
def joinPath (dir name : String) : String :=
  if name.toList.head? = some '/' ∨ dir = "" then name
  else if dir.toList.getLast? = some '/' then dir ++ name
  else dir ++ "/" ++ name

/-- `rsplit_file_at_dot`: what is before and after the last dot of a name; a dot in front
starts no extension. -/
def splitAtDot (name : List Char) : List Char × Option (List Char) :=
  let after := (name.reverse.takeWhile (· ≠ '.')).reverse
  let before := name.take (name.length - after.length - 1)
  if name = ['.', '.'] ∨ after.length = name.length ∨ before = [] then (name, none)
  else (before, some after)

/-- `Path::file_stem` and `Path::extension`. -/
def fileStemExtension (path : String) : Option (String × Option String) :=
  match (FilePath.ofText path).parts.getLast? with
  | some ".." | none => none
  | some name =>
      let (stem, extension) := splitAtDot name.toList
      some (String.ofList stem, extension.map String.ofList)

/-- `Path::with_file_name`, as text. -/
def withFileName (path name : String) : String :=
  match fileStemExtension path, (FilePath.ofText path).parent with
  | some _, some dir => joinPath dir.toText name
  | _, _ => joinPath path name

/-! ## The target's file system -/

inductive Node
  | directory
  | file (content : List UInt8)
deriving DecidableEq, Repr

/-- What is at each place.  How the system finds the place of a path is left open: two
paths may lead to one place. -/
abbrev Volume (κ : Type) := κ → Option Node

/-- What the system answers during one step: the errors it raises, and how far a failed
call came.  `Path::exists` says no where the path cannot be looked at, and where it is a link
that leads nowhere. -/
structure PasteIo where
  existsError : FilePath → Bool := fun _ => false
  createDirError : FilePath → Option (ℤ × ℕ) := fun _ => none
  createError : FilePath → Option ℤ := fun _ => none
  writeError : Option ℤ := none
  flushError : Option ℕ := none
  renameError : Bool := false
  removeError : Bool := false

section
variable {κ : Type} [DecidableEq κ] (resolve : FilePath → κ)

def Volume.exists (volume : Volume κ) (io : PasteIo) (path : FilePath) : Bool :=
  (volume (resolve path)).isSome && !io.existsError path

def Volume.set (volume : Volume κ) (place : κ) (node : Option Node) : Volume κ :=
  Function.update volume place node

/-- `create_dir` for each directory on the way; it makes none where something is. -/
def Volume.createDirs (volume : Volume κ) : List FilePath → Volume κ
  | [] => volume
  | dir :: rest =>
      (if (volume (resolve dir)).isSome then volume
        else volume.set (resolve dir) (some .directory)).createDirs rest

/-- `create_dir_all`; a failure leaves the directories it has made. -/
def Volume.createDirAll (volume : Volume κ) (io : PasteIo) (path : FilePath) :
    Except ℤ Unit × Volume κ :=
  let dirs := path.parts.inits.map fun parts => { path with parts }
  match io.createDirError path with
  | some (code, made) => (.error code, volume.createDirs resolve (dirs.take made))
  | none => (.ok (), volume.createDirs resolve dirs)

/-- `rename` of a file: it replaces a file, and fails where a directory is. -/
def Volume.rename (volume : Volume κ) (source target : FilePath) : Volume κ :=
  if volume (resolve target) = some .directory then volume
  else (volume.set (resolve source) none).set (resolve target) (volume (resolve source))

/-! ## Names that are free -/

/-- The first of `attempts` numbers, from `i` on, whose name is free. -/
def firstFree (taken : String → Bool) (name : ℕ → String) : ℕ → ℕ → Option String
  | 0, _ => none
  | attempts + 1, i => if taken (name i) then firstFree taken name attempts (i + 1)
      else some (name i)

/-- The name that is tried in the `i`-th place. -/
def numberedName (path : String) (kind : FileType) (i : ℕ) : String :=
  match kind, fileStemExtension path with
  | .file, some (stem, some extension) => withFileName path s!"{stem}-{i}.{extension}"
  | _, _ => s!"{path} ({i})"

def getFirstFilename (volume : Volume κ) (io : PasteIo) (path : String) (kind : FileType) :
    Option String :=
  let taken := fun name => volume.exists resolve io (.ofText name)
  if !taken path then some path
  else if kind = .symlink then none
  else firstFree taken (numberedName path kind) 9999998 1

def getNewFilename (volume : Volume κ) (io : PasteIo) (targetDir : String)
    (fileDesc : FileDescription) : Option String :=
  let renameToPath := joinPath targetDir fileDesc.name
  if volume.exists resolve io (.ofText renameToPath) then
    getFirstFilename resolve volume io renameToPath fileDesc.kind
  else some renameToPath

/-! ## The task -/

inductive PasteError
  | fileError (path : String) (err : IoError)
  | commonError (description : String)
  | invalidRequest (description : String)
deriving DecidableEq, Repr

structure FileContentsResponse where
  connId : ℤ
  msgFlags : ℤ
  streamId : ℤ
  requestedData : List UInt8
deriving DecidableEq, Repr

/-- `PasteTaskProgress`; the handle of the open file is what its writer has taken.  Times
are in milliseconds. -/
structure PasteTaskProgress where
  listIndex : ℤ
  offset : ℕ
  totalSize : ℕ
  currentSize : ℕ
  lastSentTime : ℕ
  downloadFileIndex : ℤ
  downloadFileSize : ℕ
  downloadFilePath : String
  fileHandle : Option (List UInt8)
  error : Option PasteError
  isCanceled : Bool
deriving DecidableEq, Repr

structure PasteTaskHandle where
  progress : PasteTaskProgress
  targetDir : String
  files : List FileDescription
deriving DecidableEq, Repr

def recvRetryTimes : ℕ := 3
def downloadExtension : String := "rddownload"
def receiveWaitTimeoutMs : ℕ := 5000
def invalidPasteIndex : ℤ := -1
def blockSize : ℕ := 4 * 1024 * 1024

/-- A task over the volume it pastes to. -/
structure Paste (κ : Type) where
  volume : Volume κ
  task : PasteTaskHandle

namespace Paste

def progress (p : Paste κ) : PasteTaskProgress := p.task.progress

def setProgress (p : Paste κ) (progress : PasteTaskProgress) : Paste κ :=
  { p with task := { p.task with progress } }

def isFinished (p : Paste κ) : Bool :=
  p.progress.isCanceled || p.progress.error.isSome ||
    decide ((p.task.files.length : ℤ) ≤ p.progress.listIndex)

/-- The place of the temporary file. -/
def temporary (p : Paste κ) : κ := resolve (.ofText p.progress.downloadFilePath)

/-- The writer is dropped, with what it has taken in the file as far as that went. -/
def closeWriter (io : PasteIo) (p : Paste κ) : Paste κ :=
  match p.progress.fileHandle with
  | none => p
  | some taken =>
      { (p.setProgress { p.progress with fileHandle := none }) with
        volume := p.volume.set (p.temporary resolve)
          (some (.file (taken.take (io.flushError.getD taken.length)))) }

def onCancelled (io : PasteIo) (p : Paste κ) : Paste κ :=
  let p := p.closeWriter resolve io
  if p.progress.downloadFilePath = "" ∨ io.removeError then p
  else
    match p.volume (p.temporary resolve) with
    | some (.file _) => { p with volume := p.volume.set (p.temporary resolve) none }
    | _ => p

def onError (io : PasteIo) (error : PasteError) (p : Paste κ) : Paste κ :=
  (p.setProgress { p.progress with error := some error }).onCancelled resolve io

def onDone (io : PasteIo) (p : Paste κ) : Paste κ :=
  if p.progress.fileHandle = none ∨ p.progress.downloadFileIndex = invalidPasteIndex then p
  else
    let p := p.closeWriter resolve io
    match p.task.files[p.progress.downloadFileIndex.toNat]? with
    | none => p
    | some fileDesc =>
        match getNewFilename resolve p.volume io p.task.targetDir fileDesc with
        | none => p
        | some renameToPath =>
            { (p.setProgress { p.progress with
                downloadFilePath := "", downloadFileIndex := invalidPasteIndex }) with
              volume := if io.renameError then p.volume
                else p.volume.rename resolve (.ofText p.progress.downloadFilePath)
                  (.ofText renameToPath) }

def onFinished (io : PasteIo) (p : Paste κ) : Paste κ :=
  let p := if p.progress.error.isSome then p.onCancelled resolve io else p.onDone resolve io
  if p.progress.currentSize ≠ p.progress.totalSize then
    p.setProgress { p.progress with
      error := some (.invalidRequest "Failed to download all files") }
  else p

/-- `EISDIR`. -/
def isADirectory : ℤ := 21

/-- `File::create`. -/
def create (io : PasteIo) (path : String) (p : Paste κ) : Except ℤ (Paste κ) :=
  match io.createError (.ofText path) with
  | some code => .error code
  | none =>
      if p.volume (resolve (.ofText path)) = some .directory then .error isADirectory
      else .ok { p with volume := p.volume.set (resolve (.ofText path)) (some (.file [])) }

/-- A file without content is made under its own name. -/
def createEmpty (io : PasteIo) (fileDesc : FileDescription) (p : Paste κ) : Paste κ :=
  match getNewFilename resolve p.volume io p.task.targetDir fileDesc with
  | none => p
  | some newFilePath =>
      match p.create resolve io newFilePath with
      | .error _ => p
      | .ok p => p

def createDirectory (io : PasteIo) (fileDesc : FileDescription) (p : Paste κ) : Paste κ :=
  let path := FilePath.ofText (joinPath p.task.targetDir fileDesc.name)
  if p.volume.exists resolve io path then p
  else { p with volume := (p.volume.createDirAll resolve io path).2 }

/-- The end of `open_new_writer`: the temporary file. -/
def openWriter (io : PasteIo) (file : FileDescription) (path : String) (p : Paste κ) : Paste κ :=
  match p.create resolve io path with
  | .ok p =>
      p.setProgress { p.progress with
        downloadFileIndex := p.progress.listIndex
        downloadFileSize := file.size
        downloadFilePath := path
        fileHandle := some [] }
  | .error code =>
      p.setProgress { p.progress with error := some (.fileError path (.system code)) }

def openNewWriter (io : PasteIo) (p : Paste κ) : Except PasteError Unit × Paste κ :=
  match p.task.files[p.progress.listIndex.toNat]? with
  | none =>
      (.error (.invalidRequest
        s!"Invalid file index: {p.progress.listIndex}, file count: {p.task.files.length}"), p)
  | some file =>
      let originalFilePath := joinPath p.task.targetDir file.name
      match getFirstFilename resolve p.volume io
          (originalFilePath ++ "." ++ downloadExtension) file.kind with
      | none =>
          (.error (.commonError s!"Failed to get download file path: {originalFilePath}"), p)
      | some downloadFilePath =>
          match (FilePath.ofText downloadFilePath).parent with
          | none =>
              (.error (.commonError
                s!"Failed to get parent of the download file path: {originalFilePath}"), p)
          | some parent =>
              if p.volume.exists resolve io parent then
                (.ok (), p.openWriter resolve io file downloadFilePath)
              else
                let (result, volume) := p.volume.createDirAll resolve io parent
                let p := { p with volume }
                match result with
                | .error code => (.error (.fileError parent.toText (.system code)), p)
                | .ok () => (.ok (), p.openWriter resolve io file downloadFilePath)

/-- The loop of `update_next` over the files from `i` on: what has no content is made at
once, the next file that has some is opened. -/
def openNext (io : PasteIo) : List FileDescription → ℕ → Paste κ → Except PasteError Unit × Paste κ
  | [], _, p => (.ok (), p)
  | fileDesc :: rest, i, p =>
      match fileDesc.kind with
      | .file =>
          if fileDesc.size = 0 then openNext io rest (i + 1) (p.createEmpty resolve io fileDesc)
          else
            (p.setProgress { p.progress with listIndex := i, offset := 0 }).openNewWriter resolve io
      | .directory => openNext io rest (i + 1) (p.createDirectory resolve io fileDesc)
      | .symlink => openNext io rest (i + 1) p

/-- The end of `update_next`: without an open file the list is at its end. -/
def settle (p : Paste κ) : Paste κ :=
  if p.progress.fileHandle = none then
    p.setProgress { p.progress with
      listIndex := p.task.files.length, offset := 0, downloadFileSize := 0 }
  else p

/-- The second half of `update_next`: the files after the present one. -/
def nextFile (io : PasteIo) (p : Paste κ) : Except PasteError Unit × Paste κ :=
  let i := (p.progress.listIndex + 1).toNat
  match p.openNext resolve io (p.task.files.drop i) i with
  | (.error err, p) => (.error err, p)
  | (.ok (), p) => (.ok (), p.settle)

def updateNext (io : PasteIo) (size : ℕ) (p : Paste κ) : Except PasteError Unit × Paste κ :=
  if p.isFinished then (.ok (), p)
  else
    let p := p.setProgress { p.progress with
      currentSize := (p.progress.currentSize + size) % 2 ^ 64 }
    if p.progress.listIndex = -1 then p.nextFile resolve io
    else if p.progress.downloadFileSize ≤ p.progress.offset + size then
      (p.onDone resolve io).nextFile resolve io
    else (.ok (), (p.setProgress { p.progress with offset := p.progress.offset + size }).settle)

/-- The bytes that the writer takes, and the block after them. -/
def handleFileContentsResponse (io : PasteIo) (data : List UInt8) (p : Paste κ) :
    Except PasteError Unit × Paste κ :=
  match p.progress.fileHandle, if data = [] then none else io.writeError with
  | none, _ =>
      (.error (.fileError p.progress.downloadFilePath (.notFound "file handle is not opened")), p)
  | some _, some code =>
      (.error (.fileError p.progress.downloadFilePath (.system code)), p)
  | some taken, none =>
      (p.setProgress { p.progress with fileHandle := some (taken ++ data) }).updateNext resolve io
        data.length

def checkReceiveTimeout (now : ℕ) (p : Paste κ) : Bool × Paste κ :=
  if p.isFinished then (false, p)
  else if receiveWaitTimeoutMs < now - p.progress.lastSentTime then
    (true, p.setProgress { p.progress with
      error := some (.invalidRequest "Failed to read file contents") })
  else (false, p)

/-- The request for the next block of the open file. -/
def request (p : Paste κ) (file : FileDescription) : FileContentsRequestMessage where
  streamId := p.progress.listIndex
  listIndex := p.progress.listIndex
  dwFlags := 2
  nPositionLow := castI32 (p.progress.offset &&& (2 ^ 32 - 1) : ℕ)
  nPositionHigh := castI32 (p.progress.offset >>> 32 : ℕ)
  cbRequested := castI32 (min blockSize (file.size - p.progress.offset) : ℕ)
  haveClipDataId := false
  clipDataId := 0

/-- `send_file_contents_request`: what is sent, and over which connection. -/
def sendFileContentsRequest (now : ℕ) (p : Paste κ) :
    Except PasteError (Option (ℤ × FileContentsRequestMessage)) × Paste κ :=
  if p.isFinished then (.ok none, p)
  else
    match p.task.files[p.progress.listIndex.toNat]? with
    | none => (.error (.invalidRequest s!"Invalid file index: {p.progress.listIndex}"), p)
    | some file => (.ok (some (file.connId, p.request file)),
        p.setProgress { p.progress with lastSentTime := now })

end Paste

/-! ## The worker -/

/-- The task under its lock, what the worker has counted, and what was sent. -/
structure PasteWorld (κ : Type) where
  volume : Volume κ
  task : Option PasteTaskHandle := none
  retryCount : ℕ := 0
  sent : List (ℤ × FileContentsRequestMessage) := []

inductive PasteEvent
  | start (now : ℕ) (targetDir : String) (files : List FileDescription)
  | cancel
  | received (now : ℕ) (response : FileContentsResponse)
  | timeout (now : ℕ)

namespace PasteWorld

/-- A task that is to be asked for its next block. -/
def ask (io : PasteIo) (now retryCount : ℕ) (sent : List (ℤ × FileContentsRequestMessage))
    (p : Paste κ) : PasteWorld κ :=
  match p.sendFileContentsRequest now with
  | (.ok message, p) => ⟨p.volume, some p.task, retryCount, sent ++ message.toList⟩
  | (.error err, p) =>
      let p := p.onError resolve io err
      ⟨p.volume, some p.task, retryCount, sent⟩

def finish (io : PasteIo) (retryCount : ℕ) (sent : List (ℤ × FileContentsRequestMessage))
    (p : Paste κ) : PasteWorld κ :=
  let p := p.onFinished resolve io
  ⟨p.volume, some p.task, retryCount, sent⟩

def newTask (now : ℕ) (targetDir : String) (files : List FileDescription) : PasteTaskHandle where
  progress :=
    { listIndex := -1, offset := 0, totalSize := (files.map (·.size)).sum % 2 ^ 64,
      currentSize := 0, lastSentTime := now, downloadFileIndex := invalidPasteIndex,
      downloadFileSize := 0, downloadFilePath := "", fileHandle := none, error := none,
      isCanceled := false }
  targetDir
  files

def start (io : PasteIo) (now : ℕ) (targetDir : String) (files : List FileDescription)
    (w : PasteWorld κ) : PasteWorld κ :=
  if w.task.any fun task => !(⟨w.volume, task⟩ : Paste κ).isFinished then w
  else
    let p := (Paste.updateNext resolve io 0 ⟨w.volume, newTask now targetDir files⟩).2
    if p.isFinished then finish resolve io w.retryCount w.sent p
    else ask resolve io now w.retryCount w.sent p

def cancel (io : PasteIo) (w : PasteWorld κ) : PasteWorld κ :=
  match w.task with
  | none => w
  | some task =>
      let p : Paste κ := ⟨w.volume, task⟩
      let p := (p.setProgress { p.progress with isCanceled := true }).onCancelled resolve io
      { w with volume := p.volume, task := some p.task }

/-- What the worker does when it has handled a response. -/
def goOn (io : PasteIo) (now retryCount : ℕ) (sent : List (ℤ × FileContentsRequestMessage))
    (p : Paste κ) : PasteWorld κ :=
  if p.isFinished then finish resolve io 0 sent p
  else ask resolve io now retryCount sent p

/-- The block that was asked for. -/
def accept (io : PasteIo) (data : List UInt8) (p : Paste κ) : Paste κ :=
  match p.handleFileContentsResponse resolve io data with
  | (.ok (), p) => p
  | (.error err, p) => p.onError resolve io err

/-- A response that says that the file could not be read. -/
def refuse (response : FileContentsResponse) (retryCount : ℕ) (p : Paste κ) : Paste κ :=
  if recvRetryTimes < retryCount then
    p.setProgress { p.progress with
      error := some (.invalidRequest ("Failed to read file contents, stream id: " ++
        s!"{response.streamId}, msg_flags: {response.msgFlags}")) }
  else p

def receive (io : PasteIo) (now : ℕ) (response : FileContentsResponse) (w : PasteWorld κ) :
    PasteWorld κ :=
  match w.task with
  | none => w
  | some task =>
      let p : Paste κ := ⟨w.volume, task⟩
      if p.isFinished ∨ response.streamId ≠ p.progress.listIndex then w
      else if response.msgFlags ≠ 0x01 then
        goOn resolve io now (w.retryCount + 1) w.sent (refuse response (w.retryCount + 1) p)
      else
        match task.files[response.streamId.toNat]? with
        | none => w
        | some file =>
            if file.connId ≠ response.connId then w
            else goOn resolve io now w.retryCount w.sent
              (accept resolve io response.requestedData p)

def timeout (io : PasteIo) (now : ℕ) (w : PasteWorld κ) : PasteWorld κ :=
  match w.task with
  | none => w
  | some task =>
      match (⟨w.volume, task⟩ : Paste κ).checkReceiveTimeout now with
      | (true, p) => finish resolve io 0 w.sent p
      | (false, _) => w

def step (io : PasteIo) (w : PasteWorld κ) : PasteEvent → PasteWorld κ
  | .start now targetDir files => w.start resolve io now targetDir files
  | .cancel => w.cancel resolve io
  | .received now response => w.receive resolve io now response
  | .timeout now => w.timeout resolve io now

def run (w : PasteWorld κ) (events : List (PasteIo × PasteEvent)) : PasteWorld κ :=
  events.foldl (fun w event => w.step resolve event.1 event.2) w

end PasteWorld

end

end RustAdmin.Clipboard
