import RustAdmin.Clipboard.FileList

/-!
# Positioned reads of a local file

`LocalFile` keeps its file open between two requests and caches the offset at
which the next one is expected (`platform/unix/local_file.rs`): `read_exact_at`
seeks only where the requested offset is another one.  Opening, seeking and
reading can each fail, and a failed `read_exact` may have consumed any number of
bytes.

Where a call leaves the handle depends on the length of the file and not on its bytes
(`read_state_congr`), so the state of a sequence can be computed on zeros, and
`WellPlaced` is a condition on the calls alone.  `read_eq_ok` is the direct half.  For
the other half a misplaced read returns what is where the handle stands
(`read_of_misplaced`), and `exists_content` puts different bytes at the two positions.
-/

namespace RustAdmin.Clipboard

open RustAdmin.Support

/-- `std::io::Error`: one of the system, the end of the file, or the one that
`read_exact_at` makes itself. -/
inductive IoError
  | system (code : ℤ)
  | unexpectedEof
  | notFound (text : String)
deriving DecidableEq, Repr

/-- The errors of `CliprdrError` on the serving side. -/
inductive ServeError
  | fileError (path : String) (err : IoError)
  | cliprdr (error : CliprdrError)
deriving DecidableEq, Repr

/-- What the system answers during one call: the errors it raises, and how far a
failed read came. -/
structure Io where
  openError : Option ℤ := none
  seekError : Option ℤ := none
  readError : Option (ℤ × ℕ) := none
deriving DecidableEq, Repr

/-- `LocalFile` with its open handle, which is the position in the file, and the
cached offset. -/
structure OpenFile where
  file : LocalFile
  handle : Option ℕ := none
  offset : ℕ := 0
deriving DecidableEq, Repr

/-- `LocalFile::load_handle`; `open` and `fill_buf` leave the position at the start. -/
def OpenFile.loadHandle (f : OpenFile) (openError : Option ℤ) : Except ServeError OpenFile :=
  if !f.file.isDir && f.handle.isNone then
    match openError with
    | some code => .error (.fileError f.file.path.toText (.system code))
    | none => .ok { f with handle := some 0 }
  else .ok f

/-- `seek` to the start and the offset; a failure leaves the position. -/
def seek (offset : ℕ) (seekError : Option ℤ) : Except IoError ℕ :=
  match seekError with
  | some code => .error (.system code)
  | none => .ok offset

/-- `read_exact` at a position, with the position after it. -/
def readExact (content : List UInt8) (readError : Option (ℤ × ℕ)) (position length : ℕ) :
    Except IoError (List UInt8) × ℕ :=
  match readError with
  | some (code, advanced) => (.error (.system code), position + advanced)
  | none =>
      if length = 0 then (.ok [], position)
      else if position + length ≤ content.length then
        (.ok ((content.drop position).take length), position + length)
      else (.error .unexpectedEof, max position content.length)

/-- The end of `read_exact_at`: the cached offset moves on, and the handle is
released at the end of the file. -/
def OpenFile.advance (f : OpenFile) (position newOffset : ℕ) : OpenFile :=
  if f.file.size.toNat ≤ newOffset then { f with offset := 0, handle := none }
  else { f with offset := newOffset, handle := some position }

/-- `read_exact_at` once the handle is loaded. -/
def OpenFile.readFrom (f : OpenFile) (content : List UInt8) (io : Io) (length offset : ℕ) :
    Except ServeError (List UInt8) × OpenFile :=
  match f.handle with
  | none => (.error (.fileError f.file.path.toText (.notFound "file handle not found")), f)
  | some position =>
      match if offset ≠ f.offset then seek offset io.seekError else .ok position with
      | .error err => (.error (.fileError f.file.path.toText err), f)
      | .ok position =>
          match readExact content io.readError position length with
          | (.error err, position) =>
              (.error (.fileError f.file.path.toText err), { f with handle := some position })
          | (.ok buf, position) => (.ok buf, f.advance position (offset + length))

/-- `LocalFile::read_exact_at` into a buffer of `length` bytes. -/
def OpenFile.readExactAt (f : OpenFile) (content : List UInt8) (io : Io) (length offset : ℕ) :
    Except ServeError (List UInt8) × OpenFile :=
  match f.loadHandle io.openError with
  | .error err => (.error err, f)
  | .ok f => f.readFrom content io length offset

/-! ## One read -/

/-- A released handle comes with a cached offset of zero. -/
def OpenFile.Reset (f : OpenFile) : Prop := f.handle = none → f.offset = 0

theorem advance_reset (f : OpenFile) (position newOffset : ℕ) :
    (f.advance position newOffset).Reset := by
  unfold OpenFile.advance OpenFile.Reset
  split
  · exact fun _ => rfl
  · simp

/-- The position at which a loaded handle reads. -/
def OpenFile.Reads (f : OpenFile) (offset position : ℕ) : Prop :=
  position = offset ∨ (f.handle = some position ∧ offset = f.offset)

/-- A seek moves the handle to the offset; without one it reads where it stands. -/
theorem reads_of_seek {f : OpenFile} {position target offset : ℕ} {seekError : Option ℤ}
    (hhandle : f.handle = some position)
    (hseek : (if offset ≠ f.offset then seek offset seekError else .ok position) = .ok target) :
    f.Reads offset target := by
  split at hseek
  · unfold seek at hseek
    split at hseek
    · cases hseek
    · exact .inl (Except.ok.inj hseek).symm
  · next hsame =>
      obtain rfl := Except.ok.inj hseek
      exact .inr ⟨hhandle, not_not.mp hsame⟩

theorem readExact_cases (content : List UInt8) (readError : Option (ℤ × ℕ))
    (position length : ℕ) :
    (∃ err after, readExact content readError position length = (.error err, after)) ∨
      readError = none ∧ (length = 0 ∨ position + length ≤ content.length) ∧
        readExact content readError position length =
          (.ok ((content.drop position).take length), position + length) := by
  unfold readExact
  split
  · exact .inl ⟨_, _, rfl⟩
  · split
    · next hzero =>
        subst hzero
        exact .inr ⟨rfl, .inl rfl, rfl⟩
    · split
      · next hfits => exact .inr ⟨rfl, .inr hfits, rfl⟩
      · exact .inl ⟨_, _, rfl⟩

/-- What comes back from a read of a loaded handle was at the position it reads. -/
theorem readFrom_cases (f : OpenFile) (content : List UInt8) (io : Io) (length offset : ℕ) :
    (∃ err, (f.readFrom content io length offset).1 = .error err ∧
      ∃ handle, (f.readFrom content io length offset).2 = { f with handle := handle } ∧
        (handle = none → f.handle = none)) ∨
      ∃ position, f.Reads offset position ∧ io.readError = none ∧
        (length = 0 ∨ position + length ≤ content.length) ∧
        f.readFrom content io length offset =
          (.ok ((content.drop position).take length),
            f.advance (position + length) (offset + length)) := by
  unfold OpenFile.readFrom
  split
  · next hhandle => exact .inl ⟨_, rfl, none, by simp [← hhandle], fun _ => hhandle⟩
  · next position hhandle =>
      split
      · exact .inl ⟨_, rfl, some position, by simp [← hhandle], nofun⟩
      · next target hseek =>
          obtain ⟨err, after, hread⟩ | ⟨hnone, hfits, hread⟩ :=
            readExact_cases content io.readError target length
          · rw [hread]
            exact .inl ⟨_, rfl, some after, rfl, nofun⟩
          · rw [hread]
            exact .inr ⟨target, reads_of_seek hhandle hseek, hnone, hfits, rfl⟩

theorem loadHandle_cases (f : OpenFile) (openError : Option ℤ) :
    (∃ err, f.loadHandle openError = .error err) ∨ f.loadHandle openError = .ok f ∨
      (f.handle = none ∧ f.loadHandle openError = .ok { f with handle := some 0 }) := by
  unfold OpenFile.loadHandle
  split
  · next hload =>
      have hnone : f.handle = none := by
        simp only [Bool.and_eq_true, Option.isNone_iff_eq_none] at hload
        exact hload.2
      cases openError with
      | some code => exact .inl ⟨_, rfl⟩
      | none => exact .inr (.inr ⟨hnone, rfl⟩)
  · exact .inr (.inl rfl)

/-- A read fails, or returns what is at the position it reads. -/
theorem readExactAt_cases {f : OpenFile} (hf : f.Reset) (content : List UInt8) (io : Io)
    (length offset : ℕ) :
    ((∃ err, (f.readExactAt content io length offset).1 = .error err) ∧
      (f.readExactAt content io length offset).2.Reset) ∨
      ∃ position, f.Reads offset position ∧ io.readError = none ∧
        (length = 0 ∨ position + length ≤ content.length) ∧
        f.readExactAt content io length offset =
          (.ok ((content.drop position).take length),
            f.advance (position + length) (offset + length)) := by
  unfold OpenFile.readExactAt
  obtain ⟨err, hload⟩ | hload | ⟨hnone, hload⟩ := loadHandle_cases f io.openError
  · rw [hload]
    exact .inl ⟨⟨err, rfl⟩, hf⟩
  · rw [hload]
    obtain ⟨err, herr, handle, hstate, hhandle⟩ | hread := readFrom_cases f content io length offset
    · refine .inl ⟨⟨err, herr⟩, ?_⟩
      dsimp only
      rw [hstate]
      exact fun hnone => hf (hhandle hnone)
    · exact .inr hread
  · rw [hload]
    obtain ⟨err, herr, handle, hstate, hhandle⟩ | ⟨position, hreads, hread⟩ :=
      readFrom_cases { f with handle := some 0 } content io length offset
    · refine .inl ⟨⟨err, herr⟩, ?_⟩
      dsimp only
      rw [hstate]
      intro hnone'
      simpa using hhandle hnone'
    · -- a file just opened stands at the cached offset of zero
      refine .inr ⟨position, ?_, hread⟩
      rcases hreads with heq | ⟨hzero, hoffset⟩
      · exact .inl heq
      · obtain rfl : 0 = position := Option.some.inj hzero
        exact .inl ((hf hnone).symm.trans hoffset.symm)

theorem readExactAt_reset {f : OpenFile} (hf : f.Reset) (content : List UInt8) (io : Io)
    (length offset : ℕ) : (f.readExactAt content io length offset).2.Reset := by
  obtain ⟨-, hreset⟩ | ⟨position, -, -, -, hread⟩ := readExactAt_cases hf content io length offset
  · exact hreset
  · rw [hread]
    exact advance_reset f _ _

/-! ## Sequences of reads -/

/-- A call of `read_exact_at`, with what the system answers during it. -/
structure ReadCall where
  length : ℕ
  offset : ℕ
  io : Io := {}
deriving DecidableEq, Repr

def OpenFile.read (f : OpenFile) (content : List UInt8) (call : ReadCall) :
    Except ServeError (List UInt8) × OpenFile :=
  f.readExactAt content call.io call.length call.offset

/-- Every call that returns fills the buffer with the bytes it was asked for. -/
def ReadsExact (content : List UInt8) : OpenFile → List ReadCall → Prop
  | _, [] => True
  | f, call :: calls =>
      (∀ buf, (f.read content call).1 = .ok buf →
        buf = (content.drop call.offset).take call.length ∧ buf.length = call.length) ∧
      ReadsExact content (f.read content call).2 calls

/-- The read is at the cached offset while an earlier failure has left the
handle elsewhere, and the system can read as many bytes there. -/
def OpenFile.Misplaced (f : OpenFile) (size : ℕ) (call : ReadCall) : Prop :=
  call.offset = f.offset ∧ call.io.readError = none ∧ 0 < call.length ∧
    ∃ position ∈ f.handle, position ≠ f.offset ∧ position + call.length ≤ size

/-- No call of a sequence is misplaced.  Where a handle stands does not depend on
the bytes of the file, so zeros stand for them. -/
def WellPlaced (size : ℕ) : OpenFile → List ReadCall → Prop
  | _, [] => True
  | f, call :: calls =>
      ¬ f.Misplaced size call ∧ WellPlaced size (f.read (List.replicate size 0) call).2 calls

/-- Where a read leaves the handle depends on the length of the file only. -/
theorem read_state_congr (f : OpenFile) {content content' : List UInt8} (call : ReadCall)
    (h : content.length = content'.length) :
    (f.read content call).2 = (f.read content' call).2 := by
  unfold OpenFile.read OpenFile.readExactAt
  split
  · rfl
  · next g _ =>
      unfold OpenFile.readFrom
      split
      · rfl
      · split
        · rfl
        · next position _ =>
            unfold readExact
            rw [h]
            cases call.io.readError with
            | some failure => rfl
            | none =>
                by_cases hzero : call.length = 0
                · simp [hzero]
                · by_cases hfits : position + call.length ≤ content'.length <;>
                    simp [hzero, hfits]

/-- A read that is not misplaced returns the bytes it was asked for. -/
theorem read_eq_ok {f : OpenFile} (hf : f.Reset) {content : List UInt8} {call : ReadCall}
    {buf : List UInt8} (hplaced : ¬ f.Misplaced content.length call)
    (hread : (f.read content call).1 = .ok buf) :
    buf = (content.drop call.offset).take call.length ∧ buf.length = call.length := by
  obtain ⟨⟨err, herr⟩, -⟩ | ⟨position, hreads, hnone, hfits, heq⟩ :=
    readExactAt_cases hf content call.io call.length call.offset
  · rw [OpenFile.read, herr] at hread
    simp at hread
  · rw [OpenFile.read, heq] at hread
    obtain rfl := Except.ok.inj hread
    by_cases hzero : call.length = 0
    · simp [hzero]
    · have hinside : position + call.length ≤ content.length := hfits.resolve_left hzero
      have hplace : position = call.offset := by
        rcases hreads with heq | ⟨hhandle, hoffset⟩
        · exact heq
        · -- without a seek the handle stands at the cached offset, or the read is misplaced
          by_contra hother
          refine hplaced ⟨hoffset, hnone, Nat.pos_of_ne_zero hzero, position, hhandle, ?_, hinside⟩
          rwa [← hoffset]
      subst hplace
      refine ⟨rfl, ?_⟩
      rw [List.length_take, List.length_drop]
      omega

/-- A misplaced read returns what is where the handle stands. -/
theorem read_of_misplaced {f : OpenFile} {size : ℕ} {call : ReadCall}
    (h : f.Misplaced size call) :
    ∃ position, position ≠ call.offset ∧ 0 < call.length ∧ position + call.length ≤ size ∧
      ∀ content : List UInt8, content.length = size →
        (f.read content call).1 = .ok ((content.drop position).take call.length) := by
  obtain ⟨hoffset, hnone, hpositive, position, hhandle, hother, hinside⟩ := h
  have hhandle' : f.handle = some position := hhandle
  refine ⟨position, hoffset ▸ hother, hpositive, hinside, fun content hlength => ?_⟩
  have hload : f.loadHandle call.io.openError = .ok f := by
    simp [OpenFile.loadHandle, hhandle']
  simp [OpenFile.read, OpenFile.readExactAt, hload, OpenFile.readFrom, hhandle', hoffset,
    readExact, hnone, hlength, hinside, Nat.pos_iff_ne_zero.mp hpositive]

/-- Two positions of a file are told apart by a file with a mark at one of them. -/
theorem exists_content {size position offset length : ℕ} (hother : position ≠ offset)
    (hpositive : 0 < length) (hinside : position + length ≤ size) :
    ∃ content : List UInt8, content.length = size ∧
      (content.drop position).take length ≠ (content.drop offset).take length := by
  refine ⟨(List.replicate size 0).set position 1, by simp, fun heq => ?_⟩
  have hhead := congrArg (fun bytes => bytes[0]?) heq
  have hoffset : ((List.replicate size (0 : UInt8)).set position 1)[offset]? ≠ some 1 := by
    rw [List.getElem?_set_ne hother]
    by_cases hlt : offset < size
    · simp [hlt]
    · simp [hlt]
  refine hoffset ?_
  have hposition : ((List.replicate size (0 : UInt8)).set position 1)[position]? = some 1 := by
    rw [List.getElem?_set_self (by rw [List.length_replicate]; omega)]
  simp only [List.getElem?_take, List.getElem?_drop, Nat.add_zero, hpositive, if_true] at hhead
  rw [← hhead, hposition]

theorem readsExact_iff_of_reset (size : ℕ) (calls : List ReadCall) :
    ∀ {f : OpenFile}, f.Reset →
      ((∀ content : List UInt8, content.length = size → ReadsExact content f calls) ↔
        WellPlaced size f calls) := by
  induction calls with
  | nil => exact fun _ => iff_of_true (fun _ _ => trivial) trivial
  | cons call calls ih =>
      intro f hf
      have hrest := ih (readExactAt_reset hf (List.replicate size 0) call.io call.length
        call.offset)
      have hstate : ∀ content : List UInt8, content.length = size →
          (f.read content call).2 = (f.read (List.replicate size 0) call).2 := by
        intro content hlength
        exact read_state_congr f call (by rw [hlength, List.length_replicate])
      constructor
      · intro hall
        refine ⟨fun hmisplaced => ?_, hrest.mp fun content hlength => ?_⟩
        · obtain ⟨position, hother, hpositive, hinside, hread⟩ := read_of_misplaced hmisplaced
          obtain ⟨content, hlength, hdiffers⟩ := exists_content hother hpositive hinside
          exact hdiffers ((hall content hlength).1 _ (hread content hlength)).1
        · have hlater := (hall content hlength).2
          rw [hstate content hlength] at hlater
          exact hlater
      · rintro ⟨hplaced, hlater⟩ content hlength
        refine ⟨fun buf hread => read_eq_ok hf (by rwa [hlength]) hread, ?_⟩
        rw [hstate content hlength]
        exact hrest.mpr hlater content hlength

/-- `LocalFile::try_open`: the file is opened lazily. -/
def OpenFile.tryOpen (file : LocalFile) : OpenFile := { file := file }

/-- **Positioned reads.**  Whatever the bytes of a file of its size are, every read
that returns fills the buffer with the bytes it was asked for, exactly if no
read is misplaced. -/
theorem readsExact_iff_wellPlaced (file : LocalFile) (calls : List ReadCall) :
    (∀ content : List UInt8, content.length = file.size.toNat →
      ReadsExact content (OpenFile.tryOpen file) calls) ↔
      WellPlaced file.size.toNat (OpenFile.tryOpen file) calls :=
  readsExact_iff_of_reset file.size.toNat calls fun _ => rfl

/-- The first byte is read; the third is sought and not read; the second is asked for. -/
def readsAfterFailure : List ReadCall :=
  [{ length := 1, offset := 0 }, { length := 1, offset := 2, io := { readError := some (5, 0) } },
    { length := 1, offset := 1 }]

/-- The second byte is asked for and the third comes back. -/
theorem not_readsExact_afterFailure :
    ¬ ReadsExact [10, 11, 12] (OpenFile.tryOpen (sampleFile ["a.txt"])) readsAfterFailure := by
  rintro ⟨-, -, hlast, -⟩
  have hread := hlast [12] (by decide)
  revert hread
  decide

end RustAdmin.Clipboard
