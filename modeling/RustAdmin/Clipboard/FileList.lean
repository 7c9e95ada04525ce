import Mathlib.Data.List.DropRight
import Mathlib.Data.List.Forall2
import RustAdmin.Clipboard.FileContents
import RustAdmin.Support.Utf16

/-!
# The file list

A copied list of files travels as a PDU of one 592-byte record per file:
`LocalFile::as_bin` and `ClipFiles::build_file_list_pdu` write it
(`platform/unix/local_file.rs`, `platform/unix/serv_files.rs`),
`FileDescription::parse_file_descriptors` (`platform/unix/filetype.rs`) reads it.

One record is a row of fixed fields and the name, and it is read field by field:
`parseFileDescriptor_asBin` says that reading it gives `LocalFile.description`,
whatever the file, as long as its name fits and is plain.  The list follows by
induction on the records (`parseRecords_flatten`).  What is left is arithmetic on what
one description carries: `carried_description_iff` finds the write time to be the only
field that can be lost.
-/

namespace RustAdmin.Clipboard

open RustAdmin.Support

/-! ## Constants -/

def flagsFdAttributes : ℕ := 0x04
def flagsFdSize : ℕ := 0x40
def flagsFdLastWrite : ℕ := 0x20
def flagsFdProgressui : ℕ := 0x4000
def flagsFdUnixMode : ℕ := 0x08

/-- `LDAP_EPOCH_DELTA`, in units of 100 ns. -/
def ldapEpochDelta : ℕ := 116444772610000000

def permRead : ℕ := 0o444
def permRw : ℕ := 0o644
def permSelfRo : ℕ := 0o400
def permRwx : ℕ := 0o755

/-! ## Local files -/

/-- A path, as its components. -/
structure FilePath where
  rooted : Bool
  parts : List String
deriving DecidableEq, Repr

def FilePath.toText (path : FilePath) : String :=
  (if path.rooted then "/" else "") ++ String.intercalate "/" path.parts

/-- `Path::strip_prefix`. -/
def FilePath.stripPrefix (path base : FilePath) : Option FilePath :=
  if base.rooted = path.rooted then
    if base.parts.isPrefixOf path.parts then some ⟨false, path.parts.drop base.parts.length⟩
    else none
  else if base = ⟨false, []⟩ then some path
  else none

/-- What `as_bin` reads of a file.  A `SystemTime` is its distance from the Unix
epoch in nanoseconds. -/
structure LocalFile where
  relativeRoot : FilePath
  path : FilePath
  size : UInt64
  lastWriteTime : ℤ
  isDir : Bool
  perm : UInt32
  readOnly : Bool
  hidden : Bool
  system : Bool
  archive : Bool
  normal : Bool
deriving DecidableEq, Repr

/-- The name under which the other side will list the file. -/
def LocalFile.relativeName (file : LocalFile) : String :=
  ((file.path.stripPrefix file.relativeRoot).getD file.path).toText

def LocalFile.fileAttributes (file : LocalFile) : ℕ :=
  (if file.readOnly then 0x1 else 0) ||| (if file.hidden then 0x2 else 0) |||
    (if file.system then 0x4 else 0) ||| (if file.isDir then 0x10 else 0) |||
    (if file.archive then 0x20 else 0) ||| (if file.normal then 0x80 else 0)

/-- The write time in units of 100 ns since 1601; `as_nanos() as u64` keeps 64
bits of the nanoseconds since the Unix epoch. -/
def LocalFile.win32Time (file : LocalFile) : ℕ :=
  file.lastWriteTime.toNat % 2 ^ 64 / 100 + ldapEpochDelta

/-- The code units of the name. -/
def LocalFile.nameUnits (file : LocalFile) : List UInt16 := encodeUtf16 file.relativeName.toList

def recordFlags : ℕ :=
  flagsFdSize ||| flagsFdLastWrite ||| flagsFdAttributes ||| flagsFdProgressui ||| flagsFdUnixMode

/-- The fields of a record, the name followed by its padding. -/
def LocalFile.record (file : LocalFile) (padding : ℕ) : List UInt8 :=
  putLe 4 recordFlags ++ List.replicate 32 0 ++ putLe 4 file.fileAttributes ++
    List.replicate 12 0 ++ putLe 4 file.perm.toNat ++ putLe 8 file.win32Time ++
    putLe 4 (file.size.toNat / 2 ^ 32) ++ putLe 4 (file.size.toNat % 2 ^ 32) ++
    (utf16Bytes file.nameUnits ++ List.replicate padding 0)

/-- `as_bin`; `none` where the padding of the name would be negative. -/
def LocalFile.asBin (file : LocalFile) : Option (List UInt8) :=
  (checkedSub 520 (utf16Bytes file.nameUnits).length).map file.record

/-- `build_file_list_pdu`; the number of files is written as a `u32`. -/
def buildFileListPdu (files : List LocalFile) : Option (List UInt8) :=
  (files.mapM LocalFile.asBin).map fun records => putLe 4 files.length ++ records.flatten

/-! ## Descriptions of the other side's files -/

inductive FileType
  | file
  | directory
  | symlink
deriving DecidableEq, Repr

structure FileDescription where
  connId : ℤ
  name : String
  kind : FileType
  atime : ℤ
  lastModified : ℤ
  lastMetadataChanged : ℤ
  creationTime : ℤ
  size : ℕ
  perm : ℕ
deriving DecidableEq, Repr

/-- The permissions of a file from a system without Unix modes. -/
def attributePerm (attributes : ℕ) : ℕ :=
  if attributes = 0x80 then permRwx
  else if attributes &&& 0x01 ≠ 0 then permRead
  else if attributes &&& 0x02 ≠ 0 then permSelfRo
  else if attributes &&& 0x10 ≠ 0 then permRwx
  else permRw

/-- The write time of a record, from units of 100 ns since 1601. -/
def lastModifiedOf (flags lastWriteTime : ℕ) : ℤ :=
  if flags &&& flagsFdLastWrite ≠ 0 ∧ ldapEpochDelta ≤ lastWriteTime then
    ((lastWriteTime - ldapEpochDelta) * 100 % 2 ^ 64 : ℕ)
  else 0

/-- The name of a record, from its scalar values. -/
def nameOf (name : List Char) : String :=
  String.ofList ((name.map fun c => if c = '\\' then '/' else c).rdropWhile (· == '\x00'))

/-- `parse_file_descriptor`, on a buffer that holds a record. -/
def parseFileDescriptor (bytes : List UInt8) (connId : ℤ) :
    Except CliprdrError (FileDescription × List UInt8) :=
  let (flags, bytes) := getLe 4 bytes
  let bytes := bytes.drop 32
  let (attributes, bytes) := getLe 4 bytes
  let bytes := bytes.drop 12
  let (mode, bytes) := getLe 4 bytes
  let (lastWriteTime, bytes) := getLe 8 bytes
  let (fileSizeHigh, bytes) := getLe 4 bytes
  let (fileSizeLow, bytes) := getLe 4 bytes
  match decodeUtf16 (utf16Units (bytes.take 520)) with
  | none => .error .conversionFailure
  | some name =>
      if flags &&& flagsFdAttributes = 0 then
        .error (.invalidRequest "file description must have valid attributes")
      else
        let lastModified := lastModifiedOf flags lastWriteTime
        .ok ({ connId := connId
               name := nameOf name
               kind := if attributes &&& 0x10 ≠ 0 then .directory else .file
               atime := lastModified
               lastModified := lastModified
               lastMetadataChanged := lastModified
               creationTime := lastModified
               size := fileSizeHigh <<< 32 + fileSizeLow
               perm := if flags &&& flagsFdUnixMode ≠ 0 then mode % 2 ^ 16
                 else attributePerm attributes },
          bytes.drop 520)

/-- The loop of `parse_file_descriptors`. -/
def parseRecords (connId : ℤ) : ℕ → List UInt8 → Except CliprdrError (List FileDescription)
  | 0, _ => .ok []
  | count + 1, bytes => do
      let (description, bytes) ← parseFileDescriptor bytes connId
      let descriptions ← parseRecords connId count bytes
      .ok (description :: descriptions)

/-- `parse_file_descriptors`. -/
def parseFileDescriptors (pdu : List UInt8) (connId : ℤ) :
    Except CliprdrError (List FileDescription) :=
  if pdu.length < 4 then
    .error (.invalidRequest "file descriptor request with infficient length")
  else
    let (count, data) := getLe 4 pdu
    if data.length = 0 ∧ count = 0 then .ok []
    else if data.length ≠ 592 * count then
      .error (.invalidRequest "file descriptor request with invalid length")
    else parseRecords connId count data

/-! ## One record -/

/-- What arrives of a file. -/
def LocalFile.description (file : LocalFile) (connId : ℤ) : FileDescription :=
  let lastModified : ℤ := (file.lastWriteTime.toNat % 2 ^ 64 / 100 * 100 : ℕ)
  { connId := connId
    name := file.relativeName
    kind := if file.isDir then .directory else .file
    atime := lastModified
    lastModified := lastModified
    lastMetadataChanged := lastModified
    creationTime := lastModified
    size := file.size.toNat
    perm := file.perm.toNat % 2 ^ 16 }

/-- The name has no backslash, which the reading side takes for a separator, and
no NUL, which it takes for padding. -/
def LocalFile.PlainName (file : LocalFile) : Prop :=
  '\\' ∉ file.relativeName.toList ∧ '\x00' ∉ file.relativeName.toList

/-- The name fits exactly if it has at most 260 code units. -/
theorem asBin_eq_some_iff {file : LocalFile} {bytes : List UInt8} :
    file.asBin = some bytes ↔
      ∃ units, file.nameUnits.length + units = 260 ∧ bytes = file.record (2 * units) := by
  unfold LocalFile.asBin
  rw [length_utf16Bytes]
  constructor
  · intro h
    obtain ⟨padding, hpadding, rfl⟩ := Option.map_eq_some_iff.mp h
    unfold checkedSub at hpadding
    split at hpadding
    · next hle =>
        obtain rfl := Option.some.inj hpadding
        refine ⟨260 - file.nameUnits.length, by omega, ?_⟩
        congr 1
        omega
    · simp at hpadding
  · rintro ⟨units, hunits, rfl⟩
    have hpadding : 520 - 2 * file.nameUnits.length = 2 * units := by omega
    rw [checkedSub_of_le (by omega), hpadding, Option.map_some]

theorem asBin_isSome_iff (file : LocalFile) :
    (∃ bytes, file.asBin = some bytes) ↔ file.nameUnits.length ≤ 260 := by
  simp only [asBin_eq_some_iff]
  constructor
  · rintro ⟨_, units, hunits, -⟩
    omega
  · intro hshort
    exact ⟨_, 260 - file.nameUnits.length, by omega, rfl⟩

theorem length_asBin {file : LocalFile} {bytes : List UInt8} (h : file.asBin = some bytes) :
    bytes.length = 592 := by
  obtain ⟨units, hunits, rfl⟩ := asBin_eq_some_iff.mp h
  simp only [LocalFile.record, List.length_append, length_putLe, List.length_replicate,
    length_utf16Bytes]
  omega

theorem fileAttributes_lt (file : LocalFile) : file.fileAttributes < 256 ^ 4 := by
  unfold LocalFile.fileAttributes
  cases file.readOnly <;> cases file.hidden <;> cases file.system <;> cases file.isDir <;>
    cases file.archive <;> cases file.normal <;> decide

theorem fileAttributes_directory (file : LocalFile) :
    file.fileAttributes &&& 0x10 ≠ 0 ↔ file.isDir = true := by
  unfold LocalFile.fileAttributes
  cases file.readOnly <;> cases file.hidden <;> cases file.system <;> cases file.isDir <;>
    cases file.archive <;> cases file.normal <;> decide

/-- Padding does not show in a name without backslash and NUL. -/
theorem nameOf_padded {name : List Char} (hbackslash : '\\' ∉ name) (hnul : '\x00' ∉ name)
    (padding : ℕ) : nameOf (name ++ List.replicate padding '\x00') = String.ofList name := by
  have hname : name.map (fun c => if c = '\\' then '/' else c) = name := by
    conv_rhs => rw [← List.map_id name]
    refine List.map_congr_left fun c hc => ?_
    have hne : c ≠ '\\' := fun heq => hbackslash (heq ▸ hc)
    rw [if_neg hne, id]
  have hpadding : (List.replicate padding '\x00').map (fun c => if c = '\\' then '/' else c) =
      List.replicate padding '\x00' := by
    rw [List.map_replicate]
    rfl
  unfold nameOf
  rw [List.map_append, hname, hpadding]
  congr 1
  -- the padding is trimmed from the end, down to the last character of the name
  induction padding with
  | zero =>
      rw [List.replicate_zero, List.append_nil, List.rdropWhile_eq_self_iff]
      intro hne hlast
      exact hnul (beq_iff_eq.mp hlast ▸ List.getLast_mem hne)
  | succ padding ih =>
      rw [List.replicate_succ', ← List.append_assoc, List.rdropWhile_concat_pos _ _ _ (by rfl), ih]
      rw [List.map_replicate]
      rfl

theorem lastModifiedOf_win32Time (file : LocalFile) :
    lastModifiedOf (recordFlags % 256 ^ 4) (file.win32Time % 256 ^ 8) =
      (file.lastWriteTime.toNat % 2 ^ 64 / 100 * 100 : ℕ) := by
  have hflags : recordFlags % 256 ^ 4 &&& flagsFdLastWrite ≠ 0 := by decide
  have htime : file.win32Time % 256 ^ 8 =
      file.lastWriteTime.toNat % 2 ^ 64 / 100 + ldapEpochDelta := by
    unfold LocalFile.win32Time ldapEpochDelta
    omega
  have hfits : file.lastWriteTime.toNat % 2 ^ 64 / 100 * 100 % 2 ^ 64 =
      file.lastWriteTime.toNat % 2 ^ 64 / 100 * 100 := by
    omega
  unfold lastModifiedOf
  rw [htime, if_pos ⟨hflags, Nat.le_add_left _ _⟩, Nat.add_sub_cancel, hfits]

/-- Reading a record gives what arrives of its file. -/
theorem parseFileDescriptor_asBin {file : LocalFile} {bytes : List UInt8}
    (h : file.asBin = some bytes) (hplain : file.PlainName) (rest : List UInt8) (connId : ℤ) :
    parseFileDescriptor (bytes ++ rest) connId = .ok (file.description connId, rest) := by
  obtain ⟨units, hunits, rfl⟩ := asBin_eq_some_iff.mp h
  have hblock : (utf16Bytes file.nameUnits ++ List.replicate (2 * units) 0).length = 520 := by
    rw [List.length_append, length_utf16Bytes, List.length_replicate]
    omega
  -- the block of the name is its code units and zeros, which decode to NULs
  have hname : decodeUtf16 (utf16Units
        (utf16Bytes file.nameUnits ++ List.replicate (2 * units) 0)) =
      some (file.relativeName.toList ++ List.replicate units '\x00') := by
    rw [utf16Units_utf16Bytes, utf16Units_replicate_zero, LocalFile.nameUnits,
      decodeUtf16_encodeUtf16, decodeUtf16_replicate_zero, Option.map_some]
  have hattributes : recordFlags % 256 ^ 4 &&& flagsFdAttributes ≠ 0 := by decide
  have hmode : recordFlags % 256 ^ 4 &&& flagsFdUnixMode ≠ 0 := by decide
  have hdirectory : file.fileAttributes % 256 ^ 4 = file.fileAttributes :=
    Nat.mod_eq_of_lt (fileAttributes_lt file)
  have hsize : (file.size.toNat / 2 ^ 32 % 256 ^ 4) <<< 32 + file.size.toNat % 2 ^ 32 % 256 ^ 4 =
      file.size.toNat := by
    have hlt := file.size.toNat_lt
    rw [Nat.shiftLeft_eq]
    omega
  have hperm : file.perm.toNat % 256 ^ 4 % 2 ^ 16 = file.perm.toNat % 2 ^ 16 := by omega
  unfold parseFileDescriptor LocalFile.record
  simp only [List.append_assoc, getLe_putLe_append, drop_replicate_append]
  rw [← List.append_assoc (utf16Bytes _), List.take_left' hblock, List.drop_left' hblock, hname]
  simp only [hattributes, hmode, hdirectory, hsize, hperm, lastModifiedOf_win32Time,
    nameOf_padded hplain.1 hplain.2, String.ofList_toList, if_false, ne_eq, not_false_iff, if_true]
  simp only [LocalFile.description, fileAttributes_directory]

/-! ## The whole list -/

theorem mapM_asBin_iff {files : List LocalFile} {records : List (List UInt8)} :
    files.mapM LocalFile.asBin = some records ↔
      List.Forall₂ (fun file bytes => file.asBin = some bytes) files records := by
  induction files generalizing records with
  | nil =>
      simp [eq_comm]
  | cons file files ih =>
      rw [List.mapM_cons, List.forall₂_cons_left_iff]
      simp only [Option.bind_eq_bind, Option.bind_eq_some_iff, Option.pure_def, Option.some_inj, ih]
      constructor
      · rintro ⟨bytes, hfile, rest, hfiles, rfl⟩
        exact ⟨bytes, rest, hfile, hfiles, rfl⟩
      · rintro ⟨bytes, rest, hfile, hfiles, rfl⟩
        exact ⟨bytes, hfile, rest, hfiles, rfl⟩

/-- The PDU of a list of files exists exactly if all names fit. -/
theorem mapM_asBin_isSome_iff (files : List LocalFile) :
    (∃ records, files.mapM LocalFile.asBin = some records) ↔
      ∀ file ∈ files, file.nameUnits.length ≤ 260 := by
  simp only [mapM_asBin_iff]
  induction files with
  | nil => simp
  | cons file files ih =>
      rw [List.forall_mem_cons, ← ih, ← asBin_isSome_iff]
      simp only [List.forall₂_cons_left_iff]
      constructor
      · rintro ⟨_, bytes, rest, hfile, hfiles, -⟩
        exact ⟨⟨bytes, hfile⟩, rest, hfiles⟩
      · rintro ⟨⟨bytes, hfile⟩, rest, hfiles⟩
        exact ⟨_, bytes, rest, hfile, hfiles, rfl⟩

theorem length_flatten_records {files : List LocalFile} {records : List (List UInt8)}
    (h : List.Forall₂ (fun file bytes => file.asBin = some bytes) files records) :
    records.flatten.length = 592 * files.length := by
  induction h with
  | nil => rfl
  | cons hfile hfiles ih =>
      rw [List.flatten_cons, List.length_append, length_asBin hfile, ih, List.length_cons]
      omega

theorem parseRecords_flatten {files : List LocalFile} {records : List (List UInt8)}
    (h : List.Forall₂ (fun file bytes => file.asBin = some bytes) files records)
    (hplain : ∀ file ∈ files, file.PlainName) (connId : ℤ) :
    parseRecords connId files.length records.flatten =
      .ok (files.map fun file => file.description connId) := by
  induction h with
  | nil => rfl
  | cons hfile hfiles ih =>
      rw [List.forall_mem_cons] at hplain
      rw [List.flatten_cons, List.length_cons, parseRecords,
        parseFileDescriptor_asBin hfile hplain.1]
      have hrest := ih hplain.2
      simp [hrest, bind, Except.bind]

/-- Reading the PDU of a list gives what arrives of its files, as long as their
number fits into 32 bits. -/
theorem parseFileDescriptors_pdu {files : List LocalFile} {records : List (List UInt8)}
    (h : List.Forall₂ (fun file bytes => file.asBin = some bytes) files records)
    (hplain : ∀ file ∈ files, file.PlainName) (hcount : files.length < 2 ^ 32) (connId : ℤ) :
    parseFileDescriptors (putLe 4 files.length ++ records.flatten) connId =
      .ok (files.map fun file => file.description connId) := by
  have hlength := length_flatten_records h
  have hmod : files.length % 256 ^ 4 = files.length := Nat.mod_eq_of_lt (by omega)
  unfold parseFileDescriptors
  rw [if_neg (by simp), getLe_putLe_append, hmod]
  dsimp only
  split
  · next hempty =>
      obtain rfl : files = [] := List.eq_nil_of_length_eq_zero hempty.2
      rfl
  · rw [if_neg (not_not.mpr hlength), parseRecords_flatten h hplain]

/-- A list too long for the counter is not understood. -/
theorem parseFileDescriptors_overflow {files : List LocalFile} {records : List (List UInt8)}
    (h : List.Forall₂ (fun file bytes => file.asBin = some bytes) files records)
    (hcount : 2 ^ 32 ≤ files.length) (connId : ℤ) :
    parseFileDescriptors (putLe 4 files.length ++ records.flatten) connId =
      .error (.invalidRequest "file descriptor request with invalid length") := by
  have hlength := length_flatten_records h
  have hmod : files.length % 256 ^ 4 < files.length := by omega
  unfold parseFileDescriptors
  rw [if_neg (by simp), getLe_putLe_append]
  dsimp only
  rw [if_neg (by omega), if_pos (by omega)]

/-- The description carries the file: name, kind, size, permissions, and a write
time from the epoch on up to 100 ns. -/
structure LocalFile.Carried (file : LocalFile) (description : FileDescription) : Prop where
  name : description.name = file.relativeName
  kind : description.kind = if file.isDir then .directory else .file
  size : description.size = file.size.toNat
  perm : description.perm = file.perm.toNat % 2 ^ 16
  lastModified : 0 ≤ file.lastWriteTime →
    description.lastModified = file.lastWriteTime / 100 * 100

/-- The PDU has its length, and every file of the list is carried, in order. -/
def RoundTrips (files : List LocalFile) (connId : ℤ) : Prop :=
  ∃ pdu, buildFileListPdu files = some pdu ∧ pdu.length = 4 + 592 * files.length ∧
    ∃ descriptions, parseFileDescriptors pdu connId = .ok descriptions ∧
      List.Forall₂ LocalFile.Carried files descriptions

/-- Of a write time, 64 bits of nanoseconds arrive. -/
theorem carried_description_iff (file : LocalFile) (connId : ℤ) :
    file.Carried (file.description connId) ↔ file.lastWriteTime < 2 ^ 64 := by
  constructor
  · intro h
    by_contra hlate
    have htime := h.lastModified (by omega)
    simp only [LocalFile.description] at htime
    omega
  · intro htime
    refine ⟨rfl, rfl, rfl, rfl, fun hepoch => ?_⟩
    simp only [LocalFile.description]
    omega

/-- **File list round trip.**  For names without backslash and NUL a list of
files makes its round trip exactly if there are fewer than `2 ^ 32` files, every
name has at most 260 code units, and every write time is less than `2 ^ 64`
nanoseconds after the epoch. -/
theorem roundTrips_iff {files : List LocalFile} (hplain : ∀ file ∈ files, file.PlainName)
    (connId : ℤ) : RoundTrips files connId ↔
      files.length < 2 ^ 32 ∧
        ∀ file ∈ files, file.nameUnits.length ≤ 260 ∧ file.lastWriteTime < 2 ^ 64 := by
  constructor
  · rintro ⟨pdu, hpdu, -, descriptions, hparse, hcarried⟩
    obtain ⟨records, hrecords, rfl⟩ := Option.map_eq_some_iff.mp hpdu
    have hfiles := mapM_asBin_iff.mp hrecords
    have hcount : files.length < 2 ^ 32 := by
      by_contra hmany
      rw [parseFileDescriptors_overflow hfiles (by omega)] at hparse
      simp at hparse
    rw [parseFileDescriptors_pdu hfiles hplain hcount] at hparse
    obtain rfl := Except.ok.inj hparse
    have hfit := (mapM_asBin_isSome_iff files).mp ⟨records, hrecords⟩
    refine ⟨hcount, fun file hfile => ⟨hfit file hfile, ?_⟩⟩
    rw [List.forall₂_map_right_iff, List.forall₂_same] at hcarried
    exact (carried_description_iff file connId).mp (hcarried file hfile)
  · rintro ⟨hcount, hall⟩
    obtain ⟨records, hrecords⟩ :=
      (mapM_asBin_isSome_iff files).mpr fun file hfile => (hall file hfile).1
    have hfiles := mapM_asBin_iff.mp hrecords
    refine ⟨putLe 4 files.length ++ records.flatten, ?_, ?_, _,
      parseFileDescriptors_pdu hfiles hplain hcount connId, ?_⟩
    · rw [buildFileListPdu, hrecords, Option.map_some]
    · rw [List.length_append, length_putLe, length_flatten_records hfiles]
    · rw [List.forall₂_map_right_iff, List.forall₂_same]
      exact fun file hfile => (carried_description_iff file connId).mpr (hall file hfile).2

/-- A regular file below the directory that was copied. -/
def sampleFile (parts : List String) : LocalFile :=
  { relativeRoot := ⟨true, ["home"]⟩, path := ⟨true, "home" :: parts⟩, size := 3,
    lastWriteTime := 1700000000123456789, isDir := false, perm := 0o100644, readOnly := false,
    hidden := false, system := false, archive := false, normal := true }

/-- `roundTrips_iff` at a list of one file. -/
theorem roundTrips_sampleFile : RoundTrips [sampleFile ["docs", "a.txt"]] 1 := by
  have hplain : ∀ file ∈ [sampleFile ["docs", "a.txt"]], file.PlainName := by
    simp only [List.mem_singleton, forall_eq]
    exact ⟨by decide, by decide⟩
  refine (roundTrips_iff hplain 1).mpr ⟨by decide, ?_⟩
  simp only [List.mem_singleton, forall_eq]
  exact ⟨by decide, by decide⟩

theorem length_encodeUtf16_replicate (n : ℕ) :
    (encodeUtf16 (List.replicate n 'a')).length = n := by
  induction n with
  | zero => rfl
  | succ n ih =>
      have hcons : encodeUtf16 ('a' :: List.replicate n 'a') =
        encodeUtf16Char 'a' ++ encodeUtf16 (List.replicate n 'a') := rfl
      rw [List.replicate_succ, hcons, List.length_append, ih, Nat.add_comm]
      rfl

/-- The name of a file in a subdirectory, both named with `n` letters. -/
theorem length_nameUnits_nested (n : ℕ) :
    (sampleFile [String.ofList (List.replicate n 'a'),
      String.ofList (List.replicate n 'a')]).nameUnits.length = 2 * n + 1 := by
  have hname : (sampleFile [String.ofList (List.replicate n 'a'),
      String.ofList (List.replicate n 'a')]).relativeName.toList =
        List.replicate n 'a' ++ ('/' :: List.replicate n 'a') := by
    simp [LocalFile.relativeName, sampleFile, FilePath.stripPrefix, FilePath.toText]
  have hsplit : encodeUtf16 (List.replicate n 'a' ++ ('/' :: List.replicate n 'a')) =
      encodeUtf16 (List.replicate n 'a') ++
        (encodeUtf16Char '/' ++ encodeUtf16 (List.replicate n 'a')) := by
    rw [encodeUtf16, List.flatMap_append, List.flatMap_cons]
    rfl
  have hslash : (encodeUtf16Char '/').length = 1 := rfl
  rw [LocalFile.nameUnits, hname, hsplit, List.length_append, List.length_append,
    length_encodeUtf16_replicate, hslash]
  omega

/-- A name of 261 code units: the padding of its record would be negative. -/
theorem longName_not_roundTrips :
    ¬ RoundTrips [sampleFile [String.ofList (List.replicate 130 'a'),
      String.ofList (List.replicate 130 'a')]] 1 := by
  rintro ⟨pdu, hpdu, -⟩
  obtain ⟨records, hrecords, -⟩ := Option.map_eq_some_iff.mp hpdu
  have hfit := (mapM_asBin_isSome_iff _).mp ⟨records, hrecords⟩ _ List.mem_cons_self
  rw [length_nameUnits_nested] at hfit
  omega

end RustAdmin.Clipboard
