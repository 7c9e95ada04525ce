import RustAdmin.Support.Arith

/-!
# File contents requests

A read of a pasted file travels as a `FileContentsRequest` of signed 32-bit
fields: `FuseServer::read_node` (`platform/unix/fuse/cs.rs`) splits the offset
into two halves, `read_file_contents` (`platform/unix/serv_files.rs`) puts them
together again on the other side.

`fileContentsRequest_readRequest` computes the range that is understood from the two
halves, and `joined_halves_eq_iff` compares it with the offset: the low half is taken
for a signed number, so bit 31 is the only one that can go wrong.
-/

namespace RustAdmin.Clipboard

open RustAdmin.Support

/-- The errors of `CliprdrError` that the modelled functions return. -/
inductive CliprdrError
  | conversionFailure
  | invalidRequest (description : String)
deriving DecidableEq, Repr

/-! ## The asking side -/

/-- What `read_node` needs of a node of the file tree. -/
structure FuseNode where
  connId : ℤ
  streamId : ℤ
  index : ℕ
deriving DecidableEq, Repr

/-- `ClipboardFile::FileContentsRequest`, with fields of type `i32`. -/
structure FileContentsRequestMessage where
  streamId : ℤ
  listIndex : ℤ
  dwFlags : ℤ
  nPositionLow : ℤ
  nPositionHigh : ℤ
  cbRequested : ℤ
  haveClipDataId : Bool
  clipDataId : ℤ
deriving DecidableEq, Repr

/-- The request that `read_node` builds for an `i64` offset and a `u32` size. -/
def FuseNode.readRequest (node : FuseNode) (offset : ℤ) (size : ℕ) :
    FileContentsRequestMessage where
  streamId := node.streamId
  listIndex := castI32 node.index
  dwFlags := 2
  nPositionLow := castI32 (offset % 2 ^ 32)
  nPositionHigh := castI32 (offset / 2 ^ 32)
  -- `transmute`: the same bits, read as signed
  cbRequested := castI32 size
  haveClipDataId := false
  clipDataId := 0

/-! ## The answering side -/

inductive FileContentsRequest
  | size (streamId : ℤ) (fileIdx : ℕ)
  | range (streamId : ℤ) (fileIdx offset length : ℕ)
deriving DecidableEq, Repr

/-- How `read_file_contents` reads the fields of a request. -/
def fileContentsRequest (message : FileContentsRequestMessage) :
    Except CliprdrError FileContentsRequest :=
  if message.dwFlags = 0x1 then
    .ok (.size message.streamId (castU64 message.listIndex))
  else if message.dwFlags = 0x2 then
    let offset := (castU64 message.nPositionHigh <<< 32) % 2 ^ 64 ||| castU64 message.nPositionLow
    let length := castU64 message.cbRequested
    .ok (.range message.streamId (castU64 message.listIndex) offset length)
  else
    .error (.invalidRequest
      s!"got invalid FileContentsRequest, dw_flats: {message.dwFlags}")

/-! ## Offsets on the wire -/

theorem fileContentsRequest_readRequest (node : FuseNode) (offset : ℤ) (size : ℕ) :
    fileContentsRequest (node.readRequest offset size) =
      .ok (.range node.streamId (castU64 (castI32 node.index))
        ((castU64 (castI32 (offset / 2 ^ 32)) <<< 32) % 2 ^ 64 |||
          castU64 (castI32 (offset % 2 ^ 32)))
        (castU64 (castI32 size))) := by
  simp [fileContentsRequest, FuseNode.readRequest]

/-- The halves of an offset below `2 ^ 63` give it back exactly if the low half
has no sign bit. -/
theorem joined_halves_eq_iff {offset : ℕ} (hoffset : offset < 2 ^ 63) :
    ((castU64 (castI32 ((offset : ℤ) / 2 ^ 32)) <<< 32) % 2 ^ 64 |||
        castU64 (castI32 ((offset : ℤ) % 2 ^ 32))) = offset ↔ offset % 2 ^ 32 < 2 ^ 31 := by
  have hhigh : castU64 (castI32 ((offset : ℤ) / 2 ^ 32)) = offset / 2 ^ 32 := by
    rw [castU64_castI32_of_lt (by omega) (by omega)]
    omega
  have hshift : ((offset / 2 ^ 32) <<< 32) % 2 ^ 64 = (offset / 2 ^ 32) <<< 32 := by
    refine Nat.mod_eq_of_lt ?_
    rw [Nat.shiftLeft_eq]
    omega
  rw [hhigh, hshift]
  by_cases hsign : offset % 2 ^ 32 < 2 ^ 31
  · have hlow : castU64 (castI32 ((offset : ℤ) % 2 ^ 32)) = offset % 2 ^ 32 := by
      rw [castU64_castI32_of_lt (by omega) (by omega)]
      omega
    have hjoin : (offset / 2 ^ 32) <<< 32 ||| offset % 2 ^ 32 = offset := by
      rw [← Nat.shiftLeft_add_eq_or_of_lt (Nat.mod_lt _ (by decide)), Nat.shiftLeft_eq]
      omega
    rw [hlow, hjoin]
    exact iff_of_true rfl hsign
  · -- the sign of the low half covers the high half
    have hlow : 2 ^ 64 - 2 ^ 32 ≤ castU64 (castI32 ((offset : ℤ) % 2 ^ 32)) :=
      le_castU64_castI32 (by omega) (by omega)
    have hor : castU64 (castI32 ((offset : ℤ) % 2 ^ 32)) ≤
        (offset / 2 ^ 32) <<< 32 ||| castU64 (castI32 ((offset : ℤ) % 2 ^ 32)) :=
      Nat.right_le_or
    constructor
    · intro heq
      omega
    · intro hclear
      exact absurd hclear hsign

/-- **Offsets on the wire.**  The request for an offset is understood as that
offset exactly if bit 31 of the offset is clear; the size always arrives. -/
theorem range_of_readRequest_iff (node : FuseNode) {offset size : ℕ} (hoffset : offset < 2 ^ 63)
    (hsize : size < 2 ^ 31) :
    (∃ fileIdx, fileContentsRequest (node.readRequest offset size) =
      .ok (.range node.streamId fileIdx offset size)) ↔ offset % 2 ^ 32 < 2 ^ 31 := by
  have hlength : castU64 (castI32 (size : ℤ)) = size := by
    rw [castU64_castI32_of_lt (by omega) (by omega)]
    omega
  rw [fileContentsRequest_readRequest, hlength, ← joined_halves_eq_iff hoffset]
  simp

/-- The condition of `range_of_readRequest_iff` at the last offset it admits
below 2 GiB. -/
theorem range_of_readRequest_iff_lastBelow :
    ∃ fileIdx, fileContentsRequest ((⟨1, 7, 0⟩ : FuseNode).readRequest (2 ^ 31 - 1) 4096) =
      .ok (.range 7 fileIdx (2 ^ 31 - 1) 4096) := by
  have hoffset : 2 ^ 31 - 1 < 2 ^ 63 := by decide
  exact (range_of_readRequest_iff ⟨1, 7, 0⟩ hoffset (by decide)).mpr (by decide)

/-- A read at 2 GiB is understood as a read near the end of the 64-bit range. -/
theorem readRequest_twoGiB :
    ¬ ∃ fileIdx, fileContentsRequest ((⟨1, 7, 0⟩ : FuseNode).readRequest (2 ^ 31) 4096) =
      .ok (.range 7 fileIdx (2 ^ 31) 4096) := by
  have hread : fileContentsRequest ((⟨1, 7, 0⟩ : FuseNode).readRequest (2 ^ 31) 4096) =
      .ok (.range 7 0 18446744071562067968 4096) := by
    decide
  rw [hread]
  simp

end RustAdmin.Clipboard
