import Mathlib.Algebra.Group.Nat.Even
import Mathlib.Algebra.Ring.Parity
import Mathlib.Data.List.Basic
import Mathlib.Data.List.FinRange
import Mathlib.Data.Nat.Notation
import Mathlib.Tactic.Ring
import RustAdmin.Support.Run

/-!
# The playback ring

`AudioBuffer` of `src/src/client.rs` holds interleaved samples between the network and
the playback callback of the device.  Samples leave it in three ways: the callback
plays them, `append_pcm` makes room, and `try_shrink` drops some when, by its
statistics of twelve seconds, more than enough has been queued all the time.

## Strategy

Only the number of samples that have left the ring decides the channel on which a
sample is played (`Aligned`).  `Tracks` ties that number to the ring: `Tracks.call`
says what each call removes (`removal`), and `Tracks.dvd_removal` that only a shrink
can remove a part of a frame.  The amount of a shrink is computed by `skipAmount_eq`:
the whole frames of its mark, a part of one more, and the rounding to an even number.
`dvd_skipAmount_iff` settles by cases on that part when the channels divide it, which
gives the condition on the sample rate, the channels and the mark alone.  Both
directions of `channelsAligned_iff` follow by induction on the calls: the first shrink
whose mark is none of whole frames is where the channels move.
-/

namespace RustAdmin.Audio

open RustAdmin.Support

variable {ρ α : Type*}

/-- A ring buffer of the crate `ringbuf`, with the samples it holds, the oldest first. -/
structure RingBuffer (ρ α : Type*) where
  new : ℕ → ρ
  contents : ρ → List α
  capacity : ρ → ℕ
  skip : ρ → ℕ → ρ
  pushSliceOverwrite : ρ → List α → ρ
  popSlice : ρ → ℕ → List α × ρ
  contents_new (size : ℕ) : contents (new size) = []
  capacity_new (size : ℕ) : capacity (new size) = size
  /-- The oldest samples go, as many as there are. -/
  contents_skip (ring : ρ) (count : ℕ) : contents (skip ring count) = (contents ring).drop count
  capacity_skip (ring : ρ) (count : ℕ) : capacity (skip ring count) = capacity ring
  /-- The newest samples that fit stay. -/
  contents_push (ring : ρ) (samples : List α) :
    contents (pushSliceOverwrite ring samples) = (contents ring ++ samples).drop
      ((contents ring).length + samples.length - capacity ring)
  capacity_push (ring : ρ) (samples : List α) :
    capacity (pushSliceOverwrite ring samples) = capacity ring
  popSlice_output (ring : ρ) (count : ℕ) : (popSlice ring count).1 = (contents ring).take count
  contents_popSlice (ring : ρ) (count : ℕ) :
    contents (popSlice ring count).2 = (contents ring).drop count
  capacity_popSlice (ring : ρ) (count : ℕ) : capacity (popSlice ring count).2 = capacity ring

def RingBuffer.occupiedLen (R : RingBuffer ρ α) (ring : ρ) : ℕ := (R.contents ring).length

/-- A ring that is the list of its samples. -/
def listRing : RingBuffer (List α × ℕ) α where
  new size := ([], size)
  contents := Prod.fst
  capacity := Prod.snd
  skip ring count := (ring.1.drop count, ring.2)
  pushSliceOverwrite ring samples :=
    ((ring.1 ++ samples).drop (ring.1.length + samples.length - ring.2), ring.2)
  popSlice ring count := (ring.1.take count, ring.1.drop count, ring.2)
  contents_new _ := rfl
  capacity_new _ := rfl
  contents_skip _ _ := rfl
  capacity_skip _ _ := rfl
  contents_push _ _ := rfl
  capacity_push _ _ := rfl
  popSlice_output _ _ := rfl
  contents_popSlice _ _ := rfl
  capacity_popSlice _ _ := rfl

/-- `AUDIO_BUFFER_MS` -/
def audioBufferMs : ℕ := 3000

/-- How often each tenth of a second was found queued. -/
abbrev Marks := Fin 30 → ℕ

/-- `tms` is the static of `try_shrink`, which all buffers share. -/
structure AudioBuffer (ρ : Type*) where
  ring : ρ
  samplesPerSecond : ℕ
  marks : Marks
  tms : ℤ

/-! ## The statistics -/

set_option linter.constructorNameAsVariable false in
/-- The loop over the marks: `zero`, `max` and the marks that are left. -/
def sweep (marks : Marks) : ℕ × Fin 30 × Marks :=
  (List.finRange 30).foldl (fun (zero, max, marks) i =>
    let zero := if marks i = 0 ∧ zero = i then zero + 1 else zero
    if marks max < marks i then (zero, i, Function.update marks max 0)
    else (zero, max, Function.update marks i 0)) (0, 0, marks)

set_option linter.constructorNameAsVariable false in
/-- The water mark to drop by, if any. -/
def dropMark (marks : Marks) : Option ℕ :=
  let (zero, max, _) := sweep marks
  let zero := zero * 2 / 3
  if (max : ℕ) < 6 then none else if zero * 4 < max then some (zero * 4) else some max

/-- The marks after a look at them. -/
def sweptMarks (marks : Marks) : Marks :=
  let (_, max, marks) := sweep marks
  Function.update marks max 0

/-- How much is dropped; `& (!1)` clears the lowest bit. -/
def skipAmount (capacity mark : ℕ) : ℕ := (capacity * mark / (30 * 4) + 1) / 2 * 2

/-- The mark of what is queued. -/
def markOf (having samplesPerSecond : ℕ) : Fin 30 :=
  Fin.ofNat 30 (min (having * 10 / samplesPerSecond) 29)

namespace AudioBuffer

variable (R : RingBuffer ρ α)

def default : AudioBuffer ρ := ⟨R.new (48000 * 2 * audioBufferMs / 1000), 48000 * 2, fun _ => 0, 0⟩

variable (b : AudioBuffer ρ)

def resize (sampleRate channels : ℕ) : AudioBuffer ρ :=
  let capacity := sampleRate * channels * audioBufferMs / 1000
  if capacity = R.capacity b.ring then b
  else { b with ring := R.new capacity, samplesPerSecond := sampleRate * channels }

/-- The marks with what is queued counted. -/
def counted (having : ℕ) : Marks :=
  let i := markOf having b.samplesPerSecond
  Function.update b.marks i (b.marks i + 1)

def tryShrink (having : ℕ) (now : ℤ) : AudioBuffer ρ :=
  let marks := b.counted having
  if b.tms = 0 then { b with marks := marks, tms := now }
  else if now < b.tms + 12000 then { b with marks := marks }
  else
    let b := { b with marks := sweptMarks marks, tms := now }
    match dropMark marks with
    | none => b
    | some mark =>
        let skip := skipAmount (R.capacity b.ring) mark
        if skip * 3 < R.occupiedLen b.ring ∧ 0 < skip then { b with ring := R.skip b.ring skip }
        else b

/-- `append_pcm2`. -/
def appendPcm2 (buffer : List α) : AudioBuffer ρ × ℕ :=
  let capacity := R.capacity b.ring
  if capacity < buffer.length then
    ({ b with ring := R.pushSliceOverwrite b.ring buffer }, capacity)
  else
    let having := R.occupiedLen b.ring + buffer.length
    let ring := if capacity < having then R.skip b.ring (having - capacity) else b.ring
    let ring := R.pushSliceOverwrite ring buffer
    ({ b with ring := ring }, R.occupiedLen ring)

end AudioBuffer

/-! ## The callback -/

def playbackPrebufferSamples (sampleRate channels : ℕ) : ℕ :=
  sampleRate * 20 / 1000 * max channels 1

structure PlaybackGate where
  prebuffer : ℕ
  primed : Bool := false
  deriving DecidableEq, Repr

/-- `samples_to_play`. -/
def PlaybackGate.samplesToPlay (gate : PlaybackGate) (queued requested : ℕ) : PlaybackGate × ℕ :=
  if !gate.primed && decide (queued < max gate.prebuffer requested) then (gate, 0)
  else ({ gate with primed := decide (requested ≤ queued) }, min queued requested)

/-! ## The ring of one device -/

/-- What happens to the ring.  `append_pcm` is `append_pcm2` and then `try_shrink`; the
callback may come between their locks, so they are calls of their own. -/
inductive PlaybackCall (α : Type*)
  | append (buffer : List α)
  | shrink (having : ℕ) (now : ℤ)
  | callback (requested : ℕ)
  /-- The static was written for another buffer. -/
  | otherBuffer (tms : ℤ)

/-- Buffers of whole frames. -/
def PlaybackCall.Whole (channels : ℕ) : PlaybackCall α → Prop
  | .append buffer => channels ∣ buffer.length
  | .callback requested => channels ∣ requested
  | _ => True

/-- A buffer and the gate of its callback.  `written` are all samples that were appended,
`removed` counts those that have left the ring, and `output` is what the last callback
played. -/
structure Playback (ρ α : Type*) where
  buffer : AudioBuffer ρ
  gate : PlaybackGate
  written : List α := []
  removed : ℕ := 0
  output : List α := []

namespace Playback

variable (R : RingBuffer ρ α)

/-- The device is opened. -/
def start (sampleRate channels : ℕ) : Playback ρ α where
  buffer := (AudioBuffer.default R).resize R sampleRate channels
  gate := ⟨playbackPrebufferSamples sampleRate channels, false⟩

def occupied (p : Playback ρ α) : ℕ := R.occupiedLen p.buffer.ring

def call (p : Playback ρ α) : PlaybackCall α → Playback ρ α
  | .append buffer =>
      let b := (p.buffer.appendPcm2 R buffer).1
      { p with
        buffer := b
        written := p.written ++ buffer
        removed := p.removed + (p.occupied R + buffer.length - R.occupiedLen b.ring) }
  | .shrink having now =>
      let b := p.buffer.tryShrink R having now
      { p with
        buffer := b
        removed := p.removed + (p.occupied R - R.occupiedLen b.ring) }
  | .callback requested =>
      let (gate, n) := p.gate.samplesToPlay (p.occupied R) requested
      let (output, ring) := R.popSlice p.buffer.ring n
      { p with
        buffer := { p.buffer with ring := ring }
        gate := gate
        removed := p.removed + output.length
        output := output }
  | .otherBuffer tms => { p with buffer := { p.buffer with tms := tms } }

/-- The device after some calls. -/
def after (sampleRate channels : ℕ) (calls : List (PlaybackCall α)) : Playback ρ α :=
  calls.foldl (call R) (start R sampleRate channels)

theorem after_concat (sampleRate channels : ℕ) (calls : List (PlaybackCall α))
    (c : PlaybackCall α) :
    after R sampleRate channels (calls ++ [c]) = (after R sampleRate channels calls).call R c := by
  simp [after]

end Playback

/-! ## What a call removes -/

section Calls

variable {R : RingBuffer ρ α}

/-- `append_pcm2` leaves the newest samples that fit, whichever way it makes room. -/
theorem contents_appendPcm2 (b : AudioBuffer ρ) (buffer : List α) :
    R.contents (b.appendPcm2 R buffer).1.ring = (R.contents b.ring ++ buffer).drop
        (R.occupiedLen b.ring + buffer.length - R.capacity b.ring) ∧
      R.capacity (b.appendPcm2 R buffer).1.ring = R.capacity b.ring := by
  unfold AudioBuffer.appendPcm2 RingBuffer.occupiedLen
  dsimp only
  split
  · exact ⟨R.contents_push _ _, R.capacity_push _ _⟩
  · dsimp only
    split
    · next hshort hover =>
        rw [R.contents_push, R.capacity_push, R.contents_skip, R.capacity_skip]
        refine ⟨?_, rfl⟩
        have hfits : ((R.contents b.ring).drop
            ((R.contents b.ring).length + buffer.length - R.capacity b.ring)).length +
              buffer.length - R.capacity b.ring = 0 := by
          rw [List.length_drop]
          omega
        rw [hfits, List.drop_zero, List.drop_append_of_le_length (by omega)]
    · exact ⟨R.contents_push _ _, R.capacity_push _ _⟩

/-- What a shrink takes away, if anything. -/
def shrinkage (R : RingBuffer ρ α) (b : AudioBuffer ρ) (having : ℕ) (now : ℤ) : ℕ :=
  if b.tms = 0 ∨ now < b.tms + 12000 then 0
  else
    match dropMark (b.counted having) with
    | none => 0
    | some mark =>
        let skip := skipAmount (R.capacity b.ring) mark
        if skip * 3 < R.occupiedLen b.ring then skip else 0

theorem contents_tryShrink (b : AudioBuffer ρ) (having : ℕ) (now : ℤ) :
    R.contents (b.tryShrink R having now).ring =
        (R.contents b.ring).drop (shrinkage R b having now) ∧
      R.capacity (b.tryShrink R having now).ring = R.capacity b.ring := by
  unfold AudioBuffer.tryShrink shrinkage
  dsimp only
  split
  · next htms => simp [htms]
  · split
    · next hearly => simp [hearly]
    · next htms hlate =>
        rw [if_neg (not_or.mpr ⟨htms, hlate⟩)]
        cases dropMark (b.counted having) with
        | none => simp
        | some mark =>
            dsimp only
            split
            · next hskip =>
                rw [if_pos hskip.1]
                exact ⟨R.contents_skip _ _, R.capacity_skip _ _⟩
            · next hskip =>
                split
                · next hlarge =>
                    have hzero : skipAmount (R.capacity b.ring) mark = 0 := by
                      by_contra hne
                      exact hskip ⟨hlarge, Nat.pos_of_ne_zero hne⟩
                    simp [hzero]
                · simp

/-- What fits is appended. -/
theorem appendPcm2_listRing {b : AudioBuffer (List α × ℕ)} {buffer : List α}
    (hfits : b.ring.1.length + buffer.length ≤ b.ring.2) :
    (b.appendPcm2 listRing buffer).1 = { b with ring := (b.ring.1 ++ buffer, b.ring.2) } := by
  have hshort : ¬ b.ring.2 < buffer.length := by omega
  have hroom : ¬ b.ring.2 < b.ring.1.length + buffer.length := not_lt.mpr hfits
  have hnone : b.ring.1.length + buffer.length - b.ring.2 = 0 := by omega
  simp only [AudioBuffer.appendPcm2, RingBuffer.occupiedLen, listRing, if_neg hshort,
    if_neg hroom, hnone, List.drop_zero]

end Calls

/-! ## The channels -/

section Channels

variable (R : RingBuffer ρ α) (sampleRate channels : ℕ)

/-- What was removed so far, and what the last callback played, are whole frames: each
sample is played on the channel it was written for. -/
def Aligned (p : Playback ρ α) : Prop :=
  channels ∣ p.removed ∧ ∀ (j : ℕ) (x : α), p.output[j]? = some x →
    ∃ i, p.written[i]? = some x ∧ i % channels = j % channels

def ChannelsAligned : List (PlaybackCall α) → Prop :=
  Always fun before c => Aligned channels (Playback.after R sampleRate channels (before ++ [c]))

/-- A shrink is due, the statistics choose the mark, and the ring holds more than three
times what goes with it. -/
structure Shrinks (b : AudioBuffer ρ) (having : ℕ) (now : ℤ) (mark : ℕ) : Prop where
  due : b.tms ≠ 0 ∧ b.tms + 12000 ≤ now
  mark_eq : dropMark (b.counted having) = some mark
  full : skipAmount (R.capacity b.ring) mark * 3 < R.occupiedLen b.ring

/-- A mark is `mark / 40` seconds of samples, rounded up to an even number.  These are whole
frames where the seconds end less than a sample after a frame and the samples of the frames
are even, or end no more than a sample before one and the samples up to that one are even. -/
def WholeMark (mark : ℕ) : Prop :=
  let frames := sampleRate * mark / 40
  let rest := sampleRate * mark % 40
  channels * rest < 40 ∧ Even (channels * frames) ∨
    channels * (40 - rest) ≤ 40 ∧ Even (channels * (frames + 1))

/-- Where a shrink takes place, its mark is one of whole frames. -/
def ShrinksWhole : List (PlaybackCall α) → Prop :=
  Always fun before c => ∀ having now mark, c = .shrink having now →
    Shrinks R (Playback.after R sampleRate channels before).buffer having now mark →
      WholeMark sampleRate channels mark

end Channels

section Alignment

variable {R : RingBuffer ρ α} {sampleRate channels : ℕ}

/-- The samples of a mark: those of whole frames, and a part of one more. -/
theorem skipAmount_eq (sampleRate channels mark : ℕ) :
    skipAmount (sampleRate * channels * 3) mark =
      (channels * (sampleRate * mark / 40) + channels * (sampleRate * mark % 40) / 40 + 1) /
        2 * 2 := by
  have hsamples : sampleRate * channels * 3 * mark = 3 * (channels * (sampleRate * mark)) := by ring
  have hsplit : channels * (sampleRate * mark) =
      40 * (channels * (sampleRate * mark / 40)) + channels * (sampleRate * mark % 40) := by
    calc channels * (sampleRate * mark)
        = channels * (40 * (sampleRate * mark / 40) + sampleRate * mark % 40) := by
          rw [Nat.div_add_mod]
      _ = _ := by ring
  have hdiv : sampleRate * channels * 3 * mark / (30 * 4) =
      channels * (sampleRate * mark / 40) + channels * (sampleRate * mark % 40) / 40 := by
    rw [hsamples, hsplit]
    omega
  rw [skipAmount, hdiv]

theorem part_lt (hchannels : 0 < channels) (rest : ℕ) (hrest : rest < 40) :
    channels * rest / 40 < channels := by
  rw [Nat.div_lt_iff_lt_mul (by omega)]
  exact Nat.mul_lt_mul_of_pos_left hrest hchannels

/-- The channels divide the amount of a mark exactly if it is one of whole frames. -/
theorem dvd_skipAmount_iff (sampleRate channels mark : ℕ) :
    channels ∣ skipAmount (sampleRate * channels * 3) mark ↔
      WholeMark sampleRate channels mark := by
  rw [skipAmount_eq]
  unfold WholeMark
  dsimp only
  have hrest : sampleRate * mark % 40 < 40 := Nat.mod_lt _ (by omega)
  generalize sampleRate * mark % 40 = rest at hrest ⊢
  generalize sampleRate * mark / 40 = frames
  rcases Nat.eq_zero_or_pos channels with rfl | hchannels
  · simp
  have hpart := part_lt hchannels rest hrest
  have hparity : (channels * frames + channels * rest / 40 + 1) / 2 * 2 = channels * frames +
      (channels * rest / 40 + (channels * frames + channels * rest / 40) % 2) := by omega
  rw [hparity, Nat.dvd_add_right (Nat.dvd_mul_right _ _)]
  have hnext : channels * (frames + 1) = channels * frames + channels := Nat.mul_succ _ _
  have hback : channels * (40 - rest) = channels * 40 - channels * rest := Nat.mul_sub ..
  rw [Nat.even_iff, Nat.even_iff, hnext, hback]
  generalize channels * rest = part at hpart ⊢
  generalize channels * frames = samples
  constructor
  · rintro ⟨n, hn⟩
    rcases n with _ | _ | n
    · left
      omega
    · right
      omega
    · exfalso
      have : channels * (n + 1 + 1) = channels * n + channels + channels := by ring
      have : 0 ≤ channels * n := Nat.zero_le _
      omega
  · rintro (⟨hlt, heven⟩ | ⟨hle, heven⟩)
    · exact ⟨0, by omega⟩
    · exact ⟨1, by omega⟩

theorem wholeMark_of_dvd_two (hchannels : channels ∣ 2) (sampleRate mark : ℕ) :
    WholeMark sampleRate channels mark :=
  (dvd_skipAmount_iff sampleRate channels mark).mp (Nat.dvd_mul_left_of_dvd hchannels _)

/-- At such a rate every mark is an even number of frames. -/
theorem wholeMark_of_dvd_eighty (hrate : 80 ∣ sampleRate) (channels mark : ℕ) :
    WholeMark sampleRate channels mark := by
  obtain ⟨n, rfl⟩ := hrate
  have hsplit : 80 * n * mark = 40 * (2 * (n * mark)) := by ring
  have hframes : 80 * n * mark / 40 = 2 * (n * mark) := by omega
  have hrest : 80 * n * mark % 40 = 0 := by omega
  unfold WholeMark
  dsimp only
  rw [hframes, hrest]
  exact .inl ⟨by omega, (even_two_mul _).mul_left _⟩

theorem shrinkage_of_shrinks {b : AudioBuffer ρ} {having mark : ℕ} {now : ℤ}
    (h : Shrinks R b having now mark) :
    shrinkage R b having now = skipAmount (R.capacity b.ring) mark := by
  have hdue : ¬ (b.tms = 0 ∨ now < b.tms + 12000) := by
    rintro (hzero | hlt)
    · exact h.due.1 hzero
    · exact absurd hlt (not_lt.mpr h.due.2)
  unfold shrinkage
  rw [if_neg hdue, h.mark_eq]
  exact if_pos h.full

/-- A shrink that takes nothing, or one that takes place. -/
theorem shrinkage_cases (R : RingBuffer ρ α) (b : AudioBuffer ρ) (having : ℕ) (now : ℤ) :
    shrinkage R b having now = 0 ∨ ∃ mark, Shrinks R b having now mark := by
  unfold shrinkage
  split
  · exact .inl rfl
  · next hdue =>
      obtain ⟨hzero, hlate⟩ := not_or.mp hdue
      cases hmark : dropMark (b.counted having) with
      | none => exact .inl rfl
      | some mark =>
          dsimp only
          split
          · next hfull => exact .inr ⟨mark, ⟨hzero, not_lt.mp hlate⟩, hmark, hfull⟩
          · exact .inl rfl

theorem shrinkage_le (R : RingBuffer ρ α) (b : AudioBuffer ρ) (having : ℕ) (now : ℤ) :
    shrinkage R b having now ≤ R.occupiedLen b.ring := by
  rcases shrinkage_cases R b having now with hzero | ⟨mark, h⟩
  · omega
  · rw [shrinkage_of_shrinks h]
    have := h.full
    omega

/-- The ring holds what was written and not removed. -/
structure Tracks (R : RingBuffer ρ α) (sampleRate channels : ℕ) (p : Playback ρ α) : Prop where
  contents : R.contents p.buffer.ring = p.written.drop p.removed
  le_written : p.removed ≤ p.written.length
  room : R.occupiedLen p.buffer.ring ≤ R.capacity p.buffer.ring
  capacity : R.capacity p.buffer.ring = sampleRate * channels * 3
  written : channels ∣ p.written.length

theorem Tracks.occupied {p : Playback ρ α} (h : Tracks R sampleRate channels p) :
    p.occupied R + p.removed = p.written.length := by
  unfold Playback.occupied RingBuffer.occupiedLen
  have := h.le_written
  rw [h.contents, List.length_drop]
  omega

theorem tracks_start (R : RingBuffer ρ α) (sampleRate channels : ℕ) :
    Tracks R sampleRate channels (Playback.start R sampleRate channels) := by
  have hsize : sampleRate * channels * audioBufferMs / 1000 = sampleRate * channels * 3 := by
    unfold audioBufferMs
    omega
  have hring : (Playback.start R sampleRate channels).buffer.ring =
      R.new (sampleRate * channels * 3) := by
    unfold Playback.start AudioBuffer.resize AudioBuffer.default
    dsimp only
    rw [hsize, R.capacity_new]
    split
    · next hsame => rw [hsame]
    · rfl
  refine ⟨?_, Nat.zero_le _, ?_, ?_, Nat.dvd_zero _⟩
  · rw [hring, R.contents_new]
    rfl
  · unfold RingBuffer.occupiedLen
    rw [hring, R.contents_new]
    exact Nat.zero_le _
  · rw [hring, R.capacity_new]

/-- How much a call removes. -/
def removal (R : RingBuffer ρ α) (p : Playback ρ α) : PlaybackCall α → ℕ
  | .append buffer => p.occupied R + buffer.length - R.capacity p.buffer.ring
  | .shrink having now => shrinkage R p.buffer having now
  | .callback requested => (p.gate.samplesToPlay (p.occupied R) requested).2
  | .otherBuffer _ => 0

theorem samplesToPlay_eq (gate : PlaybackGate) (queued requested : ℕ) :
    (gate.samplesToPlay queued requested).2 = 0 ∨
      (gate.samplesToPlay queued requested).2 = min queued requested := by
  unfold PlaybackGate.samplesToPlay
  split
  · exact .inl rfl
  · exact .inr rfl

/-- Samples come in at the end and the oldest `n` go. -/
theorem Tracks.advance {p p' : Playback ρ α} (h : Tracks R sampleRate channels p)
    {added : List α} {n : ℕ}
    (hcontents : R.contents p'.buffer.ring = (R.contents p.buffer.ring ++ added).drop n)
    (hcapacity : R.capacity p'.buffer.ring = R.capacity p.buffer.ring)
    (hwritten : p'.written = p.written ++ added) (hremoved : p'.removed = p.removed + n)
    (hle : n ≤ p.occupied R + added.length)
    (hroom : p.occupied R + added.length - n ≤ R.capacity p.buffer.ring)
    (hwhole : channels ∣ added.length) : Tracks R sampleRate channels p' := by
  have hoccupied := h.occupied
  constructor
  · rw [hcontents, hwritten, hremoved, h.contents,
      ← List.drop_append_of_le_length h.le_written, List.drop_drop]
  · rw [hwritten, hremoved, List.length_append]
    omega
  · unfold Playback.occupied RingBuffer.occupiedLen at hroom
    unfold RingBuffer.occupiedLen
    rw [hcontents, hcapacity, List.length_drop, List.length_append]
    exact hroom
  · rw [hcapacity]
    exact h.capacity
  · rw [hwritten, List.length_append]
    exact Nat.dvd_add h.written hwhole

theorem Tracks.append {p : Playback ρ α} (h : Tracks R sampleRate channels p) {buffer : List α}
    (hwhole : channels ∣ buffer.length) :
    Tracks R sampleRate channels (p.call R (.append buffer)) ∧
      (p.call R (.append buffer)).removed = p.removed + removal R p (.append buffer) := by
  obtain ⟨hafter, hcapacity⟩ := contents_appendPcm2 (R := R) p.buffer buffer
  have hremoved : (p.call R (.append buffer)).removed =
      p.removed + removal R p (.append buffer) := by
    have hlength : R.occupiedLen (p.buffer.appendPcm2 R buffer).1.ring =
        p.occupied R + buffer.length -
          (p.occupied R + buffer.length - R.capacity p.buffer.ring) := by
      unfold RingBuffer.occupiedLen at hafter ⊢
      rw [hafter, List.length_drop, List.length_append]
      rfl
    unfold Playback.call removal
    dsimp only
    rw [hlength]
    omega
  refine ⟨h.advance hafter hcapacity rfl hremoved ?_ ?_ hwhole, hremoved⟩
  · exact Nat.sub_le _ _
  · show p.occupied R + buffer.length -
      (p.occupied R + buffer.length - R.capacity p.buffer.ring) ≤ _
    omega

theorem Tracks.shrink {p : Playback ρ α} (h : Tracks R sampleRate channels p) (having : ℕ)
    (now : ℤ) :
    Tracks R sampleRate channels (p.call R (.shrink having now)) ∧
      (p.call R (.shrink having now)).removed = p.removed + removal R p (.shrink having now) := by
  obtain ⟨hafter, hcapacity⟩ := contents_tryShrink (R := R) p.buffer having now
  have hroom : p.occupied R ≤ R.capacity p.buffer.ring := h.room
  have hle : shrinkage R p.buffer having now ≤ p.occupied R := shrinkage_le R _ _ _
  have hremoved : (p.call R (.shrink having now)).removed =
      p.removed + removal R p (.shrink having now) := by
    have hlength : R.occupiedLen (p.buffer.tryShrink R having now).ring =
        p.occupied R - shrinkage R p.buffer having now := by
      unfold RingBuffer.occupiedLen
      rw [hafter, List.length_drop]
      rfl
    unfold Playback.call removal
    dsimp only
    rw [hlength]
    omega
  refine ⟨h.advance ?_ hcapacity (List.append_nil _).symm hremoved ?_ ?_ (Nat.dvd_zero _),
    hremoved⟩
  · rw [List.append_nil]
    exact hafter
  · exact hle
  · exact (Nat.sub_le _ _).trans hroom

theorem Tracks.callback {p : Playback ρ α} (h : Tracks R sampleRate channels p)
    (requested : ℕ) :
    Tracks R sampleRate channels (p.call R (.callback requested)) ∧
      (p.call R (.callback requested)).removed =
        p.removed + removal R p (.callback requested) := by
  let n := (p.gate.samplesToPlay (p.occupied R) requested).2
  have hroom : p.occupied R ≤ R.capacity p.buffer.ring := h.room
  have hle : n ≤ p.occupied R := by
    rcases samplesToPlay_eq p.gate (p.occupied R) requested with hzero | hmin
    · exact hzero.trans_le (Nat.zero_le _)
    · exact hmin.trans_le (Nat.min_le_left _ _)
  have hremoved : (p.call R (.callback requested)).removed =
      p.removed + removal R p (.callback requested) := by
    have houtput : (R.popSlice p.buffer.ring n).1.length = n := by
      rw [R.popSlice_output, List.length_take]
      exact Nat.min_eq_left hle
    show p.removed + (R.popSlice p.buffer.ring n).1.length = p.removed + n
    rw [houtput]
  refine ⟨h.advance ?_ ?_ (List.append_nil _).symm hremoved ?_ ?_ (Nat.dvd_zero _), hremoved⟩
  · rw [List.append_nil]
    exact R.contents_popSlice _ _
  · exact R.capacity_popSlice _ _
  · exact hle
  · exact (Nat.sub_le _ _).trans hroom

/-- A call removes the oldest samples, and nothing else moves. -/
theorem Tracks.call {p : Playback ρ α} (h : Tracks R sampleRate channels p) {c : PlaybackCall α}
    (hwhole : c.Whole channels) :
    Tracks R sampleRate channels (p.call R c) ∧
      (p.call R c).removed = p.removed + removal R p c := by
  cases c with
  | append buffer => exact h.append hwhole
  | shrink having now => exact h.shrink having now
  | callback requested => exact h.callback requested
  | otherBuffer tms => exact ⟨⟨h.contents, h.le_written, h.room, h.capacity, h.written⟩, rfl⟩

/-- Only a shrink can remove a part of a frame. -/
theorem Tracks.dvd_removal {p : Playback ρ α} (h : Tracks R sampleRate channels p)
    {c : PlaybackCall α} (hwhole : c.Whole channels) (hremoved : channels ∣ p.removed)
    (hshrink : ∀ having now mark, c = .shrink having now →
      Shrinks R p.buffer having now mark → WholeMark sampleRate channels mark) :
    channels ∣ removal R p c := by
  have hoccupied : channels ∣ p.occupied R := by
    rw [← Nat.dvd_add_left hremoved, h.occupied]
    exact h.written
  cases c with
  | append buffer =>
      have hcapacity : channels ∣ R.capacity p.buffer.ring := by
        rw [h.capacity]
        exact Nat.dvd_mul_right_of_dvd (Nat.dvd_mul_left _ _) _
      exact Nat.dvd_sub (Nat.dvd_add hoccupied hwhole) hcapacity
  | shrink having now =>
      show channels ∣ shrinkage R p.buffer having now
      rcases shrinkage_cases R p.buffer having now with hzero | ⟨mark, hmark⟩
      · rw [hzero]
        exact Nat.dvd_zero _
      · rw [shrinkage_of_shrinks hmark, h.capacity]
        exact (dvd_skipAmount_iff sampleRate channels mark).mpr (hshrink having now mark rfl hmark)
  | callback requested =>
      show channels ∣ (p.gate.samplesToPlay (p.occupied R) requested).2
      rcases samplesToPlay_eq p.gate (p.occupied R) requested with hzero | hmin
      · rw [hzero]
        exact Nat.dvd_zero _
      · rw [hmin]
        rcases Nat.le_total (p.occupied R) requested with hle | hle
        · rw [Nat.min_eq_left hle]
          exact hoccupied
        · rw [Nat.min_eq_right hle]
          exact hwhole
  | otherBuffer tms => exact Nat.dvd_zero _

/-- Where whole frames were removed, the next samples played are those of whole frames. -/
theorem Aligned.call {p : Playback ρ α} (h : Aligned channels p)
    (htracks : Tracks R sampleRate channels p) {c : PlaybackCall α} (hwhole : c.Whole channels)
    (hremoval : channels ∣ removal R p c) :
    Aligned channels (p.call R c) := by
  refine ⟨?_, ?_⟩
  · rw [(htracks.call hwhole).2]
    exact Nat.dvd_add h.1 hremoval
  · intro j x hx
    cases c with
    | append buffer =>
        obtain ⟨i, hi, hchannel⟩ := h.2 j x hx
        refine ⟨i, ?_, hchannel⟩
        show (p.written ++ buffer)[i]? = some x
        rw [List.getElem?_append_left (List.getElem?_eq_some_iff.mp hi).1]
        exact hi
    | shrink having now => exact h.2 j x hx
    | callback requested =>
        refine ⟨p.removed + j, ?_, ?_⟩
        · -- the callback plays the oldest samples of the ring
          have hplayed : (R.popSlice p.buffer.ring
              (p.gate.samplesToPlay (p.occupied R) requested).2).1[j]? = some x := hx
          rw [R.popSlice_output, htracks.contents, List.getElem?_take] at hplayed
          rw [← List.getElem?_drop]
          split at hplayed
          · exact hplayed
          · cases hplayed
        · obtain ⟨frames, hframes⟩ := h.1
          rw [hframes, Nat.mul_add_mod]
    | otherBuffer tms => exact h.2 j x hx

theorem aligned_start (R : RingBuffer ρ α) (sampleRate channels : ℕ) :
    Aligned channels (Playback.start R sampleRate channels) := by
  refine ⟨Nat.dvd_zero _, fun j x hx => ?_⟩
  simp [Playback.start] at hx

theorem tracks_after {calls : List (PlaybackCall α)} (hwhole : ∀ c ∈ calls, c.Whole channels) :
    Tracks R sampleRate channels (Playback.after R sampleRate channels calls) := by
  induction calls using List.reverseRecOn with
  | nil => exact tracks_start R sampleRate channels
  | append_singleton calls c ih =>
      rw [Playback.after_concat]
      have hbefore := ih fun c hc => hwhole c (List.mem_append_left _ hc)
      exact (hbefore.call (hwhole c (by simp))).1

theorem ChannelsAligned.aligned {calls : List (PlaybackCall α)}
    (h : ChannelsAligned R sampleRate channels calls) :
    Aligned channels (Playback.after R sampleRate channels calls) := by
  induction calls using List.reverseRecOn with
  | nil => exact aligned_start R sampleRate channels
  | append_singleton calls c _ => exact (always_concat.mp h).2

/-- Two channels survive every shrink, and so does one. -/
theorem shrinksWhole_of_dvd_two (R : RingBuffer ρ α) (sampleRate : ℕ)
    (hchannels : channels ∣ 2) (calls : List (PlaybackCall α)) :
    ShrinksWhole R sampleRate channels calls := by
  intro before c after _ having now mark _ _
  exact wholeMark_of_dvd_two hchannels sampleRate mark

/-- At 48 kHz, and at every other multiple of 80 Hz, so does any number of channels. -/
theorem shrinksWhole_of_dvd_eighty (R : RingBuffer ρ α) (hrate : 80 ∣ sampleRate) (channels : ℕ)
    (calls : List (PlaybackCall α)) : ShrinksWhole R sampleRate channels calls := by
  intro before c after _ having now mark _ _
  exact wholeMark_of_dvd_eighty hrate channels mark

/-- Between aligned states a shrink that takes place has a mark of whole frames. -/
theorem whole_of_aligned {p : Playback ρ α} (htracks : Tracks R sampleRate channels p)
    (hbefore : Aligned channels p) {having mark : ℕ} {now : ℤ}
    (hafter : Aligned channels (p.call R (.shrink having now)))
    (hshrinks : Shrinks R p.buffer having now mark) : WholeMark sampleRate channels mark := by
  have hremoved := (htracks.call (c := .shrink having now) trivial).2
  rw [← dvd_skipAmount_iff, ← htracks.capacity, ← shrinkage_of_shrinks hshrinks]
  have hsum : channels ∣ p.removed + removal R p (.shrink having now) := hremoved ▸ hafter.1
  exact (Nat.dvd_add_right hbefore.1).mp hsum

/-- The channels stay aligned exactly in the runs whose shrinks have marks of whole frames. -/
theorem channelsAligned_iff (R : RingBuffer ρ α) (sampleRate channels : ℕ)
    (calls : List (PlaybackCall α)) (hwhole : ∀ c ∈ calls, c.Whole channels) :
    ChannelsAligned R sampleRate channels calls ↔ ShrinksWhole R sampleRate channels calls := by
  induction calls using List.reverseRecOn with
  | nil => exact iff_of_true always_nil always_nil
  | append_singleton calls c ih =>
      have hcalls : ∀ c ∈ calls, c.Whole channels :=
        fun c hc => hwhole c (List.mem_append_left _ hc)
      have htracks : Tracks R sampleRate channels (Playback.after R sampleRate channels calls) :=
        tracks_after hcalls
      have hc : c.Whole channels := hwhole c (by simp)
      unfold ChannelsAligned ShrinksWhole at ih ⊢
      rw [always_concat, always_concat, Playback.after_concat]
      constructor
      · rintro ⟨hbefore, hafter⟩
        refine ⟨(ih hcalls).mp hbefore, ?_⟩
        rintro having now mark rfl hshrinks
        exact whole_of_aligned htracks (ChannelsAligned.aligned hbefore) hafter hshrinks
      · rintro ⟨hbefore, hshrink⟩
        have hbefore := (ih hcalls).mpr hbefore
        have haligned := ChannelsAligned.aligned hbefore
        exact ⟨hbefore, haligned.call htracks hc (htracks.dvd_removal hc haligned.1 hshrink)⟩

/-- A device of six channels with 0.725 seconds queued for twelve seconds: 84 samples go. -/
def wholeCalls : List (PlaybackCall ℕ) :=
  [.append (List.range 342), .shrink 342 1, .append (List.range 6), .shrink 348 12001,
    .callback 12]

theorem channelsAligned_iff_sixChannels :
    ChannelsAligned listRing 80 6 wholeCalls ∧
      (Playback.after listRing 80 6 wholeCalls).removed = 84 + 12 := by
  refine ⟨(channelsAligned_iff listRing 80 6 wholeCalls ?_).mpr
    (shrinksWhole_of_dvd_eighty listRing (Nat.dvd_refl 80) 6 wholeCalls), by decide +kernel⟩
  simp [wholeCalls, PlaybackCall.Whole]

/-- A device of six channels at 44.1 kHz, with 0.72 seconds queued for twelve seconds. -/
def surroundCalls : List (PlaybackCall ℕ) :=
  [.append (List.replicate 190512 0), .shrink 190512 1, .append (List.replicate 6 0)]

theorem surroundCalls_whole : ∀ c ∈ surroundCalls, c.Whole 6 := by
  intro c hc
  rcases List.mem_cons.mp hc with rfl | hc
  · show 6 ∣ (List.replicate 190512 0).length
    rw [List.length_replicate]
    decide
  · rcases List.mem_cons.mp hc with rfl | hc
    · trivial
    · obtain rfl := List.mem_singleton.mp hc
      show 6 ∣ (List.replicate 6 0).length
      decide

theorem surroundCalls_buffer {first second : List ℕ} (hfirst : first.length = 190512)
    (hsecond : second.length = 6) :
    (Playback.after listRing 44100 6
        [.append first, .shrink 190512 1, .append second]).buffer =
      ⟨(first ++ second, 793800), 264600, Function.update (fun _ => 0) 7 1, 1⟩ := by
  have hstart : (Playback.start (α := ℕ) listRing 44100 6).buffer =
      ⟨([], 793800), 264600, fun _ => 0, 0⟩ := rfl
  have hone : ((Playback.start listRing 44100 6).buffer.appendPcm2 listRing first).1 =
      ⟨(first, 793800), 264600, fun _ => 0, 0⟩ := by
    rw [hstart, appendPcm2_listRing (by simp [hfirst])]
    rfl
  have htwo : (AudioBuffer.mk (first, 793800) 264600 (fun _ => 0) 0).tryShrink listRing 190512 1 =
      ⟨(first, 793800), 264600, Function.update (fun _ => 0) 7 1, 1⟩ := by
    have hmark : markOf 190512 264600 = 7 := by decide
    simp only [AudioBuffer.tryShrink, AudioBuffer.counted, hmark, if_true]
  unfold Playback.after
  simp only [List.foldl_cons, List.foldl_nil, Playback.call]
  rw [hone, htwo, appendPcm2_listRing (by simp [hfirst, hsecond])]

/-- 46306 samples are dropped, which is no multiple of six. -/
theorem surround_misaligned :
    (∀ c ∈ surroundCalls ++ [.shrink 190518 12001], c.Whole 6) ∧
      ¬ ChannelsAligned listRing 44100 6 (surroundCalls ++ [.shrink 190518 12001]) := by
  have hbuffer : (Playback.after listRing 44100 6 surroundCalls).buffer = _ :=
    surroundCalls_buffer (List.length_replicate (n := 190512) (a := 0))
    (List.length_replicate (n := 6) (a := 0))
  have hshrinks : Shrinks listRing (Playback.after listRing 44100 6 surroundCalls).buffer
      190518 12001 7 := by
    rw [hbuffer]
    refine ⟨by decide, by decide, ?_⟩
    unfold RingBuffer.occupiedLen listRing
    rw [List.length_append, List.length_replicate, List.length_replicate]
    decide
  refine ⟨?_, fun h => ?_⟩
  · intro c hc
    rcases List.mem_append.mp hc with hc | hc
    · exact surroundCalls_whole c hc
    · obtain rfl := List.mem_singleton.mp hc
      trivial
  · obtain ⟨hbefore, hafter⟩ := always_concat.mp h
    rw [Playback.after_concat] at hafter
    have hdvd := whole_of_aligned (tracks_after surroundCalls_whole)
      (ChannelsAligned.aligned hbefore) hafter hshrinks
    revert hdvd
    unfold WholeMark
    decide

end Alignment

end RustAdmin.Audio
