import Mathlib.Algebra.Order.Floor.Semiring
import Mathlib.Data.List.GetD
import Mathlib.Data.Rat.Floor
import RustAdmin.Support.Frames

/-!
# The streaming resampler

`StreamingResampler` of `libs/scrap/src/common/pcm.rs` interpolates linearly between
the frames of a stream that comes in packets.  Between two packets it keeps the last
frame and how far the next output is behind it.  Samples and positions are rational
numbers.

The resampler is compared with the list of outputs of the whole stream
(`resampledFrom`), which knows nothing of packets.  `Behind` says which part of that
list has come out and what is held back, and `Behind.process` carries it over a
packet: `resample_eq` gives the outputs of the loop, and `resampledFrom_append` says
that a longer stream has the same outputs so far.  `Behind.unique` then makes the
state behind a stream the same for every division into packets.
-/

namespace RustAdmin.Audio

open RustAdmin.Support

structure StreamingResampler where
  channels : ℕ
  step : ℚ
  /-- The position of the next output, from the first frame that is held. -/
  position : ℚ
  previous : List ℚ
  passthrough : Bool
  deriving DecidableEq, Repr

/-- One output frame. -/
def interpolate (a b : List ℚ) (fraction : ℚ) : List ℚ :=
  List.zipWith (fun a b => a + (b - a) * fraction) a b

namespace StreamingResampler

def new (inRate outRate channels : ℕ) : StreamingResampler :=
  let passthrough := decide (inRate = outRate ∨ inRate = 0 ∨ outRate = 0)
  { channels := max channels 1
    step := if passthrough then 1 else inRate / outRate
    position := 0
    previous := []
    passthrough := passthrough }

variable (r : StreamingResampler)

/-- The held frame at an index; `none` where the slice is not within the input. -/
def frame (input : List ℚ) (offset index : ℕ) : Option (List ℚ) :=
  if index < offset then some r.previous
  else
    let start := (index - offset) * r.channels
    if start + r.channels ≤ input.length then some ((input.drop start).take r.channels) else none

/-- The loop: the outputs of the packet and the position behind them.  `none` where a
read fails, or where the loop goes on after `fuel` turns. -/
def resample (input : List ℚ) (offset frames : ℕ) : ℕ → ℚ → Option (List ℚ × ℚ)
  | 0, _ => none
  | fuel + 1, position =>
      let index := ⌊position⌋₊
      if frames ≤ index + 1 then some ([], position)
      else do
        let a ← r.frame input offset index
        let b ← r.frame input offset (index + 1)
        let (output, last) ← resample input offset frames fuel (position + r.step)
        some (interpolate a b (position - index) ++ output, last)

/-- `process`: the resampler afterwards and what it appends to the output.  A partial
frame at the end of the packet is ignored. -/
def process (packet : List ℚ) : Option (StreamingResampler × List ℚ) :=
  let input := packet.take (packet.length / r.channels * r.channels)
  if r.passthrough then some (r, input)
  else
    let offset := if r.previous = [] then 0 else 1
    let frames := input.length / r.channels + offset
    if frames = 0 then some (r, [])
    else do
      let (output, position) ←
        r.resample input offset frames (⌈(frames : ℚ) / r.step⌉₊ + 1) r.position
      let last ← r.frame input offset (frames - 1)
      some ({ r with position := position - (frames - 1 : ℕ), previous := last }, output)

/-- Packets one after another. -/
def processAll : StreamingResampler → List (List ℚ) → Option (StreamingResampler × List ℚ)
  | r, [] => some (r, [])
  | r, packet :: packets => do
      let (r, output) ← r.process packet
      let (r, more) ← processAll r packets
      some (r, output ++ more)

end StreamingResampler

/-! ## What the stream stands for -/

/-- The frame between two frames of the stream. -/
def frameAt (stream : List (List ℚ)) (t : ℚ) : List ℚ :=
  interpolate (stream.getD ⌊t⌋₊ []) (stream.getD (⌊t⌋₊ + 1) []) (t - ⌊t⌋₊)

/-- How many outputs lie before the last frame of the stream. -/
def outputs (step : ℚ) (frames : ℕ) : ℕ := ⌈((frames - 1 : ℕ) : ℚ) / step⌉₊

/-- The outputs from the one with this number on. -/
def resampledFrom (step : ℚ) (stream : List (List ℚ)) (k : ℕ) : List ℚ :=
  (List.range' k (outputs step stream.length - k)).flatMap fun j : ℕ =>
    frameAt stream (j * step)

theorem lt_outputs_iff {step : ℚ} (hstep : 0 < step) {k frames : ℕ} :
    k < outputs step frames ↔ k * step < (frames - 1 : ℕ) := by
  unfold outputs
  rw [Nat.lt_ceil, lt_div_iff₀ hstep]

theorem resampledFrom_of_lt {step : ℚ} {stream : List (List ℚ)} {k : ℕ}
    (hk : k < outputs step stream.length) :
    resampledFrom step stream k =
      frameAt stream (k * step) ++ resampledFrom step stream (k + 1) := by
  have hcount : outputs step stream.length - k = outputs step stream.length - (k + 1) + 1 := by
    omega
  unfold resampledFrom
  rw [hcount, List.range'_succ, List.flatMap_cons]

theorem resampledFrom_of_ge {step : ℚ} {stream : List (List ℚ)} {k : ℕ}
    (hk : outputs step stream.length ≤ k) : resampledFrom step stream k = [] := by
  unfold resampledFrom
  rw [Nat.sub_eq_zero_of_le hk]
  rfl

/-! ## One packet -/

/-- The held frames are frames of the stream. -/
def Holds (r : StreamingResampler) (input : List ℚ) (offset frames base : ℕ)
    (stream : List (List ℚ)) : Prop :=
  ∀ i < frames, r.frame input offset i = some (stream.getD (base + i) [])

/-- The loop ends where the next output is not before the last frame of the stream. -/
theorem frames_le_floor_iff {step position : ℚ} {frames base k : ℕ} {stream : List (List ℚ)}
    (hstep : 0 < step) (hframes : 0 < frames) (hlength : stream.length = base + frames)
    (hposition : position + base = k * step) (hnonneg : 0 ≤ position) :
    frames ≤ ⌊position⌋₊ + 1 ↔ outputs step stream.length ≤ k := by
  have hlast : stream.length - 1 = base + (frames - 1) := by omega
  have hfloor : frames ≤ ⌊position⌋₊ + 1 ↔ ((frames - 1 : ℕ) : ℚ) ≤ position := by
    rw [← Nat.le_floor_iff hnonneg]
    omega
  rw [hfloor, ← not_lt, ← not_lt, lt_outputs_iff hstep, hlast, ← hposition, Nat.cast_add,
    add_comm position, add_lt_add_iff_left]

/-- The loop puts out the frames that lie before the last one held. -/
theorem resample_eq {r : StreamingResampler} {input : List ℚ} {offset frames base : ℕ}
    {stream : List (List ℚ)} (hstep : 0 < r.step)
    (hholds : Holds r input offset frames base stream) (hframes : 0 < frames)
    (hlength : stream.length = base + frames) (fuel : ℕ) :
    ∀ (k : ℕ) (position : ℚ), position + base = k * r.step → 0 ≤ position →
      k ≤ outputs r.step stream.length → (frames : ℚ) ≤ position + fuel * r.step →
      r.resample input offset frames (fuel + 1) position =
        some (resampledFrom r.step stream k,
          outputs r.step stream.length * r.step - base) := by
  induction fuel with
  | zero =>
      intro k position hposition hnonneg hk hfuel
      have hbreak : frames ≤ ⌊position⌋₊ + 1 := by
        rw [Nat.cast_zero, zero_mul, add_zero, ← Nat.le_floor_iff hnonneg] at hfuel
        omega
      have hend := (frames_le_floor_iff hstep hframes hlength hposition hnonneg).mp hbreak
      obtain rfl : k = outputs r.step stream.length := Nat.le_antisymm hk hend
      unfold StreamingResampler.resample
      rw [if_pos hbreak, resampledFrom_of_ge hend, ← hposition, add_sub_cancel_right]
  | succ fuel ih =>
      intro k position hposition hnonneg hk hfuel
      unfold StreamingResampler.resample
      by_cases hbreak : frames ≤ ⌊position⌋₊ + 1
      · have hend := (frames_le_floor_iff hstep hframes hlength hposition hnonneg).mp hbreak
        obtain rfl : k = outputs r.step stream.length := Nat.le_antisymm hk hend
        rw [if_pos hbreak, resampledFrom_of_ge hend, ← hposition, add_sub_cancel_right]
      · have hmore : k < outputs r.step stream.length := by
          rw [frames_le_floor_iff hstep hframes hlength hposition hnonneg] at hbreak
          exact Nat.lt_of_not_le hbreak
        have hnext := ih (k + 1) (position + r.step) (by push_cast; linarith) (by linarith) hmore
          (by push_cast at hfuel; linarith)
        -- the frames around the position, in terms of the stream
        have hfloor : ⌊(k : ℚ) * r.step⌋₊ = base + ⌊position⌋₊ := by
          rw [← hposition, Nat.floor_add_natCast hnonneg, Nat.add_comm]
        have hframe : interpolate (stream.getD (base + ⌊position⌋₊) [])
            (stream.getD (base + (⌊position⌋₊ + 1)) []) (position - ⌊position⌋₊) =
              frameAt stream (k * r.step) := by
          unfold frameAt
          rw [hfloor, ← Nat.add_assoc, ← hposition, Nat.cast_add]
          congr 1
          ring
        rw [if_neg hbreak, hholds _ (by omega), hholds _ (by omega), hnext]
        simp only [Option.bind_eq_bind, Option.bind_some]
        rw [hframe, ← resampledFrom_of_lt hmore]
/-! ## Packets -/

theorem le_outputs_mul {step : ℚ} (hstep : 0 < step) (frames : ℕ) :
    ((frames - 1 : ℕ) : ℚ) ≤ outputs step frames * step := by
  rw [← div_le_iff₀ hstep]
  exact Nat.le_ceil _

theorem outputs_mono {step : ℚ} (hstep : 0 < step) {frames more : ℕ} (h : frames ≤ more) :
    outputs step frames ≤ outputs step more := by
  unfold outputs
  gcongr

theorem frameAt_append {stream more : List (List ℚ)} {t : ℚ} (ht : ⌊t⌋₊ + 1 < stream.length) :
    frameAt (stream ++ more) t = frameAt stream t := by
  unfold frameAt
  rw [List.getD_append _ _ _ _ (by omega), List.getD_append _ _ _ _ ht]

/-- A stream that goes on keeps the outputs it has had. -/
theorem resampledFrom_append {step : ℚ} (hstep : 0 < step) (stream more : List (List ℚ)) {k : ℕ}
    (hk : k ≤ outputs step stream.length) :
    resampledFrom step (stream ++ more) k =
      resampledFrom step stream k ++
        resampledFrom step (stream ++ more) (outputs step stream.length) := by
  have hle : outputs step stream.length ≤ outputs step (stream ++ more).length :=
    outputs_mono hstep (by simp)
  have hcount : outputs step (stream ++ more).length - k =
      (outputs step stream.length - k) +
        (outputs step (stream ++ more).length - outputs step stream.length) := by omega
  have hnext : k + (outputs step stream.length - k) = outputs step stream.length := by omega
  unfold resampledFrom
  rw [hcount, ← List.range'_append_1, List.flatMap_append, hnext]
  congr 1
  refine List.flatMap_congr fun j hj => frameAt_append ?_
  obtain ⟨-, hj⟩ := List.mem_range'_1.mp hj
  have hlt := (lt_outputs_iff hstep).mp (show j < outputs step stream.length by omega)
  have hfloor : ⌊(j : ℚ) * step⌋₊ < stream.length - 1 := by
    rw [Nat.floor_lt (by positivity)]
    exact hlt
  omega

/-- The resampler behind a stream. -/
structure Behind (step : ℚ) (channels : ℕ) (stream : List (List ℚ)) (r : StreamingResampler) :
    Prop where
  channels_eq : r.channels = channels
  step_eq : r.step = step
  passthrough : r.passthrough = false
  previous : r.previous = stream.getD (stream.length - 1) []
  position : r.position = outputs step stream.length * step - (stream.length - 1 : ℕ)

section Packets

variable {step : ℚ} {channels : ℕ} {stream added : List (List ℚ)} {r : StreamingResampler}

/-- The frames that are held during a packet are the last frame before and the packet. -/
theorem Behind.holds (h : Behind step channels stream r) (hadded : Framed channels added) :
    Holds r added.flatten (if stream = [] then 0 else 1)
      (added.length + if stream = [] then 0 else 1)
      (stream.length - if stream = [] then 0 else 1) (stream ++ added) := by
  generalize hoffset : (if stream = [] then 0 else 1) = offset
  have hle : offset ≤ stream.length ∧ offset ≤ 1 := by
    subst hoffset
    split
    · simp
    · next hne => exact ⟨List.length_pos_iff.mpr hne, Nat.le_refl 1⟩
  intro i hi
  unfold StreamingResampler.frame
  split
  · next hlt =>
      rw [h.previous, List.getD_append _ _ _ _ (by omega)]
      congr 2
      omega
  · next hge =>
      have hframe : i - offset < added.length := by omega
      have hslice : (i - offset) * channels + channels ≤ added.flatten.length := by
        rw [hadded.length_flatten, ← Nat.succ_mul]
        exact Nat.mul_le_mul_right _ hframe
      dsimp only
      rw [h.channels_eq, if_pos hslice, hadded.slice (List.getElem?_eq_getElem hframe),
        List.getD_append_right _ _ _ _ (by omega)]
      have hindex : stream.length - offset + i - stream.length = i - offset := by omega
      rw [hindex, List.getD_eq_getElem _ _ hframe]

theorem Behind.previous_eq_nil (h : Behind step channels stream r) (hchannels : 0 < channels)
    (hstream : Framed channels stream) : r.previous = [] ↔ stream = [] := by
  rw [h.previous]
  constructor
  · intro hlast
    by_contra hne
    have hpos : stream.length - 1 < stream.length := by
      have := List.length_pos_iff.mpr hne
      omega
    rw [List.getD_eq_getElem _ _ hpos] at hlast
    have hlength := hstream _ (List.getElem_mem hpos)
    rw [hlast, List.length_nil] at hlength
    omega
  · rintro rfl
    rfl

/-- A packet of whole frames goes through, and the outputs go on. -/
theorem Behind.process (h : Behind step channels stream r) (hstep : 0 < step)
    (hchannels : 0 < channels) (hstream : Framed channels stream)
    (hadded : Framed channels added) :
    ∃ r', r.process added.flatten =
        some (r', resampledFrom step (stream ++ added) (outputs step stream.length)) ∧
      Behind step channels (stream ++ added) r' := by
  have hinput : added.flatten.take (added.flatten.length / r.channels * r.channels) =
      added.flatten := by
    rw [h.channels_eq, hadded.length_flatten, Nat.mul_div_cancel _ hchannels,
      ← hadded.length_flatten, List.take_length]
  have hcount : added.flatten.length / r.channels = added.length := by
    rw [h.channels_eq, hadded.length_flatten, Nat.mul_div_cancel _ hchannels]
  have hholds := h.holds hadded
  unfold StreamingResampler.process
  dsimp only
  rw [hinput, hcount, h.passthrough]
  simp only [Bool.false_eq_true, if_false, h.previous_eq_nil hchannels hstream]
  have hbase : stream.length - (if stream = [] then 0 else 1) = stream.length - 1 := by
    split
    · next hempty => rw [hempty, List.length_nil]
    · rfl
  rw [hbase] at hholds
  have hlength : (stream ++ added).length =
      (stream.length - 1) + (added.length + if stream = [] then 0 else 1) := by
    rw [List.length_append]
    split
    · next hempty => simp [hempty]
    · next hne =>
        have := List.length_pos_iff.mpr hne
        omega
  generalize (if stream = [] then 0 else 1) = offset at hholds hlength ⊢
  by_cases hframes : added.length + offset = 0
  · rw [if_pos hframes]
    obtain ⟨hnone, rfl⟩ : added.length = 0 ∧ offset = 0 := by omega
    obtain rfl := List.length_eq_zero_iff.mp hnone
    rw [List.append_nil] at hlength ⊢
    exact ⟨r, by rw [resampledFrom_of_ge (Nat.le_refl _)], h⟩
  · have hposition : r.position + ((stream.length - 1 : ℕ) : ℚ) =
        outputs step stream.length * r.step := by
      rw [h.position, h.step_eq, sub_add_cancel]
    have hnonneg : 0 ≤ r.position := by
      rw [h.position]
      exact sub_nonneg.mpr (le_outputs_mul hstep _)
    have hfuel : ((added.length + offset : ℕ) : ℚ) ≤
        r.position + ⌈((added.length + offset : ℕ) : ℚ) / r.step⌉₊ * r.step := by
      have hceil := Nat.le_ceil (((added.length + offset : ℕ) : ℚ) / r.step)
      rw [h.step_eq] at hceil ⊢
      rw [div_le_iff₀ hstep] at hceil
      linarith
    have hloop := resample_eq (h.step_eq ▸ hstep) hholds (Nat.pos_of_ne_zero hframes) hlength _ _
      _ hposition hnonneg (h.step_eq ▸ outputs_mono hstep (by simp)) hfuel
    have hlast := hholds (added.length + offset - 1) (by omega)
    rw [if_neg hframes, hloop, h.step_eq]
    simp only [Option.bind_eq_bind, Option.bind_some, hlast]
    have hsum : (stream ++ added).length - 1 =
        (stream.length - 1) + (added.length + offset - 1) := by omega
    refine ⟨_, rfl, h.channels_eq, rfl, rfl, ?_, ?_⟩
    · rw [hsum]
    · rw [hsum, Nat.cast_add, sub_sub]

/-- Packets of whole frames go through, and the outputs go on. -/
theorem Behind.processAll (hstep : 0 < step) (hchannels : 0 < channels)
    (packets : List (List (List ℚ))) (hpackets : ∀ packet ∈ packets, Framed channels packet) :
    ∀ {stream : List (List ℚ)} {r : StreamingResampler}, Behind step channels stream r →
      Framed channels stream →
      ∃ r', r.processAll (packets.map List.flatten) =
          some (r', resampledFrom step (stream ++ packets.flatten) (outputs step stream.length)) ∧
        Behind step channels (stream ++ packets.flatten) r' := by
  induction packets with
  | nil =>
      intro stream r h _
      refine ⟨r, ?_, by simpa using h⟩
      simp [StreamingResampler.processAll, resampledFrom_of_ge]
  | cons packet packets ih =>
      intro stream r h hstream
      obtain ⟨hpacket, hrest⟩ := List.forall_mem_cons.mp hpackets
      obtain ⟨r', hprocess, h'⟩ := h.process hstep hchannels hstream hpacket
      obtain ⟨r'', hall, h''⟩ := ih hrest h' (hstream.append hpacket)
      rw [List.append_assoc] at hall h''
      rw [List.flatten_cons]
      refine ⟨r'', ?_, h''⟩
      have hmono : outputs step stream.length ≤ outputs step (stream ++ packet).length :=
        outputs_mono hstep (by simp)
      have happend := resampledFrom_append hstep (stream ++ packet) packets.flatten hmono
      rw [List.append_assoc] at happend
      rw [List.map_cons, StreamingResampler.processAll, hprocess]
      simp only [Option.bind_eq_bind, Option.bind_some, hall]
      rw [happend]

end Packets

/-! ## Samples -/

/-- The linear interpolation of the samples of one channel at a position. -/
def linearAt (input : List ℚ) (channels channel : ℕ) (t : ℚ) : Option ℚ := do
  let a ← input[⌊t⌋₊ * channels + channel]?
  let b ← input[(⌊t⌋₊ + 1) * channels + channel]?
  some (a + (b - a) * (t - ⌊t⌋₊))

theorem outputs_nil (step : ℚ) : outputs step 0 = 0 := by simp [outputs]

theorem Behind.unique {step : ℚ} {channels : ℕ} {stream : List (List ℚ)}
    {r r' : StreamingResampler} (h : Behind step channels stream r)
    (h' : Behind step channels stream r') : r = r' := by
  obtain ⟨c, s, p, l, t⟩ := r
  obtain ⟨c', s', p', l', t'⟩ := r'
  obtain ⟨hc, hs, ht, hl, hp⟩ := h
  obtain ⟨hc', hs', ht', hl', hp'⟩ := h'
  dsimp only at hc hs ht hl hp hc' hs' ht' hl' hp'
  rw [hc, hs, ht, hl, hp, hc', hs', ht', hl', hp']

theorem behind_new {inRate outRate : ℕ} (hin : 0 < inRate) (hout : 0 < outRate)
    (hne : inRate ≠ outRate) (channels : ℕ) :
    Behind (inRate / outRate) (max channels 1) [] (.new inRate outRate channels) := by
  have hresamples : decide (inRate = outRate ∨ inRate = 0 ∨ outRate = 0) = false := by
    simp only [decide_eq_false_iff_not, not_or]
    omega
  refine ⟨rfl, ?_, hresamples, rfl, ?_⟩
  · unfold StreamingResampler.new
    dsimp only
    rw [hresamples, if_neg (by decide)]
  · simp [StreamingResampler.new, outputs_nil]

/-- One output frame lies between two frames of the stream, sample by sample. -/
theorem getElem?_frameAt {stream : List (List ℚ)} {channels channel : ℕ} {t : ℚ}
    (hstream : Framed channels stream) (hchannel : channel < channels)
    (ht : ⌊t⌋₊ + 1 < stream.length) :
    (frameAt stream t)[channel]? = linearAt stream.flatten channels channel t := by
  unfold frameAt linearAt interpolate
  rw [hstream.getElem?_flatten (List.getElem?_eq_getElem (Nat.lt_of_succ_lt ht)) hchannel,
    hstream.getElem?_flatten (List.getElem?_eq_getElem ht) hchannel, List.getElem?_zipWith,
    List.getD_eq_getElem _ _ (Nat.lt_of_succ_lt ht), List.getD_eq_getElem _ _ ht]
  cases stream[⌊t⌋₊][channel]? with
  | none => rfl
  | some a => cases stream[⌊t⌋₊ + 1][channel]? <;> rfl

theorem length_frameAt {stream : List (List ℚ)} {channels : ℕ} {t : ℚ}
    (hstream : Framed channels stream) (ht : ⌊t⌋₊ + 1 < stream.length) :
    (frameAt stream t).length = channels := by
  unfold frameAt interpolate
  rw [List.getD_eq_getElem _ _ (Nat.lt_of_succ_lt ht), List.getD_eq_getElem _ _ ht,
    List.length_zipWith, hstream _ (List.getElem_mem _), hstream _ (List.getElem_mem _),
    Nat.min_self]

section Outputs

variable {step : ℚ} {stream : List (List ℚ)} {channels : ℕ}

theorem floor_lt_of_lt_outputs (hstep : 0 < step) {k : ℕ} (hk : k < outputs step stream.length) :
    ⌊(k : ℚ) * step⌋₊ + 1 < stream.length := by
  have hlt := (lt_outputs_iff hstep).mp hk
  have hfloor : ⌊(k : ℚ) * step⌋₊ < stream.length - 1 := by
    rw [Nat.floor_lt (by positivity)]
    exact hlt
  omega

/-- The output frames of a stream. -/
def outputFrames (step : ℚ) (stream : List (List ℚ)) : List (List ℚ) :=
  (List.range (outputs step stream.length)).map fun k : ℕ => frameAt stream (k * step)

theorem flatten_outputFrames :
    (outputFrames step stream).flatten = resampledFrom step stream 0 := by
  unfold outputFrames resampledFrom
  rw [List.range_eq_range', Nat.sub_zero]
  rfl

theorem framed_outputFrames (hstep : 0 < step) (hstream : Framed channels stream) :
    Framed channels (outputFrames step stream) := by
  intro frame hframe
  obtain ⟨k, hk, rfl⟩ := List.mem_map.mp hframe
  exact length_frameAt hstream (floor_lt_of_lt_outputs hstep (List.mem_range.mp hk))

theorem getElem?_resampled (hstep : 0 < step) (hstream : Framed channels stream) {k channel : ℕ}
    (hchannel : channel < channels) (hk : k < outputs step stream.length) :
    (resampledFrom step stream 0)[k * channels + channel]? =
      linearAt stream.flatten channels channel (k * step) := by
  have hframe : (outputFrames step stream)[k]? = some (frameAt stream (k * step)) := by
    simp [outputFrames, hk]
  rw [← flatten_outputFrames, (framed_outputFrames hstep hstream).getElem?_flatten hframe hchannel]
  exact getElem?_frameAt hstream hchannel (floor_lt_of_lt_outputs hstep hk)

end Outputs

/-- **The resampler does not depend on the packets.**  Packets of whole frames give the
same output as one packet with all of them, and the same resampler afterwards; every
output is the interpolation of the input at its position, and no read fails. -/
theorem processAll_interpolates {inRate outRate : ℕ} (hin : 0 < inRate) (hout : 0 < outRate)
    (hne : inRate ≠ outRate) (channels : ℕ) (packets : List (List ℚ))
    (hwhole : ∀ packet ∈ packets, max channels 1 ∣ packet.length) :
    ∃ r output,
      (StreamingResampler.new inRate outRate channels).processAll packets = some (r, output) ∧
      (StreamingResampler.new inRate outRate channels).process packets.flatten =
        some (r, output) ∧
      output.length = outputs (inRate / outRate) (packets.flatten.length / max channels 1) *
        max channels 1 ∧
      ∀ k channel, channel < max channels 1 → k * max channels 1 + channel < output.length →
        output[k * max channels 1 + channel]? =
          linearAt packets.flatten (max channels 1) channel (k * inRate / outRate) := by
  have hchannels : 0 < max channels 1 := Nat.lt_of_lt_of_le Nat.one_pos (Nat.le_max_right _ _)
  have hstep : (0 : ℚ) < inRate / outRate := by positivity
  obtain ⟨frames, hframes, rfl⟩ := exists_framed_packets hwhole
  have hbehind := behind_new hin hout hne channels
  have hflat : Framed (max channels 1) frames.flatten := by
    intro frame hframe
    obtain ⟨packet, hpacket, hmem⟩ := List.mem_flatten.mp hframe
    exact hframes packet hpacket frame hmem
  have hinput : (frames.map List.flatten).flatten = frames.flatten.flatten :=
    List.flatten_flatten.symm
  obtain ⟨r, hall, hr⟩ := hbehind.processAll hstep hchannels frames hframes framed_nil
  obtain ⟨r', hone, hr'⟩ := hbehind.process hstep hchannels framed_nil hflat
  obtain rfl := hr.unique hr'
  rw [List.nil_append, List.length_nil, outputs_nil] at hall hone
  refine ⟨r, _, hall, hinput ▸ hone, ?_, ?_⟩
  · rw [← flatten_outputFrames, (framed_outputFrames hstep hflat).length_flatten, hinput,
      hflat.length_flatten, Nat.mul_div_cancel _ hchannels]
    simp [outputFrames]
  · intro k channel hchannel hlt
    rw [hinput, mul_div_assoc]
    refine getElem?_resampled hstep hflat hchannel ?_
    rw [← flatten_outputFrames, (framed_outputFrames hstep hflat).length_flatten] at hlt
    have hlength : (outputFrames (inRate / outRate) frames.flatten).length =
        outputs (inRate / outRate) frames.flatten.length := by simp [outputFrames]
    rw [hlength] at hlt
    by_contra hge
    have hle := Nat.mul_le_mul_right (max channels 1) (Nat.le_of_not_lt hge)
    omega

/-- Three frames of two channels in two packets, from 2 to 3 outputs a second. -/
theorem processAll_interpolates_packets :
    ∃ r output,
      (StreamingResampler.new 2 3 2).processAll [[0, 0, 3, 6], [6, 12]] = some (r, output) ∧
      (StreamingResampler.new 2 3 2).process [0, 0, 3, 6, 6, 12] = some (r, output) ∧
      output.length = outputs (2 / 3) 3 * 2 ∧
      ∀ k channel, channel < 2 → k * 2 + channel < output.length →
        output[k * 2 + channel]? = linearAt [0, 0, 3, 6, 6, 12] 2 channel (k * 2 / 3) :=
  processAll_interpolates (by decide) (by decide) (by decide) 2 [[0, 0, 3, 6], [6, 12]]
    (by decide)

example : ((StreamingResampler.new 2 3 2).processAll [[0, 0, 3, 6], [6, 12]]).map Prod.snd =
    some [0, 0, 2, 4, 4, 8] := by decide +kernel

end RustAdmin.Audio
