import Mathlib.Algebra.Order.Ring.Nat
import RustAdmin.Support.Frames
import RustAdmin.Support.Run

/-!
# The queue of audio samples

`PcmQueue` of `libs/scrap/src/common/pcm.rs` holds interleaved samples between a
producer and a consumer.  When it is full the oldest whole frames are dropped, so
that the channels stay aligned.

`push_samples` and `push_removes` say what a push comes to, whichever of its two ways
makes the room: the newest samples that fit are left, and the number of those that
went is that of whole frames.  `Sound` is the queue between two calls and `Ledgered`
the history of its samples.  A removed frame was pushed behind what has been popped,
but what was popped before and after it stays in order, which is why `Thinned` takes
whole frames out of a list at any place; `Thinned.push` keeps it, and `ledgered_step`
carries both invariants over a call.
-/

namespace RustAdmin.Audio

open RustAdmin.Support

variable {α : Type*}

structure PcmQueue (α : Type*) where
  samples : List α
  channels : ℕ
  capacity : ℕ
  /-- A 64-bit counter. -/
  droppedSamples : ℕ
  deriving DecidableEq, Repr

namespace PcmQueue

/-- The capacity is rounded down to whole frames and holds at least one. -/
def new (channels capacity : ℕ) : PcmQueue α :=
  ⟨[], max channels 1, max (capacity / max channels 1) 1 * max channels 1, 0⟩

variable (q : PcmQueue α)

/-- A partial frame at the end of the input is ignored. -/
def wholeFrames (input : List α) : List α := input.take (input.length / q.channels * q.channels)

/-- `push`. -/
def push (input : List α) : PcmQueue α :=
  let input := q.wholeFrames input
  if q.capacity < input.length then
    { q with
      droppedSamples :=
        (q.droppedSamples + (q.samples.length + input.length - q.capacity)) % 2 ^ 64
      samples := input.drop (input.length - q.capacity) }
  else
    let overflow := q.samples.length + input.length - q.capacity
    if 0 < overflow then
      { q with
        samples := q.samples.drop overflow ++ input
        droppedSamples := (q.droppedSamples + overflow) % 2 ^ 64 }
    else { q with samples := q.samples ++ input }

/-- `pop_exact`: what the output is filled with, if it is. -/
def popExact (requested : ℕ) : Option (List α × PcmQueue α) :=
  if requested = 0 ∨ q.samples.length < requested then none
  else some (q.samples.take requested, { q with samples := q.samples.drop requested })

end PcmQueue

/-! ## Pushes and pops -/

inductive PcmCall (α : Type*)
  | push (input : List α)
  /-- `pop_exact` that filled its output. -/
  | pop (output : List α)
  | popRefused (requested : ℕ)

/-- A push or a pop of whole frames. -/
inductive PcmStep (q : PcmQueue α) : PcmCall α → PcmQueue α → Prop
  | push {input : List α} (hwhole : q.channels ∣ input.length) :
      PcmStep q (.push input) (q.push input)
  | pop {requested : ℕ} {output : List α} {q' : PcmQueue α} (hwhole : q.channels ∣ requested)
      (hpop : q.popExact requested = some (output, q')) : PcmStep q (.pop output) q'
  | popRefused {requested : ℕ} (hpop : q.popExact requested = none) :
      PcmStep q (.popRefused requested) q

def PcmCall.pushed : PcmCall α → List α
  | .push input => input
  | _ => []

def PcmCall.popped : PcmCall α → List α
  | .pop output => output
  | _ => []

/-- All samples that were pushed, in order. -/
def pushed (calls : List (PcmCall α)) : List α := calls.flatMap PcmCall.pushed

/-- All samples that were popped, in order. -/
def popped (calls : List (PcmCall α)) : List α := calls.flatMap PcmCall.popped

theorem pushed_concat (calls : List (PcmCall α)) (call : PcmCall α) :
    pushed (calls ++ [call]) = pushed calls ++ call.pushed := by
  simp [pushed]

theorem popped_concat (calls : List (PcmCall α)) (call : PcmCall α) :
    popped (calls ++ [call]) = popped calls ++ call.popped := by
  simp [popped]

/-- What a push removes: as many of the oldest samples, in whole frames, as do not fit. -/
structure Removes (q : PcmQueue α) (input removed : List α) (q' : PcmQueue α) : Prop where
  channels : q'.channels = q.channels
  capacity : q'.capacity = q.capacity
  dropped : q'.droppedSamples = (q.droppedSamples + removed.length) % 2 ^ 64
  samples : q.samples ++ input = removed ++ q'.samples
  whole : q.channels ∣ removed.length
  fits : removed = [] ∨ q'.samples.length = q'.capacity
  oldest : input.length ≤ q.capacity → removed <+: q.samples

/-- A queue between two calls. -/
structure Sound (q : PcmQueue α) : Prop where
  aligned : q.channels ∣ q.samples.length
  bounded : q.samples.length ≤ q.capacity
  whole : q.channels ∣ q.capacity
  counter : q.droppedSamples < 2 ^ 64

theorem sound_new (channels capacity : ℕ) : Sound (.new channels capacity : PcmQueue α) where
  aligned := Nat.dvd_zero _
  bounded := Nat.zero_le _
  whole := Nat.dvd_mul_left _ _
  counter := Nat.two_pow_pos 64

variable {q q' : PcmQueue α} {input : List α}

/-- Both ways of making room leave the newest samples that fit. -/
theorem push_samples (hwhole : q.channels ∣ input.length) :
    (q.push input).samples =
      (q.samples ++ input).drop (q.samples.length + input.length - q.capacity) := by
  have hinput : q.wholeFrames input = input := by
    unfold PcmQueue.wholeFrames
    rw [Nat.div_mul_cancel hwhole, List.take_length]
  unfold PcmQueue.push
  rw [hinput]
  dsimp only
  split
  · next hlong =>
      have hover : q.samples.length + input.length - q.capacity =
          q.samples.length + (input.length - q.capacity) := by omega
      rw [hover, List.drop_length_add_append]
  · split
    · rw [List.drop_append_of_le_length (by omega)]
    · next hzero =>
        have hover : q.samples.length + input.length - q.capacity = 0 := by omega
        rw [hover, List.drop_zero]

theorem push_dropped (h : Sound q) (hwhole : q.channels ∣ input.length) :
    (q.push input).droppedSamples =
      (q.droppedSamples + (q.samples.length + input.length - q.capacity)) % 2 ^ 64 := by
  have hinput : q.wholeFrames input = input := by
    unfold PcmQueue.wholeFrames
    rw [Nat.div_mul_cancel hwhole, List.take_length]
  unfold PcmQueue.push
  rw [hinput]
  dsimp only
  split
  · rfl
  · split
    · rfl
    · next hzero =>
        have hover : q.samples.length + input.length - q.capacity = 0 := by omega
        rw [hover, Nat.add_zero, Nat.mod_eq_of_lt h.counter]

theorem push_fixed (q : PcmQueue α) (input : List α) :
    (q.push input).channels = q.channels ∧ (q.push input).capacity = q.capacity := by
  unfold PcmQueue.push
  dsimp only
  split
  · exact ⟨rfl, rfl⟩
  · split <;> exact ⟨rfl, rfl⟩

theorem push_removes (h : Sound q) (hwhole : q.channels ∣ input.length) :
    Removes q input ((q.samples ++ input).take (q.samples.length + input.length - q.capacity))
      (q.push input) := by
  obtain ⟨hchannels, hcapacity⟩ := push_fixed q input
  have hlength : ((q.samples ++ input).take
      (q.samples.length + input.length - q.capacity)).length =
        q.samples.length + input.length - q.capacity := by
    rw [List.length_take, List.length_append]
    omega
  refine ⟨hchannels, hcapacity, ?_, ?_, ?_, ?_, ?_⟩
  · rw [hlength]
    exact push_dropped h hwhole
  · rw [push_samples hwhole, List.take_append_drop]
  · rw [hlength]
    exact Nat.dvd_sub (Nat.dvd_add h.aligned hwhole) h.whole
  · by_cases hover : q.samples.length + input.length ≤ q.capacity
    · left
      rw [Nat.sub_eq_zero_of_le hover, List.take_zero]
    · right
      rw [push_samples hwhole, hcapacity, List.length_drop, List.length_append]
      omega
  · intro hshort
    rw [List.take_append_of_le_length (by omega)]
    exact List.take_prefix _ _

theorem sound_push (h : Sound q) (hwhole : q.channels ∣ input.length) : Sound (q.push input) := by
  obtain ⟨hchannels, hcapacity⟩ := push_fixed q input
  refine ⟨?_, ?_, ?_, ?_⟩
  · rw [hchannels, push_samples hwhole, List.length_drop, List.length_append]
    exact Nat.dvd_sub (Nat.dvd_add h.aligned hwhole)
      (Nat.dvd_sub (Nat.dvd_add h.aligned hwhole) h.whole)
  · rw [hcapacity, push_samples hwhole, List.length_drop, List.length_append]
    omega
  · rw [hchannels, hcapacity]
    exact h.whole
  · rw [push_dropped h hwhole]
    exact Nat.mod_lt _ (by decide)

theorem popExact_eq_some {requested : ℕ} {output : List α}
    (h : q.popExact requested = some (output, q')) :
    requested ≤ q.samples.length ∧ output = q.samples.take requested ∧
      q' = { q with samples := q.samples.drop requested } := by
  unfold PcmQueue.popExact at h
  split at h
  · simp at h
  · next hready =>
      obtain ⟨rfl, rfl⟩ := Prod.mk.inj (Option.some.inj h)
      exact ⟨by omega, rfl, rfl⟩

theorem sound_pop (h : Sound q) {requested : ℕ} (hwhole : q.channels ∣ requested) :
    Sound { q with samples := q.samples.drop requested } where
  aligned := by
    rw [List.length_drop]
    exact Nat.dvd_sub h.aligned hwhole
  bounded := by
    rw [List.length_drop]
    exact Nat.le_trans (Nat.sub_le _ _) h.bounded
  whole := h.whole
  counter := h.counter

/-! ## Conservation -/

/-- The kept items in order, after some whole frames were removed. -/
def Thinned (size : ℕ) (all kept : List α) : Prop :=
  ∃ frames keptFrames : List (List α), Framed size frames ∧ frames.flatten = all ∧
    keptFrames.Sublist frames ∧ keptFrames.flatten = kept

/-- What happened to the samples that were pushed. -/
structure Ledgered (calls : List (PcmCall α)) (q : PcmQueue α) : Prop where
  sound : Sound q
  aligned : q.channels ∣ (popped calls).length
  counted : ∃ dropped,
    (pushed calls).length = (popped calls).length + q.samples.length + dropped ∧
      q.droppedSamples = dropped % 2 ^ 64
  thinned : Thinned q.channels (pushed calls) (popped calls ++ q.samples)

theorem ledgered_new (channels capacity : ℕ) :
    Ledgered [] (.new channels capacity : PcmQueue α) where
  sound := sound_new channels capacity
  aligned := Nat.dvd_zero _
  counted := ⟨0, rfl, rfl⟩
  thinned := ⟨[], [], framed_nil, rfl, List.Sublist.refl _, rfl⟩

/-- Frames that are pushed and frames that are removed behind what was popped. -/
theorem Thinned.push {size : ℕ} {all out queued removed rest : List α}
    (h : Thinned size all (out ++ queued)) (hout : size ∣ out.length)
    (hinput : size ∣ input.length) (hremoved : size ∣ removed.length)
    (hsamples : queued ++ input = removed ++ rest) : Thinned size (all ++ input) (out ++ rest) := by
  obtain ⟨frames, kept, hframes, hall, hsub, hkept⟩ := h
  obtain ⟨added, hadded, hflatten⟩ := exists_framed hinput
  obtain ⟨i, hi⟩ := hout
  obtain ⟨j, hj⟩ := hremoved
  have hmore : Framed size (kept ++ added) :=
    Framed.append (fun frame hframe => hframes frame (hsub.subset hframe)) hadded
  have hall' : (kept ++ added).flatten = out ++ (removed ++ rest) := by
    rw [List.flatten_append, hkept, hflatten, List.append_assoc, hsamples]
  have hout' : ((kept ++ added).take i).flatten = out := by
    have := hmore.take_flatten i
    rw [hall', Nat.mul_comm i, ← hi, List.take_left] at this
    exact this.symm
  have hrest' : ((kept ++ added).drop (i + j)).flatten = rest := by
    have := hmore.drop_flatten (i + j)
    rw [hall', Nat.add_mul, Nat.mul_comm i, Nat.mul_comm j, ← hi, ← hj,
      List.drop_length_add_append, List.drop_left] at this
    exact this.symm
  refine ⟨frames ++ added, (kept ++ added).take i ++ (kept ++ added).drop (i + j),
    hframes.append hadded, ?_, ?_, ?_⟩
  · rw [List.flatten_append, hall, hflatten]
  · have hcut : ((kept ++ added).take i ++ (kept ++ added).drop (i + j)).Sublist
        (kept ++ added) := by
      conv_rhs => rw [← List.take_append_drop i (kept ++ added)]
      refine List.Sublist.append_left ?_ _
      rw [← List.drop_drop]
      exact List.drop_sublist _ _
    exact hcut.trans (List.Sublist.append hsub (List.Sublist.refl _))
  · rw [List.flatten_append, hout', hrest']

theorem ledgered_step {calls : List (PcmCall α)} {call : PcmCall α} (h : Ledgered calls q)
    (hstep : PcmStep q call q') : Ledgered (calls ++ [call]) q' := by
  cases hstep with
  | @push input hwhole =>
      have hremoves := push_removes h.sound hwhole
      generalize (q.samples ++ input).take
        (q.samples.length + input.length - q.capacity) = removed at hremoves
      have hsound := sound_push h.sound hwhole
      generalize q.push input = q' at hremoves hsound ⊢
      obtain ⟨dropped, hcount, hcounter⟩ := h.counted
      refine ⟨hsound, ?_, ⟨dropped + removed.length, ?_, ?_⟩, ?_⟩
      · rw [hremoves.channels, popped_concat]
        simpa [PcmCall.popped] using h.aligned
      · have hlength := congrArg List.length hremoves.samples
        simp only [List.length_append] at hlength
        rw [pushed_concat, popped_concat]
        simp only [PcmCall.pushed, PcmCall.popped, List.append_nil, List.length_append]
        omega
      · rw [hremoves.dropped, hcounter, Nat.mod_add_mod]
      · rw [hremoves.channels, pushed_concat, popped_concat]
        simp only [PcmCall.pushed, PcmCall.popped, List.append_nil]
        exact h.thinned.push h.aligned hwhole hremoves.whole hremoves.samples
  | @pop requested output q' hwhole hpop =>
      obtain ⟨hle, rfl, rfl⟩ := popExact_eq_some hpop
      obtain ⟨dropped, hcount, hcounter⟩ := h.counted
      refine ⟨sound_pop h.sound hwhole, ?_, ⟨dropped, ?_, hcounter⟩, ?_⟩
      · rw [popped_concat, List.length_append, PcmCall.popped, List.length_take,
          Nat.min_eq_left hle]
        exact Nat.dvd_add h.aligned hwhole
      · rw [pushed_concat, popped_concat]
        simp only [PcmCall.pushed, PcmCall.popped, List.append_nil, List.length_append,
          List.length_take, List.length_drop]
        omega
      · rw [pushed_concat, popped_concat]
        simp only [PcmCall.pushed, PcmCall.popped, List.append_nil, List.append_assoc,
          List.take_append_drop]
        exact h.thinned
  | popRefused hpop =>
      refine ⟨h.sound, ?_, ?_, ?_⟩
      · simpa [popped_concat, PcmCall.popped] using h.aligned
      · simpa [pushed_concat, popped_concat, PcmCall.pushed, PcmCall.popped] using h.counted
      · simpa [pushed_concat, popped_concat, PcmCall.pushed, PcmCall.popped] using h.thinned

/-- **No sample is lost or repeated.**  Channels stay aligned, the queue stays within
its capacity, and what was popped or is queued is what was pushed without the whole
frames that a push removed; these are counted, as far as the counter goes. -/
theorem pcmQueue_conserves (channels capacity : ℕ) {calls : List (PcmCall α)} {q : PcmQueue α}
    (run : Run PcmStep (.new channels capacity) calls q) :
    q.channels ∣ q.samples.length ∧ q.samples.length ≤ q.capacity ∧
      (∃ dropped, (pushed calls).length = (popped calls).length + q.samples.length + dropped ∧
        (dropped < 2 ^ 64 → q.droppedSamples = dropped)) ∧
      Thinned q.channels (pushed calls) (popped calls ++ q.samples) ∧
      ∀ input, q.channels ∣ input.length →
        ∃ removed, Removes q input removed (q.push input) := by
  have h : Ledgered calls q :=
    run.invariant Ledgered (ledgered_new channels capacity) fun _ _ _ _ => ledgered_step
  obtain ⟨dropped, hcount, hcounter⟩ := h.counted
  refine ⟨h.sound.aligned, h.sound.bounded, ⟨dropped, hcount, fun hlt => ?_⟩, h.thinned,
    fun input hwhole => ⟨_, push_removes h.sound hwhole⟩⟩
  rw [hcounter, Nat.mod_eq_of_lt hlt]

theorem pcmQueue_conserves_overflow :
    ∃ removed, Removes ⟨[1, 2], 2, 2, 0⟩ [3, 4] removed
      ((⟨[1, 2], 2, 2, 0⟩ : PcmQueue ℕ).push [3, 4]) := by
  have hpush : PcmStep (.new 2 2 : PcmQueue ℕ) (.push [1, 2]) ⟨[1, 2], 2, 2, 0⟩ :=
    .push (by decide)
  exact (pcmQueue_conserves 2 2 (.single hpush)).2.2.2.2 [3, 4] (by decide)

/-- A queue with room for one sample that drops one with every push but the first. -/
theorem exists_run_dropped (n : ℕ) :
    ∃ calls, Run PcmStep (.new 1 1) calls (⟨[0], 1, 1, n % 2 ^ 64⟩ : PcmQueue ℕ) ∧
      (pushed calls).length = n + 1 ∧ popped calls = [] := by
  induction n with
  | zero =>
      have hpush : PcmStep (.new 1 1 : PcmQueue ℕ) (.push [0]) ⟨[0], 1, 1, 0⟩ :=
        .push (by decide)
      exact ⟨_, .single hpush, rfl, rfl⟩
  | succ n ih =>
      obtain ⟨calls, run, hpushed, hpopped⟩ := ih
      have hpush : (⟨[0], 1, 1, n % 2 ^ 64⟩ : PcmQueue ℕ).push [0] =
          ⟨[0], 1, 1, (n + 1) % 2 ^ 64⟩ := by
        simp [PcmQueue.push, PcmQueue.wholeFrames]
      refine ⟨_, hpush ▸ run.snoc (.push (Nat.one_dvd _)), ?_, ?_⟩
      · rw [pushed_concat, List.length_append, hpushed]
        rfl
      · rw [popped_concat, hpopped]
        rfl

/-- The counter comes round. -/
theorem droppedSamples_wraps :
    ∃ calls, ∃ q : PcmQueue ℕ, Run PcmStep (.new 1 1) calls q ∧
      (pushed calls).length ≠ (popped calls).length + q.samples.length + q.droppedSamples := by
  obtain ⟨calls, run, hpushed, hpopped⟩ := exists_run_dropped (2 ^ 64)
  refine ⟨calls, _, run, ?_⟩
  rw [hpushed, hpopped]
  simp

end RustAdmin.Audio
