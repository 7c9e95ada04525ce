import Mathlib.Data.List.Induction
import RustAdmin.Viewer.MoviePositions
import RustAdmin.Viewer.MovieQueue

/-!
# The reference chain in movie mode

The pipeline keeps its frames in the places of `Positions`, and every step is one of the
moves between them.  What the worker hands over then follows the last frame of the
decoder, as long as no delta passes a keyframe.

## Strategy

Each step of the I/O loop or the worker is a move between the places of `Positions`
(`networkStep_move`, `workerStep_move`), one lemma for each program counter.  `Kept`
is the invariant: the places are sound, the queue is short enough that no push evicts,
and whatever was lost is accounted for by `discard_queue` or is about to be.  Three
moves need the condition: the pop of a delta behind a waiting keyframe, the drop of
one, and the hand-over of a delta before the flag is set for one it refers to.
`Kept.handed` is the goal: a delta that is handed over arrived right after the frame
of the decoder.  `chained_of_links` turns these links into an unbroken chain.
-/

namespace RustAdmin.Viewer.Movie

open RustAdmin.Support

/-! ## The pipeline -/

namespace Pipeline

variable (s : Pipeline)

def positions : Positions where
  reference := reference s.handed
  discard := s.discardQueue
  hand := s.inHand.map (·.number)
  queue := s.videoQueue.map (·.number)
  coming := s.coming.map (·.number)
  keys := s.keys
  lost := s.stale ++ s.dropped
  arrived := s.arrived

/-- The messages in front of the worker: a token in its hand, the channel, and the token
that is about to be sent. -/
def pending : List (Option ℕ) :=
  (match s.worker with | .popping _ => [none] | _ => []) ++
    s.channel.map (Option.map (·.number)) ++
    (match s.network with | .sending _ => [none] | _ => [])

end Pipeline

/-- What one step does. -/
inductive Move (s : Pipeline) : Event → Pipeline → Prop
  | arrives {frameId captureTimeMs : ℕ} {key : Bool} (hnetwork : s.network = .idle) :
      Move s (.arrives frameId captureTimeMs key)
        (s.arrive ⟨s.arrived, frameId, captureTimeMs, key⟩)
  | regressed {frame : Frame} (hnetwork : s.network = .regressing frame) :
      Move s .network { s with discardQueue := true, network := .routing frame }
  | keySent {frame : Frame} (hnetwork : s.network = .routing frame) (hkey : frame.key = true) :
      Move s .network { s with channel := s.channel ++ [some frame], network := .idle }
  | checked {frame : Frame} (hnetwork : s.network = .routing frame) (hkey : frame.key = false) :
      Move s .network { s with network := .checking frame [] }
  | full {frame : Frame} {dropped : List ℕ} (hnetwork : s.network = .checking frame dropped) :
      Move s .network { s with network := .evicting frame dropped }
  | room {frame : Frame} {dropped : List ℕ}
      (hnetwork : s.network = .checking frame dropped ∨ s.network = .evicting frame dropped)
      (hroom : s.videoQueue.length < movieVideoQueueMaxFrames) :
      Move s .network { s with network := .pushing frame dropped }
  | evicted {frame first : Frame} {dropped : List ℕ} {rest : List Frame}
      (hnetwork : s.network = .evicting frame dropped) (hqueue : s.videoQueue = first :: rest) :
      Move s .network
        { s with videoQueue := rest, network := .checking frame (dropped ++ [first.number]) }
  | pushed {frame : Frame} {dropped : List ℕ} (hnetwork : s.network = .pushing frame dropped) :
      Move s .network
        { s with videoQueue := s.videoQueue ++ [frame], network := .sending dropped }
  | tokenSent {dropped : List ℕ} (hnetwork : s.network = .sending dropped) :
      Move s .network { s with channel := s.channel ++ [none], network := .flagging dropped }
  | flagged {dropped : List ℕ} (hnetwork : s.network = .flagging dropped) :
      Move s .network
        { s with discardQueue := s.discardQueue || !dropped.isEmpty, network := .idle }
  | receivedKey {frame : Frame} {channel : List (Option Frame)} (hworker : s.worker = .receiving)
      (hchannel : s.channel = some frame :: channel) :
      Move s .worker
        { s with channel := channel, discardQueue := false, handed := s.handed ++ [frame] }
  | receivedToken {channel : List (Option Frame)} (hworker : s.worker = .receiving)
      (hchannel : s.channel = none :: channel) :
      Move s .worker { s with channel := channel, worker := .popping [] }
  | poppedNothing {stale : List ℕ} (hworker : s.worker = .popping stale)
      (hqueue : s.videoQueue = []) : Move s .worker { s with worker := .selected none stale }
  | popped {first : Frame} {stale : List ℕ} {rest : List Frame}
      (hworker : s.worker = .popping stale) (hqueue : s.videoQueue = first :: rest) :
      Move s .worker { s with videoQueue := rest, worker := .judging first stale }
  | skipped {frame : Frame} {stale : List ℕ} (hworker : s.worker = .judging frame stale) :
      Move s .worker { s with worker := .popping (stale ++ [frame.number]) }
  | kept {frame : Frame} {stale : List ℕ} (hworker : s.worker = .judging frame stale) :
      Move s .worker { s with worker := .selected (some frame) stale }
  | staleFlagged {frame : Option Frame} {stale : List ℕ}
      (hworker : s.worker = .selected frame stale) :
      Move s .worker
        { s with discardQueue := s.discardQueue || !stale.isEmpty, worker := .deciding frame }
  | discarded {frame : Option Frame} (hworker : s.worker = .deciding frame)
      (hdiscard : s.discardQueue = true) : Move s .worker { s with worker := .receiving }
  | nothing (hworker : s.worker = .deciding none) : Move s .worker { s with worker := .receiving }
  | handed {frame : Frame} (hworker : s.worker = .deciding (some frame))
      (hdiscard : s.discardQueue = false) :
      Move s .worker { s with worker := .receiving, handed := s.handed ++ [frame] }
  | discardSet : Move s .discardSet { s with discardQueue := true }

/-- The queue is never so full that a push evicts a delta. -/
structure Short (s : Pipeline) : Prop where
  bound : s.videoQueue.length ≤ movieVideoQueueMaxFrames
  pushing : ∀ frame dropped, s.network = .pushing frame dropped →
    s.videoQueue.length < movieVideoQueueMaxFrames

theorem networkStep_move {s s' : Pipeline} (hshort : Short s) (hstep : s.networkStep = some s') :
    Move s .network s' := by
  unfold Pipeline.networkStep at hstep
  cases hnetwork : s.network with
  | idle => simp [hnetwork] at hstep
  | regressing frame =>
      rw [hnetwork] at hstep
      obtain rfl := Option.some.inj hstep
      exact .regressed hnetwork
  | routing frame =>
      rw [hnetwork] at hstep
      dsimp only at hstep
      split_ifs at hstep with hkey
      · obtain rfl := Option.some.inj hstep
        exact .keySent hnetwork hkey
      · obtain rfl := Option.some.inj hstep
        exact .checked hnetwork (Bool.eq_false_iff.mpr hkey)
  | checking frame dropped =>
      rw [hnetwork] at hstep
      dsimp only at hstep
      split_ifs at hstep with hfull
      · obtain rfl := Option.some.inj hstep
        exact .full hnetwork
      · obtain rfl := Option.some.inj hstep
        exact .room (Or.inl hnetwork) (Nat.lt_of_not_le hfull)
  | evicting frame dropped =>
      rw [hnetwork] at hstep
      dsimp only at hstep
      split at hstep
      case h_1 hqueue =>
          obtain rfl := Option.some.inj hstep
          exact .room (Or.inr hnetwork) (by rw [hqueue]; decide)
      case h_2 first rest hqueue =>
          obtain rfl := Option.some.inj hstep
          exact .evicted hnetwork hqueue
  | pushing frame dropped =>
      rw [hnetwork] at hstep
      have hroom : s.videoQueue.length < videoQueueSize :=
        Nat.lt_trans (hshort.pushing frame dropped hnetwork) (by decide)
      dsimp only at hstep
      rw [if_pos hroom] at hstep
      obtain rfl := Option.some.inj hstep
      exact .pushed hnetwork
  | sending dropped =>
      rw [hnetwork] at hstep
      obtain rfl := Option.some.inj hstep
      exact .tokenSent hnetwork
  | flagging dropped =>
      rw [hnetwork] at hstep
      obtain rfl := Option.some.inj hstep
      exact .flagged hnetwork

theorem workerStep_move {s s' : Pipeline} (hstep : s.workerStep = some s') :
    Move s .worker s' := by
  unfold Pipeline.workerStep at hstep
  cases hworker : s.worker with
  | receiving =>
      simp only [hworker] at hstep
      split at hstep
      case h_1 => cases hstep
      case h_2 frame channel hchannel =>
          obtain rfl := Option.some.inj hstep
          exact hworker ▸ .receivedKey hworker hchannel
      case h_3 channel hchannel =>
          obtain rfl := Option.some.inj hstep
          exact .receivedToken hworker hchannel
  | popping stale =>
      rw [hworker] at hstep
      dsimp only at hstep
      split at hstep
      case h_1 hqueue =>
          obtain rfl := Option.some.inj hstep
          exact .poppedNothing hworker hqueue
      case h_2 first rest hqueue =>
          obtain rfl := Option.some.inj hstep
          exact .popped hworker hqueue
  | judging frame stale =>
      rw [hworker] at hstep
      dsimp only at hstep
      split_ifs at hstep
      · obtain rfl := Option.some.inj hstep
        exact .skipped hworker
      · obtain rfl := Option.some.inj hstep
        exact .kept hworker
  | selected frame stale =>
      rw [hworker] at hstep
      obtain rfl := Option.some.inj hstep
      exact .staleFlagged hworker
  | deciding frame =>
      rw [hworker] at hstep
      dsimp only at hstep
      split_ifs at hstep with hdiscard
      · obtain rfl := Option.some.inj hstep
        exact .discarded hworker hdiscard
      · cases frame with
        | none =>
            have hsame : s.handed ++ (none : Option Frame).toList = s.handed := by simp
            rw [hsame] at hstep
            obtain rfl := Option.some.inj hstep
            exact .nothing hworker
        | some frame =>
            obtain rfl := Option.some.inj hstep
            exact .handed hworker (Bool.eq_false_iff.mpr hdiscard)

theorem Step.move {s s' : Pipeline} {event : Event} (hshort : Short s) (hstep : Step s event s') :
    Move s event s' := by
  unfold Step Pipeline.step at hstep
  cases event with
  | arrives frameId captureTimeMs key =>
      dsimp only at hstep
      split_ifs at hstep with hnetwork
      obtain rfl := Option.some.inj hstep
      exact .arrives hnetwork
  | discardSet =>
      obtain rfl := Option.some.inj hstep
      exact .discardSet
  | network => exact networkStep_move hshort hstep
  | worker => exact workerStep_move hstep

/-! ## What every kept step preserves -/

/-- The delta that the I/O loop is putting into the queue. -/
def Pipeline.enqueuing (s : Pipeline) : List Frame :=
  match s.network with
  | .checking frame _ => [frame]
  | .evicting frame _ => [frame]
  | .pushing frame _ => [frame]
  | _ => []

/-- A delta is handed over after the frame that arrived before it. -/
def Follows (before : List Frame) (frame : Frame) : Prop :=
  frame.key = false → ∀ last, reference before = some last → frame.number = last + 1

/-- The frames of the channel are keyframes. -/
def Keyframes (s : Pipeline) : Prop := ∀ frame, some frame ∈ s.channel → frame.key = true

structure Kept (s : Pipeline) : Prop where
  links : Always Follows s.handed
  sound : s.positions.Sound
  covered : Covered s.pending (s.videoQueue.map (·.number))
  deltas : ∀ frame, frame ∈ s.inHand ∨ frame ∈ s.videoQueue ∨ frame ∈ s.enqueuing →
    frame.key = false
  short : Short s

theorem kept_start : Kept {} where
  links := always_nil
  sound := Positions.sound_start
  covered := rfl
  deltas := by simp [Pipeline.inHand, Pipeline.enqueuing]
  short := ⟨by decide, by simp⟩

section Steps

variable {s : Pipeline}

/-- No frame comes into a place where deltas are. -/
theorem Kept.deltas_of_subset (h : Kept s) {s' : Pipeline} (hhand : s'.inHand ⊆ s.inHand)
    (hqueue : s'.videoQueue ⊆ s.videoQueue) (henqueuing : s'.enqueuing ⊆ s.enqueuing)
    (frame : Frame)
    (hframe : frame ∈ s'.inHand ∨ frame ∈ s'.videoQueue ∨ frame ∈ s'.enqueuing) :
    frame.key = false := by
  rcases hframe with hmem | hmem | hmem
  · exact h.deltas frame (Or.inl (hhand hmem))
  · exact h.deltas frame (Or.inr (Or.inl (hqueue hmem)))
  · exact h.deltas frame (Or.inr (Or.inr (henqueuing hmem)))

theorem Kept.arrive (h : Kept s) (hnetwork : s.network = .idle) (frame : Frame)
    (hnumber : frame.number = s.arrived) : Kept (s.arrive frame) := by
  have harrive : (s.arrive frame).network = .regressing frame ∨
      (s.arrive frame).network = .routing frame := by
    simp only [Pipeline.arrive]
    split_ifs
    · exact Or.inl rfl
    · exact Or.inr rfl
  have hcoming : s.positions.coming = [] := by
    simp [Pipeline.positions, Pipeline.coming, hnetwork]
  have hpositions : (s.arrive frame).positions =
      { s.positions with coming := [s.arrived], arrived := s.arrived + 1 } := by
    rcases harrive with heq | heq <;>
      simp [Pipeline.positions, Pipeline.coming, Pipeline.dropped, Pipeline.stale, heq, hnetwork,
        hnumber, Pipeline.inHand, Pipeline.keys] <;> simp [Pipeline.arrive]
  have hpending : (s.arrive frame).pending = s.pending := by
    rcases harrive with heq | heq <;>
      simp [Pipeline.pending, heq, hnetwork] <;> simp [Pipeline.arrive]
  refine ⟨h.links, ?_, ?_, ?_, h.short.bound, ?_⟩
  · rw [hpositions]
    exact h.sound.arrive hcoming
  · rw [hpending]
    exact h.covered
  · refine h.deltas_of_subset (List.Subset.refl _) (List.Subset.refl _) ?_
    rcases harrive with heq | heq <;> simp [Pipeline.enqueuing, heq]
  · intro other dropped heq
    rcases harrive with hno | hno <;> rw [hno] at heq <;> cases heq

/-- A step of the I/O loop that moves no frame. -/
theorem Kept.networkOnly (h : Kept s) {network : Network}
    (hcoming : Pipeline.coming { s with network := network } = s.coming)
    (hdropped : Pipeline.dropped { s with network := network } = s.dropped)
    (hpending : Pipeline.pending { s with network := network } = s.pending)
    (hdeltas : ∀ frame ∈ Pipeline.enqueuing { s with network := network }, frame.key = false)
    (hpushing : ∀ frame dropped, network = .pushing frame dropped →
      s.videoQueue.length < movieVideoQueueMaxFrames) :
    Kept { s with network := network } := by
  have hpositions : Pipeline.positions { s with network := network } = s.positions := by
    simp only [Pipeline.positions, hcoming, hdropped]
    rfl
  refine ⟨h.links, ?_, ?_, ?_, h.short.bound, hpushing⟩
  · rw [hpositions]
    exact h.sound
  · rw [hpending]
    exact h.covered
  · rintro frame (hframe | hframe | hframe)
    · exact h.deltas frame (Or.inl hframe)
    · exact h.deltas frame (Or.inr (Or.inl hframe))
    · exact hdeltas frame hframe

theorem Kept.checked (h : Kept s) {frame : Frame} (hnetwork : s.network = .routing frame)
    (hkey : frame.key = false) : Kept { s with network := .checking frame [] } := by
  refine h.networkOnly ?_ ?_ ?_ ?_ (by simp)
  · simp [Pipeline.coming, hnetwork]
  · simp [Pipeline.dropped, hnetwork]
  · simp [Pipeline.pending, hnetwork]
  · simpa [Pipeline.enqueuing] using hkey

theorem Kept.full (h : Kept s) {frame : Frame} {dropped : List ℕ}
    (hnetwork : s.network = .checking frame dropped) :
    Kept { s with network := .evicting frame dropped } := by
  refine h.networkOnly ?_ ?_ ?_ ?_ (by simp)
  · simp [Pipeline.coming, hnetwork]
  · simp [Pipeline.dropped, hnetwork]
  · simp [Pipeline.pending, hnetwork]
  · have hkey := h.deltas frame (Or.inr (Or.inr (by simp [Pipeline.enqueuing, hnetwork])))
    simpa [Pipeline.enqueuing] using hkey

theorem Kept.room (h : Kept s) {frame : Frame} {dropped : List ℕ}
    (hnetwork : s.network = .checking frame dropped ∨ s.network = .evicting frame dropped)
    (hroom : s.videoQueue.length < movieVideoQueueMaxFrames) :
    Kept { s with network := .pushing frame dropped } := by
  have hkey : frame.key = false := by
    refine h.deltas frame (Or.inr (Or.inr ?_))
    rcases hnetwork with heq | heq <;> simp [Pipeline.enqueuing, heq]
  refine h.networkOnly ?_ ?_ ?_ ?_ fun _ _ _ => hroom
  · rcases hnetwork with heq | heq <;> simp [Pipeline.coming, heq]
  · rcases hnetwork with heq | heq <;> simp [Pipeline.dropped, heq]
  · rcases hnetwork with heq | heq <;> simp [Pipeline.pending, heq]
  · simpa [Pipeline.enqueuing] using hkey

/-- Setting `discard_queue`, where the deltas that were lost are accounted for. -/
theorem Kept.flag (h : Kept s) {network : Network} {worker : Worker} {discard : Bool}
    (hcoming : Pipeline.coming { s with network := network } = s.coming)
    (hpending : Pipeline.pending { s with network := network, worker := worker } = s.pending)
    (henqueuing : Pipeline.enqueuing { s with network := network } = s.enqueuing)
    (hhand : (Pipeline.inHand { s with worker := worker }).Sublist s.inHand)
    (hlost : ∀ n ∈ Pipeline.stale { s with worker := worker } ++
      Pipeline.dropped { s with network := network }, n ∈ s.stale ++ s.dropped)
    (hpushing : ∀ frame dropped, network = .pushing frame dropped → s.network = network)
    (hdiscard : discard = true ∨ (discard = s.discardQueue ∧
      Pipeline.inHand { s with worker := worker } = s.inHand ∧
      Pipeline.stale { s with worker := worker } ++
        Pipeline.dropped { s with network := network } = s.stale ++ s.dropped)) :
    Kept { s with network := network, worker := worker, discardQueue := discard } := by
  have hpositions : Pipeline.positions
      { s with network := network, worker := worker, discardQueue := discard } =
      { s.positions with
        discard := discard
        hand := (Pipeline.inHand { s with worker := worker }).map (·.number)
        lost := Pipeline.stale { s with worker := worker } ++
          Pipeline.dropped { s with network := network } } := by
    simp only [Pipeline.positions, ← hcoming]
    rfl
  refine ⟨h.links, ?_, ?_, ?_, h.short.bound, ?_⟩
  · rw [hpositions]
    rcases hdiscard with rfl | ⟨rfl, hsameHand, hsameLost⟩
    · exact h.sound.flag (hhand.map _) hlost
    · rw [hsameHand, hsameLost]
      exact h.sound
  · have hpending : Pipeline.pending
        { s with network := network, worker := worker, discardQueue := discard } = s.pending :=
      hpending
    rw [hpending]
    exact h.covered
  · exact h.deltas_of_subset hhand.subset (List.Subset.refl _)
      fun frame (hframe : frame ∈ Pipeline.enqueuing { s with network := network }) =>
        henqueuing ▸ hframe
  · intro frame dropped heq
    exact h.short.pushing frame dropped ((hpushing frame dropped heq).trans heq)

theorem Kept.keySent (h : Kept s) {frame : Frame} (hnetwork : s.network = .routing frame) :
    Kept { s with channel := s.channel ++ [some frame], network := .idle } := by
  have hpositions : Pipeline.positions
      { s with channel := s.channel ++ [some frame], network := .idle } =
      { s.positions with keys := s.positions.keys ++ s.positions.coming, coming := [] } := by
    simp only [Pipeline.positions, Pipeline.keys, Pipeline.coming, Pipeline.dropped,
      Pipeline.inHand, Pipeline.stale, hnetwork, List.filterMap_append]
    rfl
  have hpending : Pipeline.pending
      { s with channel := s.channel ++ [some frame], network := .idle } =
      s.pending ++ [some frame.number] := by
    simp [Pipeline.pending, hnetwork]
  refine ⟨h.links, ?_, ?_, ?_, h.short.bound, by simp⟩
  · rw [hpositions]
    exact h.sound.sendKey
  · rw [hpending]
    exact h.covered.concat_some
  · exact h.deltas_of_subset (List.Subset.refl _) (List.Subset.refl _)
      (by simp [Pipeline.enqueuing])

theorem Kept.evicted (h : Kept s) {frame first : Frame} {dropped : List ℕ} {rest : List Frame}
    (hnetwork : s.network = .evicting frame dropped) (hqueue : s.videoQueue = first :: rest)
    (hkeys : ∀ k ∈ s.keys, first.number < k) :
    Kept { s with
      videoQueue := rest
      network := .checking frame (dropped ++ [first.number]) } := by
  have hpositions : Pipeline.positions
      { s with videoQueue := rest, network := .checking frame (dropped ++ [first.number]) } =
      { s.positions with
        queue := rest.map (·.number)
        lost := s.positions.lost ++ [first.number] } := by
    simp only [Pipeline.positions, Pipeline.coming, Pipeline.dropped, Pipeline.inHand,
      Pipeline.stale, hnetwork, List.append_assoc]
    rfl
  have hpending : Pipeline.pending
      { s with videoQueue := rest, network := .checking frame (dropped ++ [first.number]) } =
      s.pending := by
    simp [Pipeline.pending, hnetwork]
  have hbound := h.short.bound
  rw [hqueue, List.length_cons] at hbound
  refine ⟨h.links, ?_, ?_, ?_, by show rest.length ≤ _; omega, by simp⟩
  · rw [hpositions]
    exact h.sound.lose (by simp [Pipeline.positions, hqueue]) hkeys
  · have hcovered := h.covered.tail
    rw [hqueue] at hcovered
    rw [hpending]
    exact hcovered
  · intro other hother
    refine h.deltas other ?_
    rw [hqueue]
    rcases hother with hmem | hmem | hmem
    · exact Or.inl hmem
    · exact Or.inr (Or.inl (List.mem_cons_of_mem _ hmem))
    · exact Or.inr (Or.inr (by simpa [Pipeline.enqueuing, hnetwork] using hmem))

/-- The keyframes of the channel came before the frame that is coming. -/
theorem Kept.pending_lt_coming (h : Kept s) {n k : ℕ} (hk : some k ∈ s.pending)
    (hn : n ∈ s.positions.coming) : k < n := by
  have hkey : k ∈ s.positions.keys := by
    simp only [Pipeline.pending, List.mem_append] at hk
    rcases hk with (hk | hk) | hk
    · split at hk <;> simp at hk
    · simpa [Pipeline.positions, Pipeline.keys] using hk
    · split at hk <;> simp at hk
  exact (List.pairwise_append.mp h.sound.keys_sorted).2.2 k hkey n hn

theorem Kept.pushed (h : Kept s) {frame : Frame} {dropped : List ℕ}
    (hnetwork : s.network = .pushing frame dropped) :
    Kept { s with videoQueue := s.videoQueue ++ [frame], network := .sending dropped } := by
  have hcoming : s.positions.coming = [frame.number] := by
    simp [Pipeline.positions, Pipeline.coming, hnetwork]
  have hpositions : Pipeline.positions
      { s with videoQueue := s.videoQueue ++ [frame], network := .sending dropped } =
      { s.positions with queue := s.positions.queue ++ s.positions.coming, coming := [] } := by
    simp only [hcoming]
    simp only [Pipeline.positions, Pipeline.coming, Pipeline.dropped, Pipeline.inHand,
      Pipeline.stale, hnetwork, List.map_append]
    rfl
  have hpending : Pipeline.pending
      { s with videoQueue := s.videoQueue ++ [frame], network := .sending dropped } =
      s.pending ++ [none] := by
    simp [Pipeline.pending, hnetwork]
  have hroom := h.short.pushing frame dropped hnetwork
  refine ⟨h.links, ?_, ?_, ?_, ?_, by simp⟩
  · rw [hpositions]
    exact h.sound.push
  · rw [hpending, List.map_append]
    exact h.covered.concat_none fun k hk => h.pending_lt_coming hk (by simp [hcoming])
  · intro other hother
    refine h.deltas other ?_
    rcases hother with hmem | hmem | hmem
    · exact Or.inl hmem
    · rcases List.mem_append.mp hmem with hmem | hmem
      · exact Or.inr (Or.inl hmem)
      · exact Or.inr (Or.inr (by simpa [Pipeline.enqueuing, hnetwork] using hmem))
    · simp [Pipeline.enqueuing] at hmem
  · show (s.videoQueue ++ [frame]).length ≤ _
    simp only [List.length_append, List.length_singleton]
    omega

theorem Kept.tokenSent (h : Kept s) {dropped : List ℕ} (hnetwork : s.network = .sending dropped) :
    Kept { s with channel := s.channel ++ [none], network := .flagging dropped } := by
  have hpositions : Pipeline.positions
      { s with channel := s.channel ++ [none], network := .flagging dropped } = s.positions := by
    simp [Pipeline.positions, Pipeline.coming, Pipeline.dropped, Pipeline.inHand, Pipeline.stale,
      Pipeline.keys, hnetwork]
  have hpending : Pipeline.pending
      { s with channel := s.channel ++ [none], network := .flagging dropped } = s.pending := by
    simp [Pipeline.pending, hnetwork]
  refine ⟨h.links, ?_, ?_, ?_, h.short.bound, by simp⟩
  · rw [hpositions]
    exact h.sound
  · rw [hpending]
    exact h.covered
  · exact h.deltas_of_subset (List.Subset.refl _) (List.Subset.refl _)
      (by simp [Pipeline.enqueuing])

theorem Kept.receivedKey (h : Kept s) {frame : Frame} {channel : List (Option Frame)}
    (hworker : s.worker = .receiving) (hchannel : s.channel = some frame :: channel)
    (hkey : frame.key = true) :
    Kept { s with
      channel := channel
      discardQueue := false
      handed := s.handed ++ [frame] } := by
  have hreference : reference (s.handed ++ [frame]) = some frame.number := by
    simp [reference, hkey]
  have hkeys : s.positions.keys = frame.number :: channel.filterMap (Option.map (·.number)) := by
    simp [Pipeline.positions, Pipeline.keys, hchannel]
  have hpositions : Pipeline.positions
      { s with channel := channel, discardQueue := false, handed := s.handed ++ [frame] } =
      { s.positions with
        reference := some frame.number
        discard := false
        keys := channel.filterMap (Option.map (·.number)) } := by
    simp only [Pipeline.positions, hreference]
    rfl
  have hpending : s.pending = some frame.number :: Pipeline.pending
      { s with channel := channel, discardQueue := false, handed := s.handed ++ [frame] } := by
    simp [Pipeline.pending, hworker, hchannel]
  have hcovered := h.covered
  rw [hpending] at hcovered
  refine ⟨?_, ?_, hcovered.2, h.deltas, h.short.bound, h.short.pushing⟩
  -- A keyframe refers to no frame.
  · refine always_concat.mpr ⟨h.links, fun hno => ?_⟩
    rw [hkey] at hno
    cases hno
  · rw [hpositions]
    refine h.sound.receiveKey ?_ hkeys hcovered.1
    simp [Pipeline.positions, Pipeline.inHand, hworker]

theorem Kept.receivedToken (h : Kept s) {channel : List (Option Frame)}
    (hworker : s.worker = .receiving) (hchannel : s.channel = none :: channel) :
    Kept { s with channel := channel, worker := .popping [] } := by
  have hpositions : Pipeline.positions
      { s with channel := channel, worker := .popping [] } = s.positions := by
    simp [Pipeline.positions, Pipeline.coming, Pipeline.dropped, Pipeline.inHand, Pipeline.stale,
      Pipeline.keys, hworker, hchannel]
  have hpending : Pipeline.pending
      { s with channel := channel, worker := .popping [] } = s.pending := by
    simp [Pipeline.pending, hworker, hchannel]
  refine ⟨h.links, ?_, ?_, ?_, h.short.bound, h.short.pushing⟩
  · rw [hpositions]
    exact h.sound
  · rw [hpending]
    exact h.covered
  · exact h.deltas_of_subset (by simp [Pipeline.inHand]) (List.Subset.refl _)
      (List.Subset.refl _)

theorem Kept.poppedNothing (h : Kept s) {stale : List ℕ} (hworker : s.worker = .popping stale)
    (hqueue : s.videoQueue = []) : Kept { s with worker := .selected none stale } := by
  have hpositions : Pipeline.positions { s with worker := .selected none stale } =
      s.positions := by
    simp [Pipeline.positions, Pipeline.coming, Pipeline.dropped, Pipeline.inHand, Pipeline.stale,
      Pipeline.keys, hworker]
  refine ⟨h.links, ?_, ?_, ?_, h.short.bound, h.short.pushing⟩
  · rw [hpositions]
    exact h.sound
  · show Covered _ (s.videoQueue.map (·.number))
    rw [hqueue]
    exact covered_nil _
  · exact h.deltas_of_subset (by simp [Pipeline.inHand]) (List.Subset.refl _)
      (List.Subset.refl _)

theorem Kept.popped (h : Kept s) {first : Frame} {stale : List ℕ} {rest : List Frame}
    (hworker : s.worker = .popping stale) (hqueue : s.videoQueue = first :: rest)
    (hkeys : ∀ k ∈ s.keys, first.number < k) :
    Kept { s with videoQueue := rest, worker := .judging first stale } := by
  have hpositions : Pipeline.positions
      { s with videoQueue := rest, worker := .judging first stale } =
      { s.positions with queue := rest.map (·.number), hand := [first.number] } := by
    simp [Pipeline.positions, Pipeline.coming, Pipeline.dropped, Pipeline.inHand, Pipeline.stale,
      Pipeline.keys, hworker]
  have hpending : s.pending = none :: Pipeline.pending
      { s with videoQueue := rest, worker := .judging first stale } := by
    simp [Pipeline.pending, hworker]
  have hbound := h.short.bound
  rw [hqueue, List.length_cons] at hbound
  refine ⟨h.links, ?_, ?_, ?_, by show rest.length ≤ _; omega, ?_⟩
  · rw [hpositions]
    refine h.sound.take ?_ ?_ hkeys
    · simp [Pipeline.positions, Pipeline.inHand, hworker]
    · simp [Pipeline.positions, hqueue]
  · have hcovered := h.covered
    rw [hpending, hqueue] at hcovered
    exact hcovered
  · intro other hother
    refine h.deltas other ?_
    rw [hqueue]
    rcases hother with hmem | hmem | hmem
    · obtain rfl : other = first := by simpa [Pipeline.inHand] using hmem
      exact Or.inr (Or.inl List.mem_cons_self)
    · exact Or.inr (Or.inl (List.mem_cons_of_mem _ hmem))
    · exact Or.inr (Or.inr hmem)
  · intro frame dropped heq
    have hpushing := h.short.pushing frame dropped heq
    rw [hqueue, List.length_cons] at hpushing
    show rest.length < _
    omega

theorem Kept.skipped (h : Kept s) {frame : Frame} {stale : List ℕ}
    (hworker : s.worker = .judging frame stale) :
    Kept { s with worker := .popping (stale ++ [frame.number]) } := by
  have hpositions : Pipeline.positions { s with worker := .popping (stale ++ [frame.number]) } =
      { s.positions with hand := [], lost := stale ++ [frame.number] ++ s.dropped } := by
    simp only [Pipeline.positions]
    rfl
  have hpending : Pipeline.pending { s with worker := .popping (stale ++ [frame.number]) } =
      none :: s.pending := by
    simp [Pipeline.pending, hworker]
  refine ⟨h.links, ?_, ?_, ?_, h.short.bound, h.short.pushing⟩
  · rw [hpositions]
    refine h.sound.skip fun n => ?_
    simp only [Pipeline.positions, Pipeline.stale, Pipeline.inHand, hworker, List.mem_append,
      List.map_cons, List.map_nil]
    grind
  · rw [hpending]
    exact h.covered.tail
  · exact h.deltas_of_subset (by simp [Pipeline.inHand]) (List.Subset.refl _)
      (List.Subset.refl _)

theorem Kept.kept (h : Kept s) {frame : Frame} {stale : List ℕ}
    (hworker : s.worker = .judging frame stale) :
    Kept { s with worker := .selected (some frame) stale } := by
  have hpositions : Pipeline.positions { s with worker := .selected (some frame) stale } =
      s.positions := by
    simp [Pipeline.positions, Pipeline.coming, Pipeline.dropped, Pipeline.inHand, Pipeline.stale,
      Pipeline.keys, hworker]
  have hpending : Pipeline.pending { s with worker := .selected (some frame) stale } =
      s.pending := by
    simp [Pipeline.pending, hworker]
  refine ⟨h.links, ?_, ?_, ?_, h.short.bound, h.short.pushing⟩
  · rw [hpositions]
    exact h.sound
  · rw [hpending]
    exact h.covered
  · exact h.deltas_of_subset (by simp [Pipeline.inHand, hworker]) (List.Subset.refl _)
      (List.Subset.refl _)

/-- The worker hands over the delta that arrived after the frame of the decoder. -/
theorem Kept.handed (h : Kept s) {frame : Frame} (hworker : s.worker = .deciding (some frame))
    (hdiscard : s.discardQueue = false)
    (hlost : ∀ n ∈ s.dropped, ∀ last, reference s.handed = some last →
      ¬ (last < n ∧ n < frame.number)) :
    Kept { s with worker := .receiving, handed := s.handed ++ [frame] } := by
  have hkey : frame.key = false := h.deltas frame (Or.inl (by simp [Pipeline.inHand, hworker]))
  have hhand : s.positions.hand = [frame.number] := by
    simp [Pipeline.positions, Pipeline.inHand, hworker]
  have hstale : s.stale = [] := by simp [Pipeline.stale, hworker]
  have hreference : reference (s.handed ++ [frame]) =
      (reference s.handed).map fun _ => frame.number := by
    unfold reference
    cases hany : s.handed.any (·.key) with
    | false => simp [hany, hkey]
    | true =>
        have hne : s.handed ≠ [] := by
          rintro heq
          rw [heq] at hany
          cases hany
        obtain ⟨last, hlast⟩ := Option.ne_none_iff_exists'.mp
          (mt List.getLast?_eq_none_iff.mp hne)
        simp [hany, hlast]
  have hpositions : Pipeline.positions
      { s with worker := .receiving, handed := s.handed ++ [frame] } =
      { s.positions with reference := reference (s.handed ++ [frame]), hand := [] } := by
    simp only [Pipeline.positions, hstale]
    rfl
  have hpending : Pipeline.pending
      { s with worker := .receiving, handed := s.handed ++ [frame] } = s.pending := by
    simp [Pipeline.pending, hworker]
  refine ⟨?_, ?_, ?_, ?_, h.short.bound, h.short.pushing⟩
  -- With the flag clear, only a dropped delta could lie between the frames.
  · refine always_concat.mpr ⟨h.links, fun _ last hlast => ?_⟩
    refine h.sound.hand_eq hhand hdiscard hlast fun m hm => ?_
    have hm : m ∈ s.stale ++ s.dropped := hm
    rw [hstale, List.nil_append] at hm
    exact hlost m hm last hlast
  · rw [hpositions]
    exact h.sound.handOver hhand hreference
  · rw [hpending]
    exact h.covered
  · exact h.deltas_of_subset (by simp [Pipeline.inHand]) (List.Subset.refl _)
      (List.Subset.refl _)

end Steps

/-! ## Runs -/

theorem keyframes_step {s s' : Pipeline} {event : Event} (h : Keyframes s)
    (hmove : Move s event s') : Keyframes s' := by
  cases hmove with
  | arrives hnetwork =>
      intro frame hframe
      exact h frame hframe
  | @keySent frame hnetwork hkey =>
      intro other hother
      rcases List.mem_append.mp hother with hother | hother
      · exact h other hother
      · obtain rfl : other = frame := by simpa using hother
        exact hkey
  | tokenSent hnetwork =>
      intro other hother
      exact h other (by simpa using hother)
  | receivedKey hworker hchannel =>
      intro other hother
      exact h other (by rw [hchannel]; exact List.mem_cons_of_mem _ hother)
  | receivedToken hworker hchannel =>
      intro other hother
      exact h other (by rw [hchannel]; exact List.mem_cons_of_mem _ hother)
  | _ => exact h

/-- The network has lost nothing any more once it has set the flag. -/
theorem Kept.flagNetwork (h : Kept s) {network : Network} {discard : Bool}
    (hcoming : Pipeline.coming { s with network := network } = s.coming)
    (hpending : Pipeline.pending { s with network := network } = s.pending)
    (henqueuing : Pipeline.enqueuing { s with network := network } = s.enqueuing)
    (hnone : Pipeline.dropped { s with network := network } = [])
    (hpushing : ∀ frame dropped, network = .pushing frame dropped → s.network = network)
    (hdiscard : discard = true ∨ (discard = s.discardQueue ∧ s.dropped = [])) :
    Kept { s with network := network, discardQueue := discard } := by
  refine @Kept.flag s h network s.worker discard hcoming hpending henqueuing
    (List.Sublist.refl _) ?_ hpushing ?_
  · intro n hn
    rw [hnone, List.append_nil] at hn
    exact List.mem_append_left _ hn
  · rcases hdiscard with hset | ⟨hsame, hdropped⟩
    · exact Or.inl hset
    · exact Or.inr ⟨hsame, rfl, by rw [hnone, hdropped]⟩

/-- The worker has lost nothing any more once it has set the flag. -/
theorem Kept.flagWorker (h : Kept s) {worker : Worker} {discard : Bool}
    (hpending : Pipeline.pending { s with worker := worker } = s.pending)
    (hhand : (Pipeline.inHand { s with worker := worker }).Sublist s.inHand)
    (hnone : Pipeline.stale { s with worker := worker } = [])
    (hdiscard : discard = true ∨ (discard = s.discardQueue ∧
      Pipeline.inHand { s with worker := worker } = s.inHand ∧ s.stale = [])) :
    Kept { s with worker := worker, discardQueue := discard } := by
  refine @Kept.flag s h s.network worker discard rfl hpending rfl hhand ?_
    (fun _ _ _ => rfl) ?_
  · intro n hn
    rw [hnone, List.nil_append] at hn
    exact List.mem_append_right _ hn
  · rcases hdiscard with hset | ⟨hsame, hsameHand, hstale⟩
    · exact Or.inl hset
    · exact Or.inr ⟨hsame, hsameHand, by rw [hnone, hstale]⟩

theorem kept_step {s s' : Pipeline} {event : Event} (h : Kept s) (hkeyframes : Keyframes s)
    (hmove : Move s event s') (hkeeps : Keeps s event) : Kept s' := by
  cases hmove with
  | arrives hnetwork => exact h.arrive hnetwork _ rfl
  | keySent hnetwork hkey => exact h.keySent hnetwork
  | checked hnetwork hkey => exact h.checked hnetwork hkey
  | full hnetwork => exact h.full hnetwork
  | room hnetwork hroom => exact h.room hnetwork hroom
  | evicted hnetwork hqueue =>
      exact h.evicted hnetwork hqueue (hkeeps _ _ hnetwork _ (by simp [hqueue]))
  | pushed hnetwork => exact h.pushed hnetwork
  | tokenSent hnetwork => exact h.tokenSent hnetwork
  | receivedKey hworker hchannel =>
      exact h.receivedKey hworker hchannel (hkeyframes _ (by simp [hchannel]))
  | receivedToken hworker hchannel => exact h.receivedToken hworker hchannel
  | poppedNothing hworker hqueue => exact h.poppedNothing hworker hqueue
  | popped hworker hqueue =>
      exact h.popped hworker hqueue (hkeeps.1 _ hworker _ (by simp [hqueue]))
  | skipped hworker => exact h.skipped hworker
  | kept hworker => exact h.kept hworker
  | handed hworker hdiscard => exact h.handed hworker hdiscard (hkeeps.2 _ hworker hdiscard)
  | @regressed frame hnetwork =>
      refine h.flagNetwork ?_ ?_ ?_ rfl (by simp) (Or.inl rfl)
      · simp [Pipeline.coming, hnetwork]
      · simp [Pipeline.pending, hnetwork]
      · simp [Pipeline.enqueuing, hnetwork]
  | @flagged dropped hnetwork =>
      refine h.flagNetwork ?_ ?_ ?_ rfl (by simp) ?_
      · simp [Pipeline.coming, hnetwork]
      · simp [Pipeline.pending, hnetwork]
      · simp [Pipeline.enqueuing, hnetwork]
      -- The flag is set if a delta was dropped, and otherwise nothing changes.
      · cases dropped with
        | nil => exact Or.inr ⟨by simp, by simp [Pipeline.dropped, hnetwork]⟩
        | cons n dropped => exact Or.inl (by simp)
  | @staleFlagged frame stale hworker =>
      refine h.flagWorker ?_ ?_ rfl ?_
      · simp [Pipeline.pending, hworker]
      · simp [Pipeline.inHand, hworker]
      · cases stale with
        | nil =>
            refine Or.inr ⟨by simp, by simp [Pipeline.inHand, hworker], ?_⟩
            simp [Pipeline.stale, hworker]
        | cons n stale => exact Or.inl (by simp)
  | @discarded frame hworker hdiscard =>
      -- The flag is set already, so the delta in the hand may go.
      have hflag : Kept { s with worker := .receiving, discardQueue := true } := by
        refine h.flagWorker ?_ ?_ rfl (Or.inl rfl)
        · simp [Pipeline.pending, hworker]
        · simp [Pipeline.inHand]
      rw [← hdiscard] at hflag
      exact hflag
  | nothing hworker =>
      refine h.flagWorker ?_ ?_ rfl (Or.inr ⟨rfl, ?_, ?_⟩)
      · simp [Pipeline.pending, hworker]
      · simp [Pipeline.inHand]
      · simp [Pipeline.inHand, hworker]
      · simp [Pipeline.stale, hworker]
  | discardSet =>
      exact h.flag rfl rfl rfl (List.Sublist.refl _) (fun _ hn => hn) (fun _ _ _ => rfl)
        (Or.inl rfl)

theorem kept_run {events : List Event} {s : Pipeline} (run : Run KeptStep {} events s) :
    Kept s ∧ Keyframes s := by
  refine run.stateInvariant (fun s => Kept s ∧ Keyframes s) ⟨kept_start, by simp [Keyframes]⟩ ?_
  rintro s event s' ⟨hkept, hkeyframes⟩ ⟨hstep, hkeeps⟩
  have hmove := hstep.move hkept.short
  exact ⟨kept_step hkept hkeyframes hmove hkeeps, keyframes_step hkeyframes hmove⟩

/-! ## The chain -/

/-- The deltas behind a keyframe are numbered on from it. -/
theorem numbered_deltas {earlier deltas : List Frame} {keyframe : Frame}
    (hkey : keyframe.key = true) (hdeltas : ∀ frame ∈ deltas, frame.key = false)
    (hlinks : Always Follows (earlier ++ keyframe :: deltas)) :
    deltas.map (·.number) = List.range' (keyframe.number + 1) deltas.length ∧
      reference (earlier ++ keyframe :: deltas) = some (keyframe.number + deltas.length) := by
  induction deltas using List.reverseRecOn with
  | nil => exact ⟨rfl, by simp [reference, hkey]⟩
  | append_singleton deltas delta ih =>
      have hsplit : earlier ++ keyframe :: (deltas ++ [delta]) =
          (earlier ++ keyframe :: deltas) ++ [delta] := by simp
      rw [hsplit] at hlinks ⊢
      obtain ⟨hbefore, hfollows⟩ := always_concat.mp hlinks
      obtain ⟨hnumbers, hreference⟩ :=
        ih (fun frame hframe => hdeltas frame (List.mem_append_left _ hframe)) hbefore
      have hnumber : delta.number = keyframe.number + deltas.length + 1 :=
        hfollows (hdeltas delta (by simp)) _ hreference
      constructor
      · rw [List.map_append, hnumbers, List.length_append, List.length_singleton,
          List.range'_concat]
        simp only [List.map_cons, List.map_nil, Nat.one_mul, hnumber]
        congr 2
        omega
      · have hany : ((earlier ++ keyframe :: deltas) ++ [delta]).any (·.key) = true := by
          simp [hkey]
        rw [reference, if_pos hany]
        simp only [List.getLast?_append, List.getLast?_singleton, Option.some_or, Option.map_some,
          List.length_append, List.length_singleton, hnumber]
        congr 1

theorem chained_of_links {handed : List Frame} (h : Always Follows handed) : Chained handed := by
  intro before delta after hhanded hdelta earlier keyframe deltas hbefore hkey hdeltas
  have hlinks : Always Follows (before ++ [delta]) := by
    intro front frame back heq
    refine h front frame (back ++ after) ?_
    calc handed = (before ++ [delta]) ++ after := by simp [hhanded]
      _ = (front ++ frame :: back) ++ after := by rw [heq]
      _ = front ++ frame :: (back ++ after) := by simp
  obtain ⟨hfront, hfollows⟩ := always_concat.mp hlinks
  rw [hbefore] at hfront hfollows
  obtain ⟨hnumbers, hreference⟩ := numbered_deltas hkey hdeltas hfront
  have hnumber : delta.number = keyframe.number + deltas.length + 1 :=
    hfollows hdelta _ hreference
  refine ⟨by omega, ?_⟩
  rw [hnumbers, hnumber]
  congr 1
  omega

/-- Where no delta passes a keyframe and none is handed over before `discard_queue` is set
for one it refers to, the decoder is given unbroken chains. -/
theorem movie_chained {events : List Event} {s : Pipeline} (run : Run KeptStep {} events s) :
    Chained s.handed :=
  chained_of_links (kept_run run).1.links

/-- No keyframe waits that the step could pass, and no delta was dropped that it could miss. -/
def free (s : Pipeline) : Event → Bool
  | .worker => decide ((s.keys = [] ∨ s.worker = .receiving) ∧ s.dropped = [])
  | .network => decide (s.keys = [])
  | _ => true

theorem keeps_of_free {s : Pipeline} {event : Event} (h : free s event = true) : Keeps s event := by
  cases event with
  | arrives => trivial
  | discardSet => trivial
  | network =>
      have hkeys := of_decide_eq_true h
      simp [Keeps, hkeys]
  | worker =>
      obtain ⟨hkeys | hworker, hdropped⟩ := of_decide_eq_true h
      · exact ⟨by simp [hkeys], by simp [hdropped]⟩
      · exact ⟨by simp [hworker], by simp [hworker]⟩

theorem run_of_free {events : List Event} {s s' : Pipeline}
    (h : events.foldlM (fun s event => if free s event then s.step event else none) s = some s') :
    Run KeptStep s events s' := by
  refine (run_of_foldlM h).mono fun before event after hstep => ?_
  split_ifs at hstep with hfree
  exact ⟨hstep, keeps_of_free hfree⟩

/-- After a keyframe nine deltas arrive, of which the ninth drops the first; the worker discards
the others, and hands over the next keyframe and the delta behind it. -/
def droppedEvents : List Event :=
  [.arrives 1 10 true, .network, .worker] ++
    (List.range 8).flatMap (fun i => .arrives (i + 2) 10 false :: List.replicate 5 .network) ++
    (.arrives 10 10 false :: List.replicate 7 .network) ++ List.replicate 44 .worker ++
    [.arrives 11 20 true, .network, .worker] ++
    (.arrives 12 30 false :: (List.replicate 5 .network ++ List.replicate 5 .worker))

theorem movie_chained_dropped : ∃ s, Run KeptStep {} droppedEvents s ∧
    s.handed = [⟨0, 1, 10, true⟩, ⟨10, 11, 20, true⟩, ⟨11, 12, 30, false⟩] ∧
    Chained s.handed := by
  have hruns : (droppedEvents.foldlM (fun s event => if free s event then s.step event else none)
      {}).map (fun s => s.handed) =
        some [⟨0, 1, 10, true⟩, ⟨10, 11, 20, true⟩, ⟨11, 12, 30, false⟩] := by
    decide +kernel
  obtain ⟨s, hs, hhanded⟩ := Option.map_eq_some_iff.mp hruns
  exact ⟨s, run_of_free hs, hhanded, movie_chained (run_of_free hs)⟩

/-! ## A keyframe that was not the one waited for -/

/-- A keyframe waits for the worker while nine deltas arrive; the ninth drops the first. -/
def overflowingEvents : List Event :=
  [.arrives 1 10 true, .network] ++
    (List.range 8).flatMap (fun i => .arrives (i + 2) 10 false :: List.replicate 5 .network) ++
    (.arrives 10 10 false :: List.replicate 7 .network) ++ List.replicate 6 .worker

/-- The keyframe that the worker receives clears `discard_queue`, which was set for the
dropped delta behind it. -/
theorem not_chained_overflowing :
    ¬ ∀ (events : List Event) (s : Pipeline), Run Step {} events s → Chained s.handed := by
  intro h
  have hlast : (overflowingEvents.foldlM Pipeline.step {}).map (fun s => s.handed) =
      some [⟨0, 1, 10, true⟩, ⟨2, 3, 10, false⟩] := by
    decide +kernel
  obtain ⟨s, hs, hhanded⟩ := Option.map_eq_some_iff.mp hlast
  have hchained := h overflowingEvents s (run_of_foldlM hs)
  rw [hhanded] at hchained
  have hdeltas := (hchained [⟨0, 1, 10, true⟩] ⟨2, 3, 10, false⟩ [] rfl rfl [] ⟨0, 1, 10, true⟩ []
    rfl rfl (by simp)).2
  cases hdeltas

end RustAdmin.Viewer.Movie
