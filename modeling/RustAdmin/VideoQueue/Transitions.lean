import Mathlib.Algebra.Order.BigOperators.Group.List
import Mathlib.Algebra.Order.Ring.Nat
import RustAdmin.VideoQueue.State

/-!
# What each call of the video queue can do

One lemma for each function of `State.lean`, under the assumption that the byte
counter is exact (`ByteExact`).  Each says that the function returns and names
the next state through the few moves a queue can make: `purged`, `entered`,
`lost`, `enqueued`, and the removal of one served entry.  The invariants are
proved from these lemmas and never unfold the functions.
-/

namespace RustAdmin.VideoQueue

open RustAdmin.Support

variable {α : Type}

/-- The call comes back with the state `next`, whatever it reports as dropped. -/
def Returns (call : Option (State α × Drops)) (next : State α) : Prop :=
  ∃ drops, call = some (next, drops)

/-! ## The byte counter -/

def byteSum (entries : List (Entry α)) : ℕ := (entries.map Entry.bytes).sum

/-- The byte counter is the sum of the sizes of the queued entries. -/
def State.ByteExact (s : State α) : Prop := s.bytes = byteSum s.messages

/-- The state with another deque and the byte counter that belongs to it. -/
def State.withMessages (s : State α) (entries : List (Entry α)) : State α :=
  { s with messages := entries, bytes := byteSum entries }

@[simp] theorem byteSum_nil : byteSum ([] : List (Entry α)) = 0 := rfl

@[simp] theorem byteSum_cons (entry : Entry α) (entries : List (Entry α)) :
    byteSum (entry :: entries) = entry.bytes + byteSum entries := by
  simp [byteSum]

@[simp] theorem byteSum_append (first second : List (Entry α)) :
    byteSum (first ++ second) = byteSum first + byteSum second := by
  simp [byteSum]

theorem le_byteSum_of_mem {entry : Entry α} {entries : List (Entry α)} (h : entry ∈ entries) :
    entry.bytes ≤ byteSum entries :=
  List.le_sum_of_mem (List.mem_map_of_mem h)

@[simp] theorem messages_withMessages (s : State α) (entries : List (Entry α)) :
    (s.withMessages entries).messages = entries := rfl

@[simp] theorem tracks_withMessages (s : State α) (entries : List (Entry α)) :
    (s.withMessages entries).tracks = s.tracks := rfl

@[simp] theorem fatal_withMessages (s : State α) (entries : List (Entry α)) :
    (s.withMessages entries).fatal = s.fatal := rfl

theorem byteExact_withMessages (s : State α) (entries : List (Entry α)) :
    (s.withMessages entries).ByteExact := rfl

theorem State.ByteExact.withMessages_self {s : State α} (h : s.ByteExact) :
    s.withMessages s.messages = s := by
  unfold State.withMessages
  rw [← h]

@[simp] theorem messages_setTrack (s : State α) (d : Display) (t : Track) :
    (s.setTrack d t).messages = s.messages := rfl

@[simp] theorem bytes_setTrack (s : State α) (d : Display) (t : Track) :
    (s.setTrack d t).bytes = s.bytes := rfl

@[simp] theorem fatal_setTrack (s : State α) (d : Display) (t : Track) :
    (s.setTrack d t).fatal = s.fatal := rfl

@[simp] theorem tracks_setTrack_self (s : State α) (d : Display) (t : Track) :
    (s.setTrack d t).tracks d = t := by
  simp [State.setTrack]

@[simp] theorem tracks_setTrack_ne (s : State α) {d other : Display} (t : Track)
    (h : other ≠ d) : (s.setTrack d t).tracks other = s.tracks other := by
  simp [State.setTrack, h]

theorem byteExact_setTrack {s : State α} {d : Display} {t : Track} :
    (s.setTrack d t).ByteExact ↔ s.ByteExact := Iff.rfl

/-- `remove` of an existing entry never takes the counter below zero. -/
theorem remove_of_split {s : State α} (hexact : s.ByteExact) {before after : List (Entry α)}
    {entry : Entry α} (hsplit : s.messages = before ++ entry :: after) :
    s.remove before.length = some (some entry, s.withMessages (before ++ after)) := by
  have hget : s.messages[before.length]? = some entry := by
    rw [hsplit]
    simp
  have herase : s.messages.eraseIdx before.length = before ++ after := by
    rw [hsplit, List.eraseIdx_append_of_length_le le_rfl]
    simp
  have hbytes : checkedSub s.bytes entry.bytes = some (byteSum (before ++ after)) := by
    have hsum : s.bytes = byteSum (before ++ after) + entry.bytes := by
      rw [hexact, hsplit]
      simp only [byteSum_append, byteSum_cons]
      omega
    rw [hsum, checkedSub_add_right]
  unfold State.remove
  rw [hget]
  simp only [hbytes, herase, Option.bind_eq_bind, Option.bind_some]
  rfl

/-! ## Purge and loss -/

/-- The deque without what `purge` removes. -/
def State.purged (s : State α) (display : Display) (deltasOnly : Bool) : State α :=
  s.withMessages (s.messages.filter fun e => !e.purged display deltasOnly)

/-- The loop of `purge` has kept `kept` and still has to look at `rest`. -/
theorem purgeLoop_eq (display : Display) (deltasOnly : Bool) :
    ∀ (rounds : ℕ) (s : State α) (drops : Drops) (kept rest : List (Entry α)),
      s.ByteExact → s.messages = kept ++ rest → rest.length ≤ rounds →
      ∃ drops', State.purgeLoop display deltasOnly rounds kept.length s drops =
        some (s.withMessages (kept ++ rest.filter fun e => !e.purged display deltasOnly),
          drops') := by
  intro rounds
  induction rounds with
  | zero =>
      intro s drops kept rest hexact hsplit hlength
      obtain rfl : rest = [] := List.eq_nil_of_length_eq_zero (Nat.le_zero.mp hlength)
      refine ⟨drops, ?_⟩
      simp only [State.purgeLoop, List.filter_nil]
      rw [← hsplit, hexact.withMessages_self]
  | succ rounds ih =>
      intro s drops kept rest hexact hsplit hlength
      cases rest with
      | nil =>
          refine ⟨drops, ?_⟩
          have hnone : s.messages[kept.length]? = none := by
            rw [hsplit]
            simp
          simp only [State.purgeLoop, hnone, List.filter_nil]
          rw [← hsplit, hexact.withMessages_self]
      | cons entry rest =>
          have hsome : s.messages[kept.length]? = some entry := by
            rw [hsplit]
            simp
          have hrest : rest.length ≤ rounds := by simpa using hlength
          by_cases hpurged : entry.purged display deltasOnly
          · -- the entry goes, and the next one moves under the index
            obtain ⟨drops', hloop⟩ := ih (s.withMessages (kept ++ rest)) (drops.record entry)
              kept rest (byteExact_withMessages _ _) rfl hrest
            refine ⟨drops', ?_⟩
            simp only [State.purgeLoop, hsome, hpurged, if_true, remove_of_split hexact hsplit,
              Option.bind_eq_bind, Option.bind_some, hloop]
            simp [State.withMessages, hpurged]
          · obtain ⟨drops', hloop⟩ := ih s drops (kept ++ [entry]) rest hexact
              (by simpa using hsplit) hrest
            refine ⟨drops', ?_⟩
            simp only [List.length_append, List.length_singleton] at hloop
            simp only [State.purgeLoop, hsome, hpurged, hloop]
            simp [hpurged]

theorem purge_eq {s : State α} (hexact : s.ByteExact) (display : Display) (deltasOnly : Bool)
    (drops : Drops) :
    Returns (s.purge display deltasOnly drops) (s.purged display deltasOnly) := by
  simpa [Returns, State.purge, State.purged] using
    purgeLoop_eq display deltasOnly s.messages.length s drops [] s.messages hexact rfl le_rfl

/-- The state after a loss up to `frame`. -/
def State.lost (s : State α) (display : Display) (frame : ℕ) : State α :=
  (s.setTrack display ((s.tracks display).lose (s.lossFloor display frame))).purged display true

theorem loss_eq {s : State α} (hexact : s.ByteExact) (display : Display) (frame : ℕ)
    (drops : Drops) : Returns (s.loss display frame drops) (s.lost display frame) :=
  purge_eq (byteExact_setTrack.mpr hexact) display true drops

@[simp] theorem messages_purged (s : State α) (d : Display) (k : Bool) :
    (s.purged d k).messages = s.messages.filter fun e => !e.purged d k := rfl

@[simp] theorem tracks_purged (s : State α) (d : Display) (k : Bool) :
    (s.purged d k).tracks = s.tracks := rfl

@[simp] theorem fatal_purged (s : State α) (d : Display) (k : Bool) :
    (s.purged d k).fatal = s.fatal := rfl

theorem byteExact_purged (s : State α) (d : Display) (k : Bool) : (s.purged d k).ByteExact :=
  byteExact_withMessages _ _

@[simp] theorem messages_lost (s : State α) (d : Display) (frame : ℕ) :
    (s.lost d frame).messages = s.messages.filter fun e => !e.purged d true := rfl

@[simp] theorem fatal_lost (s : State α) (d : Display) (frame : ℕ) :
    (s.lost d frame).fatal = s.fatal := rfl

theorem tracks_lost (s : State α) (d : Display) (frame : ℕ) :
    (s.lost d frame).tracks =
      Function.update s.tracks d ((s.tracks d).lose (s.lossFloor d frame)) := rfl

@[simp] theorem stream_lose (t : Track) (frame : ℕ) : (t.lose frame).stream = t.stream := by
  unfold Track.lose
  split <;> rfl

@[simp] theorem enabled_lose (t : Track) (frame : ℕ) : (t.lose frame).enabled = t.enabled := by
  unfold Track.lose
  split <;> rfl

@[simp] theorem recovering_lose (t : Track) (frame : ℕ) : (t.lose frame).recovering = true := by
  unfold Track.lose
  split <;> rfl

/-! ## Push -/

/-- The track refuses the frame: unsubscribed, or of an older stream. -/
def Track.refuses (track : Track) (frame : VideoFrame) : Bool :=
  !track.enabled || track.stream.any (fun old => decide (frame.streamId < old))

/-- The state after `enterStream`. -/
def State.entered (s : State α) (display : Display) (stream : ℕ) (key : Bool) : State α :=
  if (s.tracks display).stream ≠ some stream then
    (s.purged display false).setTrack display
      { stream := some stream, enabled := true, recovering := !key }
  else s

/-- The state in which `push` applies its limits: the stream entered and, for a
keyframe, the frames of the track superseded. -/
def State.prepared (s : State α) (display : Display) (frame : VideoFrame) : State α :=
  let entered := s.entered display frame.streamId (leadingKeyframe frame)
  if leadingKeyframe frame then entered.purged display false else entered

/-- The entry of a frame. -/
def frameEntry (item : Queued α) (display : Display) (frame : VideoFrame) : Entry α :=
  { item := item, display := some display, bytes := item.message.computeSize,
    key := leadingKeyframe frame, frame := frame.frameId }

/-- The entry of a message without a frame. -/
def controlEntry (item : Queued α) : Entry α :=
  { item := item, display := none, bytes := item.message.computeSize, key := false, frame := 0 }

/-- The state after the frame was admitted. -/
def State.enqueued (s : State α) (item : Queued α) (display : Display) (frame : VideoFrame) :
    State α :=
  let s := s.setTrack display
    ((s.tracks display).accept (leadingKeyframe frame) frame.frameId)
  { s with bytes := s.bytes + item.message.computeSize
           messages := s.messages ++ [frameEntry item display frame] }

theorem enterStream_eq {s : State α} (hexact : s.ByteExact) (display : Display) (stream : ℕ)
    (key : Bool) (drops : Drops) :
    Returns (s.enterStream display stream key drops) (s.entered display stream key) := by
  unfold State.enterStream State.entered
  split
  · obtain ⟨drops', hpurge⟩ := purge_eq hexact display false drops
    exact ⟨drops', by simp [hpurge]⟩
  · exact ⟨drops, rfl⟩

theorem byteExact_entered {s : State α} (hexact : s.ByteExact) (display : Display) (stream : ℕ)
    (key : Bool) : (s.entered display stream key).ByteExact := by
  unfold State.entered
  split
  · exact byteExact_setTrack.mpr (byteExact_purged _ _ _)
  · exact hexact

theorem byteExact_prepared {s : State α} (hexact : s.ByteExact) (display : Display)
    (frame : VideoFrame) : (s.prepared display frame).ByteExact := by
  unfold State.prepared
  split
  · exact byteExact_purged _ _ _
  · exact byteExact_entered hexact _ _ _

/-- A frame is refused by its track, or counted as a loss, or enqueued: the
last only within the limits, and a delta only outside a recovery. -/
theorem pushFrame_cases {s : State α} (hexact : s.ByteExact) (item : Queued α)
    (display : Display) (frame : VideoFrame) :
    ∃ s', Returns (s.pushFrame item display frame) s' ∧
      (((s.tracks display).refuses frame = true ∧ s' = s) ∨
        ((s.tracks display).refuses frame = false ∧
          (s' = (s.prepared display frame).lost display frame.frameId ∨
            ((s.prepared display frame).full display item.message.computeSize = false ∧
              (leadingKeyframe frame = false →
                ((s.prepared display frame).tracks display).recovering = false) ∧
              s' = (s.prepared display frame).enqueued item display frame)))) := by
  cases hrefuses : (s.tracks display).refuses frame with
  | true =>
      refine ⟨s, ⟨({} : Drops).record (frameEntry item display frame), ?_⟩, .inl ⟨rfl, rfl⟩⟩
      unfold Track.refuses at hrefuses
      simp only [State.pushFrame, hrefuses, if_true, frameEntry]
  | false =>
      unfold Track.refuses at hrefuses
      obtain ⟨drops₁, henter⟩ :=
        enterStream_eq hexact display frame.streamId (leadingKeyframe frame) {}
      have hentered := byteExact_entered hexact display frame.streamId (leadingKeyframe frame)
      have hprepared := byteExact_prepared hexact display frame
      cases hkey : leadingKeyframe frame with
      | false =>
          have heq : s.prepared display frame = s.entered display frame.streamId false := by
            simp [State.prepared, hkey]
          rw [hkey] at hentered henter
          rw [heq]
          obtain ⟨drops₂, hloss⟩ := loss_eq hentered display frame.frameId drops₁
          cases hrecovering :
              ((s.entered display frame.streamId false).tracks display).recovering with
          | true =>
              refine ⟨_, ⟨drops₂.record (frameEntry item display frame), ?_⟩, .inr ⟨rfl, .inl rfl⟩⟩
              simp [State.pushFrame, hrefuses, henter, hkey, hrecovering, hloss, frameEntry]
          | false =>
              cases hfull : (s.entered display frame.streamId false).full display
                  item.message.computeSize with
              | true =>
                  refine ⟨_, ⟨drops₂.record (frameEntry item display frame), ?_⟩,
                    .inr ⟨rfl, .inl rfl⟩⟩
                  simp [State.pushFrame, hrefuses, henter, hkey, hrecovering, hfull, hloss,
                    frameEntry]
              | false =>
                  refine ⟨_, ⟨drops₁, ?_⟩, .inr ⟨rfl, .inr ⟨rfl, fun _ => rfl, rfl⟩⟩⟩
                  simp [State.pushFrame, hrefuses, henter, hkey, hrecovering, hfull,
                    State.enqueued, frameEntry]
      | true =>
          have heq : s.prepared display frame =
              (s.entered display frame.streamId true).purged display false := by
            simp [State.prepared, hkey]
          rw [hkey] at hentered henter
          rw [heq] at hprepared ⊢
          obtain ⟨drops₂, hpurge⟩ := purge_eq hentered display false drops₁
          obtain ⟨drops₃, hloss⟩ := loss_eq hprepared display frame.frameId drops₂
          cases hfull : ((s.entered display frame.streamId true).purged display false).full display
              item.message.computeSize with
          | true =>
              refine ⟨_, ⟨drops₃.record (frameEntry item display frame), ?_⟩, .inr ⟨rfl, .inl rfl⟩⟩
              simp [State.pushFrame, hrefuses, henter, hkey, hpurge, hfull, hloss, frameEntry]
          | false =>
              refine ⟨_, ⟨drops₂, ?_⟩, .inr ⟨rfl, .inr ⟨rfl, by simp, rfl⟩⟩⟩
              simp [State.pushFrame, hrefuses, henter, hkey, hpurge, hfull, State.enqueued,
                frameEntry]

/-- The state after a message without a frame was enqueued. -/
def State.enqueuedControl (s : State α) (item : Queued α) : State α :=
  { s with bytes := s.bytes + item.message.computeSize
           messages := s.messages ++ [controlEntry item] }

/-- Everything `push` can do with an item. -/
inductive Pushed (s : State α) (item : Queued α) : State α → Prop
  /-- A frame of a display outside the range. -/
  | unknown {frame : VideoFrame} (hframe : item.frame? = some frame)
      (hdisplay : frame.display? = none) : Pushed s item s
  | refused {frame : VideoFrame} {display : Display} (hframe : item.frame? = some frame)
      (hdisplay : frame.display? = some display)
      (hrefuses : (s.tracks display).refuses frame = true) : Pushed s item s
  | lost {frame : VideoFrame} {display : Display} (hframe : item.frame? = some frame)
      (hdisplay : frame.display? = some display)
      (hrefuses : (s.tracks display).refuses frame = false) :
      Pushed s item ((s.prepared display frame).lost display frame.frameId)
  | enqueued {frame : VideoFrame} {display : Display} (hframe : item.frame? = some frame)
      (hdisplay : frame.display? = some display)
      (hrefuses : (s.tracks display).refuses frame = false)
      (hfull : (s.prepared display frame).full display item.message.computeSize = false)
      (hready : leadingKeyframe frame = false →
        ((s.prepared display frame).tracks display).recovering = false) :
      Pushed s item ((s.prepared display frame).enqueued item display frame)
  | overflow (hframe : item.frame? = none) : Pushed s item { s with fatal := true }
  | control (hframe : item.frame? = none) (hlength : s.messages.length ≠ capacity)
      (hsize : item.message.computeSize ≤ maxFrameBytes)
      (hbytes : s.bytes + item.message.computeSize ≤ maxBytes) :
      Pushed s item (s.enqueuedControl item)

theorem maxBytes_lt_saturatingAdd {a b : ℕ} :
    maxBytes < saturatingAdd a b ↔ maxBytes < a + b := lt_saturatingAdd (by decide)

theorem maxFrameBytes_lt_saturatingAdd {a b : ℕ} :
    maxFrameBytes < saturatingAdd a b ↔ maxFrameBytes < a + b := lt_saturatingAdd (by decide)

theorem pushControl_pushed {s : State α} {item : Queued α} (hframe : item.frame? = none) :
    Pushed s item (s.pushControl item) := by
  unfold State.pushControl
  dsimp only
  split
  · exact .overflow hframe
  · next hlimits =>
      simp only [Bool.or_eq_true, decide_eq_true_eq, maxBytes_lt_saturatingAdd, not_or,
        not_lt] at hlimits
      exact .control hframe hlimits.1.1 hlimits.1.2 hlimits.2

/-- `push` returns, in one of the ways of `Pushed`. -/
theorem push_returns {s : State α} (hexact : s.ByteExact) (item : Queued α) :
    ∃ s', Returns (s.push item) s' ∧ Pushed s item s' := by
  cases hframe : item.frame? with
  | none =>
      exact ⟨_, ⟨{}, by simp only [State.push, hframe]⟩, pushControl_pushed hframe⟩
  | some frame =>
      cases hdisplay : frame.display? with
      | none =>
          exact ⟨s, ⟨{}, by simp only [State.push, hframe, hdisplay]⟩, .unknown hframe hdisplay⟩
      | some display =>
          have hpush : s.push item = s.pushFrame item display frame := by
            simp only [State.push, hframe, hdisplay]
          rw [hpush]
          obtain ⟨s', hreturns, ⟨hrefuses, hs'⟩ | ⟨hrefuses, hs' | ⟨hfull, hready, hs'⟩⟩⟩ :=
            pushFrame_cases hexact item display frame
          · rw [hs'] at hreturns
            exact ⟨s, hreturns, .refused hframe hdisplay hrefuses⟩
          · exact ⟨s', hreturns, hs' ▸ .lost hframe hdisplay hrefuses⟩
          · exact ⟨s', hreturns, hs' ▸ .enqueued hframe hdisplay hrefuses hfull hready⟩

/-! ## Lose and set_displays -/

/-- Everything `lose` can do with an item. -/
inductive Losing (s : State α) (item : Queued α) : State α → Prop
  | other (hcurrent : ∀ frame display, item.frame? = some frame →
      frame.display? = some display → (s.tracks display).stream ≠ some frame.streamId) :
      Losing s item s
  | lost {frame : VideoFrame} {display : Display} (hframe : item.frame? = some frame)
      (hdisplay : frame.display? = some display)
      (hstream : (s.tracks display).stream = some frame.streamId) :
      Losing s item (s.lost display frame.frameId)

theorem lose_returns {s : State α} (hexact : s.ByteExact) (item : Queued α) :
    ∃ s', Returns (s.lose item) s' ∧ Losing s item s' := by
  have hsame : ∀ {frame frame' : VideoFrame}, item.frame? = some frame →
      item.frame? = some frame' → frame = frame' := by
    intro frame frame' hframe hframe'
    exact Option.some.inj (hframe.symm.trans hframe')
  cases hframe : item.frame? with
  | none => exact ⟨s, ⟨{}, by simp only [State.lose, hframe]⟩, .other (by simp [hframe])⟩
  | some frame =>
      cases hdisplay : frame.display? with
      | none =>
          refine ⟨s, ⟨{}, by simp only [State.lose, hframe, hdisplay]⟩,
            .other fun frame' display' hframe' hdisplay' => ?_⟩
          rw [← hsame hframe hframe', hdisplay] at hdisplay'
          simp at hdisplay'
      | some display =>
          by_cases hstream : (s.tracks display).stream = some frame.streamId
          · obtain ⟨drops, hloss⟩ := loss_eq hexact display frame.frameId {}
            refine ⟨_, ⟨⟨Function.update drops.times display (some item.time)⟩, ?_⟩,
              .lost hframe hdisplay hstream⟩
            simp [State.lose, hframe, hdisplay, hstream, hloss]
          · refine ⟨s, ⟨⟨Function.update (fun _ => none) display (some item.time)⟩, ?_⟩,
              .other fun frame' display' hframe' hdisplay' => ?_⟩
            · simp [State.lose, hframe, hdisplay, hstream]
            · rw [← hsame hframe hframe', hdisplay] at hdisplay'
              rw [← hsame hframe hframe', ← Option.some.inj hdisplay']
              exact hstream

/-- One display switched to `enabled` by `set_displays`: unsubscribing purges
its frames, subscribing again demands a keyframe. -/
def State.switched (s : State α) (display : Display) (enabled : Bool) : State α :=
  if (s.tracks display).enabled then
    if enabled then s
    else (s.purged display false).setTrack display
      { s.tracks display with recovering := false, enabled := false }
  else if enabled then
    s.setTrack display { s.tracks display with
      recovering := true, refreshes := 0, lastRefresh := none, enabled := true }
  else s

@[simp] theorem setTrack_tracks_self (s : State α) (d : Display) :
    s.setTrack d (s.tracks d) = s := by
  simp [State.setTrack]

theorem setTrack_setTrack (s : State α) (d : Display) (t t' : Track) :
    (s.setTrack d t).setTrack d t' = s.setTrack d t' := by
  simp [State.setTrack]

theorem setDisplay_eq {s : State α} (hexact : s.ByteExact) (subscribed : List ℕ)
    (drops : Drops) (display : Display) :
    Returns (State.setDisplay subscribed (s, drops) display)
      (s.switched display (subscribed.contains display.val)) := by
  have hself : { s.tracks display with enabled := (s.tracks display).enabled } =
    s.tracks display := rfl
  unfold State.setDisplay State.switched
  cases henabled : (s.tracks display).enabled with
  | true =>
      cases hwanted : subscribed.contains display.val with
      | true =>
          refine ⟨drops, ?_⟩
          rw [henabled] at hself
          simp [henabled, hself]
      | false =>
          obtain ⟨drops', hpurge⟩ := purge_eq hexact display false drops
          exact ⟨drops', by simp [hpurge, setTrack_setTrack]⟩
  | false =>
      cases hwanted : subscribed.contains display.val with
      | true => exact ⟨drops, by simp [henabled, setTrack_setTrack]⟩
      | false =>
          refine ⟨drops, ?_⟩
          rw [henabled] at hself
          simp [hself]

theorem byteExact_switched {s : State α} (hexact : s.ByteExact) (display : Display)
    (enabled : Bool) : (s.switched display enabled).ByteExact := by
  unfold State.switched
  split <;> split
  · exact hexact
  · exact byteExact_setTrack.mpr (byteExact_purged _ _ _)
  · exact byteExact_setTrack.mpr hexact
  · exact hexact

/-- `set_displays` switches the displays one after the other. -/
def State.resubscribed (s : State α) (subscribed : List ℕ) : State α :=
  (List.finRange displays).foldl
    (fun s display => s.switched display (subscribed.contains display.val)) s

theorem setDisplays_eq {s : State α} (hexact : s.ByteExact) (subscribed : List ℕ) :
    Returns (s.setDisplays subscribed) (s.resubscribed subscribed) := by
  unfold State.setDisplays State.resubscribed
  generalize List.finRange displays = order
  generalize ({} : Drops) = drops
  induction order generalizing s drops with
  | nil => exact ⟨drops, rfl⟩
  | cons display order ih =>
      obtain ⟨drops', hdisplay⟩ := setDisplay_eq hexact subscribed drops display
      obtain ⟨drops'', horder⟩ := ih (byteExact_switched hexact display _) drops'
      refine ⟨drops'', ?_⟩
      rw [List.foldlM_cons, hdisplay]
      exact horder

/-- What switching one display keeps, `set_displays` keeps. -/
theorem resubscribed_invariant {Inv : State α → Prop} {s : State α} (subscribed : List ℕ)
    (hswitch : ∀ s display enabled, Inv s → Inv (s.switched display enabled)) (hs : Inv s) :
    Inv (s.resubscribed subscribed) := by
  unfold State.resubscribed
  generalize List.finRange displays = order
  induction order generalizing s with
  | nil => exact hs
  | cons display order ih => exact ih (hswitch _ _ _ hs)

/-! ## Pop -/

/-- Two tracks that differ at most in their deficit. -/
def Track.SameButDeficit (t t' : Track) : Prop := { t' with deficit := t.deficit } = t

theorem Track.SameButDeficit.refl (t : Track) : t.SameButDeficit t := rfl

theorem Track.SameButDeficit.trans {t t' t'' : Track} (h : t.SameButDeficit t')
    (h' : t'.SameButDeficit t'') : t.SameButDeficit t'' := by
  unfold Track.SameButDeficit at *
  rw [← h, ← h']

theorem Track.SameButDeficit.fields {t t' : Track} (h : t.SameButDeficit t') :
    t'.stream = t.stream ∧ t'.enabled = t.enabled ∧ t'.recovering = t.recovering := by
  unfold Track.SameButDeficit at h
  rw [← h]
  exact ⟨rfl, rfl, rfl⟩

/-- The round robin has moved the cursor and spent or given credit. -/
structure State.Rotated (s s' : State α) : Prop where
  messages : s'.messages = s.messages
  bytes : s'.bytes = s.bytes
  fatal : s'.fatal = s.fatal
  tracks : ∀ display, (s.tracks display).SameButDeficit (s'.tracks display)

theorem State.Rotated.refl (s : State α) : s.Rotated s := ⟨rfl, rfl, rfl, fun _ => .refl _⟩

theorem State.Rotated.trans {s s' s'' : State α} (h : s.Rotated s') (h' : s'.Rotated s'') :
    s.Rotated s'' :=
  ⟨h'.messages.trans h.messages, h'.bytes.trans h.bytes, h'.fatal.trans h.fatal,
    fun display => (h.tracks display).trans (h'.tracks display)⟩

theorem rotated_setDeficit (s : State α) (display : Display) (deficit : ℕ) (cursor : Display)
    (continuing : Bool) :
    s.Rotated { s.setTrack display { s.tracks display with deficit := deficit } with
      cursor := cursor, continuing := continuing } where
  messages := rfl
  bytes := rfl
  fatal := rfl
  tracks := by
    intro other
    by_cases hother : other = display
    · subst hother
      simp [State.setTrack, Track.SameButDeficit]
    · simp [State.setTrack, hother, Track.SameButDeficit]

/-- Everything a visit can do. -/
inductive Visited (s : State α) (barrier : ℕ) : Option ℕ × State α → Prop
  | absent
      (hindex : (s.messages.take barrier).findIdx? (fun e => e.display == some s.cursor) = none) :
      Visited s barrier (none, { s.setTrack s.cursor { s.tracks s.cursor with deficit := 0 } with
        cursor := s.cursor + 1, continuing := false })
  | served {index : ℕ} {entry : Entry α}
      (hindex : (s.messages.take barrier).findIdx? (fun e => e.display == some s.cursor) =
        some index)
      (hentry : s.messages[index]? = some entry) (hcost : entry.bytes ≤ s.credit) :
      Visited s barrier (some index,
        { s.setTrack s.cursor { s.tracks s.cursor with deficit := s.credit - entry.bytes } with
          cursor := s.cursor, continuing := true })
  | unpaid {index : ℕ} {entry : Entry α}
      (hindex : (s.messages.take barrier).findIdx? (fun e => e.display == some s.cursor) =
        some index)
      (hentry : s.messages[index]? = some entry) (hcost : s.credit < entry.bytes) :
      Visited s barrier (none,
        { s.setTrack s.cursor { s.tracks s.cursor with deficit := s.credit } with
          cursor := s.cursor + 1, continuing := false })

/-- The entry a visit looks at is a frame of the visited display. -/
theorem display_of_findIdx? {s : State α} {barrier index : ℕ} {entry : Entry α}
    {display : Display}
    (hindex : (s.messages.take barrier).findIdx? (fun e => e.display == some display) = some index)
    (hentry : s.messages[index]? = some entry) : entry.display = some display := by
  obtain ⟨hlt, hfound, -⟩ := List.findIdx?_eq_some_iff_getElem.mp hindex
  rw [List.getElem_take] at hfound
  obtain ⟨_, rfl⟩ := List.getElem?_eq_some_iff.mp hentry
  simpa using hfound

theorem visit_visited (s : State α) (barrier : ℕ) : Visited s barrier (s.visit barrier) := by
  cases hindex : (s.messages.take barrier).findIdx? (fun e => e.display == some s.cursor) with
  | none =>
      have hvisit : s.visit barrier =
          (none, { s.setTrack s.cursor { s.tracks s.cursor with deficit := 0 } with
            cursor := s.cursor + 1, continuing := false }) := by
        unfold State.visit
        simp only [hindex]
        rfl
      rw [hvisit]
      exact .absent hindex
  | some index =>
      obtain ⟨hlt, -, -⟩ := List.findIdx?_eq_some_iff_getElem.mp hindex
      have hlength : index < s.messages.length := by
        rw [List.length_take] at hlt
        omega
      have hentry : s.messages[index]? = some s.messages[index] := List.getElem?_eq_getElem hlength
      have hvisit : s.visit barrier =
          if s.messages[index].bytes ≤ s.credit then
            (some index, { s.setTrack s.cursor { s.tracks s.cursor with
                deficit := s.credit - s.messages[index].bytes } with
              cursor := s.cursor, continuing := true })
          else (none, { s.setTrack s.cursor { s.tracks s.cursor with deficit := s.credit } with
              cursor := s.cursor + 1, continuing := false }) := by
        unfold State.visit
        simp only [hindex, hentry, Option.map_some, Option.getD_some]
        rfl
      rw [hvisit]
      split
      · next hcost => exact .served hindex hentry hcost
      · next hcost => exact .unpaid hindex hentry (Nat.lt_of_not_le hcost)

/-- A visit rotates; an entry it picks is the first one of the visited display
in front of the barrier. -/
theorem visit_rotated (s : State α) (barrier : ℕ) :
    s.Rotated (s.visit barrier).2 ∧ ∀ index, (s.visit barrier).1 = some index →
      (s.messages.take barrier).findIdx? (fun e => e.display == some s.cursor) = some index := by
  have hvisited := visit_visited s barrier
  generalize s.visit barrier = result at hvisited ⊢
  cases hvisited with
  | absent => exact ⟨rotated_setDeficit s s.cursor _ _ _, nofun⟩
  | served hindex =>
      refine ⟨rotated_setDeficit s s.cursor _ _ _, fun index hpicked => ?_⟩
      rw [← hpicked]
      exact hindex
  | unpaid => exact ⟨rotated_setDeficit s s.cursor _ _ _, nofun⟩

/-- Everything `pop` can do: nothing, or serve one entry. -/
inductive Popped (s : State α) : Option (Queued α) → State α → Prop
  | idle {s' : State α} (hrotated : s.Rotated s') : Popped s none s'
  /-- Nothing in front of a served barrier, and only frames of other displays in
  front of a served frame. -/
  | served {before after : List (Entry α)} {entry : Entry α} {rotated : State α}
      (hsplit : s.messages = before ++ entry :: after)
      (hbarrier : entry.display = none → before = [])
      (hbefore : ∀ e ∈ before, e.display ≠ none ∧ e.display ≠ entry.display)
      (hrotated : s.Rotated rotated) :
      Popped s (some entry.item) (rotated.withMessages (before ++ after))

/-- The first entry of a display in front of the barrier, with what precedes it. -/
theorem split_of_findIdx? {s : State α} {display : Display} {index : ℕ}
    (hindex : (s.messages.take s.barrier).findIdx? (fun e => e.display == some display) =
      some index) :
    ∃ before entry after, s.messages = before ++ entry :: after ∧ before.length = index ∧
      entry.display = some display ∧
      ∀ e ∈ before, e.display ≠ none ∧ e.display ≠ some display := by
  obtain ⟨hlt, hfound, hearlier⟩ := List.findIdx?_eq_some_iff_getElem.mp hindex
  have hlength : index < s.messages.length := by
    rw [List.length_take] at hlt
    omega
  have hbarrier : index < s.barrier := by
    rw [List.length_take] at hlt
    omega
  refine ⟨s.messages.take index, s.messages[index], s.messages.drop (index + 1), ?_, ?_, ?_, ?_⟩
  · rw [← List.drop_eq_getElem_cons hlength, List.take_append_drop]
  · rw [List.length_take]
    omega
  · simpa using hfound
  · intro e he
    obtain ⟨j, hj, rfl⟩ := List.mem_iff_getElem.mp he
    rw [List.length_take] at hj
    have hjindex : j < index := by omega
    constructor
    · -- an entry without a display at `j` would be a barrier before `index`
      intro hnone
      rw [List.getElem_take] at hnone
      unfold State.barrier at hbarrier
      cases hfind : s.messages.findIdx? (fun e => e.display.isNone) with
      | none =>
          have := List.findIdx?_eq_none_iff.mp hfind s.messages[j] (List.getElem_mem _)
          simp [hnone] at this
      | some first =>
          obtain ⟨_, _, hfirst⟩ := List.findIdx?_eq_some_iff_getElem.mp hfind
          rw [hfind, Option.getD_some] at hbarrier
          have := hfirst j (by omega)
          simp [hnone] at this
    · have := hearlier j hjindex
      rw [List.getElem_take] at this ⊢
      simpa using this

theorem barrier_congr {s s' : State α} (h : s'.messages = s.messages) :
    s'.barrier = s.barrier := by
  unfold State.barrier
  rw [h]

theorem State.Rotated.byteExact {s s' : State α} (h : s.Rotated s') (hexact : s.ByteExact) :
    s'.ByteExact := by
  unfold State.ByteExact
  rw [h.bytes, h.messages]
  exact hexact

theorem State.Rotated.popped {s s' : State α} {item : Option (Queued α)} {last : State α}
    (h : s.Rotated s') (hpopped : Popped s' item last) : Popped s item last := by
  cases hpopped with
  | idle hrotated => exact .idle (h.trans hrotated)
  | served hsplit hbarrier hbefore hrotated =>
      exact .served (h.messages ▸ hsplit) hbarrier hbefore (h.trans hrotated)

theorem popLoop_returns (rounds : ℕ) :
    ∀ s : State α, s.ByteExact → ∃ item s', State.popLoop s.barrier rounds s = some (item, s') ∧
      Popped s item s' := by
  induction rounds with
  | zero => exact fun s _ => ⟨none, s, rfl, .idle (.refl s)⟩
  | succ rounds ih =>
      intro s hexact
      obtain ⟨hrotated, hpicked⟩ := visit_rotated s s.barrier
      cases hvisit : s.visit s.barrier with
      | mk picked next =>
          rw [hvisit] at hrotated hpicked
          cases picked with
          | some index =>
              obtain ⟨before, entry, after, hsplit, rfl, hdisplay, hbefore⟩ :=
                split_of_findIdx? (hpicked index rfl)
              have hremove := remove_of_split (hrotated.byteExact hexact)
                (hrotated.messages.trans hsplit)
              refine ⟨some entry.item, next.withMessages (before ++ after), ?_,
                .served hsplit (by simp [hdisplay]) (hdisplay ▸ hbefore) hrotated⟩
              simp [State.popLoop, hvisit, hremove]
          | none =>
              obtain ⟨item, s', hloop, hpopped⟩ := ih next (hrotated.byteExact hexact)
              rw [barrier_congr hrotated.messages] at hloop
              exact ⟨item, s', by simp [State.popLoop, hvisit, hloop], hrotated.popped hpopped⟩

/-- `pop` returns, in one of the ways of `Popped`. -/
theorem pop_returns {s : State α} (hexact : s.ByteExact) :
    ∃ item s', s.pop = some (item, s') ∧ Popped s item s' := by
  unfold State.pop
  by_cases hfront : s.messages.head?.any (fun entry => entry.display.isNone) = true
  · obtain ⟨entry, after, hmessages⟩ : ∃ entry after, s.messages = entry :: after := by
      cases hmessages : s.messages with
      | nil => simp [hmessages] at hfront
      | cons entry after => exact ⟨entry, after, rfl⟩
    have hsplit : s.messages = [] ++ entry :: after := hmessages
    have hremove := remove_of_split hexact hsplit
    refine ⟨some entry.item, s.withMessages ([] ++ after), ?_,
      .served hsplit (fun _ => rfl) (by simp) (.refl s)⟩
    rw [if_pos hfront]
    simp only [List.length_nil] at hremove
    simp [hremove]
  · rw [if_neg hfront]
    split
    · exact ⟨none, s, rfl, .idle (.refl s)⟩
    · exact popLoop_returns popRounds s hexact

end RustAdmin.VideoQueue
