import RustAdmin.Clipboard.FileContents
import RustAdmin.Support.Run

/-!
# Reading a pasted file

`FuseServer::read_node` (`platform/unix/fuse/cs.rs`) sends a request to the peer
and waits on one channel for the response.  A response names only the stream of
its file, and the channel outlives a read that timed out.

The condition is kept as an invariant of the system, not of one read: `Fresh` says
that while a read is in progress, whatever is unanswered or unread on its stream
belongs to the read itself.  Its one hard case is the call that starts a read, which
is where `FreshStep` is used; all other steps only take requests and replies away or
add those of the read (`not_stale_of_subset`).  `Fresh.answer_of_returned` reads the
result off.
-/

namespace RustAdmin.Clipboard

open RustAdmin.Support

def readRetry : ℕ := 3

/-- The messages on the reply channel. -/
inductive ClipboardFile
  | fileContentsResponse (msgFlags streamId : ℤ) (requestedData : List UInt8)
  | other
deriving DecidableEq, Repr

/-- The errors `read_node` returns. -/
inductive ReadError
  | sendFailed
  | timedOut
  | failureRequest
  | invalidReply
deriving DecidableEq, Repr

abbrev ReadResult := Except ReadError (List UInt8)

/-- What `read_node` does with a reply: wait on, send its request again, return. -/
inductive Outcome
  | ignored
  | resend (retryTimes : ℕ)
  | returned (result : ReadResult)

/-- The body of the loop of `read_node`, for a received reply. -/
def FuseNode.onReply (node : FuseNode) (retryTimes : ℕ) : ClipboardFile → Outcome
  | .fileContentsResponse msgFlags streamId requestedData =>
      if streamId ≠ node.streamId then .ignored
      else if msgFlags % 2 = 0 then
        if readRetry < retryTimes + 1 then .returned (.error .failureRequest)
        else .resend (retryTimes + 1)
      else .returned (.ok requestedData)
  | .other => .returned (.error .invalidReply)

/-- A payload is returned from a reply of the node's own stream. -/
theorem onReply_eq_ok {node : FuseNode} {retryTimes : ℕ} {reply : ClipboardFile}
    {requestedData : List UInt8}
    (h : node.onReply retryTimes reply = .returned (.ok requestedData)) :
    ∃ msgFlags, reply = .fileContentsResponse msgFlags node.streamId requestedData := by
  cases reply with
  | other => simp [FuseNode.onReply] at h
  | fileContentsResponse msgFlags streamId data =>
      unfold FuseNode.onReply at h
      dsimp only at h
      split at h
      · simp at h
      · next hstream =>
          obtain rfl : streamId = node.streamId := not_not.mp hstream
          split at h
          · -- a failure is retried or returned as an error
            split at h <;> simp at h
          · obtain rfl : data = requestedData := by simpa using h
            exact ⟨msgFlags, rfl⟩

/-! ## The reader, the channel and the peer -/

/-- A call of `read_node`, and the request that it sends. -/
structure Read where
  node : FuseNode
  offset : ℤ
  size : ℕ
deriving DecidableEq, Repr

/-- A message on the channel, with the request it answers. -/
structure Delivered where
  origin : Read
  reply : ClipboardFile

/-- The read in progress with its `retry_times`, the reply channel, and the
requests that the peer has not answered yet. -/
structure FuseSystem where
  reading : Option (Read × ℕ)
  rx : List Delivered
  unanswered : List Read

def FuseSystem.start : FuseSystem := ⟨none, [], []⟩

/-- A call whose first request is sent or not; an answer of the peer; one turn
of the loop, whose repeated request is sent or not, with what the call returned. -/
inductive ReadEvent
  | call (read : Read) (sent : Bool)
  | answer (read : Read) (msgFlags : ℤ) (requestedData : List UInt8)
  | receive (read : Read) (sent : Bool) (result : Option ReadResult)

/-- One turn of the loop of `read_node`: `recv_timeout` takes the first reply, or
times out on an empty channel. -/
def FuseSystem.receive (s : FuseSystem) (read : Read) (retryTimes : ℕ) (sent : Bool) :
    Option ReadResult × FuseSystem :=
  match s.rx with
  | [] => (some (.error .timedOut), { s with reading := none })
  | delivered :: rx =>
      match read.node.onReply retryTimes delivered.reply with
      | .ignored => (none, { s with rx := rx })
      | .resend retryTimes =>
          if sent then
            (none, { reading := some (read, retryTimes), rx := rx,
                     unanswered := s.unanswered ++ [read] })
          else (some (.error .sendFailed), { s with reading := none, rx := rx })
      | .returned result => (some result, { s with reading := none, rx := rx })

inductive ReadStep : FuseSystem → ReadEvent → FuseSystem → Prop
  | call {s : FuseSystem} {read : Read} (hidle : s.reading = none) :
      ReadStep s (.call read true)
        { s with reading := some (read, 0), unanswered := s.unanswered ++ [read] }
  | callFailed {s : FuseSystem} {read : Read} (hidle : s.reading = none) :
      ReadStep s (.call read false) s
  /-- The peer answers a request, with the stream id of the request. -/
  | answer {s : FuseSystem} {read : Read} {msgFlags : ℤ} {requestedData : List UInt8}
      (hrequest : read ∈ s.unanswered) :
      ReadStep s (.answer read msgFlags requestedData)
        { s with
          unanswered := s.unanswered.erase read
          rx := s.rx ++
            [⟨read, .fileContentsResponse msgFlags read.node.streamId requestedData⟩] }
  | receive {s s' : FuseSystem} {read : Read} {retryTimes : ℕ} {sent : Bool}
      {result : Option ReadResult} (hreading : s.reading = some (read, retryTimes))
      (hreceive : s.receive read retryTimes sent = (result, s')) :
      ReadStep s (.receive read sent result) s'

/-! ## Own answers -/

/-- What a read returns is the payload of an answer to a request for the same
node, offset and size. -/
def OwnAnswer (before : List ReadEvent) : ReadEvent → Prop
  | .receive read _ (some (.ok requestedData)) =>
      ∃ msgFlags, .answer read msgFlags requestedData ∈ before
  | _ => True

/-- A request for something else under the stream id of the read is unanswered,
or its answer is still unread. -/
def FuseSystem.Stale (s : FuseSystem) (read : Read) : Prop :=
  ∃ other, (other ∈ s.unanswered ∨ ∃ delivered ∈ s.rx, delivered.origin = other) ∧
    other.node.streamId = read.node.streamId ∧ other ≠ read

/-- A step that starts no read while a request of its stream is left over. -/
def FreshStep (s : FuseSystem) (event : ReadEvent) (s' : FuseSystem) : Prop :=
  ReadStep s event s' ∧ ∀ read, event = .call read true → ¬ s.Stale read

/-- Replies carry the stream of the request they answer, and nothing is left
over for the read in progress. -/
structure FuseSystem.Fresh (events : List ReadEvent) (s : FuseSystem) : Prop where
  answered : ∀ delivered ∈ s.rx, ∃ msgFlags requestedData,
    delivered.reply =
        .fileContentsResponse msgFlags delivered.origin.node.streamId requestedData ∧
      .answer delivered.origin msgFlags requestedData ∈ events
  fresh : ∀ read retryTimes, s.reading = some (read, retryTimes) → ¬ s.Stale read

theorem initial_fresh : FuseSystem.start.Fresh [] where
  answered := by simp [FuseSystem.start]
  fresh := by simp [FuseSystem.start]

/-- The replies left in the channel stay answers after one more event. -/
theorem FuseSystem.Fresh.answered_append {events : List ReadEvent} {s : FuseSystem}
    (h : s.Fresh events) {rx : List Delivered} (hrx : rx ⊆ s.rx) (event : ReadEvent) :
    ∀ delivered ∈ rx, ∃ msgFlags requestedData,
      delivered.reply =
          .fileContentsResponse msgFlags delivered.origin.node.streamId requestedData ∧
        .answer delivered.origin msgFlags requestedData ∈ events ++ [event] := by
  intro delivered hdelivered
  obtain ⟨msgFlags, requestedData, hreply, hanswer⟩ := h.answered delivered (hrx hdelivered)
  exact ⟨msgFlags, requestedData, hreply, List.mem_append_left _ hanswer⟩

/-- What a read returns answers the read itself: nothing else of its stream is
left in the channel. -/
theorem FuseSystem.Fresh.answer_of_returned {events : List ReadEvent} {s : FuseSystem}
    (h : s.Fresh events) {read : Read} {retryTimes : ℕ} {delivered : Delivered}
    {requestedData : List UInt8} (hown : ¬ s.Stale read) (hmem : delivered ∈ s.rx)
    (hreturned :
      read.node.onReply retryTimes delivered.reply = .returned (.ok requestedData)) :
    ∃ msgFlags, .answer read msgFlags requestedData ∈ events := by
  obtain ⟨msgFlags, hreply⟩ := onReply_eq_ok hreturned
  obtain ⟨sentFlags, sentData, hsent, hanswer⟩ := h.answered delivered hmem
  obtain ⟨-, hstream, rfl⟩ : sentFlags = msgFlags ∧
      delivered.origin.node.streamId = read.node.streamId ∧ sentData = requestedData := by
    simpa using hsent.symm.trans hreply
  have horigin : delivered.origin = read := by
    by_contra hne
    exact hown ⟨delivered.origin, .inr ⟨delivered, hmem, rfl⟩, hstream, hne⟩
  exact ⟨sentFlags, horigin ▸ hanswer⟩

/-- Fewer requests and replies, and requests of the read itself, leave nothing
over for it. -/
theorem not_stale_of_subset {s s' : FuseSystem} {read : Read} (h : ¬ s.Stale read)
    (hunanswered : ∀ other ∈ s'.unanswered, other = read ∨ other ∈ s.unanswered)
    (hrx : ∀ delivered ∈ s'.rx, delivered.origin = read ∨ delivered.origin ∈ s.unanswered ∨
      delivered ∈ s.rx) : ¬ s'.Stale read := by
  rintro ⟨other, hother, hstream, hne⟩
  refine h ⟨other, ?_, hstream, hne⟩
  rcases hother with hother | ⟨delivered, hdelivered, rfl⟩
  · rcases hunanswered other hother with heq | hmem
    · exact absurd heq hne
    · exact .inl hmem
  · rcases hrx delivered hdelivered with heq | hmem | hmem
    · exact absurd heq hne
    · exact .inl hmem
    · exact .inr ⟨delivered, hmem, rfl⟩

theorem call_fresh {events : List ReadEvent} {s : FuseSystem} {read : Read}
    (h : s.Fresh events) (hstale : ¬ s.Stale read) :
    FuseSystem.Fresh (events ++ [.call read true])
      { s with reading := some (read, 0), unanswered := s.unanswered ++ [read] } where
  answered := h.answered_append (List.Subset.refl _) _
  fresh := by
    intro other retryTimes hreading
    obtain ⟨rfl, -⟩ : read = other ∧ 0 = retryTimes := by simpa using hreading
    refine not_stale_of_subset hstale (fun other hother => ?_) fun _ hmem => .inr (.inr hmem)
    simpa [or_comm] using hother

theorem answer_fresh {events : List ReadEvent} {s : FuseSystem} {read : Read} {msgFlags : ℤ}
    {requestedData : List UInt8} (h : s.Fresh events) (hrequest : read ∈ s.unanswered) :
    FuseSystem.Fresh (events ++ [.answer read msgFlags requestedData])
      { s with
        unanswered := s.unanswered.erase read
        rx := s.rx ++
          [⟨read, .fileContentsResponse msgFlags read.node.streamId requestedData⟩] } where
  answered := by
    intro delivered hdelivered
    rcases List.mem_append.mp hdelivered with hold | hnew
    · exact h.answered_append (List.Subset.refl _) _ delivered hold
    · rw [List.mem_singleton.mp hnew]
      exact ⟨msgFlags, requestedData, rfl, by simp⟩
  fresh := by
    intro other retryTimes hreading
    refine not_stale_of_subset (h.fresh other retryTimes hreading)
      (fun _ hmem => .inr (List.mem_of_mem_erase hmem)) fun delivered hdelivered => ?_
    rcases List.mem_append.mp hdelivered with hold | hnew
    · exact .inr (.inr hold)
    · rw [List.mem_singleton.mp hnew]
      exact .inr (.inl hrequest)

/-- One turn of the loop keeps the state fresh, and returns an own answer. -/
theorem receive_fresh {events : List ReadEvent} {s s' : FuseSystem} {read : Read}
    {retryTimes : ℕ} {sent : Bool} {result : Option ReadResult} (h : s.Fresh events)
    (hreading : s.reading = some (read, retryTimes))
    (hreceive : s.receive read retryTimes sent = (result, s')) :
    s'.Fresh (events ++ [.receive read sent result]) ∧
      OwnAnswer events (.receive read sent result) := by
  have hown := h.fresh read retryTimes hreading
  unfold FuseSystem.receive at hreceive
  cases hrx : s.rx with
  | nil =>
      rw [hrx] at hreceive
      obtain ⟨rfl, rfl⟩ := Prod.mk.inj hreceive
      exact ⟨⟨h.answered_append (List.nil_subset _) _, by simp⟩, trivial⟩
  | cons delivered rx =>
      have hsubset : rx ⊆ s.rx := hrx ▸ List.subset_cons_self _ _
      rw [hrx] at hreceive
      dsimp only at hreceive
      cases houtcome : read.node.onReply retryTimes delivered.reply with
      | ignored =>
          rw [houtcome] at hreceive
          obtain ⟨rfl, rfl⟩ := Prod.mk.inj hreceive
          refine ⟨⟨h.answered_append hsubset _, fun other retries hother => ?_⟩, trivial⟩
          refine not_stale_of_subset (h.fresh other retries hother) (fun _ => .inr)
            fun _ hmem => .inr (.inr (hsubset hmem))
      | resend retries =>
          rw [houtcome] at hreceive
          cases sent with
          | false =>
              obtain ⟨rfl, rfl⟩ := Prod.mk.inj hreceive
              exact ⟨⟨h.answered_append hsubset _, by simp⟩, trivial⟩
          | true =>
              obtain ⟨rfl, rfl⟩ := Prod.mk.inj hreceive
              refine ⟨⟨h.answered_append hsubset _, fun other retries' hother => ?_⟩, trivial⟩
              obtain ⟨rfl, -⟩ : read = other ∧ retries = retries' := by simpa using hother
              refine not_stale_of_subset hown (fun r hr => ?_)
                fun _ hmem => .inr (.inr (hsubset hmem))
              simpa [or_comm] using hr
      | returned answer =>
          rw [houtcome] at hreceive
          obtain ⟨rfl, rfl⟩ := Prod.mk.inj hreceive
          refine ⟨⟨h.answered_append hsubset _, by simp⟩, ?_⟩
          cases answer with
          | error => trivial
          | ok requestedData =>
              exact h.answer_of_returned hown (hrx ▸ List.mem_cons_self) houtcome

/-- **Own answers.**  In every run that starts no read while a request or reply
of its stream is left over from another one, every read returns the answer to
its own request. -/
theorem reads_own_answers {events : List ReadEvent} {s : FuseSystem}
    (run : Run FreshStep FuseSystem.start events s) : Always OwnAnswer events := by
  have hboth : s.Fresh events ∧ Always OwnAnswer events := by
    refine run.invariant (fun events s => s.Fresh events ∧ Always OwnAnswer events)
      ⟨initial_fresh, always_nil⟩ ?_
    rintro events s event s' ⟨hfresh, halways⟩ ⟨step, hcall⟩
    rw [always_concat]
    cases step with
    | call => exact ⟨call_fresh hfresh (hcall _ rfl), halways, trivial⟩
    | callFailed =>
        exact ⟨⟨hfresh.answered_append (List.Subset.refl _) _, hfresh.fresh⟩, halways, trivial⟩
    | answer hrequest => exact ⟨answer_fresh hfresh hrequest, halways, trivial⟩
    | receive hreading hreceive =>
        obtain ⟨hnext, hanswer⟩ := receive_fresh hfresh hreading hreceive
        exact ⟨hnext, halways, hanswer⟩
  exact hboth.2

/-- A read of the first file, at an offset. -/
def firstFileRead (offset : ℤ) : Read := ⟨⟨1, 7, 0⟩, offset, 2⟩

/-- A read of the second file, which has a stream of its own. -/
def secondFileRead : Read := ⟨⟨1, 8, 1⟩, 0, 2⟩

/-- A read times out; its answer comes while the other file is read, and is ignored. -/
def lateOtherAnswer : List ReadEvent :=
  [.call (firstFileRead 0) true] ++ [.receive (firstFileRead 0) true (some (.error .timedOut))] ++
    [.call secondFileRead true] ++ [.answer (firstFileRead 0) 1 [10, 11]] ++
    [.answer secondFileRead 1 [20, 21]] ++ [.receive secondFileRead true none] ++
    [.receive secondFileRead true (some (.ok [20, 21]))]

theorem reads_own_answers_lateOther : Always OwnAnswer lateOtherAnswer := by
  have hcall : FreshStep .start (.call (firstFileRead 0) true)
      ⟨some (firstFileRead 0, 0), [], [firstFileRead 0]⟩ := by
    refine ⟨.call rfl, fun read _ hstale => ?_⟩
    obtain ⟨other, hother, -⟩ := hstale
    simp [FuseSystem.start] at hother
  have htimeout : FreshStep ⟨some (firstFileRead 0, 0), [], [firstFileRead 0]⟩
      (.receive (firstFileRead 0) true (some (.error .timedOut)))
      ⟨none, [], [firstFileRead 0]⟩ := ⟨.receive rfl rfl, nofun⟩
  -- the request that is left over is of the other stream
  have hsecond : FreshStep ⟨none, [], [firstFileRead 0]⟩ (.call secondFileRead true)
      ⟨some (secondFileRead, 0), [], [firstFileRead 0, secondFileRead]⟩ := by
    refine ⟨.call rfl, ?_⟩
    rintro read hread ⟨other, hother, hstream, -⟩
    obtain ⟨rfl, -⟩ := ReadEvent.call.inj hread
    obtain rfl : other = firstFileRead 0 := by simpa using hother
    exact absurd hstream (by decide)
  have hlate : FreshStep ⟨some (secondFileRead, 0), [], [firstFileRead 0, secondFileRead]⟩
      (.answer (firstFileRead 0) 1 [10, 11])
      ⟨some (secondFileRead, 0), [⟨firstFileRead 0, .fileContentsResponse 1 7 [10, 11]⟩],
        [secondFileRead]⟩ := ⟨.answer List.mem_cons_self, nofun⟩
  have hanswer : FreshStep
      ⟨some (secondFileRead, 0), [⟨firstFileRead 0, .fileContentsResponse 1 7 [10, 11]⟩],
        [secondFileRead]⟩
      (.answer secondFileRead 1 [20, 21])
      ⟨some (secondFileRead, 0), [⟨firstFileRead 0, .fileContentsResponse 1 7 [10, 11]⟩,
        ⟨secondFileRead, .fileContentsResponse 1 8 [20, 21]⟩], []⟩ :=
    ⟨.answer List.mem_cons_self, nofun⟩
  have hignore : FreshStep
      ⟨some (secondFileRead, 0), [⟨firstFileRead 0, .fileContentsResponse 1 7 [10, 11]⟩,
        ⟨secondFileRead, .fileContentsResponse 1 8 [20, 21]⟩], []⟩
      (.receive secondFileRead true none)
      ⟨some (secondFileRead, 0), [⟨secondFileRead, .fileContentsResponse 1 8 [20, 21]⟩], []⟩ :=
    ⟨.receive rfl rfl, nofun⟩
  have hreceive : FreshStep
      ⟨some (secondFileRead, 0), [⟨secondFileRead, .fileContentsResponse 1 8 [20, 21]⟩], []⟩
      (.receive secondFileRead true (some (.ok [20, 21]))) ⟨none, [], []⟩ :=
    ⟨.receive rfl rfl, nofun⟩
  have hasked := ((Run.single hcall).snoc htimeout).snoc hsecond
  exact reads_own_answers ((((hasked.snoc hlate).snoc hanswer).snoc hignore).snoc hreceive)

/-- A read times out, the next read of the file is sent, and the answer to the
first one arrives. -/
def lateAnswer : List ReadEvent :=
  [.call (firstFileRead 0) true] ++ [.receive (firstFileRead 0) true (some (.error .timedOut))] ++
    [.call (firstFileRead 2) true] ++ [.answer (firstFileRead 0) 1 [10, 11]] ++
    [.receive (firstFileRead 2) true (some (.ok [10, 11]))]

/-- The late answer is returned to the second read. -/
theorem lateAnswer_not_own :
    (∃ s, Run ReadStep FuseSystem.start lateAnswer s) ∧ ¬ Always OwnAnswer lateAnswer := by
  constructor
  · have hfirst : ReadStep .start (.call (firstFileRead 0) true)
        ⟨some (firstFileRead 0, 0), [], [firstFileRead 0]⟩ := .call rfl
    have htimeout : ReadStep ⟨some (firstFileRead 0, 0), [], [firstFileRead 0]⟩
        (.receive (firstFileRead 0) true (some (.error .timedOut)))
        ⟨none, [], [firstFileRead 0]⟩ := .receive rfl rfl
    have hsecond : ReadStep ⟨none, [], [firstFileRead 0]⟩ (.call (firstFileRead 2) true)
        ⟨some (firstFileRead 2, 0), [], [firstFileRead 0, firstFileRead 2]⟩ := .call rfl
    have hanswer : ReadStep ⟨some (firstFileRead 2, 0), [], [firstFileRead 0, firstFileRead 2]⟩
        (.answer (firstFileRead 0) 1 [10, 11])
        ⟨some (firstFileRead 2, 0), [⟨firstFileRead 0, .fileContentsResponse 1 7 [10, 11]⟩],
          [firstFileRead 2]⟩ := .answer List.mem_cons_self
    have hreceive : ReadStep
        ⟨some (firstFileRead 2, 0), [⟨firstFileRead 0, .fileContentsResponse 1 7 [10, 11]⟩],
          [firstFileRead 2]⟩
        (.receive (firstFileRead 2) true (some (.ok [10, 11])))
        ⟨none, [], [firstFileRead 2]⟩ := .receive rfl rfl
    exact ⟨_, ((((Run.single hfirst).snoc htimeout).snoc hsecond).snoc hanswer).snoc hreceive⟩
  · intro halways
    obtain ⟨msgFlags, hmem⟩ := (always_concat.mp halways).2
    simp [firstFileRead] at hmem

end RustAdmin.Clipboard
