import RustAdmin.Support.Run
import RustAdmin.Terminal.OutputBuffer

/-!
# Reconnecting to a terminal session

`handle_open`, `reset_status` and `read_outputs` in
`src/src/server/terminal_service.rs`, for one session.  Its output waits in a
channel until a poll drains it into the output buffer; an active session also
sends it, behind the replay that `handle_open` left in the pending buffer.

What was drained and what was sent are read off the events.  `Streaming` is the state
after an open: before the first poll that serves the session its replay is pending and
nothing was sent, afterwards the replay and all that was drained since.  One poll
keeps it (`streaming_poll`), and the run goes up to the next boundary
(`run_streaming`).
-/

namespace RustAdmin.Terminal

open RustAdmin.Support

def channelBufferSize : ℕ := 500
def compressThreshold : ℕ := 512
def defaultReconnectBufferBytes : ℕ := 8 * 1024
def maxSigwinchPhaseAttempts : ℕ := 3

/-! ## Session state -/

inductive SigwinchPhase
  | tempResize (retries : ℕ)
  | restore (retries : ℕ)
  | idle
deriving DecidableEq, Repr

inductive SessionState
  | closed
  | active (pendingBuffer : Option (List UInt8)) (sigwinch : SigwinchPhase)
deriving DecidableEq, Repr

structure Session where
  outputRx : List (List UInt8)
  outputBuffer : OutputBuffer
  state : SessionState
deriving DecidableEq, Repr

structure TerminalData where
  terminalId : ℤ
  data : List UInt8
  compressed : Bool
deriving DecidableEq, Repr

/-- The phase after a poll; `resizeOk` tells whether the resize it asks for succeeds. -/
def SigwinchPhase.next (resizeOk : Bool) : SigwinchPhase → SigwinchPhase
  | .tempResize 0 => .idle
  | .tempResize (retries + 1) =>
      if resizeOk then .restore maxSigwinchPhaseAttempts else .tempResize retries
  | .restore 0 => .idle
  | .restore (retries + 1) => if resizeOk then .idle else .restore retries
  | .idle => .idle

/-- `handle_open`: a new session, or a reconnect to an existing one. -/
def handleOpen : Option Session → Session
  | none => { outputRx := [], outputBuffer := .new, state := .active none .idle }
  | some session =>
      let buffer := session.outputBuffer.getRecent defaultReconnectBufferBytes
      { session with
        state := .active (if buffer.isEmpty then none else some buffer)
          (.tempResize maxSigwinchPhaseAttempts) }

/-- `reset_status`. -/
def Session.resetStatus (session : Session) : Session := { session with state := .closed }

/-- The reader thread's `try_send`: a chunk is dropped where the channel is full. -/
def Session.trySendOutput (session : Session) (data : List UInt8) : Session :=
  if session.outputRx.length < channelBufferSize then
    { session with outputRx := session.outputRx ++ [data] }
  else session

/-! ## Polls -/

section Poll

variable (compress decompress : List UInt8 → List UInt8)

def createTerminalDataResponse (terminalId : ℤ) (data : List UInt8) : TerminalData :=
  if compressThreshold < data.length ∧ (compress data).length < data.length then
    ⟨terminalId, compress data, true⟩
  else ⟨terminalId, data, false⟩

/-- The output a client reads from a response. -/
def TerminalData.payload (response : TerminalData) : List UInt8 :=
  if response.compressed then decompress response.data else response.data

/-- What is sent of a pending buffer. -/
def replayed : Option (List UInt8) → List (List UInt8)
  | some buffer => if buffer.isEmpty then [] else [buffer]
  | none => []

/-- `read_outputs` for a session whose lock it gets. -/
def Session.readOutputs (session : Session) (terminalId : ℤ) (resizeOk : Bool) :
    Except Fault (List TerminalData × Session) := do
  let receivedData := session.outputRx
  let outputBuffer ← session.outputBuffer.appendAll receivedData
  match session.state with
  | .closed => .ok ([], { outputRx := [], outputBuffer := outputBuffer, state := .closed })
  | .active pendingBuffer sigwinch =>
      .ok ((replayed pendingBuffer ++ receivedData).map
          (createTerminalDataResponse compress terminalId),
        { outputRx := [], outputBuffer := outputBuffer,
          state := .active none (sigwinch.next resizeOk) })

theorem payload_createTerminalDataResponse (hlossless : ∀ data, decompress (compress data) = data)
    (terminalId : ℤ) (data : List UInt8) :
    (createTerminalDataResponse compress terminalId data).payload decompress = data := by
  unfold createTerminalDataResponse
  split
  · exact hlossless data
  · rfl

end Poll

/-! ## Runs of one session -/

/-- A poll carries the chunks it drained and the data responses it sent; one that
does not get the lock of the session is skipped. -/
inductive Event
  | handleOpen
  | resetStatus
  | chunk (data : List UInt8)
  | poll (drained : List (List UInt8)) (sent : List TerminalData)
  | skippedPoll

inductive Step (compress : List UInt8 → List UInt8) : Option Session → Event → Option Session → Prop
  | handleOpen {session : Option Session} :
      Step compress session .handleOpen (some (handleOpen session))
  | resetStatus {session : Session} :
      Step compress (some session) .resetStatus (some session.resetStatus)
  | chunk {session : Session} {data : List UInt8} :
      Step compress (some session) (.chunk data) (some (session.trySendOutput data))
  | poll {session next : Session} {sent : List TerminalData} {terminalId : ℤ} {resizeOk : Bool}
      (hcall : session.readOutputs compress terminalId resizeOk = .ok (sent, next)) :
      Step compress (some session) (.poll session.outputRx sent) (some next)
  | skippedPoll {session : Option Session} : Step compress session .skippedPoll session

@[simp] def Event.drained : Event → List (List UInt8)
  | .poll drained _ => drained
  | _ => []

@[simp] def Event.sent : Event → List TerminalData
  | .poll _ sent => sent
  | _ => []

@[simp] def Event.isPoll : Event → Bool
  | .poll _ _ => true
  | _ => false

/-- The events that end the interval of an open. -/
@[simp] def Event.isBoundary : Event → Bool
  | .handleOpen | .resetStatus => true
  | _ => false

/-- The chunks that polls drained from the channel. -/
def drained (events : List Event) : List (List UInt8) := events.flatMap Event.drained

/-- The data responses that polls sent. -/
def sent (events : List Event) : List TerminalData := events.flatMap Event.sent

@[simp] theorem drained_append (events more : List Event) :
    drained (events ++ more) = drained events ++ drained more := List.flatMap_append

@[simp] theorem sent_append (events more : List Event) :
    sent (events ++ more) = sent events ++ sent more := List.flatMap_append

@[simp] theorem drained_single (event : Event) : drained [event] = event.drained := by
  simp only [drained, List.flatMap_singleton]

@[simp] theorem sent_single (event : Event) : sent [event] = event.sent := by
  simp only [sent, List.flatMap_singleton]

/-- What `read_outputs` does to a session. -/
theorem readOutputs_eq_ok {compress : List UInt8 → List UInt8} {session next : Session}
    {terminalId : ℤ} {resizeOk : Bool} {sent : List TerminalData}
    (h : session.readOutputs compress terminalId resizeOk = .ok (sent, next)) :
    session.outputBuffer.appendAll session.outputRx = .ok next.outputBuffer ∧
      ∀ pendingBuffer sigwinch, session.state = .active pendingBuffer sigwinch →
        sent = (replayed pendingBuffer ++ session.outputRx).map
            (createTerminalDataResponse compress terminalId) ∧
          next.state = .active none (sigwinch.next resizeOk) := by
  unfold Session.readOutputs at h
  cases happend : session.outputBuffer.appendAll session.outputRx with
  | error fault => simp [happend, bind, Except.bind] at h
  | ok buffer =>
      cases hstate : session.state with
      | closed =>
          simp only [happend, hstate, bind, Except.bind, Except.ok.injEq, Prod.mk.injEq] at h
          obtain ⟨rfl, rfl⟩ := h
          exact ⟨rfl, by simp⟩
      | active pendingBuffer sigwinch =>
          simp only [happend, hstate, bind, Except.bind, Except.ok.injEq, Prod.mk.injEq] at h
          obtain ⟨rfl, rfl⟩ := h
          refine ⟨rfl, fun pending phase hactive => ?_⟩
          obtain ⟨rfl, rfl⟩ : pendingBuffer = pending ∧ sigwinch = phase := by simpa using hactive
          exact ⟨rfl, rfl⟩

theorem appendAll_append (b : OutputBuffer) (first second : List (List UInt8)) :
    b.appendAll (first ++ second) = b.appendAll first >>= fun b => b.appendAll second := by
  simp [OutputBuffer.appendAll]

/-- The output buffer holds what the polls drained. -/
theorem run_outputBuffer {compress : List UInt8 → List UInt8} {events : List Event}
    {session : Option Session} (run : Run (Step compress) none events session) :
    OutputBuffer.new.appendAll (drained events) =
      .ok ((session.map Session.outputBuffer).getD .new) := by
  refine run.invariant (fun events session => OutputBuffer.new.appendAll (drained events) =
    .ok ((session.map Session.outputBuffer).getD .new)) rfl ?_
  intro events before event after hbefore step
  rw [drained_append, drained_single]
  cases step with
  | handleOpen =>
      -- a reconnect keeps the buffer, a first open starts with an empty one
      have hnone : Event.handleOpen.drained = [] := rfl
      rw [hnone, List.append_nil, hbefore]
      cases before <;> rfl
  | resetStatus => simpa [Session.resetStatus] using hbefore
  | @chunk session data =>
      have hbuffer : (session.trySendOutput data).outputBuffer = session.outputBuffer := by
        unfold Session.trySendOutput
        split <;> rfl
      simpa [hbuffer] using hbefore
  | poll hcall =>
      have happend := (readOutputs_eq_ok hcall).1
      rw [appendAll_append, hbefore]
      exact happend
  | skippedPoll => simpa using hbefore

/-! ## Since the last open -/

/-- What `handle_open` leaves for the client to replay. -/
def replay (history : OutputBuffer) : List (List UInt8) :=
  replayed (some (history.getRecent defaultReconnectBufferBytes))

theorem handleOpen_state (session : Option Session) :
    ∃ pendingBuffer sigwinch, (handleOpen session).state = .active pendingBuffer sigwinch ∧
      replayed pendingBuffer = replay ((session.map Session.outputBuffer).getD .new) := by
  cases session with
  | none => exact ⟨none, .idle, rfl, rfl⟩
  | some session =>
      refine ⟨_, _, rfl, ?_⟩
      rw [replay, Option.map_some, Option.getD_some]
      cases session.outputBuffer.getRecent defaultReconnectBufferBytes with
      | nil => rfl
      | cons byte rest => rfl

/-- The session is active; its replay is still pending before the first poll,
and with the drained chunks behind it sent after that. -/
def Streaming (decompress : List UInt8 → List UInt8) (replay : List (List UInt8))
    (events : List Event) (session : Session) : Prop :=
  ∃ pendingBuffer sigwinch, session.state = .active pendingBuffer sigwinch ∧
    if events.any Event.isPoll then
      pendingBuffer = none ∧
        (sent events).map (TerminalData.payload decompress) = replay ++ drained events
    else replayed pendingBuffer = replay ∧ sent events = [] ∧ drained events = []

theorem streaming_poll {compress decompress : List UInt8 → List UInt8}
    (hlossless : ∀ data, decompress (compress data) = data) {history : List (List UInt8)}
    {events : List Event} {session next : Session} {sent : List TerminalData} {terminalId : ℤ}
    {resizeOk : Bool} (h : Streaming decompress history events session)
    (hcall : session.readOutputs compress terminalId resizeOk = .ok (sent, next)) :
    Streaming decompress history (events ++ [.poll session.outputRx sent]) next := by
  obtain ⟨pendingBuffer, sigwinch, hstate, hevents⟩ := h
  obtain ⟨hsent, hnext⟩ := (readOutputs_eq_ok hcall).2 pendingBuffer sigwinch hstate
  -- one response for the replay and one for each drained chunk, in this order
  have hpayloads : sent.map (TerminalData.payload decompress) =
      replayed pendingBuffer ++ session.outputRx := by
    have hid : (fun data => (createTerminalDataResponse compress terminalId data).payload
        decompress) = id :=
      funext fun data => payload_createTerminalDataResponse compress decompress hlossless _ data
    rw [hsent, List.map_map, Function.comp_def, hid, List.map_id]
  refine ⟨none, sigwinch.next resizeOk, hnext, ?_⟩
  rw [if_pos (by simp)]
  refine ⟨rfl, ?_⟩
  rw [sent_append, drained_append, sent_single, drained_single, List.map_append]
  simp only [Event.sent, Event.drained, hpayloads]
  by_cases hpolled : events.any Event.isPoll = true
  · -- the replay is out, and nothing is pending
    rw [if_pos hpolled] at hevents
    obtain ⟨rfl, hpayload⟩ := hevents
    rw [hpayload, replayed, List.nil_append, List.append_assoc]
  · rw [if_neg hpolled] at hevents
    obtain ⟨hpending, hsentNone, hdrainedNone⟩ := hevents
    rw [hpending, hsentNone, hdrainedNone]
    simp

/-- A session that is opened streams until the next boundary. -/
theorem run_streaming {compress decompress : List UInt8 → List UInt8}
    (hlossless : ∀ data, decompress (compress data) = data) {before : Option Session}
    {during : List Event} {session : Option Session}
    (run : Run (Step compress) (some (handleOpen before)) during session)
    (hduring : ∀ event ∈ during, event.isBoundary = false) :
    ∃ current, session = some current ∧
      Streaming decompress (replay ((before.map Session.outputBuffer).getD .new)) during
        current := by
  induction run with
  | nil =>
      obtain ⟨pendingBuffer, sigwinch, hstate, hreplayed⟩ := handleOpen_state before
      exact ⟨_, rfl, pendingBuffer, sigwinch, hstate, hreplayed, rfl, rfl⟩
  | @snoc events state after event run step ih =>
      -- opens and resets are excluded; everything else keeps the session active
      have hevents : ∀ event ∈ events, event.isBoundary = false :=
        fun event hevent => hduring event (List.mem_append_left _ hevent)
      have hevent : event.isBoundary = false := hduring event (by simp)
      obtain ⟨current, rfl, pendingBuffer, sigwinch, hstate, hcurrent⟩ := ih hevents
      cases step with
      | handleOpen => simp at hevent
      | resetStatus => simp at hevent
      | @chunk _ data =>
          have hsame : (current.trySendOutput data).state = current.state := by
            unfold Session.trySendOutput
            split <;> rfl
          refine ⟨_, rfl, pendingBuffer, sigwinch, hsame.trans hstate, ?_⟩
          simpa using hcurrent
      | poll hcall =>
          exact ⟨_, rfl, streaming_poll hlossless ⟨pendingBuffer, sigwinch, hstate, hcurrent⟩ hcall⟩
      | skippedPoll =>
          refine ⟨current, rfl, pendingBuffer, sigwinch, hstate, ?_⟩
          simpa using hcurrent

/-- **Replay and stream.**  From an open until the next open or reset the client
is sent, once a poll has served the session, the recent part of the output
drained before the open and then every chunk drained since, in order; before
that poll it is sent nothing. -/
theorem sent_since_open {compress decompress : List UInt8 → List UInt8}
    (hlossless : ∀ data, decompress (compress data) = data) {before during : List Event}
    {session : Option Session}
    (run : Run (Step compress) none (before ++ .handleOpen :: during) session)
    (hduring : ∀ event ∈ during, event.isBoundary = false) :
    ∃ history, OutputBuffer.new.appendAll (drained before) = .ok history ∧
      (sent during).map (TerminalData.payload decompress) =
        if during.any Event.isPoll then replay history ++ drained during else [] := by
  have hsplit : before ++ .handleOpen :: during = (before ++ [.handleOpen]) ++ during := by simp
  rw [hsplit] at run
  obtain ⟨opened, hbefore, hafter⟩ := run.split
  obtain ⟨previous, hprevious, hopen⟩ := hbefore.snoc_inv
  refine ⟨_, run_outputBuffer hprevious, ?_⟩
  cases hopen with
  | handleOpen =>
      obtain ⟨current, rfl, pendingBuffer, sigwinch, -, hcurrent⟩ :=
        run_streaming hlossless hafter hduring
      by_cases hpolled : during.any Event.isPoll = true
      · rw [if_pos hpolled] at hcurrent ⊢
        exact hcurrent.2
      · rw [if_neg hpolled] at hcurrent ⊢
        rw [hcurrent.2.1, List.map_nil]

/-- A session is opened and a poll sends its first line. -/
def firstOutput : List Event :=
  [.handleOpen] ++ [.chunk [97, newline]] ++ [.poll [[97, newline]] [⟨1, [97, newline], false⟩]]

/-- The session after `firstOutput`, in a state. -/
def firstSession (state : SessionState) : Session :=
  ⟨[], ⟨[[97, newline]], 2, false⟩, state⟩

theorem run_firstOutput :
    Run (Step id) none firstOutput (some (firstSession (.active none .idle))) := by
  have hopen : Step id none .handleOpen (some ⟨[], .new, .active none .idle⟩) := .handleOpen
  have hchunk : Step id (some ⟨[], .new, .active none .idle⟩) (.chunk [97, newline])
      (some ⟨[[97, newline]], .new, .active none .idle⟩) := .chunk
  have hread : Session.readOutputs id ⟨[[97, newline]], .new, .active none .idle⟩ 1 true =
      .ok ([⟨1, [97, newline], false⟩], firstSession (.active none .idle)) := rfl
  exact ((Run.single hopen).snoc hchunk).snoc (.poll hread)

/-- `sent_since_open` at a reconnect: the first line is replayed, a chunk streamed. -/
theorem sent_since_open_reconnect :
    ∃ history, OutputBuffer.new.appendAll (drained firstOutput) = .ok history ∧
      (sent [.chunk [98], .poll [[98]] [⟨1, [97, newline], false⟩, ⟨1, [98], false⟩]]).map
          (TerminalData.payload id) = replay history ++ [[98]] := by
  have hopen : Step id (some (firstSession (.active none .idle))) .handleOpen
      (some (firstSession (.active (some [97, newline]) (.tempResize 3)))) := .handleOpen
  have hchunk : Step id (some (firstSession (.active (some [97, newline]) (.tempResize 3))))
      (.chunk [98]) (some ⟨[[98]], ⟨[[97, newline]], 2, false⟩,
        .active (some [97, newline]) (.tempResize 3)⟩) := .chunk
  have hread : Session.readOutputs id ⟨[[98]], ⟨[[97, newline]], 2, false⟩,
        .active (some [97, newline]) (.tempResize 3)⟩ 1 true =
      .ok ([⟨1, [97, newline], false⟩, ⟨1, [98], false⟩],
        ⟨[], ⟨[[97, newline], [98]], 3, true⟩, .active none (.restore 3)⟩) := rfl
  have hrun := ((run_firstOutput.snoc hopen).snoc hchunk).snoc (.poll hread)
  have hlossless : ∀ data : List UInt8, id (id data) = data := fun _ => rfl
  exact sent_since_open hlossless (by simpa using hrun) (by simp)

/-- An open with no poll behind it: the replay is still pending. -/
theorem unpolled_open :
    Run (Step id) none (firstOutput ++ [.handleOpen])
        (some (firstSession (.active (some [97, newline]) (.tempResize 3)))) ∧
      ∃ history, OutputBuffer.new.appendAll (drained firstOutput) = .ok history ∧
        (sent []).map (TerminalData.payload id) ≠ replay history ++ drained [] := by
  refine ⟨run_firstOutput.snoc .handleOpen, ⟨[[97, newline]], 2, false⟩, rfl, ?_⟩
  decide

end RustAdmin.Terminal
