import Mathlib.Data.Multiset.AddSub
import RustAdmin.Support.Run
import RustAdmin.Support.Tail

/-!
# The handle of a session

`src/flutter/lib/models/session_handle.dart` and `session_lifecycle.dart`: a
handle starts one native session, dispatches its events one after the other and
closes it.  Starting, the remote close and the local close are asynchronous
functions that run side by side; each is modelled by where it awaits.  Between two
awaits nothing else runs.  Cancelling a subscription and releasing a lease neither
fail nor call back.
-/

namespace RustAdmin.Viewer.SessionClose

open RustAdmin.Support

/-! ## The lifecycle -/

inductive SessionPhase
  | created
  | connecting
  | connected
  | closing
  | closed
  | failed
deriving DecidableEq, Repr

structure SessionLifecycle where
  generation : ℕ := 0
  phase : SessionPhase := .created
deriving DecidableEq, Repr

namespace SessionLifecycle

def isClosed (l : SessionLifecycle) : Bool := l.phase == .closed || l.phase == .failed

def beginStart (l : SessionLifecycle) : SessionLifecycle := ⟨l.generation + 1, .connecting⟩

def beginClose (l : SessionLifecycle) : SessionLifecycle := ⟨l.generation + 1, .closing⟩

def accepts (l : SessionLifecycle) (generation : ℕ) : Bool :=
  generation == l.generation && l.phase != .closing && !l.isClosed

def connected (l : SessionLifecycle) (generation : ℕ) : SessionLifecycle :=
  if generation = l.generation ∧ l.phase = .connecting then { l with phase := .connected } else l

def closed (l : SessionLifecycle) (generation : ℕ) : SessionLifecycle :=
  if generation = l.generation then { l with phase := .closed } else l

def failed (l : SessionLifecycle) (generation : ℕ) : SessionLifecycle :=
  if generation = l.generation then { l with phase := .failed } else l

end SessionLifecycle

/-! ## What runs side by side -/

/-- What `_start` awaits. -/
inductive StartStage
  | acquiring
  | adding
  | preparing
  /-- The lease that came too late is released. -/
  | releasing
  /-- `_rollbackStartResources` closes the native session, in the `catch` or before it. -/
  | rollback (caught : Bool)
  /-- It releases the lease; `threw` where closing failed. -/
  | rollbackRelease (caught threw : Bool)
  | ended
deriving DecidableEq, Repr

structure Start where
  generation : ℕ
  stage : StartStage
deriving DecidableEq, Repr

inductive NativeSessionClosePolicy
  | requestClose
  | alreadyClosed
deriving DecidableEq, Repr

/-- What `_close` awaits. -/
inductive CloseStage
  /-- Called inside a dispatch, it begins with the next microtask. -/
  | scheduled
  | awaitingStart
  | awaitingRemoteClose
  /-- The event tail as it was when there were `links` links. -/
  | awaitingTail (links : ℕ)
  | cleaning
  | closingNative
  | cancelling
  | releasing
  | ended
deriving DecidableEq, Repr

structure Close where
  generation : ℕ
  policy : NativeSessionClosePolicy
  stage : CloseStage := .scheduled
deriving DecidableEq, Repr

/-- What `_finishRemoteClose` awaits. -/
inductive RemoteClose
  | cancelling
  | awaitingTail (links : ℕ)
  | releasing
  | ended
deriving DecidableEq, Repr

/-- The close after the events that are queued: it waits for its own empty
dispatch, then calls `remoteClosed`, and waits for the remote close if there is one. -/
structure EventClose where
  generation : ℕ
  links : ℕ
  called : Bool := false
  waits : Bool := false
deriving DecidableEq, Repr

/-- The listener of a lease's events. -/
structure Listener where
  generation : ℕ
  ended : Bool := false
deriving DecidableEq, Repr

/-! ## The handle -/

/-- `SessionHandle`; a future that it keeps is there while its function runs.  The
last five fields are not its own: whether `close` was called, how often
`closeNative` and `cleanup` were, and the leases acquired and released. -/
structure SessionHandle where
  lifecycle : SessionLifecycle := {}
  startFuture : Bool := false
  starting : Option Start := none
  closeFuture : Option Close := none
  remoteCloseFuture : Option RemoteClose := none
  eventCloseFuture : Option EventClose := none
  eventTail : List (Link ℕ) := []
  subscription : Bool := false
  platformLeaseGeneration : Option ℤ := none
  startRequested : Bool := false
  nativeSessionActive : Bool := false
  cleanupFinished : Bool := false
  listeners : List Listener := []
  closeCalled : Bool := false
  nativeCloses : ℕ := 0
  cleanups : ℕ := 0
  acquired : Multiset ℤ := 0
  released : Multiset ℤ := 0
deriving DecidableEq

/-- One lease, if any. -/
def oneLease (lease : Option ℤ) : Multiset ℤ := (lease.map singleton).getD 0

namespace SessionHandle

def accepts (s : SessionHandle) (generation : ℕ) : Bool := s.lifecycle.accepts generation

/-! ### What the handle owns -/

/-- `_closeNativeOnce` up to its await. -/
def closeNativeOnce (s : SessionHandle) : SessionHandle :=
  if s.nativeSessionActive then
    { s with nativeSessionActive := false, nativeCloses := s.nativeCloses + 1 }
  else s

/-- `_cancelSubscription` up to its await. -/
def cancelSubscription (s : SessionHandle) : SessionHandle := { s with subscription := false }

/-- `_releasePlatformLeaseOnce` up to its await. -/
def releasePlatformLeaseOnce (s : SessionHandle) : SessionHandle :=
  { s with
    platformLeaseGeneration := none
    released := s.released + oneLease s.platformLeaseGeneration }

/-! ### `start` -/

def setStart (s : SessionHandle) (t : Start) (stage : StartStage) : SessionHandle :=
  { s with starting := some { t with stage := stage } }

/-- `_rollbackStartResources` up to its first await. -/
def rollBack (s : SessionHandle) (t : Start) (caught : Bool) : SessionHandle :=
  s.closeNativeOnce.setStart t (.rollback caught)

/-- `start`, with or without a lease to acquire; a second call fails. -/
def start (s : SessionHandle) (acquires : Bool) : SessionHandle :=
  if s.startRequested then s else
    { s with
      startRequested := true
      lifecycle := s.lifecycle.beginStart
      starting := some
        { generation := s.lifecycle.generation + 1
          stage := if acquires then .acquiring else .adding } }

def acquiredLease (s : SessionHandle) (t : Start) (lease : Option ℤ) : SessionHandle :=
  let held :=
    { s with platformLeaseGeneration := lease, acquired := s.acquired + oneLease lease }
  if s.accepts t.generation then held.setStart t .adding
  else held.releasePlatformLeaseOnce.setStart t .releasing

def nativeAdded (s : SessionHandle) (t : Start) : SessionHandle :=
  let added := { s with nativeSessionActive := true }
  if s.accepts t.generation then added.setStart t .preparing else added.rollBack t false

/-- The events are prepared; `startEvents` returns a stream or throws. -/
def eventsPrepared (s : SessionHandle) (t : Start) (started : Bool) : SessionHandle :=
  if s.accepts t.generation then
    if started then s.setStart t .ended else s.rollBack t true
  else s.rollBack t false

def rolledBackNative (s : SessionHandle) (t : Start) (caught threw : Bool) : SessionHandle :=
  s.releasePlatformLeaseOnce.setStart t (.rollbackRelease caught threw)

def rolledBack (s : SessionHandle) (t : Start) (caught threw : Bool) : SessionHandle :=
  if caught then
    { s with lifecycle := s.lifecycle.failed t.generation }.setStart t .ended
  else if threw then s.rollBack t true
  else s.setStart t .ended

/-! ### Events -/

def dispatchEvent (s : SessionHandle) (generation : ℕ) : SessionHandle :=
  { s with eventTail := s.eventTail ++ [{ payload := generation }] }

/-- A link of the tail takes its turn: it dispatches, or ends where its generation
is no longer accepted. -/
def takeTurn (s : SessionHandle) (i generation : ℕ) : SessionHandle :=
  { s with
    eventTail := Link.setTurn s.eventTail i (if s.accepts generation then .running else .ended) }

def endTurn (s : SessionHandle) (i : ℕ) : SessionHandle :=
  { s with eventTail := Link.setTurn s.eventTail i .ended }

def remoteClosed (s : SessionHandle) (generation : ℕ) : SessionHandle :=
  if s.remoteCloseFuture.isSome then s
  else if !s.accepts generation then s
  else
    cancelSubscription
      { s with
        nativeSessionActive := false
        lifecycle := s.lifecycle.closed generation
        remoteCloseFuture := some .cancelling }

def remoteClosedAfterEvents (s : SessionHandle) (generation : ℕ) : SessionHandle :=
  if s.eventCloseFuture.isSome then s
  else if !s.accepts generation then s
  else
    { s.dispatchEvent generation with
      eventCloseFuture := some { generation := generation, links := s.eventTail.length + 1 } }

def bindSubscription (s : SessionHandle) (generation : ℕ) : SessionHandle :=
  if !s.accepts generation || s.subscription then s else { s with subscription := true }

def bindEventStream (s : SessionHandle) (generation : ℕ) : SessionHandle :=
  bindSubscription { s with listeners := s.listeners ++ [{ generation := generation }] } generation

/-- `finish` of a listener. -/
def finishStream (s : SessionHandle) (i : ℕ) (listener : Listener) : SessionHandle :=
  if listener.ended then s else
    let ended := { s with listeners := s.listeners.set i { listener with ended := true } }
    if !s.accepts listener.generation then ended
    else ended.remoteClosedAfterEvents listener.generation

/-- An event arrives; `prepared` where `prepareEvent` returns a dispatch. -/
def arrive (s : SessionHandle) (i : ℕ) (listener : Listener) (isCloseEvent prepared : Bool) :
    SessionHandle :=
  if listener.ended || !s.accepts listener.generation then s
  else if isCloseEvent then s.finishStream i listener
  else if prepared then s.dispatchEvent listener.generation
  else s

/-! ### The remote close -/

def setRemoteClose (s : SessionHandle) (stage : RemoteClose) : SessionHandle :=
  { s with remoteCloseFuture := some stage }

/-- `remoteClosed` is called when the events before it are dispatched. -/
def eventsDrained (s : SessionHandle) (e : EventClose) : SessionHandle :=
  let closed := s.remoteClosed e.generation
  { closed with
    eventCloseFuture := some { e with called := true, waits := closed.remoteCloseFuture.isSome } }

/-- The remote close completes, and with it what waits for it. -/
def remoteCloseEnded (s : SessionHandle) : SessionHandle :=
  { s with
    remoteCloseFuture := none
    eventCloseFuture := s.eventCloseFuture.map fun e => { e with waits := false } }

/-! ### `close` -/

def setClose (s : SessionHandle) (c : Close) (stage : CloseStage) : SessionHandle :=
  { s with closeFuture := some { c with stage := stage } }

def awaitTail (s : SessionHandle) (c : Close) : SessionHandle :=
  s.setClose c (.awaitingTail s.eventTail.length)

def awaitRemoteClose (s : SessionHandle) (c : Close) : SessionHandle :=
  if s.remoteCloseFuture.isSome then s.setClose c .awaitingRemoteClose else s.awaitTail c

/-- `_close` up to its first await. -/
def beginClosing (s : SessionHandle) (c : Close) : SessionHandle :=
  if s.startFuture then s.setClose c .awaitingStart else s.awaitRemoteClose c

def close (s : SessionHandle) (policy : NativeSessionClosePolicy) (insideEventDispatch : Bool) :
    SessionHandle :=
  let called := { s with closeCalled := true }
  if s.closeFuture.isSome then called
  else if s.lifecycle.isClosed && !s.nativeSessionActive && !s.subscription &&
      s.platformLeaseGeneration.isNone && s.cleanupFinished then called
  else
    let c : Close := { generation := s.lifecycle.generation + 1, policy := policy }
    let closing := { called with lifecycle := s.lifecycle.beginClose, closeFuture := some c }
    if insideEventDispatch then closing else closing.beginClosing c

/-- `cleanup` is called. -/
def cleanUp (s : SessionHandle) (c : Close) : SessionHandle :=
  { s with cleanups := s.cleanups + 1 }.setClose c .cleaning

def cleanedUp (s : SessionHandle) (c : Close) : SessionHandle :=
  let cleaned := { s with cleanupFinished := true }
  match c.policy with
  | .requestClose => cleaned.closeNativeOnce.setClose c .closingNative
  | .alreadyClosed =>
      { cleaned with nativeSessionActive := false }.cancelSubscription.setClose c .cancelling

def closedNative (s : SessionHandle) (c : Close) : SessionHandle :=
  s.cancelSubscription.setClose c .cancelling

def cancelled (s : SessionHandle) (c : Close) : SessionHandle :=
  s.releasePlatformLeaseOnce.setClose c .releasing

def releasedLease (s : SessionHandle) (c : Close) : SessionHandle :=
  { s with lifecycle := s.lifecycle.closed c.generation }.setClose c .ended

end SessionHandle

/-! ## Interleavings -/

inductive Event
  | start (acquires : Bool)
  /-- `start` returns to its caller, so its future is kept. -/
  | startReturned
  | acquiredLease (lease : Option ℤ)
  | nativeAdded
  | eventsPrepared (started : Bool)
  /-- `acquirePlatformLease`, `addNative` or `prepareEvents` failed. -/
  | startThrew
  | lateLeaseReleased
  /-- `closeNative` completed in the rollback, or failed. -/
  | rolledBackNative (threw : Bool)
  | rolledBack
  | startEnded
  | connected (generation : ℕ)
  | bindEventStream (generation : ℕ)
  | arrive (i : ℕ) (isCloseEvent prepared : Bool)
  | finishStream (i : ℕ)
  | dispatchEvent (generation : ℕ)
  | takeTurn (i : ℕ)
  | endTurn (i : ℕ)
  | remoteClosedAfterEvents (generation : ℕ)
  | eventsDrained
  | eventCloseEnded
  | remoteClosed (generation : ℕ)
  | remoteCancelled
  | remoteDrained
  | remoteReleased
  | remoteCloseEnded
  | close (policy : NativeSessionClosePolicy) (insideEventDispatch : Bool)
  | closeBegun
  | startAwaited
  | remoteCloseAwaited
  | tailAwaited
  | cleanedUp
  | closedNative
  | cancelled
  | releasedLease
  | closeEnded
deriving DecidableEq, Repr

/-- One step.  The first await of `_start` lasts until `start` has returned. -/
inductive Step : SessionHandle → Event → SessionHandle → Prop
  | start {s : SessionHandle} {acquires : Bool} : Step s (.start acquires) (s.start acquires)
  | startReturned {s : SessionHandle} {t : Start} (hstarting : s.starting = some t)
      (hreturns : s.startFuture = false) : Step s .startReturned { s with startFuture := true }
  | acquiredLease {s : SessionHandle} {t : Start} {lease : Option ℤ}
      (hstarting : s.starting = some t) (hstage : t.stage = .acquiring)
      (hreturned : s.startFuture = true) :
      Step s (.acquiredLease lease) (s.acquiredLease t lease)
  | nativeAdded {s : SessionHandle} {t : Start} (hstarting : s.starting = some t)
      (hstage : t.stage = .adding) (hreturned : s.startFuture = true) :
      Step s .nativeAdded (s.nativeAdded t)
  | eventsPrepared {s : SessionHandle} {t : Start} {started : Bool}
      (hstarting : s.starting = some t) (hstage : t.stage = .preparing) :
      Step s (.eventsPrepared started) (s.eventsPrepared t started)
  | startThrew {s : SessionHandle} {t : Start} (hstarting : s.starting = some t)
      (hstage : t.stage ∈ [.acquiring, .adding, .preparing]) (hreturned : s.startFuture = true) :
      Step s .startThrew (s.rollBack t true)
  | lateLeaseReleased {s : SessionHandle} {t : Start} (hstarting : s.starting = some t)
      (hstage : t.stage = .releasing) : Step s .lateLeaseReleased (s.setStart t .ended)
  | rolledBackNative {s : SessionHandle} {t : Start} {caught threw : Bool}
      (hstarting : s.starting = some t) (hstage : t.stage = .rollback caught) :
      Step s (.rolledBackNative threw) (s.rolledBackNative t caught threw)
  | rolledBack {s : SessionHandle} {t : Start} {caught threw : Bool}
      (hstarting : s.starting = some t) (hstage : t.stage = .rollbackRelease caught threw) :
      Step s .rolledBack (s.rolledBack t caught threw)
  | startEnded {s : SessionHandle} {t : Start} (hstarting : s.starting = some t)
      (hstage : t.stage = .ended) :
      Step s .startEnded { s with starting := none, startFuture := false }
  | connected {s : SessionHandle} {generation : ℕ} :
      Step s (.connected generation) { s with lifecycle := s.lifecycle.connected generation }
  | bindEventStream {s : SessionHandle} {generation : ℕ} :
      Step s (.bindEventStream generation) (s.bindEventStream generation)
  | arrive {s : SessionHandle} {i : ℕ} {listener : Listener} {isCloseEvent prepared : Bool}
      (hlistener : s.listeners[i]? = some listener) :
      Step s (.arrive i isCloseEvent prepared) (s.arrive i listener isCloseEvent prepared)
  | finishStream {s : SessionHandle} {i : ℕ} {listener : Listener}
      (hlistener : s.listeners[i]? = some listener) :
      Step s (.finishStream i) (s.finishStream i listener)
  | dispatchEvent {s : SessionHandle} {generation : ℕ} :
      Step s (.dispatchEvent generation) (s.dispatchEvent generation)
  | takeTurn {s : SessionHandle} {i : ℕ} {link : Link ℕ} (hlink : s.eventTail[i]? = some link)
      (hready : Link.Ready s.eventTail i) : Step s (.takeTurn i) (s.takeTurn i link.payload)
  | endTurn {s : SessionHandle} {i : ℕ} (hrunning : Link.turnAt s.eventTail i = some .running) :
      Step s (.endTurn i) (s.endTurn i)
  | remoteClosedAfterEvents {s : SessionHandle} {generation : ℕ} :
      Step s (.remoteClosedAfterEvents generation) (s.remoteClosedAfterEvents generation)
  | eventsDrained {s : SessionHandle} {e : EventClose} (hevent : s.eventCloseFuture = some e)
      (hcalled : e.called = false) (hawaited : Link.Awaited s.eventTail e.links) :
      Step s .eventsDrained (s.eventsDrained e)
  | eventCloseEnded {s : SessionHandle} {e : EventClose} (hevent : s.eventCloseFuture = some e)
      (hcalled : e.called = true) (hwaits : e.waits = false) :
      Step s .eventCloseEnded { s with eventCloseFuture := none }
  | remoteClosed {s : SessionHandle} {generation : ℕ} :
      Step s (.remoteClosed generation) (s.remoteClosed generation)
  | remoteCancelled {s : SessionHandle} (hremote : s.remoteCloseFuture = some .cancelling) :
      Step s .remoteCancelled (s.setRemoteClose (.awaitingTail s.eventTail.length))
  | remoteDrained {s : SessionHandle} {links : ℕ}
      (hremote : s.remoteCloseFuture = some (.awaitingTail links))
      (hawaited : Link.Awaited s.eventTail links) :
      Step s .remoteDrained (s.releasePlatformLeaseOnce.setRemoteClose .releasing)
  | remoteReleased {s : SessionHandle} (hremote : s.remoteCloseFuture = some .releasing) :
      Step s .remoteReleased (s.setRemoteClose .ended)
  | remoteCloseEnded {s : SessionHandle} (hremote : s.remoteCloseFuture = some .ended) :
      Step s .remoteCloseEnded s.remoteCloseEnded
  | close {s : SessionHandle} {policy : NativeSessionClosePolicy} {insideEventDispatch : Bool} :
      Step s (.close policy insideEventDispatch) (s.close policy insideEventDispatch)
  | closeBegun {s : SessionHandle} {c : Close} (hclose : s.closeFuture = some c)
      (hstage : c.stage = .scheduled) : Step s .closeBegun (s.beginClosing c)
  | startAwaited {s : SessionHandle} {c : Close} (hclose : s.closeFuture = some c)
      (hstage : c.stage = .awaitingStart) (hstarted : s.startFuture = false) :
      Step s .startAwaited (s.awaitRemoteClose c)
  | remoteCloseAwaited {s : SessionHandle} {c : Close} (hclose : s.closeFuture = some c)
      (hstage : c.stage = .awaitingRemoteClose) (hremote : s.remoteCloseFuture = none) :
      Step s .remoteCloseAwaited (s.awaitTail c)
  | tailAwaited {s : SessionHandle} {c : Close} {links : ℕ} (hclose : s.closeFuture = some c)
      (hstage : c.stage = .awaitingTail links) (hawaited : Link.Awaited s.eventTail links) :
      Step s .tailAwaited (s.cleanUp c)
  | cleanedUp {s : SessionHandle} {c : Close} (hclose : s.closeFuture = some c)
      (hstage : c.stage = .cleaning) : Step s .cleanedUp (s.cleanedUp c)
  | closedNative {s : SessionHandle} {c : Close} (hclose : s.closeFuture = some c)
      (hstage : c.stage = .closingNative) : Step s .closedNative (s.closedNative c)
  | cancelled {s : SessionHandle} {c : Close} (hclose : s.closeFuture = some c)
      (hstage : c.stage = .cancelling) : Step s .cancelled (s.cancelled c)
  | releasedLease {s : SessionHandle} {c : Close} (hclose : s.closeFuture = some c)
      (hstage : c.stage = .releasing) : Step s .releasedLease (s.releasedLease c)
  | closeEnded {s : SessionHandle} {c : Close} (hclose : s.closeFuture = some c)
      (hstage : c.stage = .ended) : Step s .closeEnded { s with closeFuture := none }

/-! ## What is asked of a closed handle -/

/-- `close` was called, and it and a pending start have completed. -/
def SessionHandle.Done (s : SessionHandle) : Prop :=
  s.closeCalled = true ∧ s.closeFuture = none ∧ s.starting = none

/-- What the handle owns when it is done. -/
structure SessionHandle.OwnsNothing (s : SessionHandle) : Prop where
  native : s.nativeSessionActive = false
  subscription : s.subscription = false
  lease : s.platformLeaseGeneration = none

/-- A step of a handle that stays closed once it was. -/
structure SoundStep (s : SessionHandle) (event : Event) (s' : SessionHandle) : Prop where
  step : Step s event s'
  fenced : s'.closeCalled = true → ∀ generation, s'.accepts generation = false
  silent : ∀ i, event = .takeTurn i → Link.turnAt s'.eventTail i = some .running →
    s.closeCalled = false
  nativeOnce : s'.nativeCloses ≤ 1
  owned : s'.Done → s'.OwnsNothing
  leases : s'.acquired = oneLease s'.platformLeaseGeneration + s'.released
  cleanupOnce : s'.cleanups ≤ 1
  cleaned : s'.Done → s'.cleanups = 1
  cleanupAlone : ∀ c ∈ s'.closeFuture, c.stage = .cleaning → ∀ i,
    Link.turnAt s'.eventTail i ≠ some .running
  inOrder : Link.InOrder s'.eventTail

/-- A start, the first one, after `close` was called. -/
def SessionHandle.Revives (s : SessionHandle) (event : Event) : Prop :=
  ∃ acquires, event = .start acquires ∧ s.startRequested = false ∧ s.closeCalled = true

/-- A step that is none. -/
structure FinalStep (s : SessionHandle) (event : Event) (s' : SessionHandle) : Prop where
  step : Step s event s'
  final : ¬ s.Revives event

end RustAdmin.Viewer.SessionClose
