import Mathlib.Algebra.Order.Ring.Int
import RustAdmin.Support.Run

/-!
# Reconnecting a session

`src/flutter/lib/models/session_reconnect_controller.dart`: one owner for the
retries with backoff and for the fresh restart after the machine slept.  Times
are in microseconds.  A method runs to its end between two turns of the event
loop, at one reading of the clock; a timer fires at any time after it was armed.
-/

namespace RustAdmin.Viewer.SessionReconnect

open RustAdmin.Support

/-! ## The controller -/

/-- The gap of the wall clock that counts as sleep; every controller of the
program has the default of five minutes. -/
structure StaleThreshold where
  micros : ℤ := 5 * 60 * 1000000
  pos : 0 < micros := by decide

structure RetryTimer where
  id : ℕ
  generation : ℕ
deriving DecidableEq, Repr

/-- How far the future of a fresh restart is. -/
inductive Phase
  | scheduled
  | running
  /-- The callback returned or threw; the `finally` is still to come. -/
  | settled
deriving DecidableEq, Repr

/-- A fresh restart in flight, with its completer and the callback it is to call. -/
structure FreshRestart where
  completion : ℕ
  restart : ℕ
  generation : ℕ
  phase : Phase := .scheduled
deriving DecidableEq, Repr

/-- What happened, in order. -/
inductive Entry
  | armedRetry (timer : ℕ)
  | armedClock (timer : ℕ)
  | stopped
  /-- `checkElapsed` found a gap of at least the threshold. -/
  | gap
  | retry (forceRelay : Bool)
  /-- A request put a fresh restart in flight. -/
  | started (completion : ℕ)
  /-- A request left the work to the restart in flight. -/
  | absorbed (completion : ℕ) (isCurrent : Bool)
  /-- The callback of a fresh restart is called. -/
  | called (completion restart : ℕ) (forceRelay : Bool)
  /-- A fresh restart returned while it was current. -/
  | completed (completion : ℕ)
  | onFailure (completion : ℕ)
deriving DecidableEq, Repr

/-- `SessionReconnectController`; timers and completers are numbered by `created`. -/
structure Controller where
  lastObserved : ℤ
  restart : Option ℕ := none
  retryTimer : Option RetryTimer := none
  clockTimer : Option ℕ := none
  restartFuture : Option ℕ := none
  offlineSince : Option ℤ := none
  retrySeconds : ℕ := 1
  generation : ℕ := 0
  stopped : Bool := false
  needsFresh : Bool := false
  forceRelay : Bool := false
  inFlight : List FreshRestart := []
  created : ℕ := 0
  log : List Entry := []

namespace Controller

def isRestarting (s : Controller) : Bool := s.restartFuture.isSome

/-- The `isCurrent` of a restart. -/
def isCurrent (s : Controller) (restart : FreshRestart) : Bool :=
  !s.stopped && restart.generation == s.generation

def note (s : Controller) (entry : Entry) : Controller := { s with log := s.log ++ [entry] }

def cancelRetry (s : Controller) : Controller := { s with retryTimer := none }

def resetBackoff (s : Controller) : Controller :=
  { s.cancelRetry with retrySeconds := 1, offlineSince := none }

def sessionStarted (s : Controller) (now : ℤ) : Controller :=
  let started := { s with stopped := false }
  let relayed := if started.isRestarting then started else { started with forceRelay := false }
  resetBackoff { relayed with lastObserved := now }

def attachFreshRestart (s : Controller) (restart : ℕ) (now : ℤ) : Controller :=
  note
    { s with
      restart := some restart
      stopped := false
      lastObserved := now
      clockTimer := some s.created
      created := s.created + 1 }
    (.armedClock s.created)

/-- `shouldRetryOffline` and the state after it. -/
def shouldRetryOffline (s : Controller) (now : ℤ) : Bool × Controller :=
  let since := s.offlineSince.getD now
  (now - since < 30 * 1000000, { s with offlineSince := some since })

def scheduleRetry (s : Controller) : Controller :=
  if s.stopped then s else
    note
      { s with
        retryTimer := some ⟨s.created, s.generation⟩
        created := s.created + 1
        retrySeconds := max 1 (min 30 (s.retrySeconds * 2)) }
      (.armedRetry s.created)

/-- The end of `requestReconnect`: the callback is to be called by a new future. -/
def startFresh (s : Controller) (restart : ℕ) : Controller :=
  let next := resetBackoff { s with generation := s.generation + 1 }
  note
    { next with
      restartFuture := some next.created
      created := next.created + 1
      inFlight := next.inFlight ++
        [{ completion := next.created, restart := restart, generation := next.generation }] }
    (.started next.created)

/-- Whether the restart of a completer is in flight and its `isCurrent` answers `true`. -/
def currentFlight (s : Controller) (completion : ℕ) : Bool :=
  s.inFlight.any fun restart => restart.completion == completion && s.isCurrent restart

/-- What `requestReconnect` does first. -/
def ask (s : Controller) (forceRelay : Bool) : Controller :=
  cancelRetry { s with forceRelay := s.forceRelay || forceRelay }

/-- The gap that `checkElapsed` finds. -/
def stale (s : Controller) (threshold : StaleThreshold) (now : ℤ) : Bool :=
  !s.stopped && s.restart.isSome && threshold.micros ≤ now - s.lastObserved

mutual

/-- `checkElapsed`: what it answers and the state after it. -/
def checkElapsed (s : Controller) (threshold : StaleThreshold) (now : ℤ) : Bool × Controller :=
  if s.stopped || s.restart.isNone then (false, s) else
    let observed := { s with lastObserved := now }
    if s.stale threshold now then
      (true, requestReconnect ({ observed with needsFresh := true }.note .gap) threshold false now)
    else (false, observed)
termination_by ((if s.stale threshold now then 1 else 0), 0)
decreasing_by
  -- the second reading is the one just observed
  have hpos := threshold.pos
  simp_all [stale, note, Prod.lex_iff]

def requestReconnect (s : Controller) (threshold : StaleThreshold) (forceRelay : Bool) (now : ℤ) :
    Controller :=
  if s.stopped then s else
    let asked := s.ask forceRelay
    match asked.restartFuture with
    | some completion =>
        asked.note (.absorbed completion (asked.currentFlight completion))
    | none =>
        match asked.checkElapsed threshold now with
        | (true, after) => after
        | (false, after) =>
            match after.needsFresh, after.restart with
            | true, some restart => after.startFresh restart
            | _, _ => after.note (.retry after.forceRelay)
termination_by ((if s.stale threshold now then 1 else 0), 1)
decreasing_by
  exact .right _ Nat.zero_lt_one

end

/-- The callback of the timer that `scheduleRetry` armed. -/
def fireRetry (s : Controller) (threshold : StaleThreshold) (timer : RetryTimer) (now : ℤ) :
    Controller :=
  let fired := { s with retryTimer := none }
  if fired.stopped || timer.generation != fired.generation then fired
  else fired.requestReconnect threshold false now

def stop (s : Controller) : Controller :=
  note
    { cancelRetry { s with stopped := true, generation := s.generation + 1 } with
      clockTimer := none }
    .stopped

/-! ## The future of a fresh restart -/

def setPhase (s : Controller) (restart : FreshRestart) (phase : Phase) : Controller :=
  { s with inFlight := s.inFlight.map fun other =>
      if other.completion = restart.completion then { other with phase := phase } else other }

/-- The `finally`. -/
def finish (s : Controller) (restart : FreshRestart) : Controller :=
  { s with
    restartFuture := if s.restartFuture = some restart.completion then none else s.restartFuture
    inFlight := s.inFlight.filter fun other => other.completion != restart.completion }

/-- The future starts: it calls the callback, or ends if it is not current. -/
def begin (s : Controller) (restart : FreshRestart) : Controller :=
  if s.isCurrent restart then
    (s.setPhase restart .running).note (.called restart.completion restart.restart s.forceRelay)
  else s.finish restart

/-- The callback returned. -/
def succeed (s : Controller) (restart : FreshRestart) : Controller :=
  let settled := s.setPhase restart .settled
  if s.isCurrent restart then
    { settled with needsFresh := false }.note (.completed restart.completion)
  else settled

/-- The callback threw. -/
def fail (s : Controller) (restart : FreshRestart) : Controller :=
  let settled := s.setPhase restart .settled
  if s.isCurrent restart then settled.note (.onFailure restart.completion) else settled

end Controller

/-! ## Interleavings -/

inductive Event
  | sessionStarted (now : ℤ)
  | attachFreshRestart (restart : ℕ) (now : ℤ)
  | checkElapsed (now : ℤ)
  | shouldRetryOffline (now : ℤ)
  | resetBackoff
  | scheduleRetry
  | requestReconnect (forceRelay : Bool) (now : ℤ)
  | stop
  | retryTimer (timer : ℕ) (now : ℤ)
  | clockTimer (timer : ℕ) (now : ℤ)
  | begin (completion : ℕ)
  | succeed (completion : ℕ)
  | fail (completion : ℕ)
  | finish (completion : ℕ)
deriving DecidableEq, Repr

/-- One step: a call, the firing of an armed timer, or progress of a restart in flight. -/
inductive Step (threshold : StaleThreshold) : Controller → Event → Controller → Prop
  | sessionStarted {s : Controller} {now : ℤ} :
      Step threshold s (.sessionStarted now) (s.sessionStarted now)
  | attachFreshRestart {s : Controller} {restart : ℕ} {now : ℤ} :
      Step threshold s (.attachFreshRestart restart now) (s.attachFreshRestart restart now)
  | checkElapsed {s : Controller} {now : ℤ} :
      Step threshold s (.checkElapsed now) (s.checkElapsed threshold now).2
  | shouldRetryOffline {s : Controller} {now : ℤ} :
      Step threshold s (.shouldRetryOffline now) (s.shouldRetryOffline now).2
  | resetBackoff {s : Controller} : Step threshold s .resetBackoff s.resetBackoff
  | scheduleRetry {s : Controller} : Step threshold s .scheduleRetry s.scheduleRetry
  | requestReconnect {s : Controller} {forceRelay : Bool} {now : ℤ} :
      Step threshold s (.requestReconnect forceRelay now)
        (s.requestReconnect threshold forceRelay now)
  | stop {s : Controller} : Step threshold s .stop s.stop
  | retryTimer {s : Controller} {timer : RetryTimer} {now : ℤ}
      (harmed : s.retryTimer = some timer) :
      Step threshold s (.retryTimer timer.id now) (s.fireRetry threshold timer now)
  | clockTimer {s : Controller} {timer : ℕ} {now : ℤ} (harmed : s.clockTimer = some timer) :
      Step threshold s (.clockTimer timer now) (s.checkElapsed threshold now).2
  | begin {s : Controller} {restart : FreshRestart} (hflight : restart ∈ s.inFlight)
      (hphase : restart.phase = .scheduled) :
      Step threshold s (.begin restart.completion) (s.begin restart)
  | succeed {s : Controller} {restart : FreshRestart} (hflight : restart ∈ s.inFlight)
      (hphase : restart.phase = .running) :
      Step threshold s (.succeed restart.completion) (s.succeed restart)
  | fail {s : Controller} {restart : FreshRestart} (hflight : restart ∈ s.inFlight)
      (hphase : restart.phase = .running) :
      Step threshold s (.fail restart.completion) (s.fail restart)
  | finish {s : Controller} {restart : FreshRestart} (hflight : restart ∈ s.inFlight)
      (hphase : restart.phase = .settled) :
      Step threshold s (.finish restart.completion) (s.finish restart)

/-! ## What is asked of the requests -/

/-- A retry or a restart is initiated. -/
def Entry.Initiates : Entry → Prop
  | .retry _ | .started _ | .called _ _ _ => True
  | _ => False

/-- A request is served. -/
def Entry.Answers : Entry → Prop
  | .retry _ | .started _ => True
  | .absorbed _ isCurrent => isCurrent = true
  | _ => False

def Entry.IsRetry : Entry → Prop
  | .retry _ => True
  | _ => False

def Entry.IsStarted : Entry → Prop
  | .started _ => True
  | _ => False

def Entry.IsCompleted : Entry → Prop
  | .completed _ => True
  | _ => False

/-- The entry that armed what the event is the firing of; a fresh restart begins
on a timer as well. -/
def Event.armedBy : Event → Option Entry
  | .retryTimer timer _ => some (.armedRetry timer)
  | .clockTimer timer _ => some (.armedClock timer)
  | .begin completion => some (.started completion)
  | _ => none

/-- The step calls `requestReconnect` while not stopped. -/
def Controller.Requests (s : Controller) (threshold : StaleThreshold) : Event → Prop
  | .requestReconnect _ _ => s.stopped = false
  | .retryTimer _ _ =>
      s.stopped = false ∧ ∀ timer ∈ s.retryTimer, timer.generation = s.generation
  | .checkElapsed now | .clockTimer _ now => s.stale threshold now = true
  | _ => False

/-- A gap was found and no fresh restart was started since. -/
def Owed (log : List Entry) : Prop := Since (fun _ entry => entry = .gap) Entry.IsStarted log

/-- No plain retry comes between a gap and the fresh restart it is owed. -/
def RestartsFirst (log : List Entry) : Prop :=
  Always (fun before entry => entry.IsRetry → ¬ Owed before) log

/-- What a step adds to the log. -/
def Adds (s s' : Controller) (P : Entry → Prop) : Prop :=
  ∃ added, s'.log = s.log ++ added ∧ ∃ entry ∈ added, P entry

/-- A step after which no request was lost so far. -/
structure SoundStep (threshold : StaleThreshold) (s : Controller) (event : Event)
    (s' : Controller) : Prop where
  step : Step threshold s event s'
  single : s'.inFlight.length ≤ 1
  unstopped : Adds s s' Entry.Initiates → s.stopped = false
  timely : ∀ armed ∈ event.armedBy, Adds s s' Entry.Initiates →
    Since (fun _ entry => entry = armed) (· = .stopped) s.log
  answered : s.Requests threshold event → Adds s s' Entry.Answers
  restartsFirst : RestartsFirst s'.log

/-- A request finds a restart in flight that a stop has outdated. -/
def Controller.Outdated (s : Controller) (threshold : StaleThreshold) (event : Event) : Prop :=
  s.Requests threshold event ∧ ∃ restart ∈ s.inFlight, s.isCurrent restart = false

/-- A restart in flight when a gap was found returned as current; no gap was
found and no restart started since. -/
def Forgotten (log : List Entry) : Prop :=
  Since (fun before entry => entry.IsCompleted ∧ Owed before)
    (fun entry => entry = .gap ∨ entry.IsStarted) log

/-- The clock of a request. -/
def Event.requestTime : Event → Option ℤ
  | .requestReconnect _ now | .retryTimer _ now => some now
  | _ => none

/-- A request that finds no new gap and nothing in flight comes after a gap that
was forgotten. -/
def Controller.Forgets (s : Controller) (threshold : StaleThreshold) (event : Event) : Prop :=
  s.Requests threshold event ∧ s.inFlight = [] ∧
    (∃ now ∈ event.requestTime, s.stale threshold now = false) ∧ Forgotten s.log

/-- A step that meets neither. -/
structure ServedStep (threshold : StaleThreshold) (s : Controller) (event : Event)
    (s' : Controller) : Prop where
  step : Step threshold s event s'
  outdated : ¬ s.Outdated threshold event
  forgets : ¬ s.Forgets threshold event

/-- The controller as constructed. -/
def Controller.start (now : ℤ) : Controller := { lastObserved := now }

end RustAdmin.Viewer.SessionReconnect
