import Mathlib.Data.List.Chain
import Mathlib.Data.List.Induction
import RustAdmin.Support.Arith
import RustAdmin.VideoDelivery.Controller

/-!
# Startup recovery

`StartupRecovery` of `src/src/client/startup_recovery.rs`: as long as nothing of a display
was decoded, the viewer asks the host for reference frames and then for a new capture,
and gives up in the end.  There is one budget per activation of a display.

Three invariants are kept side by side: `Budgeted` (what was admitted, as the recovery
remembers it), `Ended` (nothing after a failure) and `Clocked` (since when the clock
runs).  `next_cases` is the one inversion of `next`, and `Admissible` what an action
that it returned still satisfies when it is admitted.  Calls that admit nothing keep
the budget (`SameBudget`).
-/

namespace RustAdmin.Viewer

open RustAdmin.Support RustAdmin.VideoDelivery

def firstCaptureRetry : ℕ := secs 15
def captureRetryInterval : ℕ := secs 40
def referenceInterval : ℕ := millis 750
def decodeGrace : ℕ := secs 3
def maxReferences : ℕ := 3
def maxCaptureRetries : ℕ := 2
def startupLimit : ℕ := secs 110

inductive StartupRecoveryAction
  | reference
  | capture
  | failed
deriving DecidableEq, Repr

structure StartupRecovery where
  since : Option ℕ := none
  lastAction : Option ℕ := none
  lastTry : Option ℕ := none
  lastCapture : Option ℕ := none
  keyframeAt : Option ℕ := none
  referenceAttempts : ℕ := 0
  captureAttempts : ℕ := 0
  decoded : Bool := false
  failed : Bool := false
  droppedDeltas : ℕ := 0
deriving DecidableEq, Repr

/-- It never was, or long enough ago. -/
def longAgo (at? : Option ℕ) (interval now : ℕ) : Prop := ∀ time ∈ at?, interval ≤ now - time

instance (at? : Option ℕ) (interval now : ℕ) : Decidable (longAgo at? interval now) :=
  inferInstanceAs (Decidable (∀ time ∈ at?, interval ≤ now - time))

namespace StartupRecovery

variable (r : StartupRecovery)

def newStream (now : ℕ) : StartupRecovery :=
  let r := if r.decoded then {} else r
  { r with keyframeAt := none, since := some (r.since.getD now) }

def received (keyframe droppedDelta : Bool) (now : ℕ) : StartupRecovery :=
  { r with
    since := some (r.since.getD now)
    keyframeAt := if keyframe then some (r.keyframeAt.getD now) else r.keyframeAt
    droppedDeltas := if droppedDelta then saturatingAdd r.droppedDeltas 1 else r.droppedDeltas }

/-- The startup has taken too long, or the last restart has. -/
def Exhausted (since now : ℕ) : Prop :=
  startupLimit ≤ now - since ∨ maxCaptureRetries ≤ r.captureAttempts ∧
    ∃ last ∈ r.lastCapture, captureRetryInterval ≤ now - last

/-- A reference frame may be asked for. -/
def ReferenceDue (knownStream scopedSupported : Bool) (now : ℕ) : Prop :=
  knownStream ∧ scopedSupported ∧ r.referenceAttempts < maxReferences ∧
    longAgo r.keyframeAt decodeGrace now ∧ longAgo r.lastAction referenceInterval now

/-- A new capture may be asked for. -/
def CaptureDue (since now : ℕ) : Prop :=
  firstCaptureRetry ≤ now - since ∧ r.captureAttempts < maxCaptureRetries ∧
    longAgo r.lastCapture captureRetryInterval now ∧ longAgo r.lastAction decodeGrace now

instance (since now : ℕ) : Decidable (r.Exhausted since now) :=
  inferInstanceAs (Decidable (_ ∨ _ ∧ _))

instance (knownStream scopedSupported : Bool) (now : ℕ) :
    Decidable (r.ReferenceDue knownStream scopedSupported now) :=
  inferInstanceAs (Decidable (_ ∧ _))

instance (since now : ℕ) : Decidable (r.CaptureDue since now) :=
  inferInstanceAs (Decidable (_ ∧ _))

def next (now : ℕ) (knownStream scopedSupported : Bool) :
    Option StartupRecoveryAction × StartupRecovery :=
  if r.decoded || r.failed then (none, r)
  else
    let since := r.since.getD now
    let r := { r with since := some since }
    if r.Exhausted since now then (some .failed, { r with failed := true })
    else if ¬ longAgo r.lastTry referenceInterval now then (none, r)
    else if r.ReferenceDue knownStream scopedSupported now then (some .reference, r)
    else if r.CaptureDue since now then (some .capture, r)
    else (none, r)

def admitted (action : StartupRecoveryAction) (now : ℕ) : StartupRecovery :=
  match action with
  | .reference =>
      { r with referenceAttempts := r.referenceAttempts + 1, lastAction := some now }
  | .capture =>
      { r with
        captureAttempts := r.captureAttempts + 1
        lastCapture := some now
        lastAction := some now }
  | .failed => r

def attempted (now : ℕ) : StartupRecovery := { r with lastTry := some now }

end StartupRecovery

/-! ## Calls -/

/-- A call of the recovery.  `admitted` is about the action that the last `next` returned,
and comes with its time. -/
inductive StartupCall
  | next (now : ℕ) (knownStream scopedSupported : Bool)
  | attempted (now : ℕ)
  | admitted
  | received (keyframe droppedDelta : Bool) (now : ℕ)
  | newStream (now : ℕ)
deriving DecidableEq, Repr

def StartupCall.time : StartupCall → Option ℕ
  | .next now _ _ => some now
  | .attempted now => some now
  | .admitted => none
  | .received _ _ now => some now
  | .newStream now => some now

/-- The calls that start the clock of the recovery. -/
def StartupCall.opens : StartupCall → Option ℕ
  | .next now _ _ => some now
  | .received _ _ now => some now
  | .newStream now => some now
  | _ => none

/-- A recovery with the actions that `next` returned and those of them that were admitted. -/
structure StartupTrace where
  recovery : StartupRecovery := {}
  pending : Option (StartupRecoveryAction × ℕ) := none
  returned : List (StartupRecoveryAction × ℕ) := []
  admitted : List (StartupRecoveryAction × ℕ) := []
deriving DecidableEq, Repr

namespace StartupTrace

/-- The trace after an action was admitted. -/
def admitAction (t : StartupTrace) (action : StartupRecoveryAction) (time : ℕ) :
    StartupTrace :=
  { t with
    recovery := t.recovery.admitted action time
    pending := none
    admitted := t.admitted ++ [(action, time)] }

def call (t : StartupTrace) : StartupCall → StartupTrace
  | .next now knownStream scopedSupported =>
      let result := t.recovery.next now knownStream scopedSupported
      let pending := result.1.map (·, now)
      { t with
        recovery := result.2
        pending := pending
        returned := t.returned ++ pending.toList }
  | .attempted now => { t with recovery := t.recovery.attempted now }
  | .admitted =>
      match t.pending with
      | none => t
      | some (action, time) => t.admitAction action time
  | .received keyframe droppedDelta now =>
      { t with recovery := t.recovery.received keyframe droppedDelta now }
  | .newStream now => { t with recovery := t.recovery.newStream now }

def after (calls : List StartupCall) : StartupTrace := calls.foldl call {}

theorem after_concat (calls : List StartupCall) (c : StartupCall) :
    after (calls ++ [c]) = (after calls).call c := by
  simp [after]

/-- The admitted actions of one kind. -/
def admittedOf (t : StartupTrace) (action : StartupRecoveryAction) :
    List (StartupRecoveryAction × ℕ) := t.admitted.filter (·.1 == action)

/-- The admitted actions that change something on the host. -/
def requests (t : StartupTrace) : List (StartupRecoveryAction × ℕ) :=
  t.admitted.filter (·.1 != .failed)

end StartupTrace

/-! ## One call -/

/-- What was spent, and since when. -/
structure SameBudget (r r' : StartupRecovery) : Prop where
  decoded : r'.decoded = r.decoded
  references : r'.referenceAttempts = r.referenceAttempts
  captures : r'.captureAttempts = r.captureAttempts
  lastAction : r'.lastAction = r.lastAction
  lastCapture : r'.lastCapture = r.lastCapture
  since : ∀ since, r.since = some since → r'.since = some since

theorem sameBudget_received (r : StartupRecovery) (keyframe droppedDelta : Bool) (now : ℕ) :
    SameBudget r (r.received keyframe droppedDelta now) := by
  refine ⟨rfl, rfl, rfl, rfl, rfl, fun since hsince => ?_⟩
  show some (r.since.getD now) = some since
  rw [hsince]
  rfl

/-- A stream that does not decode gives no new budget. -/
theorem sameBudget_newStream {r : StartupRecovery} (hdecoded : r.decoded = false) (now : ℕ) :
    SameBudget r (r.newStream now) := by
  unfold StartupRecovery.newStream
  rw [hdecoded]
  refine ⟨rfl, rfl, rfl, rfl, rfl, fun since hsince => ?_⟩
  show some (r.since.getD now) = some since
  rw [hsince]
  rfl

theorem sameBudget_attempted (r : StartupRecovery) (now : ℕ) : SameBudget r (r.attempted now) :=
  ⟨rfl, rfl, rfl, rfl, rfl, fun _ hsince => hsince⟩

/-- The clock of the recovery has been started. -/
theorem sameBudget_since (r : StartupRecovery) (now : ℕ) :
    SameBudget r { r with since := some (r.since.getD now) } := by
  refine ⟨rfl, rfl, rfl, rfl, rfl, fun since hsince => ?_⟩
  show some (r.since.getD now) = some since
  rw [hsince]
  rfl

/-- What `next` can return. -/
theorem next_cases {r : StartupRecovery} (hdecoded : r.decoded = false) (now : ℕ)
    (knownStream scopedSupported : Bool) :
    r.failed = true ∧ r.next now knownStream scopedSupported = (none, r) ∨
    r.failed = false ∧ ({ r with since := some (r.since.getD now) } : StartupRecovery).Exhausted
        (r.since.getD now) now ∧
      r.next now knownStream scopedSupported =
        (some .failed, { r with since := some (r.since.getD now), failed := true }) ∨
    r.failed = false ∧ ¬ startupLimit ≤ now - r.since.getD now ∧ ∃ action,
      r.next now knownStream scopedSupported =
        (action, { r with since := some (r.since.getD now) }) ∧
      (action = none ∨
        action = some .reference ∧ r.ReferenceDue knownStream scopedSupported now ∨
        action = some .capture ∧ r.CaptureDue (r.since.getD now) now) := by
  unfold StartupRecovery.next
  rw [hdecoded]
  cases hfailed : r.failed with
  | true => exact .inl ⟨rfl, rfl⟩
  | false =>
      refine .inr ?_
      dsimp only
      rw [if_neg (by simp)]
      split
      · next hexhausted => exact .inl ⟨rfl, hexhausted, rfl⟩
      · next hgoing =>
          refine .inr ⟨rfl, fun hlimit => hgoing (.inl hlimit), ?_⟩
          split
          · exact ⟨none, rfl, .inl rfl⟩
          · split
            · next hreference => exact ⟨_, rfl, .inr (.inl ⟨rfl, hreference⟩)⟩
            · split
              · next hcapture => exact ⟨_, rfl, .inr (.inr ⟨rfl, hcapture⟩)⟩
              · exact ⟨none, rfl, .inl rfl⟩

/-- An action may be admitted at a time. -/
def Admissible (r : StartupRecovery) (time : ℕ) : StartupRecoveryAction → Prop
  | .reference => r.referenceAttempts < maxReferences ∧
      ∀ last ∈ r.lastAction, last + referenceInterval ≤ time
  | .capture => r.captureAttempts < maxCaptureRetries ∧
      (∃ since, r.since = some since ∧ since + firstCaptureRetry ≤ time) ∧
      (∀ last ∈ r.lastCapture, last + captureRetryInterval ≤ time) ∧
      ∀ last ∈ r.lastAction, last + referenceInterval ≤ time
  | .failed => True

theorem Admissible.congr {r r' : StartupRecovery} {time : ℕ} {action : StartupRecoveryAction}
    (h : Admissible r time action) (hsame : SameBudget r r') : Admissible r' time action := by
  cases action with
  | reference =>
      refine ⟨hsame.references ▸ h.1, ?_⟩
      rw [hsame.lastAction]
      exact h.2
  | capture =>
      obtain ⟨hattempts, ⟨since, hsince, hlate⟩, hcapture, haction⟩ := h
      refine ⟨hsame.captures ▸ hattempts, ⟨since, hsame.since since hsince, hlate⟩, ?_, ?_⟩
      · rw [hsame.lastCapture]
        exact hcapture
      · rw [hsame.lastAction]
        exact haction
  | failed => trivial

/-- What `next` returns may be admitted. -/
theorem admissible_next {r : StartupRecovery} (hdecoded : r.decoded = false) {now : ℕ}
    {knownStream scopedSupported : Bool} {action : StartupRecoveryAction}
    (h : (r.next now knownStream scopedSupported).1 = some action) :
    Admissible (r.next now knownStream scopedSupported).2 now action := by
  rcases next_cases hdecoded now knownStream scopedSupported with
    ⟨-, hnext⟩ | ⟨-, -, hnext⟩ | ⟨-, -, returned, hnext, haction⟩
  · rw [hnext] at h
    cases h
  · rw [hnext] at h
    obtain rfl : StartupRecoveryAction.failed = action := Option.some.inj h
    trivial
  · rw [hnext] at h ⊢
    obtain rfl : returned = some action := h
    rcases haction with hnone | ⟨hsome, hdue⟩ | ⟨hsome, hdue⟩
    · cases hnone
    · obtain rfl := Option.some.inj hsome
      obtain ⟨-, -, hattempts, -, hago⟩ := hdue
      refine ⟨hattempts, fun last hlast => ?_⟩
      have hinterval : referenceInterval = 750000000 := rfl
      have := hago last hlast
      omega
    · obtain rfl := Option.some.inj hsome
      obtain ⟨hsince, hattempts, hcapture, haction⟩ := hdue
      have hinterval : referenceInterval = 750000000 := rfl
      have hgrace : decodeGrace = 3000000000 := rfl
      have hfirst : firstCaptureRetry = 15000000000 := rfl
      have hretry : captureRetryInterval = 40000000000 := rfl
      refine ⟨hattempts, ⟨_, rfl, by omega⟩, fun last hlast => ?_, fun last hlast => ?_⟩
      · have := hcapture last hlast
        omega
      · have := haction last hlast
        omega

/-! ## The budget -/

/-- What was admitted, as the recovery remembers it. -/
structure Budgeted (t : StartupTrace) : Prop where
  decoded : t.recovery.decoded = false
  references : (t.admittedOf .reference).length = t.recovery.referenceAttempts
  references_le : t.recovery.referenceAttempts ≤ maxReferences
  captures : (t.admittedOf .capture).length = t.recovery.captureAttempts
  captures_le : t.recovery.captureAttempts ≤ maxCaptureRetries
  lastAction : t.recovery.lastAction = t.requests.getLast?.map Prod.snd
  lastCapture : t.recovery.lastCapture = (t.admittedOf .capture).getLast?.map Prod.snd
  requests_apart : t.requests.IsChain fun first second => first.2 + referenceInterval ≤ second.2
  captures_apart : (t.admittedOf .capture).IsChain fun first second =>
    first.2 + captureRetryInterval ≤ second.2
  captures_late : ∀ capture ∈ t.admittedOf .capture, ∃ since,
    t.recovery.since = some since ∧ since + firstCaptureRetry ≤ capture.2
  pending : ∀ action time, t.pending = some (action, time) → Admissible t.recovery time action

theorem budgeted_start : Budgeted {} where
  decoded := rfl
  references := rfl
  references_le := Nat.zero_le _
  captures := rfl
  captures_le := Nat.zero_le _
  lastAction := rfl
  lastCapture := rfl
  requests_apart := .nil
  captures_apart := .nil
  captures_late _ hmem := by cases hmem
  pending _ _ hpending := by cases hpending

/-- A call that admits no request. -/
theorem Budgeted.keep {t t' : StartupTrace} (h : Budgeted t)
    (hsame : SameBudget t.recovery t'.recovery)
    (hreferences : t'.admittedOf .reference = t.admittedOf .reference)
    (hcaptures : t'.admittedOf .capture = t.admittedOf .capture)
    (hrequests : t'.requests = t.requests)
    (hpending : ∀ action time, t'.pending = some (action, time) →
      Admissible t'.recovery time action) : Budgeted t' := by
  constructor
  · exact hsame.decoded.trans h.decoded
  · rw [hreferences, hsame.references]
    exact h.references
  · exact hsame.references.trans_le h.references_le
  · rw [hcaptures, hsame.captures]
    exact h.captures
  · exact hsame.captures.trans_le h.captures_le
  · rw [hrequests, hsame.lastAction]
    exact h.lastAction
  · rw [hcaptures, hsame.lastCapture]
    exact h.lastCapture
  · rw [hrequests]
    exact h.requests_apart
  · rw [hcaptures]
    exact h.captures_apart
  · intro capture hmem
    rw [hcaptures] at hmem
    obtain ⟨since, hsince, hlate⟩ := h.captures_late capture hmem
    exact ⟨since, hsame.since since hsince, hlate⟩
  · exact hpending

theorem isChain_concat {α : Type*} {R : α → α → Prop} {items : List α} (h : items.IsChain R)
    {item : α} (hlast : ∀ last ∈ items.getLast?, R last item) : (items ++ [item]).IsChain R :=
  List.isChain_append.mpr ⟨h, .singleton item, fun last hmem other hother => by
    obtain rfl : item = other := Option.some.inj hother
    exact hlast last hmem⟩

theorem admittedOf_admitAction (t : StartupTrace) (action kind : StartupRecoveryAction) (time : ℕ) :
    (t.admitAction action time).admittedOf kind =
      t.admittedOf kind ++ if action = kind then [(action, time)] else [] := by
  unfold StartupTrace.admittedOf StartupTrace.admitAction
  rw [List.filter_append, List.filter_singleton]
  by_cases h : action = kind
  · rw [if_pos h, show (action == kind) = true from beq_iff_eq.mpr h]
    rfl
  · rw [if_neg h, show (action == kind) = false from beq_eq_false_iff_ne.mpr h]
    rfl

theorem requests_admitAction {action : StartupRecoveryAction} (h : action ≠ .failed)
    (t : StartupTrace) (time : ℕ) :
    (t.admitAction action time).requests = t.requests ++ [(action, time)] := by
  unfold StartupTrace.requests StartupTrace.admitAction
  rw [List.filter_append, List.filter_singleton, show (action != .failed) = true from
    bne_iff_ne.mpr h]
  rfl

/-- Admitting the pending action spends what there is to spend. -/
theorem Budgeted.admitAction {t : StartupTrace} (h : Budgeted t) {action : StartupRecoveryAction}
    {time : ℕ} (hallowed : Admissible t.recovery time action) :
    Budgeted (t.admitAction action time) := by
  have hnone : ∀ (other : StartupRecoveryAction) (now : ℕ),
      (t.admitAction action time).pending = some (other, now) →
        Admissible (t.admitAction action time).recovery now other := by
    intro other now hnone
    cases hnone
  -- the time of the last request bounds this one
  have hrequest : (∀ last ∈ t.recovery.lastAction, last + referenceInterval ≤ time) →
      ∀ last ∈ t.requests.getLast?, last.2 + referenceInterval ≤ time := by
    intro hago last hlast
    refine hago last.2 ?_
    rw [h.lastAction, hlast]
    rfl
  cases action with
  | reference =>
      obtain ⟨hattempts, hago⟩ := hallowed
      have hcaptures : (t.admitAction .reference time).admittedOf .capture =
          t.admittedOf .capture := by
        rw [admittedOf_admitAction, if_neg (by decide), List.append_nil]
      refine ⟨h.decoded, ?_, hattempts, ?_, h.captures_le, ?_, ?_, ?_, ?_, ?_, hnone⟩
      · rw [admittedOf_admitAction, if_pos rfl, List.length_append, h.references]
        rfl
      · rw [hcaptures]
        exact h.captures
      · rw [requests_admitAction (by decide), List.getLast?_concat]
        rfl
      · rw [hcaptures]
        exact h.lastCapture
      · rw [requests_admitAction (by decide)]
        exact isChain_concat h.requests_apart (hrequest hago)
      · rw [hcaptures]
        exact h.captures_apart
      · rw [hcaptures]
        exact h.captures_late
  | capture =>
      obtain ⟨hattempts, hlate, hcapture, hago⟩ := hallowed
      have hcaptures : (t.admitAction .capture time).admittedOf .capture =
          t.admittedOf .capture ++ [(.capture, time)] := by
        rw [admittedOf_admitAction, if_pos rfl]
      refine ⟨h.decoded, ?_, h.references_le, ?_, hattempts, ?_, ?_, ?_, ?_, ?_, hnone⟩
      · rw [admittedOf_admitAction, if_neg (by decide), List.append_nil]
        exact h.references
      · rw [hcaptures, List.length_append, h.captures]
        rfl
      · rw [requests_admitAction (by decide), List.getLast?_concat]
        rfl
      · rw [hcaptures, List.getLast?_concat]
        rfl
      · rw [requests_admitAction (by decide)]
        exact isChain_concat h.requests_apart (hrequest hago)
      · rw [hcaptures]
        refine isChain_concat h.captures_apart fun last hlast => hcapture last.2 ?_
        rw [h.lastCapture, hlast]
        rfl
      · intro capture hmem
        rw [hcaptures] at hmem
        rcases List.mem_append.mp hmem with hmem | hmem
        · exact h.captures_late capture hmem
        · obtain rfl := List.mem_singleton.mp hmem
          exact hlate
  | failed =>
      have hof : ∀ kind, kind ≠ .failed → (t.admitAction .failed time).admittedOf kind =
          t.admittedOf kind := by
        intro kind hkind
        rw [admittedOf_admitAction, if_neg hkind.symm, List.append_nil]
      have hrequests : (t.admitAction .failed time).requests = t.requests := by
        unfold StartupTrace.requests StartupTrace.admitAction
        rw [List.filter_append]
        exact List.append_nil _
      have hsame : SameBudget t.recovery (t.admitAction .failed time).recovery :=
        ⟨rfl, rfl, rfl, rfl, rfl, fun _ hsince => hsince⟩
      exact h.keep hsame (hof _ (by decide)) (hof _ (by decide)) hrequests hnone

/-- After `next` the clock runs, and no budget has changed. -/
theorem sameBudget_next {r : StartupRecovery} (hdecoded : r.decoded = false) (now : ℕ)
    (knownStream scopedSupported : Bool) :
    SameBudget r (r.next now knownStream scopedSupported).2 := by
  have hsince := sameBudget_since r now
  rcases next_cases hdecoded now knownStream scopedSupported with
    ⟨-, hnext⟩ | ⟨-, -, hnext⟩ | ⟨-, -, returned, hnext, -⟩
  · rw [hnext]
    exact ⟨rfl, rfl, rfl, rfl, rfl, fun _ hsince => hsince⟩
  · rw [hnext]
    exact ⟨hsince.decoded, rfl, rfl, rfl, rfl, hsince.since⟩
  · rw [hnext]
    exact hsince

theorem Budgeted.call {t : StartupTrace} (h : Budgeted t) (c : StartupCall) :
    Budgeted (t.call c) := by
  have hpending : ∀ {r : StartupRecovery}, SameBudget t.recovery r → ∀ action time,
      t.pending = some (action, time) → Admissible r time action :=
    fun hsame action time hsome => (h.pending action time hsome).congr hsame
  cases c with
  | next now knownStream scopedSupported =>
      refine h.keep (sameBudget_next h.decoded now _ _) rfl rfl rfl fun action time hsome => ?_
      obtain ⟨returned, hreturned, heq⟩ := Option.map_eq_some_iff.mp hsome
      obtain ⟨rfl, rfl⟩ := Prod.mk.inj heq
      exact admissible_next h.decoded hreturned
  | attempted now =>
      have hsame := sameBudget_attempted t.recovery now
      exact h.keep hsame rfl rfl rfl (hpending hsame)
  | admitted =>
      unfold StartupTrace.call
      cases hsome : t.pending with
      | none => exact h
      | some pending => exact h.admitAction (h.pending pending.1 pending.2 hsome)
  | received keyframe droppedDelta now =>
      have hsame := sameBudget_received t.recovery keyframe droppedDelta now
      exact h.keep hsame rfl rfl rfl (hpending hsame)
  | newStream now =>
      have hsame := sameBudget_newStream h.decoded now
      exact h.keep hsame rfl rfl rfl (hpending hsame)

theorem budgeted_after (calls : List StartupCall) : Budgeted (.after calls) := by
  induction calls using List.reverseRecOn with
  | nil => exact budgeted_start
  | append_singleton calls c ih =>
      rw [StartupTrace.after_concat]
      exact ih.call c

/-! ## The end -/

/-- After `failed` nothing is returned. -/
structure Ended (t : StartupTrace) : Prop where
  last : ∀ i time, t.returned[i]? = some (.failed, time) → i + 1 = t.returned.length
  failed_iff : t.recovery.failed = true ↔ ∃ time, (.failed, time) ∈ t.returned

/-- One more action is returned, and none was the last. -/
theorem Ended.concat {t t' : StartupTrace} (h : Ended t) (hfailed : t.recovery.failed = false)
    {action : StartupRecoveryAction} {time : ℕ}
    (hreturned : t'.returned = t.returned ++ [(action, time)])
    (hafter : t'.recovery.failed = true ↔ action = .failed) : Ended t' := by
  have hnone : ∀ time, (StartupRecoveryAction.failed, time) ∉ t.returned := by
    intro time hmem
    have := h.failed_iff.mpr ⟨time, hmem⟩
    rw [hfailed] at this
    cases this
  constructor
  · intro i at' hget
    rw [hreturned] at hget ⊢
    have hlt : i < (t.returned ++ [(action, time)]).length := (List.getElem?_eq_some_iff.mp hget).1
    rw [List.length_append, List.length_singleton] at hlt ⊢
    by_cases hold : i < t.returned.length
    · rw [List.getElem?_append_left hold] at hget
      exact absurd (List.mem_of_getElem? hget) (hnone at')
    · omega
  · rw [hreturned, hafter]
    constructor
    · rintro rfl
      exact ⟨time, by simp⟩
    · rintro ⟨at', hmem⟩
      rcases List.mem_append.mp hmem with hmem | hmem
      · exact absurd hmem (hnone at')
      · exact (Prod.mk.inj (List.mem_singleton.mp hmem)).1.symm

theorem Ended.keep {t t' : StartupTrace} (h : Ended t) (hreturned : t'.returned = t.returned)
    (hfailed : t'.recovery.failed = t.recovery.failed) : Ended t' := by
  refine ⟨fun i time hget => ?_, ?_⟩
  · rw [hreturned] at hget ⊢
    exact h.last i time hget
  · rw [hreturned, hfailed]
    exact h.failed_iff

theorem Ended.call {t : StartupTrace} (h : Ended t) (hbudgeted : Budgeted t) (c : StartupCall) :
    Ended (t.call c) := by
  cases c with
  | next now knownStream scopedSupported =>
      rcases next_cases hbudgeted.decoded now knownStream scopedSupported with
        ⟨-, hnext⟩ | ⟨hfailed, -, hnext⟩ | ⟨hfailed, -, returned, hnext, haction⟩
      · refine h.keep ?_ ?_
        · simp [StartupTrace.call, hnext]
        · simp [StartupTrace.call, hnext]
      · have hreturned : (t.call (.next now knownStream scopedSupported)).returned =
            t.returned ++ [(.failed, now)] := by
          simp [StartupTrace.call, hnext]
        refine h.concat hfailed hreturned ?_
        · simp [StartupTrace.call, hnext]
      · cases returned with
        | none =>
            refine h.keep ?_ ?_
            · simp [StartupTrace.call, hnext]
            · simp [StartupTrace.call, hnext]
        | some action =>
            have hgoing : action ≠ .failed := by
              rintro rfl
              simp at haction
            have hreturned : (t.call (.next now knownStream scopedSupported)).returned =
                t.returned ++ [(action, now)] := by
              simp [StartupTrace.call, hnext]
            refine h.concat hfailed hreturned ?_
            · simp [StartupTrace.call, hnext, hfailed, hgoing]
  | attempted now => exact h.keep rfl rfl
  | admitted =>
      unfold StartupTrace.call
      cases hsome : t.pending with
      | none => exact h
      | some pending =>
          obtain ⟨action, time⟩ := pending
          refine h.keep rfl ?_
          cases action <;> rfl
  | received keyframe droppedDelta now => exact h.keep rfl rfl
  | newStream now =>
      refine h.keep rfl ?_
      show (t.recovery.newStream now).failed = t.recovery.failed
      unfold StartupRecovery.newStream
      rw [hbudgeted.decoded]
      rfl

theorem ended_after (calls : List StartupCall) : Ended (.after calls) := by
  induction calls using List.reverseRecOn with
  | nil => exact ⟨by simp [StartupTrace.after], by simp [StartupTrace.after]⟩
  | append_singleton calls c ih =>
      rw [StartupTrace.after_concat]
      exact ih.call (budgeted_after calls) c

/-! ## The clock -/

/-- The clock runs since the first call that starts it, and it ran when the end came. -/
structure Clocked (calls : List StartupCall) (t : StartupTrace) : Prop where
  since_eq : t.recovery.since = (calls.filterMap StartupCall.opens).head?
  ended : t.recovery.failed = true → t.recovery.since.isSome

/-- A call that starts the clock unless it runs. -/
theorem Clocked.concat {calls : List StartupCall} {t t' : StartupTrace} (h : Clocked calls t)
    {c : StartupCall} (now : ℕ) (hopens : c.opens = some now)
    (hsince : t'.recovery.since = some (t.recovery.since.getD now)) :
    Clocked (calls ++ [c]) t' := by
  refine ⟨?_, fun _ => hsince ▸ rfl⟩
  rw [hsince, h.since_eq, List.filterMap_append, List.head?_append]
  cases (calls.filterMap StartupCall.opens).head? with
  | none => simp [hopens]
  | some since => rfl

theorem Clocked.keep {calls : List StartupCall} {t t' : StartupTrace} (h : Clocked calls t)
    {c : StartupCall} (hopens : c.opens = none)
    (hsince : t'.recovery.since = t.recovery.since)
    (hfailed : t'.recovery.failed = t.recovery.failed) : Clocked (calls ++ [c]) t' := by
  refine ⟨?_, fun hended => ?_⟩
  · rw [hsince, h.since_eq, List.filterMap_append]
    simp [hopens]
  · rw [hsince]
    exact h.ended (hfailed ▸ hended)

theorem Clocked.call {calls : List StartupCall} {t : StartupTrace} (h : Clocked calls t)
    (hbudgeted : Budgeted t) (c : StartupCall) : Clocked (calls ++ [c]) (t.call c) := by
  cases c with
  | next now knownStream scopedSupported =>
      refine h.concat now rfl ?_
      rcases next_cases hbudgeted.decoded now knownStream scopedSupported with
        ⟨hfailed, hnext⟩ | ⟨-, -, hnext⟩ | ⟨-, -, returned, hnext, -⟩
      · obtain ⟨since, hsince⟩ := Option.isSome_iff_exists.mp (h.ended hfailed)
        simp [StartupTrace.call, hnext, hsince]
      · simp [StartupTrace.call, hnext]
      · simp [StartupTrace.call, hnext]
  | attempted now => exact h.keep rfl rfl rfl
  | admitted =>
      unfold StartupTrace.call
      cases hsome : t.pending with
      | none => exact h.keep rfl rfl rfl
      | some pending =>
          obtain ⟨action, time⟩ := pending
          refine h.keep rfl ?_ ?_
          · cases action <;> rfl
          · cases action <;> rfl
  | received keyframe droppedDelta now => exact h.concat now rfl rfl
  | newStream now =>
      refine h.concat now rfl ?_
      show (t.recovery.newStream now).since = _
      unfold StartupRecovery.newStream
      rw [hbudgeted.decoded]
      rfl

theorem clocked_after (calls : List StartupCall) : Clocked calls (.after calls) := by
  induction calls using List.reverseRecOn with
  | nil => exact ⟨rfl, fun hended => by cases hended⟩
  | append_singleton calls c ih =>
      rw [StartupTrace.after_concat]
      exact ih.call (budgeted_after calls) c

/-- The clock does not start before the first call. -/
theorem first_le_since {calls : List StartupCall}
    (hsorted : (calls.filterMap StartupCall.time).Pairwise (· ≤ ·)) {first since : ℕ}
    (hfirst : (calls.filterMap StartupCall.time).head? = some first)
    (hsince : (calls.filterMap StartupCall.opens).head? = some since) : first ≤ since := by
  have hmem : since ∈ calls.filterMap StartupCall.time := by
    obtain ⟨c, hc, hopens⟩ := List.mem_filterMap.mp (List.mem_of_mem_head? hsince)
    refine List.mem_filterMap.mpr ⟨c, hc, ?_⟩
    cases c <;> simp_all [StartupCall.opens, StartupCall.time]
  cases htimes : calls.filterMap StartupCall.time with
  | nil =>
      rw [htimes] at hfirst
      cases hfirst
  | cons time times =>
      rw [htimes] at hfirst hmem hsorted
      obtain rfl : time = first := Option.some.inj hfirst
      rcases List.mem_cons.mp hmem with rfl | hmem
      · exact le_refl _
      · exact (List.pairwise_cons.mp hsorted).1 since hmem

/-- **One budget for an activation.**  As long as nothing decodes, the requests stay within
their numbers and keep their distances, and at the end comes one failure. -/
theorem startupRecovery_budgeted {calls : List StartupCall}
    (hsorted : (calls.filterMap StartupCall.time).Pairwise (· ≤ ·)) :
    let t := StartupTrace.after calls
    (t.admittedOf .reference).length ≤ 3 ∧ (t.admittedOf .capture).length ≤ 2 ∧
    (∀ first ∈ (calls.filterMap StartupCall.time).head?, ∀ capture ∈ t.admittedOf .capture,
      first + secs 15 ≤ capture.2) ∧
    ((t.admittedOf .capture).IsChain fun first second => first.2 + secs 40 ≤ second.2) ∧
    (t.requests.IsChain fun first second => first.2 + millis 750 ≤ second.2) ∧
    (∀ i time, t.returned[i]? = some (.failed, time) → i + 1 = t.returned.length) ∧
    (∀ first ∈ (calls.filterMap StartupCall.opens).head?, (∀ time, (.failed, time) ∉ t.returned) →
      ∀ now knownStream scopedSupported, first + secs 110 ≤ now →
        (t.recovery.next now knownStream scopedSupported).1 = some .failed) ∧
    ∀ now, SameBudget t.recovery (t.recovery.newStream now) ∧ ∀ keyframe droppedDelta,
      SameBudget t.recovery (t.recovery.received keyframe droppedDelta now) := by
  have hbudgeted := budgeted_after calls
  have hended := ended_after calls
  have hclocked := clocked_after calls
  refine ⟨?_, ?_, ?_, hbudgeted.captures_apart, hbudgeted.requests_apart, hended.last, ?_,
    fun now => ⟨sameBudget_newStream hbudgeted.decoded now,
      fun keyframe droppedDelta => sameBudget_received _ _ _ _⟩⟩
  · exact hbudgeted.references.trans_le hbudgeted.references_le
  · exact hbudgeted.captures.trans_le hbudgeted.captures_le
  · intro first hfirst capture hmem
    obtain ⟨since, hsince, hlate⟩ := hbudgeted.captures_late capture hmem
    have hle := first_le_since hsorted hfirst (hclocked.since_eq ▸ hsince)
    exact (Nat.add_le_add_right hle _).trans hlate
  · intro first hfirst hnone now knownStream scopedSupported hnow
    have hsince : (StartupTrace.after calls).recovery.since = some first :=
      hclocked.since_eq.trans hfirst
    rcases next_cases hbudgeted.decoded now knownStream scopedSupported with
      ⟨hfailed, -⟩ | ⟨-, -, hnext⟩ | ⟨-, hearly, -⟩
    · obtain ⟨time, hmem⟩ := hended.failed_iff.mp hfailed
      exact absurd hmem (hnone time)
    · rw [hnext]
    · refine absurd ?_ hearly
      rw [hsince]
      exact Nat.le_sub_of_add_le' hnow

/-- Three reference frames and two captures that help nothing. -/
def spentBudget : List StartupCall :=
  [.next 0 true true, .admitted, .next (secs 1) true true, .admitted, .next (secs 2) true true,
    .admitted, .received false true (secs 10), .next (secs 16) true true, .admitted,
    .newStream (secs 20), .next (secs 30) true true, .next (secs 56) true true, .admitted]

/-- `startupRecovery_budgeted` where all requests are spent. -/
theorem startupRecovery_budgeted_spent :
    let t := StartupTrace.after spentBudget
    t.admitted = [(.reference, 0), (.reference, secs 1), (.reference, secs 2),
        (.capture, secs 16), (.capture, secs 56)] ∧
      ((t.admittedOf .capture).IsChain fun first second => first.2 + secs 40 ≤ second.2) ∧
      (t.requests.IsChain fun first second => first.2 + millis 750 ≤ second.2) ∧
      (t.recovery.next (secs 110) true true).1 = some .failed := by
  have hsorted : (spentBudget.filterMap StartupCall.time).Pairwise (· ≤ ·) := by decide
  have hreturned : (StartupTrace.after spentBudget).returned = [(.reference, 0),
      (.reference, secs 1), (.reference, secs 2), (.capture, secs 16), (.capture, secs 56)] := by
    decide
  have hadmitted : (StartupTrace.after spentBudget).admitted = [(.reference, 0),
      (.reference, secs 1), (.reference, secs 2), (.capture, secs 16), (.capture, secs 56)] := by
    decide
  obtain ⟨-, -, -, hcaptures, hrequests, -, hfailed, -⟩ := startupRecovery_budgeted hsorted
  exact ⟨hadmitted, hcaptures, hrequests,
    hfailed 0 rfl (by simp [hreturned]) (secs 110) true true (by decide)⟩

/-- A first call of `attempted` does not start the clock, and a failure that is admitted
keeps no distance. -/
theorem attempted_starts_no_clock :
    ((StartupTrace.after [.attempted 0]).recovery.next (secs 110) true true).1 =
        some .reference ∧
      (StartupTrace.after [.next 0 false false, .next (millis 109900) true true, .admitted,
        .next (secs 110) true true, .admitted]).admitted =
          [(.reference, millis 109900), (.failed, secs 110)] := by
  decide

end RustAdmin.Viewer
