import Mathlib.Data.List.Induction
import RustAdmin.Service.Subscribers

/-!
# Snapshots

A service that needs a snapshot keeps new subscribers apart until its thread calls
the snapshot callback.  The messages of the callback go to those that wait at that
moment, and the drop of its handle makes all that wait at that later moment active.
Each step takes the service lock on its own.

The phase of the service thread carries the messages sent so far and the subscribers
that came late.  `Accounted` says in each phase what those that wait have received:
all of it, or, of the late ones, not all of it (`Waiting`).  So the drop completes the
snapshot exactly if nobody came late (`full_iff`), and the phase before it decides.
-/

namespace RustAdmin.Service

open RustAdmin.Support

variable {μ : Type*}

/-- Where the service thread stands within `snapshot`. -/
inductive SnapshotPhase (μ : Type*)
  /-- Not in a callback. -/
  | outside
  /-- In the callback, which has sent these messages; `late` are the subscribers that
  came to wait after the first of them. -/
  | calling (sent : List μ) (late : List ConnId)
  /-- The handle has been dropped, which made these subscribers active. -/
  | dropped (sent : List μ) (late : List ConnId) (promoted : List (ConnId × List μ))

/-- A callback that has returned: what it sent, who came late, who became active with
what they had received, and whether it succeeded. -/
structure SnapshotRecord (μ : Type*) where
  sent : List μ
  late : List ConnId
  promoted : List (ConnId × List μ)
  succeeded : Bool

structure SnapshotRun (μ : Type*) where
  inner : ServiceInner μ
  phase : SnapshotPhase μ
  finished : List (SnapshotRecord μ)

inductive SnapshotEvent (μ : Type*)
  | subscribe (id : ConnId)
  | unsubscribe (id : ConnId)
  /-- `snapshot` looks for new subscribers and calls the callback if there are any. -/
  | check
  | swapSend (msg : μ)
  /-- The `ServiceSwap` is dropped. -/
  | drop
  | finish (succeeds : Bool)
  | send (receives : ConnId → Bool) (msg : μ)

/-- The subscriber comes to wait, after the first message of the callback. -/
def SnapshotPhase.arrive (phase : SnapshotPhase μ) (inner : ServiceInner μ) (id : ConnId) :
    SnapshotPhase μ :=
  match phase with
  | .calling (msg :: sent) late =>
      if inner.subscribes.contains id then phase else .calling (msg :: sent) (id :: late)
  | _ => phase

/-- The subscriber leaves. -/
def SnapshotPhase.leave (phase : SnapshotPhase μ) (id : ConnId) : SnapshotPhase μ :=
  match phase with
  | .calling sent late => .calling sent (late.filter (· ≠ id))
  | _ => phase

namespace SnapshotRun

def start : SnapshotRun μ := ⟨.new true, .outside, []⟩

/-- One step.  A step of the thread that its place does not allow does nothing. -/
def step (r : SnapshotRun μ) : SnapshotEvent μ → SnapshotRun μ
  | .subscribe id =>
      { r with inner := r.inner.onSubscribe id, phase := r.phase.arrive r.inner id }
  | .unsubscribe id =>
      { r with inner := r.inner.onUnsubscribe id, phase := r.phase.leave id }
  | .check =>
      match r.phase with
      | .outside =>
          if r.inner.hasPendingSubscribers then { r with phase := .calling [] [] } else r
      | _ => r
  | .swapSend msg =>
      match r.phase with
      | .calling sent late =>
          { r with
            inner := r.inner.sendNewSubscribes msg
            phase := .calling (sent ++ [msg]) late }
      | _ => r
  | .drop =>
      match r.phase with
      | .calling sent late =>
          { r with
            inner := r.inner.swapNewSubscribes
            phase := .dropped sent late r.inner.newSubscribes.entries }
      | _ => r
  | .finish succeeds =>
      match r.phase with
      | .dropped sent late promoted =>
          { r with
            phase := .outside
            finished := r.finished ++ [⟨sent, late, promoted, succeeds⟩] }
      | _ => r
  | .send receives msg => { r with inner := r.inner.sendWhere receives msg }

def run (events : List (SnapshotEvent μ)) : SnapshotRun μ := events.foldl step start

theorem run_concat (events : List (SnapshotEvent μ)) (event : SnapshotEvent μ) :
    run (events ++ [event]) = (run events).step event := by
  simp [run]

end SnapshotRun

/-- Every subscriber the snapshot made active had received what its callback sent, and
nothing else. -/
def SnapshotRecord.Complete (record : SnapshotRecord μ) : Prop :=
  ∀ id received, (id, received) ∈ record.promoted → received = record.sent

/-! ## The waiting subscribers -/

/-- The late subscribers wait and lack a message; the others that wait lack none. -/
structure Waiting (table : LinkedMap ConnId (List μ)) (sent : List μ) (late : List ConnId) :
    Prop where
  here : ∀ id ∈ late, ∃ received, table.get? id = some received
  short : ∀ id received, table.get? id = some received → id ∈ late →
    received.length < sent.length
  full : ∀ id received, table.get? id = some received → id ∉ late → received = sent

namespace Waiting

variable {table : LinkedMap ConnId (List μ)} {sent : List μ} {late : List ConnId} {id : ConnId}

theorem empty : Waiting (∅ : LinkedMap ConnId (List μ)) [] [] where
  here := by simp
  short := by simp
  full := by simp

/-- A subscriber that comes before the first message lacks none. -/
theorem set_early (h : Waiting table [] []) : Waiting (table.set id []) [] [] where
  here := by simp
  short := by simp
  full := by
    intro other received hget _
    rw [LinkedMap.get?_set] at hget
    split at hget
    · exact (Option.some.inj hget).symm
    · exact h.full other received hget (by simp)

theorem set_late {msg : μ} (h : Waiting table (msg :: sent) late) :
    Waiting (table.set id []) (msg :: sent) (id :: late) where
  here := by
    intro other hother
    rw [LinkedMap.get?_set]
    by_cases heq : other = id
    · exact ⟨[], if_pos heq⟩
    · obtain ⟨received, hreceived⟩ := h.here other ((List.mem_cons.mp hother).resolve_left heq)
      exact ⟨received, by rw [if_neg heq, hreceived]⟩
  short := by
    intro other received hget hother
    rw [LinkedMap.get?_set] at hget
    split at hget
    · obtain rfl := Option.some.inj hget
      simp
    · rename_i hne
      exact h.short other received hget ((List.mem_cons.mp hother).resolve_left hne)
  full := by
    intro other received hget hother
    rw [List.mem_cons, not_or] at hother
    rw [LinkedMap.get?_set, if_neg hother.1] at hget
    exact h.full other received hget hother.2

theorem remove (h : Waiting table sent late) :
    Waiting (table.remove id) sent (late.filter (· ≠ id)) where
  here := by
    intro other hother
    obtain ⟨hlate, hne⟩ := List.mem_filter.mp hother
    obtain ⟨received, hreceived⟩ := h.here other hlate
    refine ⟨received, ?_⟩
    rw [LinkedMap.get?_remove, if_neg (by simpa using hne), hreceived]
  short := by
    intro other received hget hother
    rw [LinkedMap.get?_remove] at hget
    split at hget
    · cases hget
    · exact h.short other received hget (List.mem_of_mem_filter hother)
  full := by
    intro other received hget hother
    rw [LinkedMap.get?_remove] at hget
    split at hget
    · cases hget
    · rename_i hne
      refine h.full other received hget fun hlate => hother ?_
      exact List.mem_filter.mpr ⟨hlate, by simpa using hne⟩

theorem deliver {msg : μ} (h : Waiting table sent late) :
    Waiting (ServiceInner.deliver table msg) (sent ++ [msg]) late where
  here := by
    intro id hid
    obtain ⟨received, hreceived⟩ := h.here id hid
    exact ⟨received ++ [msg], by simp [hreceived]⟩
  short := by
    intro id received hget hid
    rw [ServiceInner.get?_deliver, Option.map_eq_some_iff] at hget
    obtain ⟨old, hold, rfl⟩ := hget
    have := h.short id old hold hid
    simp only [List.length_append, List.length_singleton]
    omega
  full := by
    intro id received hget hid
    rw [ServiceInner.get?_deliver, Option.map_eq_some_iff] at hget
    obtain ⟨old, hold, rfl⟩ := hget
    rw [h.full id old hold hid]

/-- What the waiting subscribers have received is what was sent exactly if none came
late. -/
theorem full_iff (h : Waiting table sent late) :
    (∀ id received, (id, received) ∈ table.entries → received = sent) ↔ late = [] := by
  constructor
  · intro hall
    apply List.eq_nil_iff_forall_not_mem.mpr
    intro id hid
    -- A late subscriber waits, and with fewer messages than were sent.
    obtain ⟨received, hreceived⟩ := h.here id hid
    have hshort := h.short id received hreceived hid
    rw [hall id received (LinkedMap.mem_entries_iff.mpr hreceived)] at hshort
    exact lt_irrefl _ hshort
  · rintro rfl id received hmem
    exact h.full id received (LinkedMap.mem_entries_iff.mp hmem) (by simp)

end Waiting

/-! ## Runs -/

/-- What is known in each phase. -/
def Accounted (table : LinkedMap ConnId (List μ)) : SnapshotPhase μ → Prop
  | .outside => Waiting table [] []
  | .calling sent late => Waiting table sent late ∧ (sent = [] → late = [])
  | .dropped sent late promoted => Waiting table [] [] ∧
      ((∀ id received, (id, received) ∈ promoted → received = sent) ↔ late = [])

namespace Accounted

variable {table : LinkedMap ConnId (List μ)} {phase : SnapshotPhase μ} {id : ConnId}

theorem arrive {inner : ServiceInner μ} (h : Accounted table phase)
    (hnot : inner.subscribes.get? id = none) :
    Accounted (table.set id []) (phase.arrive inner id) := by
  have hcontains : inner.subscribes.contains id = false := by
    rw [LinkedMap.contains, hnot]
    rfl
  cases phase with
  | outside => exact h.set_early
  | dropped sent late promoted => exact ⟨h.1.set_early, h.2⟩
  | calling sent late =>
      cases sent with
      -- Nothing has been sent yet, so the subscriber still gets all of it.
      | nil =>
          obtain ⟨hwaiting, hlate⟩ := h
          obtain rfl := hlate rfl
          exact ⟨hwaiting.set_early, fun _ => rfl⟩
      | cons msg sent =>
          have hphase : (SnapshotPhase.calling (msg :: sent) late).arrive inner id =
              .calling (msg :: sent) (id :: late) := by
            simp [SnapshotPhase.arrive, hcontains]
          rw [hphase]
          exact ⟨h.1.set_late, by simp⟩

theorem leave (h : Accounted table phase) : Accounted (table.remove id) (phase.leave id) := by
  cases phase with
  | outside => exact h.remove
  | dropped sent late promoted => exact ⟨h.1.remove, h.2⟩
  | calling sent late =>
      refine ⟨h.1.remove, fun hsent => ?_⟩
      rw [h.2 hsent]
      rfl

end Accounted

structure SnapshotRun.Sound (r : SnapshotRun μ) : Prop where
  needSnapshot : r.inner.needSnapshot = true
  apart : ∀ id received, r.inner.subscribes.get? id = some received →
    r.inner.newSubscribes.get? id = none
  accounted : Accounted r.inner.newSubscribes r.phase
  finished : ∀ record ∈ r.finished, record.Complete ↔ record.late = []

namespace SnapshotRun

variable {r : SnapshotRun μ}

theorem sound_start : Sound (start : SnapshotRun μ) where
  needSnapshot := rfl
  apart := fun _ _ _ => rfl
  accounted := Waiting.empty
  finished := by simp [start]

theorem Sound.subscribe (h : r.Sound) (id : ConnId) : (r.step (.subscribe id)).Sound := by
  simp only [step]
  rcases r.inner.onSubscribe_cases id with ⟨hactive, heq⟩ | ⟨hnot, -, heq⟩ | ⟨-, hno, -⟩
  -- An active subscriber stays where it is; it is not late.
  · have hphase : r.phase.arrive r.inner id = r.phase := by
      have hcontains := LinkedMap.contains_iff.mpr hactive
      unfold SnapshotPhase.arrive
      split <;> simp [*]
    rw [heq, hphase]
    exact h
  · rw [heq]
    refine ⟨h.needSnapshot, ?_, h.accounted.arrive hnot, h.finished⟩
    intro other received hother
    have hne : other ≠ id := by
      rintro rfl
      rw [hnot] at hother
      cases hother
    change (r.inner.newSubscribes.set id []).get? other = none
    rw [LinkedMap.get?_set, if_neg hne]
    exact h.apart other received hother
  · rw [h.needSnapshot] at hno
    cases hno

theorem Sound.unsubscribe (h : r.Sound) (id : ConnId) : (r.step (.unsubscribe id)).Sound := by
  have haccounted : Accounted (r.inner.newSubscribes.remove id) (r.phase.leave id) :=
    h.accounted.leave
  simp only [step]
  rcases r.inner.onUnsubscribe_cases id with ⟨⟨received, hactive⟩, heq⟩ | ⟨-, heq⟩
  · have hnone := h.apart id received hactive
    rw [LinkedMap.remove_of_get?_eq_none hnone] at haccounted
    rw [heq]
    refine ⟨h.needSnapshot, ?_, haccounted, h.finished⟩
    intro other received hother
    have hother : (r.inner.subscribes.remove id).get? other = some received := hother
    rw [LinkedMap.get?_remove] at hother
    split at hother
    · cases hother
    · exact h.apart other received hother
  · rw [heq]
    refine ⟨h.needSnapshot, ?_, haccounted, h.finished⟩
    intro other received hother
    change (r.inner.newSubscribes.remove id).get? other = none
    rw [LinkedMap.get?_remove]
    split
    · rfl
    · exact h.apart other received hother

theorem Sound.check (h : r.Sound) : (r.step .check).Sound := by
  obtain ⟨inner, phase, finished⟩ := r
  cases phase with
  | calling sent late => exact h
  | dropped sent late promoted => exact h
  | outside =>
      simp only [step]
      split
      · exact ⟨h.needSnapshot, h.apart, ⟨h.accounted, fun _ => rfl⟩, h.finished⟩
      · exact h

/-- A message of the callback goes to all that wait. -/
theorem Sound.swapSend (h : r.Sound) (msg : μ) : (r.step (.swapSend msg)).Sound := by
  obtain ⟨inner, phase, finished⟩ := r
  cases phase with
  | outside => exact h
  | dropped sent late promoted => exact h
  | calling sent late =>
      refine ⟨h.needSnapshot, ?_, ⟨h.accounted.1.deliver, by simp⟩, h.finished⟩
      intro id received hactive
      change (ServiceInner.deliver inner.newSubscribes msg).get? id = none
      have hnone : inner.newSubscribes.get? id = none := h.apart id received hactive
      simp [hnone]

/-- The drop makes all that wait active, the late ones too. -/
theorem Sound.drop (h : r.Sound) : (r.step .drop).Sound := by
  obtain ⟨inner, phase, finished⟩ := r
  cases phase with
  | outside => exact h
  | dropped sent late promoted => exact h
  | calling sent late =>
      exact ⟨h.needSnapshot, fun _ _ _ => rfl, ⟨Waiting.empty, h.accounted.1.full_iff⟩, h.finished⟩

theorem Sound.finish (h : r.Sound) (succeeds : Bool) : (r.step (.finish succeeds)).Sound := by
  obtain ⟨inner, phase, finished⟩ := r
  cases phase with
  | outside => exact h
  | calling sent late => exact h
  | dropped sent late promoted =>
      refine ⟨h.needSnapshot, h.apart, h.accounted.1, ?_⟩
      intro record hrecord
      rcases List.mem_append.mp hrecord with hold | hnew
      · exact h.finished record hold
      · obtain rfl := List.mem_singleton.mp hnew
        exact h.accounted.2

theorem Sound.send (h : r.Sound) (receives : ConnId → Bool) (msg : μ) :
    (r.step (.send receives msg)).Sound := by
  refine ⟨h.needSnapshot, ?_, h.accounted, h.finished⟩
  intro id received hactive
  have hactive : (r.inner.subscribes.mapValues fun id received =>
      if receives id then received ++ [msg] else received).get? id = some received := hactive
  rw [LinkedMap.get?_mapValues, Option.map_eq_some_iff] at hactive
  obtain ⟨old, hold, -⟩ := hactive
  exact h.apart id old hold

theorem Sound.step (h : r.Sound) (event : SnapshotEvent μ) : (r.step event).Sound := by
  cases event with
  | subscribe id => exact h.subscribe id
  | unsubscribe id => exact h.unsubscribe id
  | check => exact h.check
  | swapSend msg => exact h.swapSend msg
  | drop => exact h.drop
  | finish succeeds => exact h.finish succeeds
  | send receives msg => exact h.send receives msg

theorem sound_run (events : List (SnapshotEvent μ)) : (run events).Sound := by
  induction events using List.reverseRecOn with
  | nil => exact sound_start
  | append_singleton events event ih =>
      rw [run_concat]
      exact ih.step event

/-- The snapshots that succeed are complete exactly in the runs where no subscriber of
theirs came after the first message. -/
theorem complete_iff (events : List (SnapshotEvent μ)) :
    (∀ record ∈ (run events).finished, record.succeeded = true → record.Complete) ↔
      ∀ record ∈ (run events).finished, record.succeeded = true → record.late = [] := by
  have hsound := sound_run events
  constructor
  · intro h record hrecord hsucceeded
    exact (hsound.finished record hrecord).mp (h record hrecord hsucceeded)
  · intro h record hrecord hsucceeded
    exact (hsound.finished record hrecord).mpr (h record hrecord hsucceeded)

/-- The second connection subscribes after the message and before the drop: the drop
makes it active without the message. -/
theorem not_complete_late : ¬ ∀ record ∈
    (run [SnapshotEvent.subscribe 1, .check, .swapSend 7, .subscribe 2, .drop,
      .finish true]).finished,
    record.succeeded = true → record.Complete := by
  intro h
  have hpromoted := h ⟨[7], [2], [(1, [7]), (2, [])], true⟩ (List.mem_singleton.mpr rfl) rfl
    2 [] (by decide)
  cases hpromoted

end SnapshotRun

end RustAdmin.Service
