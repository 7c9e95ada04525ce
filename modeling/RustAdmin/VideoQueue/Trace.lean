import RustAdmin.Support.Run
import RustAdmin.VideoQueue.Progress

/-!
# Runs of the video queue

The senders, the writer and the display service call one queue in any order.
`Step` is one call with its answer; what has been pushed, delivered and lost is
read off the events.  Every pushed message is stamped with the number of its
push, in the part the queue never reads, so that a statement about two messages
can say which of them was pushed first.
-/

namespace RustAdmin.VideoQueue

open RustAdmin.Support

/-- A message stamped with the number of its push. -/
abbrev Item (α : Type) := Queued (ℕ × α)

/-- The queue with the number of messages pushed so far. -/
structure System (α : Type) where
  queue : State (ℕ × α)
  sent : ℕ

/-- A call on the queue, with the item that `pop` answered. -/
inductive Event (α : Type)
  | push (item : Item α)
  | pop (item : Option (Item α))
  | lose (item : Item α)
  | setDisplays (subscribed : List ℕ)
  | recoveryDue (now : Instant)

variable {α : Type}

def System.start : System α := ⟨State.new, 0⟩

def Queued.number (item : Item α) : ℕ := item.message.rest.1

/-- One call: the source's function takes the queue to its next state. -/
inductive Step : System α → Event α → System α → Prop
  | push {s : System α} {queue : State (ℕ × α)} {item : Item α} (hnumber : item.number = s.sent)
      (hcall : Returns (s.queue.push item) queue) : Step s (.push item) ⟨queue, s.sent + 1⟩
  | pop {s : System α} {queue : State (ℕ × α)} {item : Option (Item α)}
      (hcall : s.queue.pop = some (item, queue)) : Step s (.pop item) { s with queue := queue }
  | lose {s : System α} {queue : State (ℕ × α)} {item : Item α}
      (hcall : Returns (s.queue.lose item) queue) : Step s (.lose item) { s with queue := queue }
  | setDisplays {s : System α} {queue : State (ℕ × α)} {subscribed : List ℕ}
      (hcall : Returns (s.queue.setDisplays subscribed) queue) :
      Step s (.setDisplays subscribed) { s with queue := queue }
  | recoveryDue {s : System α} {now : Instant} :
      Step s (.recoveryDue now) { s with queue := (s.queue.recoveryDue now).2 }

/-! ## What has happened -/

@[simp] def Event.pushed? : Event α → Option (Item α)
  | .push item => some item
  | _ => none

@[simp] def Event.popped? : Event α → Option (Item α)
  | .pop item => item
  | _ => none

@[simp] def Event.lost? : Event α → Option (Item α)
  | .lose item => some item
  | _ => none

@[simp] def Event.isPop : Event α → Bool
  | .pop _ => true
  | _ => false

/-- The messages handed to `push`, in push order. -/
def pushes (events : List (Event α)) : List (Item α) := events.filterMap Event.pushed?

/-- The messages returned by `pop`, in the order they came out. -/
def pops (events : List (Event α)) : List (Item α) := events.filterMap Event.popped?

/-- The messages reported to `lose`. -/
def losses (events : List (Event α)) : List (Item α) := events.filterMap Event.lost?

/-- How often `pop` was called. -/
def popCalls (events : List (Event α)) : ℕ := events.countP Event.isPop

section Append

variable (events more : List (Event α)) (event : Event α)

@[simp] theorem popCalls_nil : popCalls ([] : List (Event α)) = 0 := rfl

@[simp] theorem pushes_append : pushes (events ++ more) = pushes events ++ pushes more :=
  List.filterMap_append

@[simp] theorem pops_append : pops (events ++ more) = pops events ++ pops more :=
  List.filterMap_append

@[simp] theorem losses_append : losses (events ++ more) = losses events ++ losses more :=
  List.filterMap_append

@[simp] theorem popCalls_append : popCalls (events ++ more) = popCalls events + popCalls more :=
  List.countP_append

@[simp] theorem pushes_single : pushes [event] = event.pushed?.toList := by
  cases event <;> rfl

@[simp] theorem pops_single : pops [event] = event.popped?.toList := by
  cases event with
  | pop item => cases item <;> rfl
  | _ => rfl

@[simp] theorem losses_single : losses [event] = event.lost?.toList := by
  cases event <;> rfl

@[simp] theorem popCalls_single : popCalls [event] = event.isPop.toNat := by
  cases event <;> rfl

end Append

/-! ## One step -/

/-- What one call does, in the words of `Transitions.lean`. -/
inductive Moved : System α → Event α → System α → Prop
  | push {s : System α} {queue : State (ℕ × α)} {item : Item α} (hnumber : item.number = s.sent)
      (hpushed : Pushed s.queue item queue) : Moved s (.push item) ⟨queue, s.sent + 1⟩
  | pop {s : System α} {queue : State (ℕ × α)} {item : Option (Item α)}
      (hpopped : Popped s.queue item queue)
      (hserves : s.queue.messages ≠ [] → item ≠ none) :
      Moved s (.pop item) { s with queue := queue }
  | lose {s : System α} {queue : State (ℕ × α)} {item : Item α}
      (hlosing : Losing s.queue item queue) : Moved s (.lose item) { s with queue := queue }
  | setDisplays {s : System α} {subscribed : List ℕ} :
      Moved s (.setDisplays subscribed) { s with queue := s.queue.resubscribed subscribed }
  | recoveryDue {s : System α} {now : Instant} :
      Moved s (.recoveryDue now) { s with queue := (s.queue.recoveryDue now).2 }

theorem Step.moved {s s' : System α} {event : Event α} (hs : s.queue.WithinLimits)
    (step : Step s event s') : Moved s event s' := by
  -- the call's lemma returns a state, which is the one the call came back with
  have hreturns : ∀ {call : Option (State (ℕ × α) × Drops)} {queue queue' : State (ℕ × α)},
      Returns call queue → Returns call queue' → queue = queue' := by
    rintro call queue queue' ⟨drops, rfl⟩ ⟨drops', heq⟩
    exact (Prod.ext_iff.mp (Option.some.inj heq)).1
  cases step with
  | push hnumber hcall =>
      obtain ⟨queue, hqueue, hpushed⟩ := push_returns hs.byteExact _
      rw [hreturns hcall hqueue]
      exact .push hnumber hpushed
  | pop hcall =>
      obtain ⟨item, queue, hqueue, hpopped⟩ := pop_returns hs.byteExact
      rw [hcall, Option.some_inj, Prod.mk.injEq] at hqueue
      obtain ⟨rfl, rfl⟩ := hqueue
      refine .pop hpopped fun hmessages hnone => ?_
      obtain ⟨served, queue', hserved⟩ := pop_serves hs hmessages
      rw [hcall, hnone, Option.some_inj, Prod.mk.injEq] at hserved
      exact Option.some_ne_none served hserved.1.symm
  | lose hcall =>
      obtain ⟨queue, hqueue, hlosing⟩ := lose_returns hs.byteExact _
      rw [hreturns hcall hqueue]
      exact .lose hlosing
  | setDisplays hcall =>
      rw [hreturns hcall (setDisplays_eq hs.byteExact _)]
      exact .setDisplays
  | recoveryDue => exact .recoveryDue

theorem moved_withinLimits {s s' : System α} {event : Event α} (hs : s.queue.WithinLimits)
    (hmoved : Moved s event s') : s'.queue.WithinLimits := by
  cases hmoved with
  | push _ hpushed => exact pushed_withinLimits hs hpushed
  | pop hpopped => exact popped_withinLimits hs hpopped
  | lose hlosing => exact losing_withinLimits hs hlosing
  | @setDisplays subscribed =>
      dsimp only
      exact resubscribed_withinLimits hs subscribed
  | recoveryDue => exact recoveryDue_withinLimits hs _

theorem run_withinLimits {s s' : System α} {events : List (Event α)} (hs : s.queue.WithinLimits)
    (run : Run Step s events s') : s'.queue.WithinLimits :=
  run.stateInvariant (fun s => s.queue.WithinLimits) hs fun _ _ _ hbefore step =>
    moved_withinLimits hbefore (step.moved hbefore)

/-- The invariant rule for runs of the queue: a step starts within the limits
and is one of the moves. -/
theorem run_invariant (Inv : List (Event α) → System α → Prop) (hstart : Inv [] System.start)
    (hmoved : ∀ events s event s', s.queue.WithinLimits → Inv events s → Moved s event s' →
      Inv (events ++ [event]) s')
    {s : System α} {events : List (Event α)} (run : Run Step System.start events s) :
    Inv events s := by
  have hboth : s.queue.WithinLimits ∧ Inv events s := by
    refine run.invariant (fun events s => s.queue.WithinLimits ∧ Inv events s)
      ⟨initial_withinLimits, hstart⟩ ?_
    intro events before event after hbefore step
    have hmove := step.moved hbefore.1
    exact ⟨moved_withinLimits hbefore.1 hmove, hmoved _ _ _ _ hbefore.1 hbefore.2 hmove⟩
  exact hboth.2

/-! ## What a queued entry says about its message -/

/-- The display of a message's frame, if it is one of the range. -/
def Queued.display? (item : Item α) : Option Display := item.frame?.bind VideoFrame.display?

theorem Entry.Genuine.display_eq {e : Entry (ℕ × α)} (h : e.Genuine) :
    e.display = e.item.display? := by
  unfold Queued.display?
  rcases h with ⟨hframe, he⟩ | ⟨frame, display, hframe, hdisplay, he⟩
  · rw [hframe, he]
    rfl
  · rw [hframe, Option.bind_some, hdisplay, he]
    rfl

theorem Entry.Genuine.display_eq_none {e : Entry (ℕ × α)} (h : e.Genuine) :
    e.display = none ↔ e.item.frame? = none := by
  rcases h with ⟨hframe, he⟩ | ⟨frame, display, hframe, hdisplay, he⟩
  · rw [hframe, he]
    simp [controlEntry]
  · rw [hframe, he]
    simp [frameEntry]

end RustAdmin.VideoQueue
