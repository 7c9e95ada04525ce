import RustAdmin.Keyboard.Delivery
import RustAdmin.Support.Run

/-!
# The text budgets over a run

Texts and key actions are handed to the dispatcher while its commands complete, fail
and are cancelled.  What is reserved is the sum over the commands that have been
admitted and have not completed, until the counts of a text overflow.

A trace keeps the commands that were admitted; those outstanding are its end, since
commands join at the end and complete at the front (`Completes`).  `TraceSound` is
kept by every event without an overflow.  In the other direction a text that overflows
is admitted where nothing else refuses it (`admits_of_overflows`), with counts whose
sum is negative, and no budget covers that.
-/

namespace RustAdmin.Keyboard

open RustAdmin.Support

/-- Counts that a Dart integer holds. -/
structure CommittedTextDispatch.CountsFit (text : CommittedTextDispatch) : Prop where
  before : -2 ^ 63 ≤ text.deleteBeforeGraphemes ∧ text.deleteBeforeGraphemes < 2 ^ 63
  after : -2 ^ 63 ≤ text.deleteAfterGraphemes ∧ text.deleteAfterGraphemes < 2 ^ 63

/-- What happens to a dispatcher: the state machine hands over a text by itself, and key
actions in batches. -/
inductive DispatcherEvent
  | text (dispatch : CommittedTextDispatch) (counts : dispatch.CountsFit)
  | keys (dispatches : List PhysicalKeyboardDispatch)
  | recovery (releases : List PhysicalKeyboardDispatch)
  | invalidatePending
  | settled (settlement : KeyboardDispatcherState.Settlement)
  | canDispatch (allowed : Bool)

/-- The commands of a batch that `tryDispatchAll` accepts. -/
def KeyboardDispatcherState.admits (d : KeyboardDispatcherState)
    (actions : List KeyboardDispatchAction) : List DispatchCommand :=
  match reserveFrom {} [] actions with
  | .error _ => []
  | .ok (batch, commands) => if (d.pendingText.add batch).exceeds then [] else commands

namespace DispatcherEvent

def apply (d : KeyboardDispatcherState) : DispatcherEvent → KeyboardDispatcherState
  | .text dispatch _ => (d.tryDispatchAll [.committedText dispatch]).2
  | .keys dispatches => (d.tryDispatchAll (dispatches.map .physical)).2
  | .recovery releases => d.dispatchRecoveryReleases releases
  | .invalidatePending => d.invalidatePending
  | .settled settlement => d.settle settlement
  | .canDispatch allowed => { d with canDispatch := allowed }

/-- The commands that join the queue. -/
def admits (d : KeyboardDispatcherState) : DispatcherEvent → List DispatchCommand
  | .text dispatch _ => d.admits [.committedText dispatch]
  | .keys dispatches => d.admits (dispatches.map .physical)
  | .recovery releases => (releases.filter (·.action = .up)).map (⟨.physical ·, 0⟩)
  | _ => []

/-- A text with counts whose sum is not a 64-bit integer, which nothing else refuses. -/
def Overflows (d : KeyboardDispatcherState) : DispatcherEvent → Prop
  | .text dispatch _ =>
      0 ≤ dispatch.deleteBeforeGraphemes ∧ 0 ≤ dispatch.deleteAfterGraphemes ∧
        2 ^ 63 ≤ dispatch.deleteBeforeGraphemes + dispatch.deleteAfterGraphemes ∧
        d.pendingText.operations < 64 ∧
        ∃ cost, dispatch.byteCost = .ok cost ∧ d.pendingText.bytes + cost ≤ 65536
  | _ => False

end DispatcherEvent

/-- A dispatcher with the commands that have been admitted, in their order. -/
structure DispatcherTrace where
  dispatcher : KeyboardDispatcherState
  admitted : List DispatchCommand := []

namespace DispatcherTrace

def step (t : DispatcherTrace) (event : DispatcherEvent) : DispatcherTrace :=
  ⟨event.apply t.dispatcher, t.admitted ++ event.admits t.dispatcher⟩

def run (canDispatch composesDeadKeys : Bool) (events : List DispatcherEvent) : DispatcherTrace :=
  events.foldl step
    { dispatcher := { canDispatch := canDispatch, composesDeadKeys := composesDeadKeys } }

theorem run_concat (canDispatch composesDeadKeys : Bool) (events : List DispatcherEvent)
    (event : DispatcherEvent) :
    run canDispatch composesDeadKeys (events ++ [event]) =
      (run canDispatch composesDeadKeys events).step event := by
  simp [run]

end DispatcherTrace

/-- The budgets hold: the counters are within them and are the exact sum over the
admitted commands that are outstanding, so each reservation is given back once, when its
command completes; the counts of what was admitted are those of an edit, and key actions
are accepted whatever is reserved. -/
structure Budgeted (t : DispatcherTrace) : Prop where
  nonneg : t.dispatcher.pendingText.Nonneg
  bytes : t.dispatcher.pendingText.bytes ≤ 65536
  operations : t.dispatcher.pendingText.operations ≤ 64
  edits : t.dispatcher.pendingText.edits ≤ 65536
  outstanding : t.dispatcher.pendingText = reserved t.dispatcher.outstanding
  completed : ∃ completed, t.admitted = completed ++ t.dispatcher.outstanding
  idle : t.dispatcher.queue.Idle → t.dispatcher.pendingText = {}
  counts : ∀ command ∈ t.admitted, ∀ text, command.action = .committedText text →
    0 ≤ text.deleteBeforeGraphemes ∧ 0 ≤ text.deleteAfterGraphemes ∧
      text.deleteBeforeGraphemes + text.deleteAfterGraphemes ≤ 65536
  keys : ∀ dispatches : List PhysicalKeyboardDispatch,
    (t.dispatcher.tryDispatchAll (dispatches.map .physical)).1 = true

/-! ## Commands complete in their order -/

namespace KeyboardDispatcherState

variable {d d' d'' : KeyboardDispatcherState} {added more : List DispatchCommand}

/-- Commands join at the end and complete at the front. -/
def Completes (d : KeyboardDispatcherState) (added : List DispatchCommand)
    (d' : KeyboardDispatcherState) : Prop :=
  ∃ completed, d.outstanding ++ added = completed ++ d'.outstanding

theorem Completes.of_same (h : d'.queue = d.queue) : Completes d [] d' := by
  refine ⟨[], ?_⟩
  rw [outstanding, outstanding, h, List.append_nil, List.nil_append]

theorem Completes.trans (first : Completes d added d') (second : Completes d' more d'') :
    Completes d (added ++ more) d'' := by
  obtain ⟨completed, hfirst⟩ := first
  obtain ⟨completed', hsecond⟩ := second
  refine ⟨completed ++ completed', ?_⟩
  calc d.outstanding ++ (added ++ more)
      = (d.outstanding ++ added) ++ more := (List.append_assoc _ _ _).symm
    _ = completed ++ (d'.outstanding ++ more) := by rw [hfirst, List.append_assoc]
    _ = completed ++ completed' ++ d''.outstanding := by rw [hsecond, List.append_assoc]

theorem drain_queue (d : KeyboardDispatcherState) : d.drain.queue = d.queue.next := by
  have hskip : d.skip.queue = d.queue.next := by rw [skip_eq]
  rw [drain_eq]
  split
  · exact hskip
  · next queued _ =>
      obtain ⟨-, hsame⟩ := dispatch_turn d.skip queued.command.action
      exact hsame.1.trans hskip

theorem drain_completes (hrunning : d.queue.running = none) : Completes d [] d.drain := by
  refine ⟨d.queue.skipped.map QueuedKeyboardCommand.command, ?_⟩
  have hbefore : d.outstanding = d.queue.pending.map QueuedKeyboardCommand.command := by
    simp [outstanding, hrunning]
  rw [List.append_nil, hbefore, commands_next, outstanding, drain_queue]

theorem enqueue_completes (command : DispatchCommand) (keepOnCancel : Bool) :
    Completes d [command] (d.enqueue command keepOnCancel) := by
  have hadd : Completes d [command] { d with queue := d.queue.add command keepOnCancel } :=
    ⟨[], by simp [outstanding, KeyboardCommandQueue.add]⟩
  unfold enqueue
  dsimp only
  split_ifs with hrunning
  · exact hadd
  · have hnone : ({ d with queue := d.queue.add command keepOnCancel } :
        KeyboardDispatcherState).queue.running = none := by simpa using hrunning
    simpa using hadd.trans (drain_completes hnone)

theorem enqueueAll_completes (commands : List DispatchCommand) (d : KeyboardDispatcherState) :
    Completes d commands (d.enqueueAll commands) := by
  unfold enqueueAll
  induction commands generalizing d with
  | nil => exact .of_same rfl
  | cons command commands ih => exact (enqueue_completes command _).trans (ih _)

theorem tryDispatchAll_completes (actions : List KeyboardDispatchAction) :
    Completes d (d.admits actions) (d.tryDispatchAll actions).2 := by
  unfold tryDispatchAll admits
  cases reserveFrom {} [] actions with
  | error reason => exact .of_same rfl
  | ok reservedBatch =>
      obtain ⟨batch, commands⟩ := reservedBatch
      dsimp only
      split_ifs
      · exact .of_same rfl
      · have hreserve : Completes d [] { d with pendingText := d.pendingText.add batch } :=
          .of_same rfl
        exact hreserve.trans (enqueueAll_completes _ _)

theorem dispatchRecoveryReleases_completes (releases : List PhysicalKeyboardDispatch)
    (d : KeyboardDispatcherState) :
    Completes d ((releases.filter (·.action = .up)).map (⟨.physical ·, 0⟩))
      (d.dispatchRecoveryReleases releases) := by
  unfold dispatchRecoveryReleases
  induction releases generalizing d with
  | nil => exact .of_same rfl
  | cons release releases ih =>
      rw [List.foldl_cons, List.filter_cons]
      by_cases hup : release.action = .up
      · rw [if_pos hup, if_pos (decide_eq_true hup)]
        exact (enqueue_completes _ _).trans (ih _)
      · rw [if_neg hup, if_neg (by simpa using hup)]
        exact ih d

theorem settle_completes (settlement : Settlement) : Completes d [] (d.settle settlement) := by
  unfold settle
  cases hcomposing : d.composing with
  | some composing =>
      cases settlement with
      | command failed => exact .of_same rfl
      | composer composed =>
          dsimp only
          unfold resume
          dsimp only
          split_ifs
          · exact .of_same rfl
          · obtain ⟨-, hsame⟩ := sendComposed_turn { d with composing := none } composing.accent
              composed composing.action
            exact .of_same hsame.1
  | none =>
      cases settlement with
      | composer composed => exact .of_same rfl
      | command failed =>
          cases hrunning : d.queue.running with
          | none => exact .of_same rfl
          | some queued =>
              -- the running command completes, and with it those that are skipped after it
              refine ⟨queued.command ::
                d.queue.skipped.map QueuedKeyboardCommand.command, ?_⟩
              have hqueue : (d.release queued.command).drain.queue = d.queue.next := by
                rw [drain_queue, release_eq]
              dsimp only
              rw [List.append_nil, outstanding, outstanding, hrunning, hqueue]
              simp [commands_next]

end KeyboardDispatcherState

/-! ## Admission of a text -/

namespace KeyboardDispatcherState

variable {d : KeyboardDispatcherState} {commands : List DispatchCommand}
  {dispatch : CommittedTextDispatch} {cost : ℤ}

theorem reserveFrom_text (hcost : dispatch.byteCost = .ok cost) :
    reserveFrom {} [] [.committedText dispatch] =
      .ok (TextReservation.add {} ⟨cost, 1, dispatch.editCost⟩,
        [⟨.committedText dispatch, cost⟩]) := by
  simp only [reserveFrom, hcost, List.nil_append]

theorem reserveFrom_text_error {reason : KeyboardInputRejection}
    (hcost : dispatch.byteCost = .error reason) :
    reserveFrom {} [] [.committedText dispatch] = .error reason := by
  simp only [reserveFrom, hcost]

theorem mem_admits_text {command : DispatchCommand}
    (hmem : command ∈ d.admits [.committedText dispatch]) :
    ∃ cost, dispatch.byteCost = .ok cost ∧ command = ⟨.committedText dispatch, cost⟩ := by
  unfold admits at hmem
  cases hcost : dispatch.byteCost with
  | error reason =>
      rw [reserveFrom_text_error hcost] at hmem
      cases hmem
  | ok cost =>
      rw [reserveFrom_text hcost] at hmem
      dsimp only at hmem
      split_ifs at hmem
      · cases hmem
      · exact ⟨cost, rfl, List.mem_singleton.mp hmem⟩

theorem not_mem_admits_keys {dispatches : List PhysicalKeyboardDispatch} {cost : ℤ} :
    (⟨.committedText dispatch, cost⟩ : DispatchCommand) ∉ d.admits (dispatches.map .physical) := by
  unfold admits
  rw [reserveFrom_physicals]
  dsimp only
  split_ifs <;> simp

/-- The counts of an overflow add up to a negative number. -/
theorem editCost_of_overflow (hcounts : dispatch.CountsFit)
    (hsum : 2 ^ 63 ≤ dispatch.deleteBeforeGraphemes + dispatch.deleteAfterGraphemes) :
    dispatch.editCost =
      dispatch.deleteBeforeGraphemes + dispatch.deleteAfterGraphemes - 2 ^ 64 := by
  have hbefore := hcounts.before
  have hafter := hcounts.after
  unfold CommittedTextDispatch.editCost castI64
  rw [Int.bmod_def]
  omega

/-- What is pending with a text, whose bytes and operation add up without overflow. -/
theorem add_text (h : Covers d.pendingText commands) (hcost : dispatch.byteCost = .ok cost) :
    (d.pendingText.add (TextReservation.add {} ⟨cost, 1, dispatch.editCost⟩)).bytes =
        d.pendingText.bytes + cost ∧
      (d.pendingText.add (TextReservation.add {} ⟨cost, 1, dispatch.editCost⟩)).operations =
        d.pendingText.operations + 1 := by
  obtain ⟨hbytes, -, hoperations⟩ := not_exceeds_iff.mp h.within
  obtain ⟨hbytes', hoperations', -⟩ := h.nonneg_total
  obtain ⟨⟨hcost0, hcostLe⟩, -⟩ := byteCost_ok hcost
  unfold TextReservation.add
  dsimp only
  rw [zero_add, zero_add, castI64_of_lt (x := cost) (by omega) (by omega),
    castI64_of_lt (x := 1) (by omega) (by omega)]
  exact ⟨castI64_of_lt (by omega) (by omega), castI64_of_lt (by omega) (by omega)⟩

/-- A text that overflows is admitted where nothing else refuses it. -/
theorem admits_of_overflows (h : Covers d.pendingText commands) (hcounts : dispatch.CountsFit)
    (hoverflows : (DispatcherEvent.text dispatch hcounts).Overflows d) :
    ∃ command ∈ d.admits [.committedText dispatch], command.action = .committedText dispatch := by
  obtain ⟨hbefore, hafter, hsum, hoperation, cost, hcost, hbyte⟩ := hoverflows
  obtain ⟨-, hedits, -⟩ := not_exceeds_iff.mp h.within
  obtain ⟨-, -, hedits'⟩ := h.nonneg_total
  obtain ⟨hbytes, hoperations⟩ := add_text h hcost
  have hfit : ¬ (d.pendingText.add
      (TextReservation.add {} ⟨cost, 1, dispatch.editCost⟩)).exceeds := by
    rw [not_exceeds_iff]
    refine ⟨hbytes ▸ hbyte, ?_, hoperations ▸ by omega⟩
    have hcost64 := editCost_of_overflow hcounts hsum
    have hbefore64 := hcounts.before
    have hafter64 := hcounts.after
    unfold TextReservation.add
    dsimp only
    rw [zero_add, castI64_of_lt (x := dispatch.editCost) (by omega) (by omega),
      castI64_of_lt (by omega) (by omega)]
    omega
  refine ⟨⟨.committedText dispatch, cost⟩, ?_, rfl⟩
  unfold admits
  rw [reserveFrom_text hcost]
  dsimp only
  rw [if_neg hfit]
  exact List.mem_singleton_self _

/-- Any other text with counts that do not fit is refused. -/
theorem refuses_of_not_overflows (h : Covers d.pendingText commands)
    (hcounts : dispatch.CountsFit)
    (hoverflows : ¬ (DispatcherEvent.text dispatch hcounts).Overflows d)
    (hfit : ¬ EditsFit dispatch.deleteBeforeGraphemes dispatch.deleteAfterGraphemes) :
    ∃ reason, d.tryDispatchAll [.committedText dispatch] = (false, d.rejectText reason) ∧
      d.admits [.committedText dispatch] = [] := by
  unfold EditsFit at hfit
  push Not at hfit
  obtain ⟨hbefore, hafter, hsum⟩ := hfit
  unfold tryDispatchAll admits
  cases hcost : dispatch.byteCost with
  | error reason =>
      rw [reserveFrom_text_error hcost]
      exact ⟨reason, rfl, rfl⟩
  | ok cost =>
      have hexceeds : (d.pendingText.add
          (TextReservation.add {} ⟨cost, 1, dispatch.editCost⟩)).exceeds := by
        by_contra hfit
        obtain ⟨hbytes, -, hoperations⟩ := not_exceeds_iff.mp hfit
        obtain ⟨hbytes', hoperations'⟩ := add_text h hcost
        rw [hbytes'] at hbytes
        rw [hoperations'] at hoperations
        exact hoverflows ⟨hbefore, hafter, hsum, by omega, cost, hcost, hbytes⟩
      rw [reserveFrom_text hcost]
      dsimp only
      rw [if_pos hexceeds, if_pos hexceeds]
      exact ⟨_, rfl, rfl⟩

theorem dispatchRecoveryReleases_filter (releases : List PhysicalKeyboardDispatch)
    (d : KeyboardDispatcherState) :
    d.dispatchRecoveryReleases (releases.filter (·.action = .up)) =
      d.dispatchRecoveryReleases releases := by
  unfold dispatchRecoveryReleases
  induction releases generalizing d with
  | nil => rfl
  | cons release releases ih =>
      rw [List.filter_cons, List.foldl_cons]
      by_cases hup : release.action = .up
      · rw [if_pos (decide_eq_true hup), List.foldl_cons, if_pos hup]
        exact ih _
      · rw [if_neg (by simpa using hup), if_neg hup]
        exact ih d

end KeyboardDispatcherState

/-! ## Runs -/

open KeyboardDispatcherState

theorem DispatcherEvent.completes (d : KeyboardDispatcherState) (event : DispatcherEvent) :
    Completes d (event.admits d) (event.apply d) := by
  cases event with
  | text dispatch _ => exact tryDispatchAll_completes _
  | keys dispatches => exact tryDispatchAll_completes _
  | recovery releases => exact dispatchRecoveryReleases_completes releases d
  | invalidatePending => exact ⟨[], List.append_nil _⟩
  | settled settlement => exact settle_completes settlement
  | canDispatch allowed => exact .of_same rfl

/-- The counts of an admitted text are those of an edit. -/
def EditCounts (commands : List DispatchCommand) : Prop :=
  ∀ command ∈ commands, ∀ dispatch, command.action = .committedText dispatch →
    0 ≤ dispatch.deleteBeforeGraphemes ∧ 0 ≤ dispatch.deleteAfterGraphemes ∧
      dispatch.deleteBeforeGraphemes + dispatch.deleteAfterGraphemes ≤ 65536

theorem editCounts_nil : EditCounts [] := by
  intro command hmem
  cases hmem

/-- An event that does not overflow keeps the account, and admits edits. -/
theorem DispatcherEvent.accounted {d : KeyboardDispatcherState} {event : DispatcherEvent}
    (h : ∃ log, Accounted log d) (hoverflows : ¬ event.Overflows d) :
    (∃ log, Accounted log (event.apply d)) ∧ EditCounts (event.admits d) := by
  obtain ⟨log, h⟩ := h
  cases event with
  | text dispatch hcounts =>
      by_cases hfit : EditsFit dispatch.deleteBeforeGraphemes dispatch.deleteAfterGraphemes
      · refine ⟨⟨log, h.tryDispatchText hfit⟩, ?_⟩
        intro command hmem other haction
        obtain ⟨cost, hcost, rfl⟩ := mem_admits_text hmem
        obtain rfl : dispatch = other := by simpa using haction
        obtain ⟨-, hbefore, hafter, hedits⟩ := byteCost_ok hcost
        have hlt := hfit hbefore hafter
        rw [CommittedTextDispatch.editCost, castI64_of_lt (by omega) hlt] at hedits
        exact ⟨hbefore, hafter, hedits⟩
      · obtain ⟨reason, heq, hnone⟩ :=
          refuses_of_not_overflows h.covers hcounts hoverflows hfit
        have happly : (DispatcherEvent.text dispatch hcounts).apply d = d.rejectText reason :=
          congrArg Prod.snd heq
        refine ⟨⟨log, ?_⟩, ?_⟩
        · rw [happly]
          exact h.of_same rfl rfl rfl rfl rfl
        · rw [DispatcherEvent.admits, hnone]
          exact editCounts_nil
  | keys dispatches =>
      refine ⟨⟨_, h.tryDispatchAll dispatches⟩, ?_⟩
      rintro ⟨action, cost⟩ hmem dispatch rfl
      exact absurd hmem not_mem_admits_keys
  | recovery releases =>
      have hups : ∀ release ∈ releases.filter (·.action = .up), release.action = .up := by
        intro release hmem
        exact of_decide_eq_true (List.mem_filter.mp hmem).2
      have hreleased := h.dispatchRecoveryReleases hups
      rw [dispatchRecoveryReleases_filter] at hreleased
      refine ⟨⟨_, hreleased⟩, ?_⟩
      rintro ⟨action, cost⟩ hmem dispatch rfl
      simp [DispatcherEvent.admits] at hmem
  | invalidatePending => exact ⟨⟨log, h.invalidatePending⟩, editCounts_nil⟩
  | settled settlement => exact ⟨⟨log, h.settle settlement⟩, editCounts_nil⟩
  | canDispatch allowed => exact ⟨⟨log, h.setCanDispatch allowed⟩, editCounts_nil⟩

/-- What a run without an overflow keeps. -/
structure TraceSound (t : DispatcherTrace) : Prop where
  accounted : ∃ log, Accounted log t.dispatcher
  completed : ∃ completed, t.admitted = completed ++ t.dispatcher.outstanding
  counts : EditCounts t.admitted

theorem TraceSound.step {t : DispatcherTrace} {event : DispatcherEvent} (h : TraceSound t)
    (hoverflows : ¬ event.Overflows t.dispatcher) : TraceSound (t.step event) := by
  obtain ⟨haccounted, hcounts⟩ := DispatcherEvent.accounted h.accounted hoverflows
  refine ⟨haccounted, ?_, ?_⟩
  · obtain ⟨completed, hadmitted⟩ := h.completed
    obtain ⟨completed', hcompleted⟩ := DispatcherEvent.completes t.dispatcher event
    refine ⟨completed ++ completed', ?_⟩
    calc t.admitted ++ event.admits t.dispatcher
        = completed ++ (t.dispatcher.outstanding ++ event.admits t.dispatcher) := by
          rw [hadmitted, List.append_assoc]
      _ = completed ++ completed' ++ (event.apply t.dispatcher).outstanding := by
          rw [hcompleted, List.append_assoc]
  · intro command hmem
    rcases List.mem_append.mp hmem with hold | hnew
    · exact h.counts command hold
    · exact hcounts command hnew

theorem TraceSound.budgeted {t : DispatcherTrace} (h : TraceSound t) : Budgeted t := by
  obtain ⟨log, haccounted⟩ := h.accounted
  have hcovers := haccounted.covers
  obtain ⟨hbytes, hedits, hoperations⟩ := not_exceeds_iff.mp hcovers.within
  refine ⟨hcovers.nonneg_total, hbytes, hoperations, hedits, hcovers.total, h.completed, ?_,
    h.counts, ?_⟩
  · intro hidle
    rw [hcovers.total, outstanding, hidle.running, hidle.pending]
    rfl
  · intro dispatches
    rw [tryDispatchAll_physicals hcovers]

/-- The budgets hold after every event. -/
def BudgetsHold (canDispatch composesDeadKeys : Bool) : List DispatcherEvent → Prop :=
  Always fun before event =>
    Budgeted (DispatcherTrace.run canDispatch composesDeadKeys (before ++ [event]))

/-- No text with counts that overflow comes where nothing else refuses it. -/
def NoOverflow (canDispatch composesDeadKeys : Bool) : List DispatcherEvent → Prop :=
  Always fun before event =>
    ¬ event.Overflows (DispatcherTrace.run canDispatch composesDeadKeys before).dispatcher

theorem traceSound_run {canDispatch composesDeadKeys : Bool} {events : List DispatcherEvent}
    (h : NoOverflow canDispatch composesDeadKeys events) :
    TraceSound (DispatcherTrace.run canDispatch composesDeadKeys events) := by
  induction events using List.reverseRecOn with
  | nil => exact ⟨⟨[], accounted_created canDispatch composesDeadKeys⟩, ⟨[], rfl⟩, editCounts_nil⟩
  | append_singleton events event ih =>
      obtain ⟨hbefore, hevent⟩ := always_concat.mp h
      rw [DispatcherTrace.run_concat]
      exact (ih hbefore).step hevent

/-- The budgets hold after every event exactly in the runs without an overflow. -/
theorem budgetsHold_iff (canDispatch composesDeadKeys : Bool) (events : List DispatcherEvent) :
    BudgetsHold canDispatch composesDeadKeys events ↔
      NoOverflow canDispatch composesDeadKeys events := by
  induction events using List.reverseRecOn with
  | nil => exact iff_of_true always_nil always_nil
  | append_singleton events event ih =>
      unfold BudgetsHold NoOverflow at ih ⊢
      rw [always_concat, always_concat]
      constructor
      · rintro ⟨hbefore, hbudgeted⟩
        have hno := ih.mp hbefore
        refine ⟨hno, fun hoverflows => ?_⟩
        obtain ⟨log, haccounted⟩ := (traceSound_run hno).accounted
        cases event with
        | text dispatch hcounts =>
            -- it would be admitted, with counts that are not those of an edit
            obtain ⟨command, hmem, haction⟩ :=
              admits_of_overflows haccounted.covers hcounts hoverflows
            rw [DispatcherTrace.run_concat] at hbudgeted
            obtain ⟨-, -, hle⟩ := hbudgeted.counts command
              (List.mem_append_right _ hmem) dispatch haction
            have hsum := hoverflows.2.2.1
            omega
        | keys dispatches => exact hoverflows
        | recovery releases => exact hoverflows
        | invalidatePending => exact hoverflows
        | settled settlement => exact hoverflows
        | canDispatch allowed => exact hoverflows
      · rintro ⟨hbefore, hevent⟩
        refine ⟨ih.mpr hbefore, ?_⟩
        exact (traceSound_run (always_concat.mpr ⟨hbefore, hevent⟩)).budgeted

/-- A deletion of all that is before and one after. -/
def wrappedEdit : DispatcherEvent :=
  .text {
    text := []
    source := .flutterKeyEvent
    deleteBeforeGraphemes := 2 ^ 63 - 1
    deleteAfterGraphemes := 1 } ⟨by decide, by decide⟩

/-- It is admitted and leaves a negative counter. -/
theorem not_budgetsHold_wrapped : ¬ BudgetsHold true false [wrappedEdit] := by
  intro h
  have hnonneg := (h [] wrappedEdit [] rfl).nonneg.2.2
  revert hnonneg
  decide

end RustAdmin.Keyboard
