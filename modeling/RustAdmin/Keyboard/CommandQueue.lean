import Mathlib.Data.List.TakeWhile

/-!
# The queue of keyboard commands

Commands run one after the other.  Cancelling begins a new generation: commands of
an earlier one are skipped when their turn comes, except those that are kept.
-/

namespace RustAdmin.Keyboard

structure QueuedKeyboardCommand (κ : Type*) where
  generation : ℕ
  command : κ
  keepOnCancel : Bool
  deriving DecidableEq, Repr

/-- `running` is the command that the loop of `_drain` waits for. -/
structure KeyboardCommandQueue (κ : Type*) where
  pending : List (QueuedKeyboardCommand κ) := []
  running : Option (QueuedKeyboardCommand κ) := none
  generation : ℕ := 0
  deriving DecidableEq, Repr

namespace KeyboardCommandQueue

variable {κ : Type*} (queue : KeyboardCommandQueue κ)

def add (command : κ) (keepOnCancel : Bool) : KeyboardCommandQueue κ :=
  { queue with pending := queue.pending ++ [⟨queue.generation, command, keepOnCancel⟩] }

def cancelPending : KeyboardCommandQueue κ := { queue with generation := queue.generation + 1 }

/-- A command whose turn comes is run. -/
def runs (queued : QueuedKeyboardCommand κ) : Bool :=
  queued.keepOnCancel || queued.generation == queue.generation

/-- The commands that are skipped before the next one runs. -/
def skipped : List (QueuedKeyboardCommand κ) := queue.pending.takeWhile fun queued =>
  !queue.runs queued

/-- The turns of the loop up to a command that runs. -/
def next : KeyboardCommandQueue κ :=
  let rest := queue.pending.dropWhile fun queued => !queue.runs queued
  { queue with pending := rest.tail, running := rest.head? }

/-- Nothing runs and nothing waits. -/
structure Idle : Prop where
  running : queue.running = none
  pending : queue.pending = []

variable {queue}

theorem skipped_append_next :
    queue.skipped ++ (queue.next.running.toList ++ queue.next.pending) = queue.pending := by
  have hrest : ∀ rest : List (QueuedKeyboardCommand κ), rest.head?.toList ++ rest.tail = rest := by
    intro rest
    cases rest <;> rfl
  rw [skipped, next, hrest]
  exact List.takeWhile_append_dropWhile

/-- A command that is kept is not skipped. -/
theorem keepOnCancel_of_mem_skipped {queued : QueuedKeyboardCommand κ}
    (hmem : queued ∈ queue.skipped) : queued.keepOnCancel = false := by
  have hskips := List.mem_takeWhile_imp hmem
  rw [runs, Bool.not_eq_true', Bool.or_eq_false_iff] at hskips
  exact hskips.1

end KeyboardCommandQueue

end RustAdmin.Keyboard
