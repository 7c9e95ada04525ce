import Mathlib.Data.List.Destutter
import Mathlib.Data.List.Sort
import Mathlib.Data.Prod.Lex
import RustAdmin.Support.Arith

/-!
# The display commands of one connection

The outbox of a connection keeps the newest display set the user interface wants
and how far the peer has been told: first the whole set, then, for a single
display, which one is current.  Every command is sent and admitted on its own, and
the intent may change between two of them.
-/

namespace RustAdmin.Viewer

open RustAdmin.Support

/-- The generation pair of an intent, ordered as the source orders the tuple. -/
abbrev IntentGeneration := ℕ ×ₗ ℕ

/-- What the user interface wants to see.  Of each activation the outbox reads the
display only. -/
structure DisplayMediaIntent where
  logicalSessionGeneration : ℕ
  aggregateGeneration : ℕ
  displays : List ℕ
  replacementDisplay : Option ℕ
  deriving DecidableEq, Repr

def DisplayMediaIntent.generation (intent : DisplayMediaIntent) : IntentGeneration :=
  toLex (intent.logicalSessionGeneration, intent.aggregateGeneration)

inductive DisplayControlCommand
  | set (displays : List ℤ)
  | select (display : ℤ)
  | replace (display width height : ℤ)
  | refresh (display : ℤ)
  deriving DecidableEq, Repr

/-- `i32::try_from` of a `usize`. -/
def i32TryFrom (display : ℕ) : Option ℤ := if display < 2 ^ 31 then some display else none

/-- The set `observe` builds: the displays that are an `i32`, sorted, each once. -/
def displaySet (displays : List ℕ) : List ℤ :=
  ((displays.filterMap i32TryFrom).insertionSort (· ≤ ·)).destutter (· ≠ ·)

/-- `u64::is_power_of_two`. -/
def isPowerOfTwo (n : ℕ) : Bool := n != 0 && n &&& (n - 1) == 0

structure DisplayIntentOutbox where
  round : ℕ
  generation : Option IntentGeneration
  desired : List ℤ
  admitted : Option (List ℤ)
  selected : Option ℤ
  metadataSelection : Option ℤ
  failures : ℕ
  replacementGeneration : Option IntentGeneration
  replacement : Option DisplayControlCommand
  refreshReplacement : Bool
  deriving DecidableEq

namespace DisplayIntentOutbox

def new (round : ℕ) : DisplayIntentOutbox :=
  ⟨round, none, [], none, none, none, 0, none, none, false⟩

/-- The two early returns of `observe` do not happen. -/
def observes (o : DisplayIntentOutbox) (round : ℕ) (intent : DisplayMediaIntent) : Bool :=
  round == o.round && intent.aggregateGeneration != 0 &&
    o.generation.all fun current => current < intent.generation

def observe (o : DisplayIntentOutbox) (round : ℕ) (intent : DisplayMediaIntent) :
    DisplayIntentOutbox :=
  if o.observes round intent then
    let o' : DisplayIntentOutbox :=
      if o.generation.any fun current => (ofLex current).1 ≠ intent.logicalSessionGeneration then
        { o with admitted := none, selected := none, metadataSelection := none }
      else o
    { o' with
      generation := some intent.generation
      replacement := none
      desired := displaySet intent.displays }
  else o

def replace (o : DisplayIntentOutbox) (round : ℕ) (intent : DisplayMediaIntent) (display : ℤ)
    (size : ℤ × ℤ) (refresh : Bool) : DisplayIntentOutbox :=
  if round ≠ o.round ∨ o.generation ≠ some intent.generation ∨
      o.replacementGeneration = some intent.generation ∨ o.desired ≠ [display] then o
  else
    { o with
      replacementGeneration := some intent.generation
      replacement := some (.replace display size.1 size.2)
      refreshReplacement := refresh }

def pending (o : DisplayIntentOutbox) (round : ℕ) (supportsSet : Bool) :
    Option DisplayControlCommand :=
  if round ≠ o.round ∨ o.generation = none then none
  else if supportsSet ∧ o.admitted ≠ some o.desired then some (.set o.desired)
  else match o.replacement with
    | some command => some command
    | none =>
        match o.desired with
        | [display] => if o.selected ≠ some display then some (.select display) else none
        -- No empty set is turned into the selection of some display.
        | _ => none

/-- `admit`. -/
def admitCommand (o : DisplayIntentOutbox) (round : ℕ) (command : DisplayControlCommand) :
    DisplayIntentOutbox :=
  if round ≠ o.round then o
  else match command with
    | .set displays =>
        if displays = o.desired then
          { o with
            admitted := some displays
            selected := if displays.length ≠ 1 then none else o.selected
            failures := 0 }
        else o
    | .select display =>
        if o.desired = [display] then
          { o with selected := some display, metadataSelection := some display, failures := 0 }
        else o
    | .replace display width height =>
        if o.replacement = some (.replace display width height) then
          { o with
            selected := some display
            replacement := if o.refreshReplacement then some (.refresh display) else none
            failures := 0 }
        else o
    | .refresh display =>
        if o.replacement = some (.refresh display) then
          { o with replacement := none, failures := 0 }
        else o

/-- `record_failure`: whether this failure is one to report. -/
def recordFailure (o : DisplayIntentOutbox) : DisplayIntentOutbox × Bool :=
  let failures := saturatingAdd o.failures 1
  ({ o with failures }, isPowerOfTwo failures)

def takeMetadataSelection (o : DisplayIntentOutbox) (display : ℤ) : DisplayIntentOutbox × Bool :=
  if o.metadataSelection = some display then ({ o with metadataSelection := none }, true)
  else (o, false)

/-! ## Calls without effect -/

theorem observe_of_not_observes {o : DisplayIntentOutbox} {round : ℕ}
    {intent : DisplayMediaIntent} (h : o.observes round intent = false) :
    o.observe round intent = o := by
  simp [observe, h]

/-- The calls the outbox ignores: those for another round, an intent not newer than
the one it has, and the admission of a command it is not waiting for. -/
structure IgnoresOthers (o : DisplayIntentOutbox) : Prop where
  staleIntent : ∀ round intent current, o.generation = some current →
    intent.generation ≤ current → o.observe round intent = o
  observeOtherRound : ∀ round intent, round ≠ o.round → o.observe round intent = o
  replaceOtherRound : ∀ round intent display size refresh, round ≠ o.round →
    o.replace round intent display size refresh = o
  admitOtherRound : ∀ round command, round ≠ o.round → o.admitCommand round command = o
  pendingOtherRound : ∀ round supportsSet, round ≠ o.round → o.pending round supportsSet = none
  otherSet : ∀ round displays, displays ≠ o.desired → o.admitCommand round (.set displays) = o
  otherSelection : ∀ round display, o.desired ≠ [display] →
    o.admitCommand round (.select display) = o
  otherReplacement : ∀ round display width height,
    o.replacement ≠ some (.replace display width height) →
    o.admitCommand round (.replace display width height) = o
  otherRefresh : ∀ round display, o.replacement ≠ some (.refresh display) →
    o.admitCommand round (.refresh display) = o

theorem ignoresOthers (o : DisplayIntentOutbox) : o.IgnoresOthers where
  staleIntent := by
    intro round intent current hcurrent hle
    apply observe_of_not_observes
    have hnot : ¬ current < intent.generation := not_lt.mpr hle
    simp [observes, hcurrent, hnot]
  observeOtherRound := by
    intro round intent hround
    apply observe_of_not_observes
    simp [observes, hround]
  replaceOtherRound := by
    intro round intent display size refresh hround
    simp [replace, hround]
  admitOtherRound := by
    intro round command hround
    simp [admitCommand, hround]
  pendingOtherRound := by
    intro round supportsSet hround
    simp [pending, hround]
  otherSet := by
    intro round displays hne
    simp [admitCommand, hne]
  otherSelection := by
    intro round display hne
    simp [admitCommand, hne]
  otherReplacement := by
    intro round display width height hne
    simp [admitCommand, hne]
  otherRefresh := by
    intro round display hne
    simp [admitCommand, hne]

end DisplayIntentOutbox

end RustAdmin.Viewer
