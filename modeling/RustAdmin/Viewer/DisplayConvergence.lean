import RustAdmin.Viewer.DisplayControl

/-!
# Display commands converge to the newest intent

The history of one connection: the outbox, the newest intent, and what has been
sent.  Calls and sends come in any order; sends may fail.  The invariant says that
the fields of the outbox are a summary of what was sent since the logical
generation changed, and that what is left to send never exceeds three commands.

`Sound` describes the outbox by what was sent: the admitted set is the last one that
was sent, no set is sent twice in a row, and the selected display is the last one that
was named.  Each event keeps it by a lemma of its own.  Convergence has a measure:
`work` counts the commands that are left to send, `work_le` bounds it by three, and an
admitted command takes one away.
-/

namespace RustAdmin.Viewer

/-! ## Calls and syncs -/

/-- One call on the outbox, or one pending command that a sync takes, sends and
admits when the send succeeded. -/
inductive DisplayEvent
  | observe (round : ℕ) (intent : DisplayMediaIntent)
  | replace (round : ℕ) (intent : DisplayMediaIntent) (display : ℤ) (size : ℤ × ℤ)
      (refresh : Bool)
  | attempt (succeeds : Bool)
  | takeMetadataSelection (display : ℤ)

/-- The outbox of one connection, with what has happened to it: the newest intent,
the commands sent since the logical generation changed last, and how many were sent
since the last `observe` or `replace` that had an effect. -/
structure DisplayHistory where
  outbox : DisplayIntentOutbox
  newest : Option DisplayMediaIntent
  sent : List DisplayControlCommand
  sentSinceCall : ℕ

/-- The displays of a set command. -/
def DisplayControlCommand.set? : DisplayControlCommand → Option (List ℤ)
  | .set displays => some displays
  | _ => none

/-- The display a command makes the current one. -/
def DisplayControlCommand.named? : DisplayControlCommand → Option ℤ
  | .select display => some display
  | .replace display _ _ => some display
  | _ => none

namespace DisplayHistory

def new (round : ℕ) : DisplayHistory := ⟨.new round, none, [], 0⟩

/-- The intent belongs to this connection and is newer than every one before it. -/
def Newer (h : DisplayHistory) (round : ℕ) (intent : DisplayMediaIntent) : Prop :=
  round = h.outbox.round ∧ intent.aggregateGeneration ≠ 0 ∧
    ∀ current ∈ h.newest, current.generation < intent.generation

instance (h : DisplayHistory) (round : ℕ) (intent : DisplayMediaIntent) :
    Decidable (h.Newer round intent) := by
  unfold Newer
  infer_instance

/-- The intent does not change the logical generation. -/
def SameLogical (h : DisplayHistory) (intent : DisplayMediaIntent) : Prop :=
  ∀ current ∈ h.newest, current.logicalSessionGeneration = intent.logicalSessionGeneration

instance (h : DisplayHistory) (intent : DisplayMediaIntent) : Decidable (h.SameLogical intent) := by
  unfold SameLogical
  infer_instance

def step (h : DisplayHistory) : DisplayEvent → DisplayHistory
  | .observe round intent =>
      if h.Newer round intent then
        ⟨h.outbox.observe round intent, some intent, if h.SameLogical intent then h.sent else [], 0⟩
      else { h with outbox := h.outbox.observe round intent }
  | .replace round intent display size refresh =>
      let outbox := h.outbox.replace round intent display size refresh
      { h with
        outbox
        -- An accepted replacement is told by its generation, which is taken once only.
        sentSinceCall :=
          if outbox.replacementGeneration = h.outbox.replacementGeneration then h.sentSinceCall
          else 0 }
  | .attempt succeeds =>
      match h.outbox.pending h.outbox.round true with
      | none => h
      | some command =>
          if succeeds then
            { h with
              outbox := h.outbox.admitCommand h.outbox.round command
              sent := h.sent ++ [command]
              sentSinceCall := h.sentSinceCall + 1 }
          else { h with outbox := h.outbox.recordFailure.1 }
  | .takeMetadataSelection display =>
      { h with outbox := (h.outbox.takeMetadataSelection display).1 }

/-- The history of a connection. -/
def afterEvents (round : ℕ) (events : List DisplayEvent) : DisplayHistory :=
  events.foldl step (new round)

/-- The capture sets sent since the logical generation changed last. -/
def sets (h : DisplayHistory) : List (List ℤ) := h.sent.filterMap DisplayControlCommand.set?

/-- The displays made current since the logical generation changed last. -/
def named (h : DisplayHistory) : List ℤ := h.sent.filterMap DisplayControlCommand.named?

end DisplayHistory

/-! ## What is left to send -/

namespace DisplayIntentOutbox

/-- How many commands the outbox still has to send. -/
def work (o : DisplayIntentOutbox) : ℕ :=
  (if o.admitted = some o.desired then 0 else 1) +
    match o.replacement with
    | some (.replace _ _ _) => if o.refreshReplacement then 2 else 1
    | some _ => 1
    | none =>
        match o.desired with
        | [display] => if o.selected = some display then 0 else 1
        | _ => 0

/-- A replacement is about the one desired display; its refresh comes after it. -/
def ReplacementFits (o : DisplayIntentOutbox) : Prop :=
  ∀ command, o.replacement = some command → ∃ display, o.desired = [display] ∧
    ((∃ width height, command = .replace display width height) ∨
      (command = .refresh display ∧ o.selected = some display))

theorem work_le (o : DisplayIntentOutbox) : o.work ≤ 3 := by
  unfold work
  split <;> split <;> (try split) <;> (try split) <;> omega

/-- What is pending for a peer with capture sets, and what the outbox is then. -/
theorem pending_cases {o : DisplayIntentOutbox} {command : DisplayControlCommand}
    (h : o.pending o.round true = some command) :
    (o.admitted ≠ some o.desired ∧ command = .set o.desired) ∨
    (o.admitted = some o.desired ∧ o.replacement = some command) ∨
    (o.admitted = some o.desired ∧ o.replacement = none ∧
      ∃ display, o.desired = [display] ∧ o.selected ≠ some display ∧
        command = .select display) := by
  unfold pending at h
  split at h
  · cases h
  · split at h
    case isTrue hset =>
      left
      exact ⟨hset.2, (Option.some.inj h).symm⟩
    case isFalse hset =>
      have hadmitted : o.admitted = some o.desired := by simpa using hset
      cases hreplacement : o.replacement with
      | some other =>
          rw [hreplacement] at h
          obtain rfl : other = command := by simpa using h
          exact Or.inr (Or.inl ⟨hadmitted, rfl⟩)
      | none =>
          rw [hreplacement] at h
          simp only at h
          split at h
          case h_1 display hdesired =>
            split at h
            case isTrue hselected =>
              obtain rfl := Option.some.inj h
              exact Or.inr (Or.inr ⟨hadmitted, rfl, display, hdesired, hselected, rfl⟩)
            case isFalse => cases h
          case h_2 => cases h

/-- Nothing is pending: the set is admitted, no replacement is left, and a single
display is selected. -/
theorem of_pending_eq_none {o : DisplayIntentOutbox} (hgeneration : o.generation ≠ none)
    (h : o.pending o.round true = none) :
    o.admitted = some o.desired ∧ o.replacement = none ∧
      ∀ display, o.desired = [display] → o.selected = some display := by
  have hadmitted : o.admitted = some o.desired := by
    by_contra hne
    simp [pending, hgeneration, hne] at h
  have hreplacement : o.replacement = none := by
    cases hreplacement : o.replacement with
    | none => rfl
    | some command => simp [pending, hgeneration, hadmitted, hreplacement] at h
  refine ⟨hadmitted, hreplacement, ?_⟩
  intro display hdesired
  by_contra hselected
  simp [pending, hgeneration, hadmitted, hreplacement, hdesired, hselected] at h

end DisplayIntentOutbox

/-! ## The invariant -/

namespace DisplayHistory

/-- The fields of the outbox say what has been sent. -/
structure Sound (h : DisplayHistory) : Prop where
  generation : h.outbox.generation = h.newest.map DisplayMediaIntent.generation
  desired : ∀ intent, h.newest = some intent → h.outbox.desired = displaySet intent.displays
  admitted : h.outbox.admitted = h.sets.getLast?
  selected : ∀ display, h.outbox.selected = some display → h.named.getLast? = some display
  fits : h.outbox.ReplacementFits
  distinct : h.sets.IsChain (· ≠ ·)
  budget : h.sentSinceCall + h.outbox.work ≤ 3

theorem sound_new (round : ℕ) : (new round).Sound where
  generation := rfl
  desired intent h := by cases h
  admitted := rfl
  selected display h := by cases h
  fits command h := by cases h
  distinct := List.IsChain.nil
  budget := by
    show 0 + (DisplayIntentOutbox.new round).work ≤ 3
    rw [Nat.zero_add]
    exact DisplayIntentOutbox.work_le _

variable {h : DisplayHistory}

/-- The outbox takes an intent exactly when it is newer. -/
theorem Sound.observes_iff (hs : h.Sound) (round : ℕ) (intent : DisplayMediaIntent) :
    h.outbox.observes round intent = true ↔ h.Newer round intent := by
  unfold DisplayIntentOutbox.observes Newer
  rw [hs.generation]
  cases h.newest <;> simp [and_assoc]

theorem Sound.sameLogical_iff (hs : h.Sound) (intent : DisplayMediaIntent) :
    h.SameLogical intent ↔ h.outbox.generation.any
      (fun current => (ofLex current).1 ≠ intent.logicalSessionGeneration) = false := by
  unfold SameLogical
  rw [hs.generation]
  cases h.newest with
  | none => simp
  | some current =>
      simp only [DisplayMediaIntent.generation, ofLex_toLex, Option.map_some, Option.any_some,
        Option.mem_some_iff, forall_eq']
      by_cases heq : current.logicalSessionGeneration = intent.logicalSessionGeneration
      · simp [heq]
      · simp [heq]

/-- A newer intent: nothing of the last one is left but what the peer was told in
this logical generation. -/
theorem Sound.observe (hs : h.Sound) {round : ℕ} {intent : DisplayMediaIntent}
    (hnewer : h.Newer round intent) : (h.step (.observe round intent)).Sound := by
  have hobserves : h.outbox.observes round intent = true := (hs.observes_iff _ _).mpr hnewer
  have hwork : (h.outbox.observe round intent).work ≤ 3 := DisplayIntentOutbox.work_le _
  simp only [step, if_pos hnewer]
  by_cases hsame : h.SameLogical intent
  -- What was sent still counts in the same logical generation; a new one forgets it.
  · have hany := (hs.sameLogical_iff intent).mp hsame
    rw [if_pos hsame]
    simp only [DisplayIntentOutbox.observe, hobserves, if_true, hany] at hwork ⊢
    exact {
      generation := rfl
      desired := fun other hother => by rw [Option.some.inj hother]
      admitted := hs.admitted
      selected := hs.selected
      fits := fun command hcommand => by cases hcommand
      distinct := hs.distinct
      budget := by simpa using hwork }
  · have hany : h.outbox.generation.any
        (fun current => (ofLex current).1 ≠ intent.logicalSessionGeneration) = true := by
      rw [hs.sameLogical_iff, Bool.not_eq_false] at hsame
      exact hsame
    rw [if_neg hsame]
    simp only [DisplayIntentOutbox.observe, hobserves, if_true, hany] at hwork ⊢
    exact {
      generation := rfl
      desired := fun other hother => by rw [Option.some.inj hother]
      admitted := rfl
      selected := fun display hdisplay => by cases hdisplay
      fits := fun command hcommand => by cases hcommand
      distinct := List.IsChain.nil
      budget := by simpa using hwork }

/-- A replacement of the one desired display. -/
theorem Sound.replace (hs : h.Sound) (round : ℕ) (intent : DisplayMediaIntent) (display : ℤ)
    (size : ℤ × ℤ) (refresh : Bool) :
    (h.step (.replace round intent display size refresh)).Sound := by
  simp only [step]
  by_cases hskip : round ≠ h.outbox.round ∨ h.outbox.generation ≠ some intent.generation ∨
      h.outbox.replacementGeneration = some intent.generation ∨ h.outbox.desired ≠ [display]
  · have hsame : h.outbox.replace round intent display size refresh = h.outbox := by
      rw [DisplayIntentOutbox.replace, if_pos hskip]
    rw [hsame, if_pos rfl]
    exact hs
  · have hnew : h.outbox.replace round intent display size refresh =
        { h.outbox with
          replacementGeneration := some intent.generation
          replacement := some (.replace display size.1 size.2)
          refreshReplacement := refresh } := by
      rw [DisplayIntentOutbox.replace, if_neg hskip]
    simp only [not_or, not_not] at hskip
    obtain ⟨-, -, hgeneration, hdesired⟩ := hskip
    have hwork := (h.outbox.replace round intent display size refresh).work_le
    rw [hnew] at hwork ⊢
    rw [if_neg (fun heq => hgeneration heq.symm)]
    exact {
      generation := hs.generation
      desired := hs.desired
      admitted := hs.admitted
      selected := hs.selected
      fits := by
        intro command hcommand
        obtain rfl : _ = command := Option.some.inj hcommand
        exact ⟨display, hdesired, Or.inl ⟨size.1, size.2, rfl⟩⟩
      distinct := hs.distinct
      budget := by simpa using hwork }

/-- A command that is no set leaves the sets sent as they are. -/
theorem sets_concat_of_eq_none (sent : List DisplayControlCommand)
    {command : DisplayControlCommand} (hcommand : command.set? = none) :
    (sent ++ [command]).filterMap DisplayControlCommand.set? =
      sent.filterMap DisplayControlCommand.set? := by
  rw [List.filterMap_append, List.filterMap_cons_none hcommand, List.filterMap_nil,
    List.append_nil]

/-- The set is sent: it is not the one sent last in this logical generation. -/
theorem Sound.sendSet (hs : h.Sound) (hset : h.outbox.admitted ≠ some h.outbox.desired) :
    Sound { h with
      outbox := h.outbox.admitCommand h.outbox.round (.set h.outbox.desired)
      sent := h.sent ++ [.set h.outbox.desired]
      sentSinceCall := h.sentSinceCall + 1 } := by
  have houtbox : h.outbox.admitCommand h.outbox.round (.set h.outbox.desired) =
      { h.outbox with
        admitted := some h.outbox.desired
        selected := if h.outbox.desired.length ≠ 1 then none else h.outbox.selected
        failures := 0 } := by
    simp [DisplayIntentOutbox.admitCommand]
  have hwork : (h.outbox.admitCommand h.outbox.round (.set h.outbox.desired)).work + 1 ≤
      h.outbox.work := by
    rw [houtbox]
    simp only [DisplayIntentOutbox.work, if_pos, if_neg hset]
    cases hreplacement : h.outbox.replacement with
    | some command => cases command <;> simp only [] <;> omega
    | none =>
        -- Only a set of one display has a selection to come, and the set keeps it.
        cases hdesired : h.outbox.desired with
        | nil => simp
        | cons display rest =>
            cases rest with
            | nil =>
                by_cases hselected : h.outbox.selected = some display <;> simp [hselected]
            | cons other rest => simp
  have hbudget : h.sentSinceCall + 1 +
      (h.outbox.admitCommand h.outbox.round (.set h.outbox.desired)).work ≤ 3 := by
    have := hs.budget
    omega
  have hsets : (h.sent ++ [DisplayControlCommand.set h.outbox.desired]).filterMap
      DisplayControlCommand.set? = h.sets ++ [h.outbox.desired] := by
    rw [List.filterMap_append]
    rfl
  rw [houtbox] at hbudget ⊢
  exact {
    generation := hs.generation
    desired := hs.desired
    admitted := by simp [sets, DisplayControlCommand.set?]
    selected := by
      intro display hdisplay
      -- The set may clear the selection but does not make one.
      have hselected : h.outbox.selected = some display := by
        by_cases hlength : h.outbox.desired.length ≠ 1
        · rw [if_pos hlength] at hdisplay
          cases hdisplay
        · rwa [if_neg hlength] at hdisplay
      have := hs.selected display hselected
      simpa [named, DisplayControlCommand.named?] using this
    fits := by
      intro command hcommand
      obtain ⟨display, hdesired, hcases⟩ := hs.fits command hcommand
      refine ⟨display, hdesired, hcases.imp_right fun hrefresh => ⟨hrefresh.1, ?_⟩⟩
      simp [hdesired, hrefresh.2]
    distinct := by
      have hlast : ∀ displays ∈ h.sets.getLast?, displays ≠ h.outbox.desired := by
        intro displays hdisplays heq
        rw [← hs.admitted, heq] at hdisplays
        exact hset hdisplays
      rw [sets, hsets, List.isChain_append]
      exact ⟨hs.distinct, List.isChain_singleton _, by simpa using hlast⟩
    budget := hbudget }

/-- The single display is selected. -/
theorem Sound.sendSelect (hs : h.Sound) {display : ℤ} (hdesired : h.outbox.desired = [display])
    (hadmitted : h.outbox.admitted = some h.outbox.desired)
    (hreplacement : h.outbox.replacement = none) (hselected : h.outbox.selected ≠ some display) :
    Sound { h with
      outbox := h.outbox.admitCommand h.outbox.round (.select display)
      sent := h.sent ++ [.select display]
      sentSinceCall := h.sentSinceCall + 1 } := by
  have houtbox : h.outbox.admitCommand h.outbox.round (.select display) =
      { h.outbox with
        selected := some display, metadataSelection := some display, failures := 0 } := by
    simp [DisplayIntentOutbox.admitCommand, hdesired]
  have hbudget := hs.budget
  rw [houtbox]
  exact {
    generation := hs.generation
    desired := hs.desired
    admitted := by
      rw [sets, sets_concat_of_eq_none _ rfl]
      exact hs.admitted
    selected := by
      intro other hother
      obtain rfl := Option.some.inj hother
      simp [named, DisplayControlCommand.named?]
    fits := by
      intro command hcommand
      rw [hreplacement] at hcommand
      cases hcommand
    distinct := by
      rw [sets, sets_concat_of_eq_none _ rfl]
      exact hs.distinct
    budget := by
      simp only [DisplayIntentOutbox.work, hadmitted, hreplacement, hdesired, hselected,
        if_true, if_false] at hbudget ⊢
      omega }

/-- The replacement is sent, or the refresh that follows it. -/
theorem Sound.sendReplacement (hs : h.Sound) {command : DisplayControlCommand}
    (hadmitted : h.outbox.admitted = some h.outbox.desired)
    (hreplacement : h.outbox.replacement = some command) :
    Sound { h with
      outbox := h.outbox.admitCommand h.outbox.round command
      sent := h.sent ++ [command]
      sentSinceCall := h.sentSinceCall + 1 } := by
  have hbudget := hs.budget
  obtain ⟨display, hdesired, ⟨width, height, rfl⟩ | ⟨rfl, hselected⟩⟩ :=
    hs.fits command hreplacement
  · have houtbox : h.outbox.admitCommand h.outbox.round (.replace display width height) =
        { h.outbox with
          selected := some display
          replacement :=
            if h.outbox.refreshReplacement then some (.refresh display) else none
          failures := 0 } := by
      simp [DisplayIntentOutbox.admitCommand, hreplacement]
    rw [houtbox]
    exact {
      generation := hs.generation
      desired := hs.desired
      admitted := by
        rw [sets, sets_concat_of_eq_none _ rfl]
        exact hs.admitted
      selected := by
        intro other hother
        obtain rfl := Option.some.inj hother
        simp [named, DisplayControlCommand.named?]
      fits := by
        intro other hother
        cases hrefresh : h.outbox.refreshReplacement with
        | false => simp [hrefresh] at hother
        | true =>
            obtain rfl : DisplayControlCommand.refresh display = other := by
              simpa [hrefresh] using hother
            exact ⟨display, hdesired, Or.inr ⟨rfl, rfl⟩⟩
      distinct := by
        rw [sets, sets_concat_of_eq_none _ rfl]
        exact hs.distinct
      budget := by
        cases hrefresh : h.outbox.refreshReplacement <;>
          simp only [DisplayIntentOutbox.work, hadmitted, hreplacement, hdesired, hrefresh,
            if_true, Bool.false_eq_true, if_false] at hbudget ⊢ <;>
          omega }
  · have houtbox : h.outbox.admitCommand h.outbox.round (.refresh display) =
        { h.outbox with replacement := none, failures := 0 } := by
      simp [DisplayIntentOutbox.admitCommand, hreplacement]
    rw [houtbox]
    exact {
      generation := hs.generation
      desired := hs.desired
      admitted := by
        rw [sets, sets_concat_of_eq_none _ rfl]
        exact hs.admitted
      selected := by simpa [named, DisplayControlCommand.named?] using hs.selected
      fits := fun other hother => by cases hother
      distinct := by
        rw [sets, sets_concat_of_eq_none _ rfl]
        exact hs.distinct
      budget := by
        simp only [DisplayIntentOutbox.work, hadmitted, hreplacement, hdesired, hselected,
          if_true] at hbudget ⊢
        omega }

/-- Every event keeps the invariant. -/
theorem Sound.step (hs : h.Sound) (event : DisplayEvent) : (h.step event).Sound := by
  cases event with
  | observe round intent =>
      by_cases hnewer : h.Newer round intent
      · exact hs.observe hnewer
      · have hsame : h.outbox.observe round intent = h.outbox := by
          apply DisplayIntentOutbox.observe_of_not_observes
          rw [← Bool.not_eq_true, hs.observes_iff]
          exact hnewer
        simp only [DisplayHistory.step, if_neg hnewer, hsame]
        exact hs
  | replace round intent display size refresh => exact hs.replace round intent display size refresh
  | attempt succeeds =>
      simp only [DisplayHistory.step]
      cases hpending : h.outbox.pending h.outbox.round true with
      | none => exact hs
      | some command =>
          cases succeeds with
          -- A failed send counts as a failure and touches no field of the invariant.
          | false => exact ⟨hs.1, hs.2, hs.3, hs.4, hs.5, hs.6, hs.7⟩
          | true =>
              rcases DisplayIntentOutbox.pending_cases hpending with ⟨hset, rfl⟩ |
                ⟨hadmitted, hreplacement⟩ |
                ⟨hadmitted, hreplacement, display, hdesired, hselected, rfl⟩
              · exact hs.sendSet hset
              · exact hs.sendReplacement hadmitted hreplacement
              · exact hs.sendSelect hdesired hadmitted hreplacement hselected
  | takeMetadataSelection display =>
      simp only [DisplayHistory.step, DisplayIntentOutbox.takeMetadataSelection]
      split
      · exact ⟨hs.1, hs.2, hs.3, hs.4, hs.5, hs.6, hs.7⟩
      · exact hs

/-- Every history is sound. -/
theorem sound_afterEvents (round : ℕ) (events : List DisplayEvent) :
    (afterEvents round events).Sound := by
  induction events using List.reverseRecOn with
  | nil => exact sound_new round
  | append_singleton events event ih =>
      have hlast : afterEvents round (events ++ [event]) =
          (afterEvents round events).step event := by
        simp [afterEvents]
      rw [hlast]
      exact ih.step event

/-! ## Syncs -/

end DisplayHistory

/-- What one iteration of a sync meets: whether the connection is still the current
attempt, the intent the owner has now, the resolution and the refresh rule of a
replacement, and whether a send succeeds. -/
structure SyncTurn where
  current : Bool
  latest : Option DisplayMediaIntent
  connected : Bool
  customResolution : ℤ → Option (ℤ × ℤ)
  refreshRequired : Bool
  succeeds : Bool

namespace DisplayHistory

/-- `reconcile_display_intent`, as far as it concerns the outbox. -/
def reconcileDisplayIntent (h : DisplayHistory) (turn : SyncTurn) (intent : DisplayMediaIntent) :
    DisplayHistory :=
  let observed := h.step (.observe h.outbox.round intent)
  match (intent.replacementDisplay.filter fun _ => turn.connected).bind i32TryFrom with
  | none => observed
  | some display =>
      observed.step (.replace h.outbox.round intent display
        ((turn.customResolution display).getD (0, 0)) turn.refreshRequired)

/-- The loop of `sync_display_intent_to_peer`. -/
def syncTurns (h : DisplayHistory) : List SyncTurn → DisplayHistory
  | [] => h
  | turn :: turns =>
      if turn.current then
        let h := turn.latest.elim h (h.reconcileDisplayIntent turn)
        match h.outbox.pending h.outbox.round true with
        | none => h
        | some _ =>
            if turn.succeeds then (h.step (.attempt true)).syncTurns turns
            else h.step (.attempt false)
      else h

/-- `sync_display_intent_to_peer` for a peer with capture sets: three turns at most. -/
def sync (h : DisplayHistory) (turns : List SyncTurn) : DisplayHistory := h.syncTurns (turns.take 3)

theorem reconcileDisplayIntent_eq (h : DisplayHistory) (turn : SyncTurn)
    (intent : DisplayMediaIntent) :
    ∃ events : List DisplayEvent, h.reconcileDisplayIntent turn intent = events.foldl step h := by
  unfold reconcileDisplayIntent
  cases (intent.replacementDisplay.filter fun _ => turn.connected).bind i32TryFrom with
  | none => exact ⟨[.observe h.outbox.round intent], rfl⟩
  | some display =>
      exact ⟨[.observe h.outbox.round intent, .replace h.outbox.round intent display
        ((turn.customResolution display).getD (0, 0)) turn.refreshRequired], rfl⟩

theorem syncTurns_eq (turns : List SyncTurn) (h : DisplayHistory) :
    ∃ events : List DisplayEvent, h.syncTurns turns = events.foldl step h := by
  induction turns generalizing h with
  | nil => exact ⟨[], rfl⟩
  | cons turn turns ih =>
      cases hcurrent : turn.current with
      | false => exact ⟨[], by simp [syncTurns, hcurrent]⟩
      | true =>
          have hlatest : ∃ events : List DisplayEvent,
              turn.latest.elim h (h.reconcileDisplayIntent turn) = events.foldl step h := by
            cases turn.latest with
            | none => exact ⟨[], rfl⟩
            | some intent => exact h.reconcileDisplayIntent_eq turn intent
          obtain ⟨first, hfirst⟩ := hlatest
          simp only [syncTurns, hcurrent, if_true, hfirst]
          cases (first.foldl step h).outbox.pending (first.foldl step h).outbox.round true with
          | none => exact ⟨first, rfl⟩
          | some command =>
              cases turn.succeeds with
              | false => exact ⟨first ++ [.attempt false], by simp [List.foldl_append]⟩
              | true =>
                  obtain ⟨rest, hrest⟩ := ih ((first.foldl step h).step (.attempt true))
                  exact ⟨first ++ .attempt true :: rest, by simpa [List.foldl_append] using hrest⟩

/-- A sync is a sequence of events, so what holds of all histories holds across syncs. -/
theorem sync_eq (h : DisplayHistory) (turns : List SyncTurn) :
    ∃ events : List DisplayEvent, h.sync turns = events.foldl step h :=
  syncTurns_eq _ h

/-! ## The commands converge -/

/-- With nothing pending the peer has been told the newest set, and its single
display; three commands at most follow one call; no set is sent twice in a row in
one logical generation; and the outbox ignores what is not its own. -/
theorem converges (round : ℕ) (events : List DisplayEvent) :
    (∀ intent, (afterEvents round events).newest = some intent →
      (afterEvents round events).outbox.pending (afterEvents round events).outbox.round true =
        none →
      (afterEvents round events).sets.getLast? = some (displaySet intent.displays) ∧
      ∀ display, displaySet intent.displays = [display] →
        (afterEvents round events).named.getLast? = some display) ∧
    (afterEvents round events).sentSinceCall ≤ 3 ∧
    (afterEvents round events).sets.IsChain (· ≠ ·) ∧
    (afterEvents round events).outbox.IgnoresOthers := by
  have hs := sound_afterEvents round events
  refine ⟨?_, ?_, hs.distinct, DisplayIntentOutbox.ignoresOthers _⟩
  · intro intent hnewest hpending
    have hgeneration : (afterEvents round events).outbox.generation ≠ none := by
      rw [hs.generation, hnewest]
      exact Option.some_ne_none _
    obtain ⟨hadmitted, -, hselected⟩ :=
      DisplayIntentOutbox.of_pending_eq_none hgeneration hpending
    have hdesired := hs.desired intent hnewest
    constructor
    · calc (afterEvents round events).sets.getLast?
          = (afterEvents round events).outbox.admitted := hs.admitted.symm
        _ = some (displaySet intent.displays) := by rw [hadmitted, hdesired]
    · intro display hdisplay
      exact hs.selected display (hselected display (hdesired.trans hdisplay))
  · have := hs.budget
    omega

/-- The set of two displays was sent, then the intent went to one of them and the
first send failed. -/
example :
    let events : List DisplayEvent :=
      [.observe 1 ⟨1, 1, [1, 0], none⟩, .attempt true, .observe 1 ⟨1, 2, [1], none⟩,
        .attempt false, .attempt true, .attempt true, .attempt true]
    (afterEvents 1 events).sent = [.set [0, 1], .set [1], .select 1] := by
  decide

end DisplayHistory

end RustAdmin.Viewer
