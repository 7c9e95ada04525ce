import RustAdmin.Keyboard.Budget
import RustAdmin.Keyboard.Leases
import RustAdmin.Support.Linked

/-!
# What reaches the host

The queue of the dispatcher is cancelled, allowed and disallowed at any time, while
the state machine has already moved on.  An up is sent exactly if its lease was sent
down; and when the queue is idle every key that the host was told last to press is
held by the state machine, unless the counts of a text overflowed on the way.

Two logs are compared: the key actions that were handed over and the calls of the
sinks.  `Delivers` says what the first part of the one, those that had their turn,
left in the other, and `Accounted` adds the actions that still wait.  A turn of the
queue is one `Attempts` of the action at its head (`dispatch_turn`), also where it is
cancelled or blocked: then only the release of a lease that is down is sent.
`accounted_drain` runs the queue up to a command that waits, and each call of the
dispatcher keeps the account.
-/

namespace RustAdmin.Keyboard

open RustAdmin.Support Relation PhysicalKeyboardDispatch

/-! ## The calls of the sinks -/

/-- The actions that were sent for a lease. -/
def sendsOf (sent : List SinkCall) (lease : KeyboardPhysicalDispatchLease) :
    List KeyboardIntentAction :=
  (sent.filterMap SinkCall.physical?).filterMap fun dispatch =>
    if dispatch.lease = lease then some dispatch.action else none

/-- The last action that was sent for a key. -/
def lastSent (sent : List SinkCall) (key : HidKey) : Option PhysicalKeyboardDispatch :=
  (sent.filterMap SinkCall.physical?).reverse.find? fun dispatch => dispatch.key = key

/-- An up comes after a down or repeat, with no up in between. -/
def UpFollows (previous : Option KeyboardIntentAction) (action : KeyboardIntentAction) : Prop :=
  action = .up → ∃ before, previous = some before ∧ before ≠ .up

/-- The leases that are down are those whose last action was no up, and the last action
of a key was no up only for such a lease. -/
structure SentSound (sent : List SinkCall) (downStarted : Finset KeyboardPhysicalDispatchLease) :
    Prop where
  linked : ∀ lease, Linked UpFollows (sendsOf sent lease)
  started : ∀ lease, lease ∈ downStarted ↔
    ∃ action, (sendsOf sent lease).getLast? = some action ∧ action ≠ .up
  last : ∀ key dispatch, lastSent sent key = some dispatch → dispatch.action ≠ .up →
    dispatch.lease ∈ downStarted

variable {sent sent' : List SinkCall} {started started' : Finset KeyboardPhysicalDispatchLease}
  {dispatch : PhysicalKeyboardDispatch} {call : SinkCall} {key : HidKey}

theorem sendsOf_concat (hcall : call.physical? = some dispatch)
    (lease : KeyboardPhysicalDispatchLease) :
    sendsOf (sent ++ [call]) lease =
      if dispatch.lease = lease then sendsOf sent lease ++ [dispatch.action]
      else sendsOf sent lease := by
  by_cases hlease : dispatch.lease = lease <;> simp [sendsOf, hcall, hlease]

theorem lastSent_concat (hcall : call.physical? = some dispatch) (key : HidKey) :
    lastSent (sent ++ [call]) key =
      if dispatch.key = key then some dispatch else lastSent sent key := by
  by_cases hkey : dispatch.key = key <;> simp [lastSent, hcall, hkey]

theorem lastSent_key (h : lastSent sent key = some dispatch) : dispatch.key = key := by
  simpa using List.find?_some h

/-- A text says nothing about keys. -/
theorem SentSound.text (h : SentSound sent started) (hcall : call.physical? = none) :
    SentSound (sent ++ [call]) started := by
  have hsame : (sent ++ [call]).filterMap SinkCall.physical? =
      sent.filterMap SinkCall.physical? := by
    simp [hcall]
  refine ⟨?_, ?_, ?_⟩
  · intro lease
    rw [sendsOf, hsame]
    exact h.linked lease
  · intro lease
    rw [sendsOf, hsame]
    exact h.started lease
  · intro key dispatch hlast
    rw [lastSent, hsame] at hlast
    exact h.last key dispatch hlast

/-- The up of a lease that is down. -/
theorem SentSound.release (h : SentSound sent started) (hcall : call.physical? = some dispatch)
    (hup : dispatch.action = .up) (hstarted : dispatch.lease ∈ started) :
    SentSound (sent ++ [call]) (started.erase dispatch.lease) := by
  refine ⟨?_, ?_, ?_⟩
  · intro lease
    rw [sendsOf_concat hcall]
    split_ifs with hlease
    · subst hlease
      exact linked_concat.mpr ⟨h.linked _, fun _ => (h.started _).mp hstarted⟩
    · exact h.linked lease
  · intro lease
    rw [sendsOf_concat hcall, Finset.mem_erase]
    split_ifs with hlease
    · simp [hlease, hup]
    · rw [h.started lease, ne_comm]
      exact and_iff_right hlease
  · intro key other hlast haction
    rw [lastSent_concat hcall] at hlast
    split_ifs at hlast with hkey
    · obtain rfl := Option.some.inj hlast
      exact absurd hup haction
    · refine Finset.mem_erase.mpr ⟨?_, h.last key other hlast haction⟩
      intro hlease
      rw [← lastSent_key hlast, PhysicalKeyboardDispatch.key, PhysicalKeyboardDispatch.key,
        hlease] at hkey
      exact hkey rfl

/-- A down or repeat. -/
theorem SentSound.press (h : SentSound sent started) (hcall : call.physical? = some dispatch)
    (haction : dispatch.action ≠ .up) :
    SentSound (sent ++ [call]) (insert dispatch.lease started) := by
  refine ⟨?_, ?_, ?_⟩
  · intro lease
    rw [sendsOf_concat hcall]
    split_ifs with hlease
    · exact linked_concat.mpr ⟨h.linked _, fun hup => absurd hup haction⟩
    · exact h.linked lease
  · intro lease
    rw [sendsOf_concat hcall, Finset.mem_insert]
    split_ifs with hlease
    · simp [hlease, haction]
    · rw [h.started lease]
      exact or_iff_right fun heq => hlease heq.symm
  · intro key other hlast hother
    rw [lastSent_concat hcall] at hlast
    split_ifs at hlast with hkey
    · obtain rfl := Option.some.inj hlast
      exact Finset.mem_insert_self _ _
    · exact Finset.mem_insert_of_mem (h.last key other hlast hother)

/-! ## One key action -/

/-- What a key action does when its turn comes: a press is sent or skipped, an up that
finds its lease down and a sink is sent. -/
inductive Attempts (dispatch : PhysicalKeyboardDispatch) (sent : List SinkCall)
    (started : Finset KeyboardPhysicalDispatchLease) :
    List SinkCall → Finset KeyboardPhysicalDispatchLease → Prop
  | skips (hskips : dispatch.action = .up → dispatch.lease ∈ started → ¬ dispatch.Reaches) :
      Attempts dispatch sent started sent started
  | releases {call : SinkCall} (hcall : call.physical? = some dispatch)
      (hup : dispatch.action = .up) (hstarted : dispatch.lease ∈ started) :
      Attempts dispatch sent started (sent ++ [call]) (started.erase dispatch.lease)
  | presses {call : SinkCall} (hcall : call.physical? = some dispatch)
      (hpresses : dispatch.Presses) :
      Attempts dispatch sent started (sent ++ [call]) (insert dispatch.lease started)

theorem Attempts.sentSound (h : Attempts dispatch sent started sent' started')
    (hsound : SentSound sent started) : SentSound sent' started' := by
  cases h with
  | skips hskips => exact hsound
  | releases hcall hup hstarted => exact hsound.release hcall hup hstarted
  | presses hcall hpresses => exact hsound.press hcall hpresses.1

/-- Every lease that is down has a press that was not released, among the actions that
had their turn. -/
def Pressed (done : List PhysicalKeyboardDispatch)
    (started : Finset KeyboardPhysicalDispatchLease) : Prop :=
  ∀ lease ∈ started, ∃ dispatch, dispatch.lease = lease ∧
    Unanswered Presses ReleasedBy dispatch done

variable {done : List PhysicalKeyboardDispatch}

theorem Attempts.pressed (h : Attempts dispatch sent started sent' started')
    (hpressed : Pressed done started) : Pressed (done ++ [dispatch]) started' := by
  intro lease hmem
  cases h with
  | skips hskips =>
      obtain ⟨press, hlease, hunanswered⟩ := hpressed lease hmem
      refine ⟨press, hlease, hunanswered.append ?_⟩
      rintro release hrelease ⟨hsame, hup, hreaches⟩
      obtain rfl := List.mem_singleton.mp hrelease
      exact hskips hup (by rwa [hsame, hlease]) hreaches
  | releases hcall hup hstarted =>
      obtain ⟨hne, hold⟩ := Finset.mem_erase.mp hmem
      obtain ⟨press, hlease, hunanswered⟩ := hpressed lease hold
      refine ⟨press, hlease, hunanswered.append ?_⟩
      rintro release hrelease ⟨hsame, -, -⟩
      obtain rfl := List.mem_singleton.mp hrelease
      exact hne (hlease.symm.trans hsame.symm)
  | presses hcall hpresses =>
      rcases Finset.mem_insert.mp hmem with rfl | hold
      · exact ⟨dispatch, rfl, unanswered_concat done hpresses⟩
      · obtain ⟨press, hlease, hunanswered⟩ := hpressed lease hold
        refine ⟨press, hlease, hunanswered.append ?_⟩
        rintro release hrelease ⟨-, hup, -⟩
        obtain rfl := List.mem_singleton.mp hrelease
        exact hpresses.1 hup

/-- Presses that are cancelled release nothing. -/
theorem Pressed.cancel (hpressed : Pressed done started) {cancelled : List PhysicalKeyboardDispatch}
    (hcancelled : ∀ dispatch ∈ cancelled, dispatch.action ≠ .up) :
    Pressed (done ++ cancelled) started := by
  intro lease hmem
  obtain ⟨press, hlease, hunanswered⟩ := hpressed lease hmem
  refine ⟨press, hlease, hunanswered.append ?_⟩
  rintro release hrelease ⟨-, hup, -⟩
  exact hcancelled release hrelease hup

/-! ## One command -/

namespace KeyboardDispatcherState

variable {d d' : KeyboardDispatcherState} {action : KeyboardDispatchAction}

/-- What a command does when its turn comes. -/
def Turn (d d' : KeyboardDispatcherState) : KeyboardDispatchAction → Prop
  | .physical dispatch => Attempts dispatch d.sent d.downStarted d'.sent d'.downStarted
  | .committedText _ => d'.downStarted = d.downStarted ∧
      (d'.sent = d.sent ∨ ∃ call, call.physical? = none ∧ d'.sent = d.sent ++ [call])

/-- The queue and the reservations stay as they are. -/
def SameQueue (d d' : KeyboardDispatcherState) : Prop :=
  d'.queue = d.queue ∧ d'.pendingText = d.pendingText

theorem physical?_of_sinkCall (h : dispatch.sinkCall = some call) :
    call.physical? = some dispatch := by
  unfold sinkCall at h
  split at h
  · obtain rfl := Option.some.inj h
    rfl
  · obtain ⟨name, -, rfl⟩ := Option.map_eq_some_iff.mp h
    rfl

theorem dispatchPhysical_turn (d : KeyboardDispatcherState) (dispatch : PhysicalKeyboardDispatch) :
    Turn d (d.dispatchPhysical dispatch) (.physical dispatch) ∧
      SameQueue d (d.dispatchPhysical dispatch) := by
  unfold dispatchPhysical
  cases hcall : dispatch.sinkCall with
  | none =>
      refine ⟨.skips fun _ _ hreaches => ?_, rfl, rfl⟩
      rw [Reaches, hcall] at hreaches
      cases hreaches
  | some call =>
      have hphysical := physical?_of_sinkCall hcall
      unfold beginPhysicalAttempt
      dsimp only
      by_cases hup : dispatch.action = .up
      · rw [if_pos hup]
        by_cases hstarted : dispatch.lease ∈ d.downStarted
        · rw [if_pos hstarted]
          exact ⟨.releases hphysical hup hstarted, rfl, rfl⟩
        · rw [if_neg hstarted]
          exact ⟨.skips fun _ hmem => absurd hmem hstarted, rfl, rfl⟩
      · rw [if_neg hup]
        exact ⟨.presses hphysical ⟨hup, by rw [Reaches, hcall]; rfl⟩, rfl, rfl⟩

theorem sendComposed_turn (d : KeyboardDispatcherState) (accent : ℤ) (composed : Option ℤ)
    (dispatch : CommittedTextDispatch) :
    Turn d (d.sendComposed accent composed dispatch) (.committedText dispatch) ∧
      SameQueue d (d.sendComposed accent composed dispatch) := by
  unfold sendComposed
  split
  · exact ⟨⟨rfl, Or.inr ⟨_, rfl, rfl⟩⟩, rfl, rfl⟩
  · exact ⟨⟨rfl, Or.inr ⟨_, rfl, rfl⟩⟩, rfl, rfl⟩

theorem dispatchText_turn (d : KeyboardDispatcherState) (dispatch : CommittedTextDispatch) :
    Turn d (d.dispatchText dispatch) (.committedText dispatch) ∧
      SameQueue d (d.dispatchText dispatch) := by
  unfold dispatchText
  cases dispatch.deadKeyAccent with
  | none =>
      dsimp only
      split_ifs
      · exact ⟨⟨rfl, Or.inl rfl⟩, rfl, rfl⟩
      · exact ⟨⟨rfl, Or.inr ⟨_, rfl, rfl⟩⟩, rfl, rfl⟩
  | some accent =>
      dsimp only
      split_ifs
      · exact ⟨⟨rfl, Or.inl rfl⟩, rfl, rfl⟩
      · exact ⟨⟨rfl, Or.inl rfl⟩, rfl, rfl⟩
      · exact sendComposed_turn d _ _ dispatch

/-- Where nothing may be dispatched, a release whose down went out still is. -/
theorem dispatch_turn (d : KeyboardDispatcherState) (action : KeyboardDispatchAction) :
    Turn d (d.dispatch action) action ∧ SameQueue d (d.dispatch action) := by
  unfold dispatch
  split_ifs with hblocked
  · cases action with
    | physical dispatch =>
        refine ⟨.skips fun hup hmem => ?_, rfl, rfl⟩
        have howned := hblocked.2
        simp [ownedRelease, hup, hmem] at howned
    | committedText dispatch => exact ⟨⟨rfl, Or.inl rfl⟩, rfl, rfl⟩
  · cases action with
    | physical dispatch => exact dispatchPhysical_turn d dispatch
    | committedText dispatch => exact dispatchText_turn d dispatch

/-! ## The queue -/

/-- The key actions of commands. -/
def keyActions (commands : List (QueuedKeyboardCommand DispatchCommand)) :
    List PhysicalKeyboardDispatch :=
  commands.filterMap fun queued => queued.command.action.physical?

theorem keyActions_append (commands more : List (QueuedKeyboardCommand DispatchCommand)) :
    keyActions (commands ++ more) = keyActions commands ++ keyActions more :=
  List.filterMap_append

theorem keyActions_singleton (queued : QueuedKeyboardCommand DispatchCommand) :
    keyActions [queued] = queued.command.action.physical?.toList := by
  cases hphysical : queued.command.action.physical? <;> simp [keyActions, hphysical]

/-- After the key actions `done` had their turn: the leases that are down are those of
their open presses, and the releases that wait are kept. -/
structure Delivers (done : List PhysicalKeyboardDispatch) (d : KeyboardDispatcherState) : Prop where
  kept : ∀ queued ∈ d.queue.pending,
    queued.command.action.isRelease = true → queued.keepOnCancel = true
  pressed : Pressed done d.downStarted
  sent : SentSound d.sent d.downStarted

theorem Delivers.turn (h : Delivers done d) (hturn : Turn d d' action) (hqueue : SameQueue d d') :
    Delivers (done ++ action.physical?.toList) d' where
  kept := by
    rw [hqueue.1]
    exact h.kept
  pressed := by
    cases action with
    | physical dispatch => exact Attempts.pressed hturn h.pressed
    | committedText dispatch =>
        obtain ⟨hstarted, -⟩ := hturn
        rw [hstarted]
        exact h.pressed.cancel (by simp [KeyboardDispatchAction.physical?])
  sent := by
    cases action with
    | physical dispatch => exact Attempts.sentSound hturn h.sent
    | committedText dispatch =>
        obtain ⟨hstarted, hsent | ⟨call, hcall, hsent⟩⟩ := hturn
        · rw [hstarted, hsent]
          exact h.sent
        · rw [hstarted, hsent]
          exact h.sent.text hcall

/-- Completing changes nothing but the reservations. -/
theorem release_eq (d : KeyboardDispatcherState) (command : DispatchCommand) :
    d.release command = { d with pendingText := (d.release command).pendingText } := by
  unfold release
  split <;> rfl

theorem covers_release {command : DispatchCommand} {commands : List DispatchCommand}
    (h : Covers d.pendingText (command :: commands)) :
    Covers (d.release command).pendingText commands := by
  unfold release
  cases haction : command.action with
  | physical dispatch =>
      have hsub := h.sub
      have hnone : command.reservation = {} := by
        rw [DispatchCommand.reservation, haction]
      refine ⟨?_, hsub.nonneg, h.within⟩
      rw [h.total, reserved_cons, hnone]
      simp
  | committedText dispatch =>
      have hreservation : command.reservation = ⟨command.cost, 1, dispatch.editCost⟩ := by
        rw [DispatchCommand.reservation, haction]
      show Covers (d.pendingText.sub ⟨command.cost, 1, dispatch.editCost⟩) commands
      rw [← hreservation]
      exact h.sub

/-- The commands that are skipped before the next one runs complete at once. -/
def skip (d : KeyboardDispatcherState) : KeyboardDispatcherState :=
  d.queue.skipped.foldl (fun d queued => d.release queued.command) { d with queue := d.queue.next }

theorem foldl_release (commands : List (QueuedKeyboardCommand DispatchCommand))
    (d : KeyboardDispatcherState) :
    commands.foldl (fun d queued => d.release queued.command) d =
      { d with pendingText :=
        (commands.foldl (fun d queued => d.release queued.command) d).pendingText } := by
  induction commands generalizing d with
  | nil => rfl
  | cons queued commands ih =>
      rw [List.foldl_cons, ih, release_eq]

theorem covers_foldl_release {rest : List DispatchCommand}
    (commands : List (QueuedKeyboardCommand DispatchCommand)) (d : KeyboardDispatcherState)
    (h : Covers d.pendingText (commands.map QueuedKeyboardCommand.command ++ rest)) :
    Covers (commands.foldl (fun d queued => d.release queued.command) d).pendingText rest := by
  induction commands generalizing d with
  | nil => exact h
  | cons queued commands ih => exact ih _ (covers_release h)

theorem drain_eq (d : KeyboardDispatcherState) :
    d.drain = match d.queue.next.running with
      | none => d.skip
      | some queued => d.skip.dispatch queued.command.action := rfl

/-- The commands that have not completed. -/
def outstanding (d : KeyboardDispatcherState) : List DispatchCommand :=
  (d.queue.running.toList ++ d.queue.pending).map QueuedKeyboardCommand.command

/-- The reservations are those of the commands that have not completed, and the key
actions of the log had their turn or wait for it. -/
structure Accounted (log : List PhysicalKeyboardDispatch) (d : KeyboardDispatcherState) : Prop where
  covers : Covers d.pendingText d.outstanding
  delivers : ∃ done, Delivers done d ∧ log = done ++ keyActions d.queue.pending

/-- The rest of the dispatcher does not matter. -/
theorem Accounted.of_same {log : List PhysicalKeyboardDispatch} (h : Accounted log d)
    (hpending : d'.queue.pending = d.queue.pending) (hrunning : d'.queue.running = d.queue.running)
    (htext : d'.pendingText = d.pendingText) (hstarted : d'.downStarted = d.downStarted)
    (hsent : d'.sent = d.sent) : Accounted log d' := by
  obtain ⟨done, hdelivers, hlog⟩ := h.delivers
  refine ⟨?_, done, ⟨?_, ?_, ?_⟩, ?_⟩
  · rw [outstanding, hpending, hrunning, htext]
    exact h.covers
  · rw [hpending]
    exact hdelivers.kept
  · rw [hstarted]
    exact hdelivers.pressed
  · rw [hsent, hstarted]
    exact hdelivers.sent
  · rw [hlog, hpending]

theorem skip_eq (d : KeyboardDispatcherState) :
    d.skip = { d with queue := d.queue.next, pendingText := d.skip.pendingText } := by
  unfold skip
  exact foldl_release d.queue.skipped { d with queue := d.queue.next }

theorem commands_next (d : KeyboardDispatcherState) :
    d.queue.pending.map QueuedKeyboardCommand.command =
      d.queue.skipped.map QueuedKeyboardCommand.command ++
        (d.queue.next.running.toList ++ d.queue.next.pending).map
          QueuedKeyboardCommand.command := by
  rw [← List.map_append, KeyboardCommandQueue.skipped_append_next]

/-- The commands that are skipped are no releases. -/
theorem Delivers.skip (h : Delivers done d) :
    Delivers (done ++ keyActions d.queue.skipped) d.skip := by
  have hpending := d.queue.skipped_append_next
  rw [skip_eq]
  refine ⟨?_, ?_, h.sent⟩
  · intro queued hmem
    apply h.kept queued
    rw [← hpending]
    exact List.mem_append_right _ (List.mem_append_right _ hmem)
  · apply h.pressed.cancel
    intro dispatch hmem hup
    obtain ⟨queued, hqueued, hphysical⟩ := List.mem_filterMap.mp hmem
    have hrelease : queued.command.action.isRelease = true := by
      cases haction : queued.command.action with
      | physical other =>
          rw [haction] at hphysical
          obtain rfl := Option.some.inj hphysical
          simp [KeyboardDispatchAction.isRelease, hup]
      | committedText other =>
          rw [haction] at hphysical
          cases hphysical
    have hkept := h.kept queued (by
      rw [← hpending]
      exact List.mem_append_left _ hqueued) hrelease
    rw [KeyboardCommandQueue.keepOnCancel_of_mem_skipped hqueued] at hkept
    cases hkept

/-- The turns of the queue up to a command that waits. -/
theorem accounted_drain {log : List PhysicalKeyboardDispatch}
    (hcovers : Covers d.pendingText (d.queue.pending.map QueuedKeyboardCommand.command))
    (hdelivers : Delivers done d) (hlog : log = done ++ keyActions d.queue.pending) :
    Accounted log d.drain := by
  have hskip := hdelivers.skip
  have hqueue : d.skip.queue = d.queue.next := by rw [skip_eq]
  have hcoversSkip : Covers d.skip.pendingText d.skip.outstanding := by
    rw [commands_next] at hcovers
    rw [outstanding, hqueue]
    exact covers_foldl_release d.queue.skipped { d with queue := d.queue.next } hcovers
  have hpending : keyActions d.queue.pending = keyActions d.queue.skipped ++
      (keyActions d.queue.next.running.toList ++ keyActions d.queue.next.pending) := by
    rw [← keyActions_append, ← keyActions_append, KeyboardCommandQueue.skipped_append_next]
  rw [hpending, ← List.append_assoc] at hlog
  rw [drain_eq]
  cases hrunning : d.queue.next.running with
  | none =>
      rw [hrunning] at hlog
      exact ⟨hcoversSkip, _, hskip, by rw [hlog, hqueue]; rfl⟩
  | some queued =>
      obtain ⟨hturn, hsame⟩ := dispatch_turn d.skip queued.command.action
      rw [hrunning] at hlog
      refine ⟨?_, _, hskip.turn hturn hsame, ?_⟩
      · rw [outstanding, hsame.1, hsame.2]
        exact hcoversSkip
      · have hone : keyActions (some queued).toList = queued.command.action.physical?.toList :=
          keyActions_singleton queued
        rw [hlog, hone, hsame.1, hqueue, List.append_assoc _ queued.command.action.physical?.toList]

/-- A command joins the queue; if nothing runs its turn may come at once. -/
theorem Accounted.enqueue {log : List PhysicalKeyboardDispatch} {command : DispatchCommand}
    {keepOnCancel : Bool} {reservation : TextReservation} (h : Accounted log d)
    (hcovers : Covers reservation (d.outstanding ++ [command]))
    (hkeep : command.action.isRelease = true → keepOnCancel = true) :
    Accounted (log ++ command.action.physical?.toList)
      ({ d with pendingText := reservation }.enqueue command keepOnCancel) := by
  obtain ⟨done, hdelivers, hlog⟩ := h.delivers
  have hdelivers' : Delivers done { d with
      pendingText := reservation
      queue := d.queue.add command keepOnCancel } := by
    refine ⟨?_, hdelivers.pressed, hdelivers.sent⟩
    intro queued hmem hrelease
    rcases List.mem_append.mp hmem with hold | hnew
    · exact hdelivers.kept queued hold hrelease
    · obtain rfl := List.mem_singleton.mp hnew
      exact hkeep hrelease
  have hlog' : log ++ command.action.physical?.toList =
      done ++ keyActions (d.queue.add command keepOnCancel).pending := by
    have hadd : keyActions (d.queue.add command keepOnCancel).pending =
        keyActions d.queue.pending ++ command.action.physical?.toList := by
      unfold KeyboardCommandQueue.add
      rw [keyActions_append, keyActions_singleton]
    rw [hadd, hlog, List.append_assoc]
  have houtstanding : ({ d with
      pendingText := reservation
      queue := d.queue.add command keepOnCancel } : KeyboardDispatcherState).outstanding =
      d.outstanding ++ [command] := by
    simp [outstanding, KeyboardCommandQueue.add]
  unfold KeyboardDispatcherState.enqueue
  dsimp only
  split_ifs with hrunning
  · exact ⟨houtstanding ▸ hcovers, done, hdelivers', hlog'⟩
  · refine accounted_drain ?_ hdelivers' hlog'
    have hnone : d.queue.running = none := by simpa [KeyboardCommandQueue.add] using hrunning
    rw [← houtstanding] at hcovers
    simpa [outstanding, KeyboardCommandQueue.add, hnone] using hcovers

/-! ## The calls of the dispatcher -/

variable {log : List PhysicalKeyboardDispatch}

/-- A key action reserves nothing. -/
theorem covers_physical {reservation : TextReservation} {commands : List DispatchCommand}
    (h : Covers reservation commands) (dispatch : PhysicalKeyboardDispatch) :
    Covers reservation (commands ++ [⟨.physical dispatch, 0⟩]) where
  total := by
    rw [h.total, reserved_append]
    simp [reserved, DispatchCommand.reservation]
  nonneg := by
    intro command hmem
    rcases List.mem_append.mp hmem with hold | hnew
    · exact h.nonneg command hold
    · obtain rfl := List.mem_singleton.mp hnew
      exact ⟨le_refl _, le_refl _, le_refl _⟩
  within := h.within

theorem Accounted.enqueuePhysical (h : Accounted log d) (dispatch : PhysicalKeyboardDispatch)
    {keepOnCancel : Bool} (hkeep : dispatch.action = .up → keepOnCancel = true) :
    Accounted (log ++ [dispatch]) (d.enqueue ⟨.physical dispatch, 0⟩ keepOnCancel) := by
  apply h.enqueue (covers_physical h.covers dispatch)
  intro hrelease
  exact hkeep (by simpa [KeyboardDispatchAction.isRelease] using hrelease)

/-- Key actions are accepted, whatever texts wait. -/
theorem Accounted.tryDispatchAll (h : Accounted log d)
    (dispatches : List PhysicalKeyboardDispatch) :
    Accounted (log ++ dispatches)
      (d.tryDispatchAll (dispatches.map KeyboardDispatchAction.physical)).2 := by
  rw [tryDispatchAll_physicals h.covers]
  show Accounted (log ++ dispatches) (d.enqueueAll _)
  unfold enqueueAll
  rw [List.foldl_map]
  induction dispatches generalizing d log with
  | nil => simpa using h
  | cons dispatch dispatches ih =>
      have hkeep : dispatch.action = .up →
          KeyboardDispatchAction.isRelease (.physical dispatch) = true := by
        intro hup
        simp [KeyboardDispatchAction.isRelease, hup]
      have hfirst := h.enqueuePhysical dispatch hkeep
      have hrest := ih hfirst
      rw [List.append_assoc] at hrest
      exact hrest

theorem Accounted.dispatchRecoveryReleases (h : Accounted log d)
    {releases : List PhysicalKeyboardDispatch} (hups : ∀ release ∈ releases, release.action = .up) :
    Accounted (log ++ releases) (d.dispatchRecoveryReleases releases) := by
  unfold KeyboardDispatcherState.dispatchRecoveryReleases
  induction releases generalizing d log with
  | nil => simpa using h
  | cons release releases ih =>
      have hrest := ih (h.enqueuePhysical release fun _ => rfl)
        fun other hmem => hups other (List.mem_cons_of_mem _ hmem)
      rw [List.foldl_cons, if_pos (hups release List.mem_cons_self)]
      rw [List.append_assoc] at hrest
      exact hrest

/-- A text is refused or joins the queue. -/
theorem Accounted.tryDispatchText (h : Accounted log d) {dispatch : CommittedTextDispatch}
    (hfit : EditsFit dispatch.deleteBeforeGraphemes dispatch.deleteAfterGraphemes) :
    Accounted log (d.tryDispatchAll [.committedText dispatch]).2 := by
  rcases tryDispatchAll_text h.covers hfit with ⟨reason, heq⟩ | ⟨reservation, cost, hcovers, heq⟩
  · rw [heq]
    exact h.of_same rfl rfl rfl rfl rfl
  · rw [heq]
    have hkeep : KeyboardDispatchAction.isRelease (.committedText dispatch) = true →
        false = true := by
      intro hrelease
      cases hrelease
    have henqueue := h.enqueue hcovers hkeep
    simpa [KeyboardDispatchAction.physical?] using henqueue

/-- A new generation skips commands when their turn comes, not before. -/
theorem Accounted.invalidatePending (h : Accounted log d) : Accounted log d.invalidatePending :=
  h.of_same rfl rfl rfl rfl rfl

/-- A text that went on after the composer's answer. -/
theorem Accounted.turn (h : Accounted log d) {dispatch : CommittedTextDispatch}
    (hturn : Turn d d' (.committedText dispatch)) (hsame : SameQueue d d') :
    Accounted log d' := by
  obtain ⟨done, hdelivers, hlog⟩ := h.delivers
  refine ⟨?_, done, ?_, ?_⟩
  · rw [outstanding, hsame.1, hsame.2]
    exact h.covers
  · have hdone := hdelivers.turn hturn hsame
    simpa [KeyboardDispatchAction.physical?] using hdone
  · rw [hlog, hsame.1]

/-- The running command goes on or completes, in whatever way. -/
theorem Accounted.settle (h : Accounted log d) (settlement : Settlement) :
    Accounted log (d.settle settlement) := by
  unfold KeyboardDispatcherState.settle
  cases hcomposing : d.composing with
  | some composing =>
      cases settlement with
      | command failed => exact h
      | composer composed =>
          have hstop : Accounted log { d with composing := none } := h.of_same rfl rfl rfl rfl rfl
          dsimp only
          unfold resume
          dsimp only
          split_ifs
          · exact hstop
          · obtain ⟨hturn, hsame⟩ := sendComposed_turn { d with composing := none } composing.accent
              composed composing.action
            exact hstop.turn hturn hsame
  | none =>
      cases settlement with
      | composer composed => exact h
      | command failed =>
          dsimp only
          cases hrunning : d.queue.running with
          | none => exact h
          | some queued =>
              obtain ⟨done, hdelivers, hlog⟩ := h.delivers
              have hcovers := h.covers
              rw [outstanding, hrunning] at hcovers
              have hreleased := covers_release hcovers
              dsimp only
              rw [release_eq] at hreleased ⊢
              exact accounted_drain hreleased
                ⟨hdelivers.kept, hdelivers.pressed, hdelivers.sent⟩ hlog

theorem Accounted.setCanDispatch (h : Accounted log d) (canDispatch : Bool) :
    Accounted log { d with canDispatch := canDispatch } :=
  h.of_same rfl rfl rfl rfl rfl

/-- A new dispatcher has been handed nothing. -/
theorem accounted_created (canDispatch composesDeadKeys : Bool) :
    Accounted [] { canDispatch := canDispatch, composesDeadKeys := composesDeadKeys } := by
  refine ⟨⟨rfl, ?_, ?_⟩, [], ⟨?_, ?_, ?_⟩, rfl⟩
  · intro command hmem
    cases hmem
  · rw [not_exceeds_iff]
    simp
  · intro queued hmem
    cases hmem
  · intro lease hmem
    cases hmem
  · exact ⟨fun _ => linked_nil, by simp [sendsOf], by simp [lastSent]⟩

end KeyboardDispatcherState

end RustAdmin.Keyboard
