import RustAdmin.Keyboard.Delivery

/-!
# The state machine with its dispatcher

In a session intents, resets, cancellations and the answers of the sinks come in any
order.  As long as the counts of every text add up to less than `2 ^ 63`, an up is sent
exactly for a lease that is down, and an idle queue leaves no key down that the
state machine does not hold.

`Delivery` joins the invariants of the two halves: the state machine is sound and
leased, and what it has handed over had its turn or waits.  Each event belongs to one
half and leaves the other alone, except that a change hands over its dispatch, and
`Change.handedOver` says that the dispatcher takes it.  An idle queue then leaves down
only what is carried, and what is carried is held (`Delivery.held_of_down`).
-/

namespace RustAdmin.Keyboard

open RustAdmin.Support Relation PhysicalKeyboardDispatch KeyboardDispatcherState

namespace KeyboardStateMachine

variable {s s' : KeyboardStateMachine KeyboardDispatcherState} {dispatch : PhysicalKeyboardDispatch}

/-! ## What is handed over -/

/-- What was handed to the dispatcher had its turn or waits for it. -/
def HandedOver (s : KeyboardStateMachine KeyboardDispatcherState) : Prop :=
  Accounted s.physicalDispatches s.dispatcher

theorem HandedOver.queuePhysical (h : s.HandedOver) (dispatch : PhysicalKeyboardDispatch) :
    (s.queueActions keyboardDispatcher [.physical dispatch]).2.HandedOver := by
  rw [HandedOver, physicalDispatches_queuePhysical]
  exact h.tryDispatchAll [dispatch]

theorem HandedOver.queueText (h : s.HandedOver) {text : CommittedTextDispatch}
    (hfit : EditsFit text.deleteBeforeGraphemes text.deleteAfterGraphemes) :
    (s.queueActions keyboardDispatcher [.committedText text]).2.HandedOver := by
  rw [HandedOver, physicalDispatches_queueText]
  exact h.tryDispatchText hfit

/-- Holders come and go without the dispatcher. -/
theorem HandedOver.of_same (h : s.HandedOver) (hdispatched : s'.dispatched = s.dispatched)
    (hdispatcher : s'.dispatcher = s.dispatcher) : s'.HandedOver := by
  rw [HandedOver, physicalDispatches, hdispatched, hdispatcher]
  exact h

theorem Change.handedOver (h : Change keyboardDispatcher EditsFit s s') (hs : s.HandedOver) :
    s'.HandedOver := by
  cases h with
  | quiet hroutes hleases hdispatched hdispatcher => exact hs.of_same hdispatched hdispatcher
  | text text hedits =>
      apply hs.queueText
      rcases hedits with ⟨hbefore, hafter⟩ | hfit
      · intro _ _
        rw [hbefore, hafter]
        omega
      · exact hfit
  | repeats hget hphysical hfor haction => exact hs.queuePhysical _
  | shareRoute hphysical hkey hheld hagrees => exact hs.of_same rfl rfl
  | @takeRoute owner active dispatch hphysical hkey hfree hlease hfor haction =>
      have hset : (s.setRoute owner active).HandedOver := hs.of_same rfl rfl
      exact hset.queuePhysical dispatch
  | silentRoute hroute hkey hold => exact hs.of_same rfl rfl
  | removeSilent hown => exact hs.of_same rfl rfl
  | leaveRoute hheld => exact hs.of_same rfl rfl
  | @closeRoute owner active dispatch hget hphysical hlast hlease hfor haction =>
      have hremoved : (s.removeRoute owner).HandedOver := hs.of_same rfl rfl
      exact hremoved.queuePhysical dispatch
  | shareLease hmodifier hshared => exact hs.of_same rfl rfl
  | @takeLease key lease dispatch hkey hmodifier hfree hlease hdispatch haction =>
      have hset : (s.setLease key lease).HandedOver := hs.of_same rfl rfl
      exact hset.queuePhysical dispatch
  | leaveLease hheld => exact hs.of_same rfl rfl
  | @closeLease key lease dispatch hget hlast hdispatch haction =>
      have hremoved : (s.removeLease key).HandedOver := hs.of_same rfl rfl
      exact hremoved.queuePhysical dispatch

/-- The releases of a reset are handed over, blocked or not. -/
theorem HandedOver.reset (h : s.HandedOver) (hs : s.WellKeyed) (allowBlockedReleases : Bool) :
    (s.reset keyboardDispatcher false allowBlockedReleases).HandedOver := by
  cases hstate : s.hadState with
  | false =>
      rw [reset_of_no_state hstate]
      exact h
  | true =>
      have hreleases : s.resetReleases = s.releases := by
        rw [resetReleases, hstate, if_pos rfl]
      rw [HandedOver, physicalDispatches_reset, hreleases]
      have hdispatcher : (s.reset keyboardDispatcher false allowBlockedReleases).dispatcher =
          if allowBlockedReleases then s.dispatcher.dispatchRecoveryReleases s.releases
          else (s.dispatcher.tryDispatchAll
            (s.releases.map KeyboardDispatchAction.physical)).2 := by
        simp [KeyboardStateMachine.reset, hstate, keyboardDispatcher]
      rw [hdispatcher]
      split_ifs
      · exact h.dispatchRecoveryReleases (releases_up hs)
      · exact h.tryDispatchAll s.releases

/-! ## One event -/

/-- The state machine is sound, every press is carried, and what was handed over had
its turn or waits. -/
structure Delivery (s : KeyboardStateMachine KeyboardDispatcherState) : Prop where
  sound : s.Sound
  leased : s.Leased
  handedOver : s.HandedOver

theorem Delivery.follows (h : s.Delivery) (hfollows : Follows keyboardDispatcher EditsFit s s') :
    s'.Delivery := by
  obtain ⟨hsound, hpath⟩ := hfollows h.sound
  refine ⟨hsound, leased_of_path hpath h.sound.keyed h.leased, ?_⟩
  have hchanges : ReflTransGen (Change keyboardDispatcher EditsFit) s s' := hpath
  clear hpath hsound hfollows
  induction hchanges with
  | refl => exact h.handedOver
  | tail _ hstep ih => exact hstep.handedOver ih

/-- The dispatcher goes on while the state machine stays. -/
theorem Delivery.withDispatcher (h : s.Delivery) {d : KeyboardDispatcherState}
    (hd : Accounted s.physicalDispatches d) : ({ s with dispatcher := d }).Delivery where
  sound := ((withDispatcher_keeps d) h.sound).1
  leased := h.leased.of_same rfl rfl rfl
  handedOver := hd

theorem Delivery.reset (h : s.Delivery) (invalidatePending allowBlockedReleases : Bool) :
    (s.reset keyboardDispatcher invalidatePending allowBlockedReleases).Delivery := by
  have hfalse : ∀ {s : KeyboardStateMachine KeyboardDispatcherState}, s.Delivery →
      (s.reset keyboardDispatcher false allowBlockedReleases).Delivery := by
    intro s h
    exact ⟨(reset_keeps false allowBlockedReleases h.sound).1,
      reset_leased h.sound.keyed h.leased allowBlockedReleases,
      h.handedOver.reset h.sound.keyed allowBlockedReleases⟩
  cases invalidatePending with
  | false => exact hfalse h
  | true =>
      rw [reset_true]
      exact hfalse (h.withDispatcher h.handedOver.invalidatePending)

/-- What happens in a session. -/
inductive SessionEvent
  | handle (intent : KeyboardIntent) (context : KeyboardRoutingContext)
  | reset (invalidatePending allowBlockedReleases : Bool)
  | setLegacyPhysicalModifier (modifier : MobileModifierKey) (pressed : Bool)
  | consumeOneShotModifiers
  | invalidatePending
  | settled (settlement : Settlement)
  | canDispatch (allowed : Bool)

/-- A call of the state machine, or a move of its dispatcher. -/
def SessionEvent.call (s : KeyboardStateMachine KeyboardDispatcherState) :
    SessionEvent → Call KeyboardDispatcherState
  | .handle intent context => .handle intent context
  | .reset cancels allowBlockedReleases => .reset cancels allowBlockedReleases
  | .setLegacyPhysicalModifier modifier pressed => .setLegacyPhysicalModifier modifier pressed
  | .consumeOneShotModifiers => .consumeOneShotModifiers
  | .invalidatePending => .invalidatePending
  | .settled settlement => .dispatcherMoved (s.dispatcher.settle settlement)
  | .canDispatch allowed => .dispatcherMoved { s.dispatcher with canDispatch := allowed }

/-- The counts of a committed text add up without overflow. -/
def SessionEvent.Fits : SessionEvent → Prop
  | .handle (.committedText text) _ =>
      EditsFit text.deleteBeforeGraphemes text.deleteAfterGraphemes
  | _ => True

/-- The state after the events of a session. -/
def session (canDispatch composesDeadKeys : Bool) (events : List SessionEvent) :
    KeyboardStateMachine KeyboardDispatcherState :=
  events.foldl (fun s event => s.call keyboardDispatcher (event.call s))
    { dispatcher := { canDispatch := canDispatch, composesDeadKeys := composesDeadKeys } }

theorem Delivery.handle (h : s.Delivery) {intent : KeyboardIntent}
    {context : KeyboardRoutingContext} (hfits : (SessionEvent.handle intent context).Fits) :
    (s.handle keyboardDispatcher intent context).Delivery := by
  by_cases hreset : ∃ reason, intent = .reset reason
  · obtain ⟨reason, rfl⟩ := hreset
    have hforget := h.follows (forgetDeadKey_follows
      (s.pendingDeadKey.map PendingDeadKey.mode ≠ some context.inputMode))
    exact hforget.reset true true
  · push Not at hreset
    apply h.follows
    apply handle_follows hreset
    rintro text rfl
    exact hfits

theorem Delivery.call (h : s.Delivery) {event : SessionEvent} (hfits : event.Fits) :
    (s.call keyboardDispatcher (event.call s)).Delivery := by
  cases event with
  | handle intent context => exact h.handle hfits
  | reset invalidatePending allowBlockedReleases => exact h.reset _ _
  | setLegacyPhysicalModifier modifier pressed =>
      exact h.follows (Unrouted.follows ⟨rfl, rfl, rfl⟩ (changes_of_same rfl rfl rfl rfl))
  | consumeOneShotModifiers =>
      exact h.follows (consumeOneShot_unrouted.follows consumeOneShot_changes)
  | invalidatePending => exact h.withDispatcher h.handedOver.invalidatePending
  | settled settlement => exact h.withDispatcher (h.handedOver.settle settlement)
  | canDispatch allowed => exact h.withDispatcher (h.handedOver.setCanDispatch allowed)

/-! ## Sessions -/

theorem delivery_created (canDispatch composesDeadKeys : Bool) :
    (session canDispatch composesDeadKeys []).Delivery where
  sound := ⟨(idle_created _).wellKeyed, (idle_created _).reportedOwners, rfl⟩
  leased := (idle_created _).leased trivial
  handedOver := accounted_created canDispatch composesDeadKeys

theorem session_concat (canDispatch composesDeadKeys : Bool) (events : List SessionEvent)
    (event : SessionEvent) :
    session canDispatch composesDeadKeys (events ++ [event]) =
      (session canDispatch composesDeadKeys events).call keyboardDispatcher
        (event.call (session canDispatch composesDeadKeys events)) := by
  simp [session]

theorem session_delivery (canDispatch composesDeadKeys : Bool) (events : List SessionEvent)
    (hfits : ∀ event ∈ events, event.Fits) :
    (session canDispatch composesDeadKeys events).Delivery := by
  induction events using List.reverseRecOn with
  | nil => exact delivery_created canDispatch composesDeadKeys
  | append_singleton events event ih =>
      rw [session_concat]
      have hbefore := ih fun other hmem => hfits other (List.mem_append_left _ hmem)
      exact hbefore.call (hfits event (List.mem_append_right _ (List.mem_singleton_self _)))

/-- The key of a dispatch that is carried is held. -/
theorem Carries.held (h : s.Carries dispatch) :
    s.HasPhysicalOwner dispatch.key ∨ s.HasLease dispatch.key := by
  rcases h with ⟨active, hrouted, -⟩ | hget
  · exact Or.inl hrouted.hasPhysicalOwner
  · exact Or.inr ⟨_, hget⟩

/-- When nothing waits, a key that was left down is held. -/
theorem Delivery.held_of_down (h : s.Delivery) (hidle : s.dispatcher.queue.Idle) {key : HidKey}
    (hlast : lastSent s.dispatcher.sent key = some dispatch) (haction : dispatch.action ≠ .up) :
    s.HasPhysicalOwner key ∨ s.HasLease key := by
  obtain ⟨done, hdelivers, hlog⟩ := h.handedOver.delivers
  rw [hidle.2] at hlog
  have hdone : s.physicalDispatches = done := hlog.trans (List.append_nil done)
  have hstarted := hdelivers.sent.last key dispatch hlast haction
  obtain ⟨press, hlease, hunanswered⟩ := hdelivers.pressed dispatch.lease hstarted
  have hcarries := (hdone ▸ h.leased.answered).carried_of_unanswered hunanswered
  have hkey : press.key = key := by
    calc press.key
        = dispatch.key := by rw [PhysicalKeyboardDispatch.key, hlease, PhysicalKeyboardDispatch.key]
      _ = key := lastSent_key hlast
  rw [← hkey]
  exact hcarries.held

/-- An up is sent only for a lease that was sent down or repeated and not released
since, and an idle queue leaves only keys down that have an owner or a lease. -/
structure Delivered (s : KeyboardStateMachine KeyboardDispatcherState) : Prop where
  ups : ∀ lease, Linked UpFollows (sendsOf s.dispatcher.sent lease)
  held : s.dispatcher.queue.Idle → ∀ key dispatch,
    lastSent s.dispatcher.sent key = some dispatch → dispatch.action ≠ .up →
      s.HasPhysicalOwner key ∨ s.HasLease key

/-- **Delivered keys.**  Every session is delivered, in whatever order the queue is
drained, cancelled, blocked and filled, if the counts of its texts add up without
overflow. -/
theorem session_delivers (canDispatch composesDeadKeys : Bool) (events : List SessionEvent)
    (hfits : ∀ event ∈ events, event.Fits) :
    (session canDispatch composesDeadKeys events).Delivered := by
  have hdelivery := session_delivery canDispatch composesDeadKeys events hfits
  obtain ⟨done, hdelivers, -⟩ := hdelivery.handedOver.delivers
  refine ⟨hdelivers.sent.linked, ?_⟩
  intro hidle key dispatch hlast haction
  exact hdelivery.held_of_down hidle hlast haction

/-! ## A text whose counts overflow -/

def pressOf (key : HidKey) (action : KeyboardIntentAction) : SessionEvent :=
  .handle (.physical { key := key, action := action, source := .flutterKeyEvent }) desktopMap

def deletionOf (before after : ℤ) : SessionEvent :=
  .handle (.committedText {
    text := []
    source := .flutterKeyEvent
    deleteBeforeGraphemes := before
    deleteAfterGraphemes := after }) desktopMap

/-- A key goes down and up, and a deletion between them is cancelled before its turn. -/
def cancelledDeletion : List SessionEvent :=
  [pressOf ⟨7, 0x04⟩ .down, deletionOf 3 1, .invalidatePending, pressOf ⟨7, 0x04⟩ .up,
    .settled (.command false), .settled (.command true)]

theorem session_delivers_cancelled :
    (∀ event ∈ cancelledDeletion, event.Fits) ∧
    ((session true false cancelledDeletion).dispatcher.sent.filterMap SinkCall.physical?).map
      PhysicalKeyboardDispatch.action = [.down, .up] ∧
    (session true false cancelledDeletion).Delivered := by
  have hfits : ∀ event ∈ cancelledDeletion, event.Fits := by
    simp [cancelledDeletion, pressOf, deletionOf, SessionEvent.Fits, EditsFit]
  exact ⟨hfits, by decide, session_delivers true false cancelledDeletion hfits⟩

/-- The counts of the first deletion add up to `-2`; as soon as it completes the
budget is exceeded, and the up of the key is refused. -/
def overflowingDeletions : List SessionEvent :=
  [pressOf ⟨7, 0x04⟩ .down, .settled (.command false),
    deletionOf (2 ^ 63 - 1) (2 ^ 63 - 1), deletionOf 65536 0, deletionOf 2 0,
    .settled (.command false), pressOf ⟨7, 0x04⟩ .up,
    .settled (.command false), .settled (.command false)]

/-- The queue is idle and dispatching allowed, and the key is down for nobody. -/
theorem not_delivered_overflow :
    (session true false overflowingDeletions).dispatcher.canDispatch = true ∧
    (session true false overflowingDeletions).dispatcher.queue.Idle ∧
    ¬ (session true false overflowingDeletions).Delivered := by
  have hidle : (session true false overflowingDeletions).dispatcher.queue.Idle :=
    ⟨by decide, by decide⟩
  refine ⟨by decide, hidle, ?_⟩
  intro hdelivered
  have hlast : (lastSent (session true false overflowingDeletions).dispatcher.sent ⟨7, 0x04⟩).map
      PhysicalKeyboardDispatch.action = some .down := by
    decide
  obtain ⟨dispatch, hsome, haction⟩ := Option.map_eq_some_iff.mp hlast
  rcases hdelivered.held hidle ⟨7, 0x04⟩ dispatch hsome (by rw [haction]; decide) with
    howner | ⟨lease, hget⟩
  · have hroute := isSome_physicalRouteFor.mpr howner
    revert hroute
    decide
  · have hnone : (session true false overflowingDeletions).syntheticModifierLeases.get?
        ⟨7, 0x04⟩ = none := by
      decide
    rw [hnone] at hget
    cases hget

end KeyboardStateMachine

end RustAdmin.Keyboard
