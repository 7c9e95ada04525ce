import RustAdmin.Keyboard.Dispatch
import RustAdmin.Support.LinkedMap

/-!
# The keyboard state machine

Every press has a route, recorded for its owner: the key with its origin, or the
key as a modifier that another event reported.  Owners with a physical route
share a key with the toolbar's synthetic modifiers, which hold it by a lease.

`dispatched` is the list of all actions handed to the dispatcher.  Nothing reads
it: it is what the theorems are about.
-/

namespace RustAdmin.Keyboard

open RustAdmin.Support

inductive ActiveKeyRoute
  | physical | text | deferredModifier | ignored
  deriving DecidableEq, Repr

structure KeyOwner where
  key : HidKey
  origin : KeyboardInputOrigin
  reported : Bool
  deriving DecidableEq, Repr

def PhysicalKeyboardIntent.owner (intent : PhysicalKeyboardIntent) : KeyOwner :=
  ⟨intent.key, intent.origin, false⟩

def reportedOwner (key : HidKey) : KeyOwner := ⟨key, .unknown, true⟩

structure PendingDeadKey where
  accent : ℤ
  origin : KeyboardInputOrigin
  language : DartString
  layout : DartString
  mode : ControllerKeyboardInputMode
  deriving DecidableEq, Repr

structure KeyboardStateDiagnostics where
  unknownKeyUps : ℕ := 0
  duplicateDowns : ℕ := 0
  ignoredIntents : ℕ := 0
  resets : ℕ := 0
  deriving DecidableEq, Repr

structure ActiveRoute where
  route : ActiveKeyRoute
  lease : KeyboardPhysicalDispatchLease
  source : KeyboardInputSource
  lockMask : ℤ
  sourceLanguageTag : DartString := []
  sourceLayoutType : DartString := []
  legacyName : Option DartString := none
  deriving DecidableEq, Repr

structure KeyboardStateMachine (δ : Type*) where
  dispatcher : δ
  dispatched : List KeyboardDispatchAction := []
  /-- The identity of the next lease object. -/
  nextLease : ℕ := 0
  physicalModifiers : SideSpecificModifierState := .initial
  mobileModifiers : MobileKeyboardModifierController := .initial
  activeRoutes : LinkedMap KeyOwner ActiveRoute := ∅
  syntheticModifierLeases : LinkedMap HidKey KeyboardPhysicalDispatchLease := ∅
  reportedSyntheticModifiers : Finset HidKey := ∅
  reportedModifiersByKey : LinkedMap KeyOwner (Finset HidKey) := ∅
  diagnostics : KeyboardStateDiagnostics := {}
  pendingDeadKey : Option PendingDeadKey := none
  resetGeneration : ℕ := 0

namespace KeyboardStateMachine

variable {δ : Type*} (D : KeyboardDispatcher δ) (s : KeyboardStateMachine δ)

/-! ## Readers -/

def effectiveModifiers : KeyboardModifiers :=
  s.physicalModifiers.snapshot.merge s.mobileModifiers.snapshot

/-- The first owner of the key, in the order of the presses, with a physical route. -/
def physicalRouteFor (key : HidKey) : Option ActiveRoute :=
  (s.activeRoutes.entries.find? fun entry =>
    decide (entry.1.key = key) && decide (entry.2.route = .physical)).map Prod.snd

def physicallyDispatchedKeys : Finset HidKey :=
  ((s.activeRoutes.entries.filter fun entry => decide (entry.2.route = .physical)).map
    fun entry => entry.1.key).toFinset

def reportedModifierUnion : Finset HidKey :=
  s.reportedModifiersByKey.values.foldr (· ∪ ·) ∅

def deferredImeModifiers : Finset HidKey :=
  ((s.activeRoutes.entries.filter fun entry => decide (entry.2.route = .deferredModifier)).map
    fun entry => entry.1.key).toFinset

/-! ## Routing -/

def matchesDeadKey (intent : PhysicalKeyboardIntent) (pending : PendingDeadKey) : Bool :=
  intent.origin == pending.origin && intent.sourceLanguageTag == pending.language &&
    intent.sourceLayoutType == pending.layout

def candidateText (intent : PhysicalKeyboardIntent) : Option DartString :=
  match intent.deadKeyAccent with
  | some accent =>
      if KeyboardTextPolicy.isPrintableScalar accent then some (fromCharCode accent)
      else intent.textCandidate
  | none => intent.textCandidate

def mayRouteCandidateAsText (key : HidKey) (text : Option DartString) : Bool :=
  match text with
  | none => false
  | some text =>
      if text = [] then false
      else if key.usagePage = HidKey.keyboardUsagePage ∧
          ((0x28 ≤ key.usage ∧ key.usage ≤ 0x2b) ∨ (0x39 ≤ key.usage ∧ key.usage ≤ 0x53) ∨
            key.usage = 0x58 ∨ key.usage = 0x65 ∨ key.usage = 0x88 ∨
            (0x8a ≤ key.usage ∧ key.usage ≤ 0x8b) ∨ (0x90 ≤ key.usage ∧ key.usage ≤ 0x94) ∨
            (0x68 ≤ key.usage ∧ key.usage ≤ 0x73)) then false
      -- invalid or oversized text stays on the text route, where it is refused
      else if (KeyboardTextPolicy.inspect text).rejection.isSome then true
      else !(runes text).any fun scalar =>
        scalar < 0x20 || (0x7f ≤ scalar && scalar ≤ 0x9f) || scalar == 0x2028 || scalar == 0x2029

def selectRoute (intent : PhysicalKeyboardIntent) (context : KeyboardRoutingContext) :
    ActiveKeyRoute :=
  if context.ignoreMeta && intent.key.modifier == some .metaKey then .ignored
  else
    let imeAuto := context.inputMode == .auto && intent.origin == .ime
    if intent.key.isModifier then
      if imeAuto then .deferredModifier else .physical
    else
      let modifiers := s.effectiveModifiers
      let reported := intent.reportedModifiers ∪ if imeAuto then s.deferredImeModifiers else ∅
      let altGrText := imeAuto && decide (HidKey.altRight ∈ reported) &&
        !decide (HidKey.altLeft ∈ reported) && !decide (HidKey.controlRight ∈ reported) &&
        !decide (∃ key ∈ reported, key.modifier = some .metaKey)
      let maySendText :=
        (context.inputMode == .text || (context.inputMode == .auto && intent.origin == .ime &&
            !s.mobileModifiers.state.hasActive)) &&
          mayRouteCandidateAsText intent.key (candidateText intent) &&
          !modifiers.ctrl && !modifiers.alt && !modifiers.command &&
          !decide (∃ key ∈ reported,
            (altGrText = false ∧ (key.modifier = some .control ∨ key.modifier = some .alt)) ∨
              key.modifier = some .metaKey)
      if maySendText then .text else .physical

/-! ## Writers -/

def setRoute (owner : KeyOwner) (active : ActiveRoute) : KeyboardStateMachine δ :=
  { s with activeRoutes := s.activeRoutes.set owner active }

def removeRoute (owner : KeyOwner) : KeyboardStateMachine δ :=
  { s with activeRoutes := s.activeRoutes.remove owner }

def setLease (key : HidKey) (lease : KeyboardPhysicalDispatchLease) : KeyboardStateMachine δ :=
  { s with syntheticModifierLeases := s.syntheticModifierLeases.set key lease }

def removeLease (key : HidKey) : KeyboardStateMachine δ :=
  { s with syntheticModifierLeases := s.syntheticModifierLeases.remove key }

def setPressed (key : HidKey) (pressed : Bool) : KeyboardStateMachine δ :=
  { s with physicalModifiers := s.physicalModifiers.setPressed key pressed }

def forgetDeadKey : KeyboardStateMachine δ := { s with pendingDeadKey := none }

def countIgnored : KeyboardStateMachine δ :=
  { s with diagnostics.ignoredIntents := s.diagnostics.ignoredIntents + 1 }

/-! ## Dispatching -/

/-- Hands a batch to the dispatcher. -/
def queueActions (actions : List KeyboardDispatchAction) : Bool × KeyboardStateMachine δ :=
  let result := D.tryDispatchAll s.dispatcher actions
  (result.1, { s with dispatcher := result.2, dispatched := s.dispatched ++ actions })

def releaseSyntheticModifier (modifier : MobileModifierKey) (remaining : KeyboardModifiers) :
    KeyboardStateMachine δ :=
  let key := leftModifierKey modifier
  match s.syntheticModifierLeases.get? key with
  | none => s
  | some lease =>
      let s := s.removeLease key
      -- a physical owner of the key releases it at its own up
      if (s.physicalRouteFor key).isSome then s
      else (s.queueActions D [.physical {
        lease := lease
        action := .up
        modifiers := s.physicalModifiers.snapshot.merge remaining
        source := .syntheticModifier }]).2

/-- Stores what a change of the toolbar's modifiers did and releases the
modifiers it let go of. -/
def applyMobile (change : List MobileModifierRelease × MobileKeyboardModifierController) :
    KeyboardStateMachine δ :=
  change.1.foldl (fun s release => s.releaseSyntheticModifier D release.key release.remaining)
    { s with mobileModifiers := change.2 }

def consumeOneShot : KeyboardStateMachine δ := s.applyMobile D s.mobileModifiers.consumeOneShot

def pressSyntheticModifier (modifier : MobileModifierKey) (context : KeyboardRoutingContext) :
    KeyboardStateMachine δ :=
  let key := leftModifierKey modifier
  if s.syntheticModifierLeases.contains key then s
  else
    let canonicalIntent : PhysicalKeyboardIntent :=
      { key := key, action := .down, source := .syntheticModifier }
    match s.physicalRouteFor key with
    | some active => s.setLease key active.lease
    | none =>
        let lease := ⟨s.nextLease, key, selectPhysicalTransport canonicalIntent context⟩
        let s := { s with nextLease := s.nextLease + 1 }.setLease key lease
        (s.queueActions D [.physical {
          lease := lease
          action := .down
          modifiers := s.effectiveModifiers
          source := .syntheticModifier }]).2

def changeModifier (modifier : MobileModifierKey) : SyntheticModifierAction → KeyboardStateMachine δ
  | .toggle => s.applyMobile D (s.mobileModifiers.tap modifier)
  | .lock => s.applyMobile D (s.mobileModifiers.lock modifier)
  | .release =>
      if s.mobileModifiers.state.isActive modifier then
        s.applyMobile D (s.mobileModifiers.tap modifier)
      else s

def handleSyntheticModifier (intent : SyntheticModifierIntent) (context : KeyboardRoutingContext) :
    KeyboardStateMachine δ :=
  let s := s.forgetDeadKey
  let modifier := mobileModifier intent.modifier
  let wasActive := s.mobileModifiers.state.isActive modifier
  let s := s.changeModifier D modifier intent.action
  if !wasActive && s.mobileModifiers.state.isActive modifier then
    s.pressSyntheticModifier D modifier context
  else s

/-- Dispatches the candidate text of a press, or keeps its accent for the next one. -/
def queueCandidate (intent : PhysicalKeyboardIntent) (active : ActiveRoute)
    (context : KeyboardRoutingContext) : KeyboardStateMachine δ :=
  match candidateText intent with
  | none | some [] => s
  | some text =>
      -- an accent of another layout or origin does not compose with this press
      let pending := s.pendingDeadKey.filter (matchesDeadKey intent)
      let s := { s with pendingDeadKey := pending }
      match pending, intent.deadKeyAccent.filter KeyboardTextPolicy.isPrintableScalar with
      | none, some accent =>
          { s with pendingDeadKey := some {
              accent := accent
              origin := intent.origin
              language := active.sourceLanguageTag
              layout := active.sourceLayoutType
              mode := context.inputMode } }
      | pending, _ =>
          let result := s.queueActions D [.committedText {
            text := text
            deadKeyAccent := pending.map PendingDeadKey.accent
            source := active.source
            sourceLanguageTag := active.sourceLanguageTag
            sourceLayoutType := active.sourceLayoutType }]
          if result.1 then result.2.forgetDeadKey.consumeOneShot D else result.2

/-! ## Owners -/

/-- The lease of a new owner of the key: the one its other holders have, or a new one. -/
def leaseFor (key : HidKey) (transport : KeyboardPhysicalTransport) :
    KeyboardPhysicalDispatchLease × KeyboardStateMachine δ :=
  match s.syntheticModifierLeases.get? key, s.physicalRouteFor key with
  | some lease, _ => (lease, s)
  | none, some shared => (shared.lease, s)
  | none, none => (⟨s.nextLease, key, transport⟩, { s with nextLease := s.nextLease + 1 })

/-- Records the route of a press under its owner. -/
def openRoute (intent : PhysicalKeyboardIntent) (context : KeyboardRoutingContext)
    (owner : KeyOwner) (route : ActiveKeyRoute) : ActiveRoute × KeyboardStateMachine δ :=
  let s := if route = .physical then s.setPressed intent.key true else s
  let shared := s.physicalRouteFor intent.key
  let leased := s.leaseFor intent.key (selectPhysicalTransport intent context)
  let active : ActiveRoute := {
    route := route
    lease := leased.1
    source := intent.source
    lockMask := intent.lockMask
    sourceLanguageTag := intent.sourceLanguageTag
    sourceLayoutType := intent.sourceLayoutType
    legacyName := match shared with
      | some shared => shared.legacyName
      | none => intent.legacyFallbackName.or intent.textCandidate }
  (active, leased.2.setRoute owner active)

/-- Records the route of a press and dispatches its first action. -/
def start (intent : PhysicalKeyboardIntent) (context : KeyboardRoutingContext)
    (action : KeyboardIntentAction) (owner : KeyOwner) (forcedRoute : Option ActiveKeyRoute) :
    KeyboardStateMachine δ :=
  let route := forcedRoute.getD (s.selectRoute intent context)
  let shared := s.physicalRouteFor intent.key
  let opened := s.openRoute intent context owner route
  let active := opened.1
  let s := opened.2
  match route with
  | .physical =>
      -- modifiers are coalesced: a second owner of the key says nothing
      if !s.syntheticModifierLeases.contains intent.key &&
          (shared.isNone || !intent.key.isModifier) then
        (s.queueActions D [.physical {
          lease := active.lease
          action := if shared.isNone then action else .repeat
          modifiers := s.effectiveModifiers
          source := intent.source
          lockMask := intent.lockMask
          legacyName := active.legacyName }]).2
      else s
  | .text => s.queueCandidate D intent active context
  | .ignored => s.countIgnored
  | .deferredModifier => s

/-- Dispatches a repeat along the route of the press. -/
def repeatKey (intent : PhysicalKeyboardIntent) (active : ActiveRoute)
    (context : KeyboardRoutingContext) : KeyboardStateMachine δ :=
  match active.route with
  | .physical =>
      let s := if intent.key.modifier ≠ some .shift then s.forgetDeadKey else s
      (s.queueActions D [.physical {
        lease := active.lease
        action := .repeat
        modifiers := s.effectiveModifiers
        source := active.source
        lockMask := intent.lockMask
        legacyName := active.legacyName }]).2
  | .text => s.queueCandidate D intent active context
  | .ignored => s.countIgnored
  | .deferredModifier => s

/-- Forgets an owner; the last one with a physical route lets go of the key, and
releases it unless a synthetic modifier still holds it. -/
def closeRoute (intent : PhysicalKeyboardIntent) (owner : KeyOwner) (active : ActiveRoute) :
    KeyboardStateMachine δ :=
  let s := s.removeRoute owner
  let lastPhysical := (s.physicalRouteFor intent.key).isNone
  if lastPhysical && active.route == .physical then
    let s := s.setPressed intent.key false
    -- the toolbar still holds the key by its lease
    if s.syntheticModifierLeases.contains intent.key then s
    else (s.queueActions D [.physical {
      lease := active.lease
      action := .up
      modifiers := s.effectiveModifiers
      source := active.source
      lockMask := intent.lockMask
      legacyName := active.legacyName }]).2
  else s

/-- Ends the press of an owner. -/
def finish (intent : PhysicalKeyboardIntent) (owner : KeyOwner) : KeyboardStateMachine δ :=
  match s.activeRoutes.get? owner with
  | none => { s with diagnostics.unknownKeyUps := s.diagnostics.unknownKeyUps + 1 }
  | some active =>
      let s := s.closeRoute D intent owner active
      if !intent.key.isModifier && active.route == .physical then s.consumeOneShot D else s

/-- The press of a modifier that was deferred. -/
def deferredEvent (entry : KeyOwner × ActiveRoute) : PhysicalKeyboardIntent where
  key := entry.1.key
  action := .down
  source := entry.2.source
  origin := entry.1.origin
  lockMask := entry.2.lockMask
  legacyFallbackName := entry.2.legacyName

def promoteEntry (context : KeyboardRoutingContext) (entry : KeyOwner × ActiveRoute) :
    KeyboardStateMachine δ :=
  s.start D (deferredEvent entry) context .down entry.1 (some .physical)

/-- An input method's modifiers become physical owners when a command of it needs them. -/
def promoteImeModifiers (context : KeyboardRoutingContext) : KeyboardStateMachine δ :=
  let deferred := (s.activeRoutes.entries.filter fun entry =>
    decide (entry.2.route = .deferredModifier)).insertionSort fun a b => a.1.key ≤ b.1.key
  deferred.foldl (fun s entry => s.promoteEntry D context entry) s

/-- The event of a modifier that another key's event reported. -/
def reportedEvent (key : HidKey) (action : KeyboardIntentAction) : PhysicalKeyboardIntent :=
  { key := key, action := action, source := .androidHardwareKeyboard }

def dropReported (key : HidKey) : KeyboardStateMachine δ :=
  { s with reportedSyntheticModifiers := s.reportedSyntheticModifiers.erase key }.finish D
    (reportedEvent key .up) (reportedOwner key)

def addReported (context : KeyboardRoutingContext) (key : HidKey) : KeyboardStateMachine δ :=
  { s with reportedSyntheticModifiers := insert key s.reportedSyntheticModifiers }.start D
    (reportedEvent key .down) context .down (reportedOwner key) none

def reconcileReportedModifiers (reported : Finset HidKey) (context : KeyboardRoutingContext) :
    KeyboardStateMachine δ :=
  let removed := sortedList (s.reportedSyntheticModifiers \ reported)
  let added := sortedList (reported \ s.reportedSyntheticModifiers)
  added.foldl (fun s key => s.addReported D context key)
    (removed.foldl (fun s key => s.dropReported D key) s)

/-! ## Intents -/

def routeOr (existing : Option ActiveRoute) (intent : PhysicalKeyboardIntent)
    (context : KeyboardRoutingContext) : ActiveKeyRoute :=
  (existing.map ActiveRoute.route).getD (s.selectRoute intent context)

/-- Backspace takes back an accent that is not sent yet. -/
def cancelsDeadKey (existing : Option ActiveRoute) (intent : PhysicalKeyboardIntent) : Bool :=
  match s.pendingDeadKey with
  | none => false
  | some pending =>
      let modifiers := s.effectiveModifiers
      !intent.key.isModifier && existing.isNone && matchesDeadKey intent pending &&
        intent.key == ⟨7, 0x2a⟩ && !modifiers.ctrl && !modifiers.alt && !modifiers.command &&
        decide (intent.reportedModifiers = ∅) && decide (s.deferredImeModifiers = ∅)

/-- A press forgets the accent that is not sent yet unless it may compose with it. -/
def dropDeadKey (existing : Option ActiveRoute) (intent : PhysicalKeyboardIntent)
    (context : KeyboardRoutingContext) : KeyboardStateMachine δ :=
  if intent.action = .up then s
  else
    let route := s.routeOr existing intent context
    match s.pendingDeadKey, intent.key.isModifier with
    | some pending, false =>
        if !matchesDeadKey intent pending || route ≠ .text then s.forgetDeadKey else s
    | _, _ =>
        if route = .physical && intent.key.modifier != some .shift then s.forgetDeadKey else s

def promoteForIme (existing : Option ActiveRoute) (intent : PhysicalKeyboardIntent)
    (context : KeyboardRoutingContext) : KeyboardStateMachine δ :=
  if !intent.key.isModifier && intent.origin == .ime && intent.action != .up &&
      s.routeOr existing intent context == .physical then
    s.promoteImeModifiers D context
  else s

/-- Whether the event says which modifiers are down. -/
def reconcilesAndroidModifiers (intent : PhysicalKeyboardIntent) : Bool :=
  intent.source == .androidHardwareKeyboard && !intent.key.isModifier

def recordReport (existing : Option ActiveRoute) (intent : PhysicalKeyboardIntent)
    (context : KeyboardRoutingContext) : KeyboardStateMachine δ :=
  if reconcilesAndroidModifiers intent && s.routeOr existing intent context == .physical &&
      (intent.action == .down ||
        (intent.action == .repeat && !s.reportedModifiersByKey.contains intent.owner)) then
    let s := { s with
      reportedModifiersByKey := s.reportedModifiersByKey.set intent.owner intent.reportedModifiers }
    s.reconcileReportedModifiers D s.reportedModifierUnion context
  else s

def forgetReport (intent : PhysicalKeyboardIntent) (context : KeyboardRoutingContext) :
    KeyboardStateMachine δ :=
  if reconcilesAndroidModifiers intent && intent.action == .up then
    let s := { s with reportedModifiersByKey := s.reportedModifiersByKey.remove intent.owner }
    s.reconcileReportedModifiers D s.reportedModifierUnion context
  else s

def dispatchPhysical (existing : Option ActiveRoute) (intent : PhysicalKeyboardIntent)
    (context : KeyboardRoutingContext) : KeyboardStateMachine δ :=
  match intent.action, existing with
  | .down, _ => s.start D intent context .down intent.owner none
  | .repeat, none => s.start D intent context .repeat intent.owner none
  | .repeat, some existing => s.repeatKey D intent existing context
  | .up, _ => s.finish D intent intent.owner

def handlePhysical (intent : PhysicalKeyboardIntent) (context : KeyboardRoutingContext) :
    KeyboardStateMachine δ :=
  let existing := s.activeRoutes.get? intent.owner
  -- an ordinary down of a key that is down is no repeat
  if intent.action = .down ∧ existing.isSome then
    { s with diagnostics.duplicateDowns := s.diagnostics.duplicateDowns + 1 }
  else if intent.action ≠ .up ∧ s.cancelsDeadKey existing intent then
    s.forgetDeadKey.start D intent context intent.action intent.owner (some .ignored)
  else
    let s := s.dropDeadKey existing intent context
    let s := s.promoteForIme D existing intent context
    let s := s.recordReport D existing intent context
    let s := s.dispatchPhysical D existing intent context
    s.forgetReport D intent context

/-- The event of a batch with the given action. -/
def batchEvent (batch : PhysicalKeyPressBatchIntent) (action : KeyboardIntentAction) :
    PhysicalKeyboardIntent where
  key := batch.key
  action := action
  source := batch.source
  origin := batch.origin
  textCandidate := batch.textCandidate
  deadKeyAccent := batch.deadKeyAccent
  sourceLanguageTag := batch.sourceLanguageTag
  sourceLayoutType := batch.sourceLayoutType
  lockMask := batch.lockMask
  reportedModifiers := batch.reportedModifiers

/-- One press of a batch whose key is held already. -/
def repeatInBatch (batch : PhysicalKeyPressBatchIntent) (active : ActiveRoute)
    (context : KeyboardRoutingContext) : KeyboardStateMachine δ :=
  let s := s.repeatKey D (batchEvent batch .repeat) active context
  if !batch.key.isModifier && active.route == .physical then s.consumeOneShot D else s

/-- A batch whose key is held already: reported modifiers are borrowed for its
repeats and returned after them. -/
def repeatBatch (batch : PhysicalKeyPressBatchIntent) (active : ActiveRoute)
    (context : KeyboardRoutingContext) : KeyboardStateMachine δ :=
  let s := if active.route == .physical && batch.origin == .ime then
      s.promoteImeModifiers D context
    else s
  let reconciles := !batch.key.isModifier && active.route == .physical
  let s := if reconciles then
      s.reconcileReportedModifiers D (s.reportedModifierUnion ∪ batch.reportedModifiers) context
    else s
  let s := (fun s => repeatInBatch D s batch active context)^[batch.count.toNat] s
  if reconciles then s.reconcileReportedModifiers D s.reportedModifierUnion context else s

def pressInBatch (batch : PhysicalKeyPressBatchIntent) (context : KeyboardRoutingContext) :
    KeyboardStateMachine δ :=
  (s.handlePhysical D (batchEvent batch .down) context).handlePhysical D (batchEvent batch .up)
    context

/-- The route a batch repeats: its own press, or another press of the key. -/
def batchRoute (batch : PhysicalKeyPressBatchIntent) (context : KeyboardRoutingContext) :
    Option ActiveRoute :=
  let down := batchEvent batch .down
  (s.activeRoutes.get? down.owner).or
    (if s.selectRoute down context = .physical then s.physicalRouteFor batch.key else none)

def handlePressBatch (batch : PhysicalKeyPressBatchIntent) (context : KeyboardRoutingContext) :
    KeyboardStateMachine δ :=
  if batch.count < 1 ∨ PhysicalKeyPressBatchIntent.maxCount < batch.count then
    s.countIgnored
  else match s.batchRoute batch context with
    | some active =>
        if active.route = .ignored ∨ (active.route = .text ∧
            batch.textCandidate.isNone ∧ batch.deadKeyAccent.isNone) then s.countIgnored
        else s.repeatBatch D batch active context
    | none => (fun s => pressInBatch D s batch context)^[batch.count.toNat] s

def handleCommittedText (intent : CommittedTextIntent) (context : KeyboardRoutingContext) :
    KeyboardStateMachine δ :=
  let s := s.forgetDeadKey
  if intent.text = [] ∧ intent.deleteBeforeGraphemes = 0 ∧ intent.deleteAfterGraphemes = 0 then s
  else
    let keys := if intent.allowMobileShortcut && s.mobileModifiers.state.hasActive then
      modifiedTextEdit intent else []
    if keys ≠ [] then keys.foldl (fun s key => s.handlePhysical D key context) s
    else
      let result := s.queueActions D [.committedText {
        text := intent.text
        literal := context.inputMode != .physical
        source := intent.source
        deleteBeforeGraphemes := intent.deleteBeforeGraphemes
        deleteAfterGraphemes := intent.deleteAfterGraphemes
        sourceLanguageTag := intent.sourceLanguageTag
        sourceLayoutType := intent.sourceLayoutType }]
      if result.1 && intent.consumeOneShot then result.2.consumeOneShot D else result.2

/-! ## Reset -/

def hadState : Bool :=
  let modifiers := s.physicalModifiers.snapshot
  s.pendingDeadKey.isSome || !s.activeRoutes.entries.isEmpty ||
    !s.syntheticModifierLeases.entries.isEmpty || decide (s.reportedSyntheticModifiers ≠ ∅) ||
    !s.reportedModifiersByKey.entries.isEmpty || modifiers.alt || modifiers.ctrl ||
    modifiers.shift || modifiers.command || s.mobileModifiers.state.hasActive

/-- The releases of the keys that are no modifiers. -/
def keyReleases (keys : List HidKey) : List PhysicalKeyboardDispatch :=
  keys.filterMap fun key => (s.physicalRouteFor key).map fun active => {
    lease := active.lease
    action := .up
    modifiers := s.effectiveModifiers
    source := active.source
    lockMask := active.lockMask
    legacyName := active.legacyName }

/-- The releases of the modifier keys: each is let go of before its release is made. -/
def modifierReleases (physicalModifiers : SideSpecificModifierState) :
    List HidKey → List PhysicalKeyboardDispatch
  | [] => []
  | key :: keys =>
      let active := s.physicalRouteFor key
      let physicalModifiers := physicalModifiers.setPressed key false
      match (active.map ActiveRoute.lease).or (s.syntheticModifierLeases.get? key) with
      | none => modifierReleases physicalModifiers keys
      | some lease => {
          lease := lease
          action := .up
          modifiers := physicalModifiers.snapshot
          source := (active.map ActiveRoute.source).getD .syntheticModifier
          lockMask := (active.map ActiveRoute.lockMask).getD 0
          legacyName := active.bind ActiveRoute.legacyName } ::
            modifierReleases physicalModifiers keys

/-- The releases of a reset, in their order. -/
def releases : List PhysicalKeyboardDispatch :=
  let keys := sortedList s.physicallyDispatchedKeys
  let modifierKeys := sortedList
    ((keys.filter HidKey.isModifier).toFinset ∪ s.syntheticModifierLeases.keys.toFinset)
  s.keyReleases (keys.filter fun key => !key.isModifier) ++
    s.modifierReleases s.physicalModifiers modifierKeys

def reset (invalidatePending allowBlockedReleases : Bool) : KeyboardStateMachine δ :=
  let s := if invalidatePending then
      { s with dispatcher := D.invalidatePending s.dispatcher }
    else s
  if !s.hadState then s
  else
    let actions := s.releases.map .physical
    { s with
      dispatcher := if allowBlockedReleases then
          D.dispatchRecoveryReleases s.dispatcher s.releases
        else (D.tryDispatchAll s.dispatcher actions).2
      dispatched := s.dispatched ++ actions
      mobileModifiers := (s.mobileModifiers.reset false).2
      activeRoutes := ∅
      pendingDeadKey := none
      syntheticModifierLeases := ∅
      reportedSyntheticModifiers := ∅
      reportedModifiersByKey := ∅
      physicalModifiers := .initial
      resetGeneration := s.resetGeneration + 1
      diagnostics.resets := s.diagnostics.resets + 1 }

def handle (intent : KeyboardIntent) (context : KeyboardRoutingContext) :
    KeyboardStateMachine δ :=
  let s := if s.pendingDeadKey.map PendingDeadKey.mode ≠ some context.inputMode then
      s.forgetDeadKey
    else s
  match intent with
  | .physical intent => s.handlePhysical D intent context
  | .pressBatch batch => s.handlePressBatch D batch context
  | .committedText intent => s.handleCommittedText D intent context
  | .reset _ => s.reset D true true
  | .syntheticModifier intent => s.handleSyntheticModifier D intent context

end KeyboardStateMachine

end RustAdmin.Keyboard
