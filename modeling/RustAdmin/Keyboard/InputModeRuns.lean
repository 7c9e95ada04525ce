import RustAdmin.Keyboard.InputMode

/-!
# Input-mode changes settle on the latest request

What a run of the controller has asked for, read and published is a function of
its events.  A change whose request is no longer the latest ends without a trace,
dispatch stays blocked from a request to a success or a new session, and once
the tail is empty the mode is that of the last success.

## Strategy

`ModeMoves` names everything a step can do, so that the four parts below never unfold
the controller.

* `Numbered` ties the numbers of what is out to the history: what carries the current
  number is the latest.  So a completion of an older request finds another number and
  is silent.
* `Blocked` holds from an accepted request on, until a success of it or of a later
  one, or a new session (`blockedUntilSettled_run`).
* `Settling` holds in an active session: a change that still shows is on the tail, and
  the mode is that of the last success.  With an empty tail nothing shows any more.
* `run_published` says that the controller has the mode which it published last.
-/

namespace RustAdmin.Keyboard

open RustAdmin.Support

/-! ## Runs and their history -/

structure ModeEvent where
  input : ModeInput
  effects : List ModeEffect
  deriving DecidableEq, Repr

/-- One step of the controller as a labelled step. -/
def ModeStep (s : KeyboardInputModeController) (event : ModeEvent)
    (s' : KeyboardInputModeController) : Prop :=
  s.step event.input = some (s', event.effects)

instance (s : KeyboardInputModeController) (event : ModeEvent) (s' : KeyboardInputModeController) :
    Decidable (ModeStep s event s') :=
  inferInstanceAs (Decidable (_ = _))

/-- The request whose `apply` goes on. -/
def ModeInput.completes : ModeInput → Option ℕ
  | .start request | .resetDone request _ | .writeDone request _ => some request
  | _ => none

/-- The session is begun or ended. -/
def ModeInput.changesSession : ModeInput → Bool
  | .beginSession | .endSession => true
  | _ => false

/-- The session is begun anew, ended or reported inactive. -/
def ModeInput.leavesSession : ModeInput → Bool
  | .beginSession | .endSession | .sessionIsActive false => true
  | _ => false

/-- The request accepted last among some effects. -/
def notedRequest (latest : Option ℕ) (effects : List ModeEffect) : Option ℕ :=
  effects.foldl (fun latest effect =>
    match effect with
    | .accepted request _ => some request
    | _ => latest) latest

/-- The latest accepted request of the current session. -/
def latestRequest (events : List ModeEvent) : Option ℕ :=
  events.foldl (fun latest event =>
    if event.input.changesSession then none else notedRequest latest event.effects) none

/-- The read issued last among some effects, unless a request came after it. -/
def notedRead (latest : Option ℕ) (effects : List ModeEffect) : Option ℕ :=
  effects.foldl (fun latest effect =>
    match effect with
    | .readIssued read => some read
    | .accepted _ _ => none
    | _ => latest) latest

/-- The read of the current session that nothing has superseded. -/
def latestRead (events : List ModeEvent) : Option ℕ :=
  events.foldl (fun latest event =>
    if event.input.changesSession then none else notedRead latest event.effects) none

/-- The mode of the last success among some effects. -/
def succeededMode (mode : ControllerKeyboardInputMode) (effects : List ModeEffect) :
    ControllerKeyboardInputMode :=
  effects.foldl (fun mode effect =>
    match effect with
    | .succeeded _ next => next
    | _ => mode) mode

/-- The mode of the last success since a session began, `auto` before the first. -/
def lastSucceeded (events : List ModeEvent) : ControllerKeyboardInputMode :=
  events.foldl (fun mode event => succeededMode mode event.effects) .auto

/-- The value published last among some effects. -/
def notedValue (value : KeyboardInputModeSnapshot) (effects : List ModeEffect) :
    KeyboardInputModeSnapshot :=
  effects.foldl (fun value effect =>
    match effect with
    | .published next => next
    | _ => value) value

/-- The value published last. -/
def publishedValue (events : List ModeEvent) : KeyboardInputModeSnapshot :=
  events.foldl (fun value event => notedValue value event.effects) {}

/-- What `sessionIsActive` answered last. -/
def reportedActive (start : Bool) (events : List ModeEvent) : Bool :=
  events.foldl (fun active event =>
    match event.input with
    | .sessionIsActive active => active
    | _ => active) start

/-! ## What a step does -/

/-- `setMode` is refused, has nothing to do, or queues a change. -/
theorem setMode_cases (s : KeyboardInputModeController) (mode : String) (persist : Bool) :
    s.setMode mode persist = (s, []) ∨
    (s.value = { mode := modeOfStored mode } ∧
      s.setMode mode persist = ({ s with request := s.request + 1, read := s.read + 1 },
        [.accepted (s.request + 1) (modeOfStored mode),
          .succeeded (s.request + 1) (modeOfStored mode)])) ∨
    ∃ change : ModeChange, change.epoch = s.epoch ∧ change.request = s.request + 1 ∧
      s.setMode mode persist =
        ({ s with
            request := s.request + 1
            read := s.read + 1
            tail := s.tail ++ [change]
            value := { mode := s.value.mode, changing := true } },
          [.accepted (s.request + 1) (modeOfStored mode),
            .published { mode := s.value.mode, changing := true }]) := by
  unfold KeyboardInputModeController.setMode
  split
  · exact Or.inl rfl
  · right
    dsimp only
    split
    case isTrue hnone =>
      left
      refine ⟨?_, rfl⟩
      rcases hvalue : s.value with ⟨current, changing, failed⟩
      simp_all
    case isFalse =>
      right
      exact ⟨_, rfl, rfl, rfl⟩

/-- What the first change of the tail does when its turn or its await is over. -/
inductive Continues (s : KeyboardInputModeController) (change : ModeChange) :
    KeyboardInputModeController → List ModeEffect → Prop
  | stale (hstale : s.isCurrent change = false) (effect : ModeEffect)
      (heffect : effect = .dropped change.request ∨ effect = .failed change.request) :
      Continues s change s.drained [effect]
  | await (hcurrent : s.isCurrent change = true) (phase : ApplyPhase) (effect : ModeEffect)
      (heffect : effect = .resetIssued change.request ∨
        ∃ stored, effect = .writeIssued change.request stored) :
      Continues s change (s.await change phase) [effect]
  | success (hcurrent : s.isCurrent change = true) :
      Continues s change (s.publish { mode := change.next }).drained
        [.published { mode := change.next }, .succeeded change.request change.next]
  | failure (hcurrent : s.isCurrent change = true) :
      Continues s change (s.publish { mode := s.value.mode, failed := true }).drained
        [.published { mode := s.value.mode, failed := true }, .failed change.request]

section Continuations

variable (s : KeyboardInputModeController) (change : ModeChange)

theorem continues_applyAfterWrite :
    Continues s change (s.applyAfterWrite change).1 (s.applyAfterWrite change).2 := by
  cases hcurrent : s.isCurrent change with
  | false =>
      simp only [KeyboardInputModeController.applyAfterWrite, hcurrent]
      exact .stale hcurrent _ (Or.inl rfl)
  | true =>
      simp only [KeyboardInputModeController.applyAfterWrite, hcurrent]
      exact .success hcurrent

theorem continues_applyAfterReset :
    Continues s change (s.applyAfterReset change).1 (s.applyAfterReset change).2 := by
  cases hcurrent : s.isCurrent change with
  | false =>
      simp only [KeyboardInputModeController.applyAfterReset, hcurrent]
      exact .stale hcurrent _ (Or.inl rfl)
  | true =>
      cases hpersist : change.persist with
      | true =>
          simp only [KeyboardInputModeController.applyAfterReset, hcurrent, hpersist]
          exact .await hcurrent _ _ (Or.inr ⟨_, rfl⟩)
      | false =>
          simp only [KeyboardInputModeController.applyAfterReset, hcurrent, hpersist]
          exact continues_applyAfterWrite s change

theorem continues_applyStart :
    Continues s change (s.applyStart change).1 (s.applyStart change).2 := by
  cases hcurrent : s.isCurrent change with
  | false =>
      simp only [KeyboardInputModeController.applyStart, hcurrent]
      exact .stale hcurrent _ (Or.inl rfl)
  | true =>
      cases hreset : change.needsReset with
      | true =>
          simp only [KeyboardInputModeController.applyStart, hcurrent, hreset]
          exact .await hcurrent _ _ (Or.inl rfl)
      | false =>
          simp only [KeyboardInputModeController.applyStart, hcurrent, hreset]
          exact continues_applyAfterReset s change

theorem continues_applyFailed :
    Continues s change (s.applyFailed change).1 (s.applyFailed change).2 := by
  cases hcurrent : s.isCurrent change with
  | false =>
      simp only [KeyboardInputModeController.applyFailed, hcurrent]
      exact .stale hcurrent _ (Or.inr rfl)
  | true =>
      simp only [KeyboardInputModeController.applyFailed, hcurrent]
      exact .failure hcurrent

end Continuations

theorem head_of_running {s : KeyboardInputModeController} {request : ℕ} {phase : ApplyPhase}
    {change : ModeChange} (h : s.running request phase = some change) :
    change.request = request ∧ ∃ rest, s.tail = change :: rest := by
  obtain ⟨hhead, hrequest⟩ := Option.filter_eq_some_iff.mp h
  refine ⟨?_, ?_⟩
  · have : change.request = request ∧ change.phase = phase := by simpa using hrequest
    exact this.1
  · exact ⟨s.tail.tail, (List.cons_head?_tail hhead).symm⟩

/-- A call or the answer of a read. -/
def ModeInput.asks : ModeInput → Bool
  | .setMode _ _ | .refresh | .readDone _ _ => true
  | _ => false

/-- Everything a step can do. -/
inductive ModeMoves (s : KeyboardInputModeController) :
    ModeInput → KeyboardInputModeController → List ModeEffect → Prop
  | began : ModeMoves s .beginSession s.beginSession.1 s.beginSession.2
  | ended : ModeMoves s .endSession s.endSession.1 s.endSession.2
  | reported (active : Bool) :
      ModeMoves s (.sessionIsActive active) { s with sessionIsActive := active } []
  | quiet {input : ModeInput} {reads : List ModeRead} (hinput : input.asks = true)
      (hreads : reads ⊆ s.reads) : ModeMoves s input { s with reads := reads } []
  | readIssued (out : ModeRead) (hout : out.read = s.read + 1) :
      ModeMoves s .refresh { s with read := s.read + 1, reads := s.reads ++ [out] }
        [.readIssued (s.read + 1)]
  | nothingToDo {input : ModeInput} {reads : List ModeRead}
      {next : ControllerKeyboardInputMode} (hinput : input.asks = true)
      (hreads : reads ⊆ s.reads) (hvalue : s.value = { mode := next }) :
      ModeMoves s input
        { s with reads := reads, request := s.request + 1, read := s.read + 1 }
        [.accepted (s.request + 1) next, .succeeded (s.request + 1) next]
  | queued {input : ModeInput} {reads : List ModeRead} {next : ControllerKeyboardInputMode}
      {change : ModeChange} (hinput : input.asks = true) (hreads : reads ⊆ s.reads)
      (hepoch : change.epoch = s.epoch) (hrequest : change.request = s.request + 1) :
      ModeMoves s input
        { s with
            reads := reads
            request := s.request + 1
            read := s.read + 1
            tail := s.tail ++ [change]
            value := { mode := s.value.mode, changing := true } }
        [.accepted (s.request + 1) next,
          .published { mode := s.value.mode, changing := true }]
  | continues {input : ModeInput} {s' : KeyboardInputModeController}
      {effects : List ModeEffect} {change : ModeChange} {rest : List ModeChange}
      (hinput : input.completes = some change.request) (htail : s.tail = change :: rest)
      (h : Continues s change s' effects) : ModeMoves s input s' effects

/-- `setMode`, also when called with the answer of a read that is then gone. -/
theorem modeMoves_setMode (s : KeyboardInputModeController) {input : ModeInput}
    (hinput : input.asks = true) {reads : List ModeRead} (hreads : reads ⊆ s.reads)
    (mode : String) (persist : Bool) :
    ModeMoves s input (({ s with reads := reads }).setMode mode persist).1
      (({ s with reads := reads }).setMode mode persist).2 := by
  rcases setMode_cases { s with reads := reads } mode persist with
    heq | ⟨hvalue, heq⟩ | ⟨change, hepoch, hrequest, heq⟩
  · rw [heq]
    exact .quiet hinput hreads
  · rw [heq]
    exact .nothingToDo hinput hreads hvalue
  · rw [heq]
    exact .queued hinput hreads hepoch hrequest

theorem modeMoves_refresh (s : KeyboardInputModeController) :
    ModeMoves s .refresh s.refresh.1 s.refresh.2 := by
  unfold KeyboardInputModeController.refresh
  split
  · exact .quiet rfl (List.Subset.refl _)
  · exact .readIssued _ rfl

theorem modeMoves_readDone (s : KeyboardInputModeController) (out : ModeRead)
    (read : ℕ) (mode : Option String) :
    ModeMoves s (.readDone read mode) (s.readDone out mode).1 (s.readDone out mode).2 := by
  have herase : s.reads.erase out ⊆ s.reads := List.erase_subset
  unfold KeyboardInputModeController.readDone
  cases mode with
  | none => exact .quiet rfl herase
  | some mode =>
      dsimp only
      split
      · exact .quiet rfl herase
      · exact modeMoves_setMode s rfl herase mode false

theorem ModeStep.moves {s s' : KeyboardInputModeController} {event : ModeEvent}
    (h : ModeStep s event s') : ModeMoves s event.input s' event.effects := by
  obtain ⟨input, effects⟩ := event
  simp only [ModeStep] at h
  cases input with
  | setMode mode persist =>
      obtain ⟨rfl, rfl⟩ := Prod.mk.inj (Option.some.inj h)
      exact modeMoves_setMode s rfl (List.Subset.refl _) mode persist
  | refresh =>
      obtain ⟨rfl, rfl⟩ := Prod.mk.inj (Option.some.inj h)
      exact modeMoves_refresh s
  | beginSession =>
      obtain ⟨rfl, rfl⟩ := Prod.mk.inj (Option.some.inj h)
      exact .began
  | endSession =>
      obtain ⟨rfl, rfl⟩ := Prod.mk.inj (Option.some.inj h)
      exact .ended
  | sessionIsActive active =>
      obtain ⟨rfl, rfl⟩ := Prod.mk.inj (Option.some.inj h)
      exact .reported active
  | start request =>
      obtain ⟨change, hrunning, heq⟩ := Option.map_eq_some_iff.mp h
      obtain ⟨rfl, rest, htail⟩ := head_of_running hrunning
      obtain ⟨rfl, rfl⟩ := Prod.mk.inj heq
      exact .continues rfl htail (continues_applyStart s change)
  | resetDone request ok =>
      obtain ⟨change, hrunning, heq⟩ := Option.map_eq_some_iff.mp h
      obtain ⟨rfl, rest, htail⟩ := head_of_running hrunning
      cases ok with
      | true =>
          obtain ⟨rfl, rfl⟩ := Prod.mk.inj heq
          exact .continues rfl htail (continues_applyAfterReset s change)
      | false =>
          obtain ⟨rfl, rfl⟩ := Prod.mk.inj heq
          exact .continues rfl htail (continues_applyFailed s change)
  | writeDone request ok =>
      obtain ⟨change, hrunning, heq⟩ := Option.map_eq_some_iff.mp h
      obtain ⟨rfl, rest, htail⟩ := head_of_running hrunning
      cases ok with
      | true =>
          obtain ⟨rfl, rfl⟩ := Prod.mk.inj heq
          exact .continues rfl htail (continues_applyAfterWrite s change)
      | false =>
          obtain ⟨rfl, rfl⟩ := Prod.mk.inj heq
          exact .continues rfl htail (continues_applyFailed s change)
  | readDone read mode =>
      obtain ⟨out, -, heq⟩ := Option.map_eq_some_iff.mp h
      obtain ⟨rfl, rfl⟩ := Prod.mk.inj heq
      exact modeMoves_readDone s out read mode

/-! ## Requests that are no longer the latest -/

/-- The numbers of what is out do not run ahead, and a change or read with the
current number is the latest of the history. -/
structure Numbered (events : List ModeEvent) (s : KeyboardInputModeController) : Prop where
  request_le : ∀ change ∈ s.tail, change.request ≤ s.request
  latest : ∀ change ∈ s.tail, change.request = s.request →
    latestRequest events = some change.request
  read_le : ∀ out ∈ s.reads, out.read ≤ s.read
  read_latest : ∀ out ∈ s.reads, out.read = s.read → latestRead events = some out.read

/-- A step that takes new numbers makes everything that is out stale. -/
theorem Numbered.outdated {events : List ModeEvent} {s s' : KeyboardInputModeController}
    {before : List ModeEvent} (h : Numbered before s) (htail : s'.tail = s.tail)
    (hreads : s'.reads ⊆ s.reads) (hrequest : s'.request = s.request + 1)
    (hread : s'.read = s.read + 1) : Numbered events s' where
  request_le change hchange := by
    have := h.request_le change (htail ▸ hchange)
    omega
  latest change hchange heq := by
    have := h.request_le change (htail ▸ hchange)
    omega
  read_le out hout := by
    have := h.read_le out (hreads hout)
    omega
  read_latest out hout heq := by
    have := h.read_le out (hreads hout)
    omega

/-- A step that keeps the numbers keeps what is latest. -/
theorem Numbered.keep {events : List ModeEvent} {s s' : KeyboardInputModeController}
    {before : List ModeEvent} (h : Numbered before s)
    (htail : ∀ change ∈ s'.tail, ∃ earlier ∈ s.tail, earlier.request = change.request)
    (hreads : s'.reads ⊆ s.reads) (hrequest : s'.request = s.request) (hread : s'.read = s.read)
    (hlatest : latestRequest events = latestRequest before)
    (hlatestRead : latestRead events = latestRead before) :
    Numbered events s' where
  request_le change hchange := by
    obtain ⟨earlier, hearlier, heq⟩ := htail change hchange
    have := h.request_le earlier hearlier
    omega
  latest change hchange heq := by
    obtain ⟨earlier, hearlier, hsame⟩ := htail change hchange
    rw [hlatest, ← hsame]
    exact h.latest earlier hearlier (by omega)
  read_le out hout := by
    have := h.read_le out (hreads hout)
    omega
  read_latest out hout heq := by
    rw [hlatestRead]
    exact h.read_latest out (hreads hout) (by omega)

theorem latestRequest_concat (events : List ModeEvent) (event : ModeEvent) :
    latestRequest (events ++ [event]) =
      if event.input.changesSession then none
      else notedRequest (latestRequest events) event.effects := by
  simp [latestRequest, List.foldl_append]

theorem latestRead_concat (events : List ModeEvent) (event : ModeEvent) :
    latestRead (events ++ [event]) =
      if event.input.changesSession then none
      else notedRead (latestRead events) event.effects := by
  simp [latestRead, List.foldl_append]

theorem changesSession_of_asks {input : ModeInput} (h : input.asks = true) :
    input.changesSession = false := by
  cases input <;> first | rfl | cases h

theorem completes_of_asks {input : ModeInput} (h : input.asks = true) :
    input.completes = none := by
  cases input <;> first | rfl | cases h

theorem changesSession_of_completes {input : ModeInput} {request : ℕ}
    (h : input.completes = some request) : input.changesSession = false := by
  cases input <;> first | rfl | cases h

/-- The tail after a change goes on holds no new request. -/
theorem Continues.tail {s s' : KeyboardInputModeController} {change : ModeChange}
    {rest : List ModeChange} {effects : List ModeEffect} (h : Continues s change s' effects)
    (htail : s.tail = change :: rest) :
    ∀ later ∈ s'.tail, ∃ earlier ∈ s.tail, earlier.request = later.request := by
  have hdrained : ∀ later ∈ s.tail.tail, ∃ earlier ∈ s.tail, earlier.request = later.request :=
    fun later hlater => ⟨later, List.mem_of_mem_tail hlater, rfl⟩
  cases h with
  | stale => exact hdrained
  | success => exact hdrained
  | failure => exact hdrained
  | await hcurrent phase effect heffect =>
      intro later hlater
      rcases List.mem_cons.mp hlater with rfl | hrest
      · exact ⟨change, by simp [htail], rfl⟩
      · exact hdrained later hrest

theorem Continues.numbers {s s' : KeyboardInputModeController} {change : ModeChange}
    {effects : List ModeEffect} (h : Continues s change s' effects) :
    s'.request = s.request ∧ s'.read = s.read ∧ s'.reads = s.reads := by
  cases h <;> exact ⟨rfl, rfl, rfl⟩

/-- A change that goes on accepts no request and issues no read. -/
theorem Continues.notes {s s' : KeyboardInputModeController} {change : ModeChange}
    {effects : List ModeEffect} (h : Continues s change s' effects) (latest : Option ℕ) :
    notedRequest latest effects = latest ∧ notedRead latest effects = latest := by
  cases h with
  | stale _ effect heffect => rcases heffect with rfl | rfl <;> exact ⟨rfl, rfl⟩
  | await _ phase effect heffect => rcases heffect with rfl | ⟨stored, rfl⟩ <;> exact ⟨rfl, rfl⟩
  | success => exact ⟨rfl, rfl⟩
  | failure => exact ⟨rfl, rfl⟩

theorem numbered_step {events : List ModeEvent} {s s' : KeyboardInputModeController}
    {event : ModeEvent} (h : Numbered events s) (hstep : ModeStep s event s') :
    Numbered (events ++ [event]) s' := by
  have hmoves := hstep.moves
  obtain ⟨input, effects⟩ := event
  cases hmoves with
  | began => exact h.outdated rfl (List.Subset.refl _) rfl rfl
  | ended => exact h.outdated rfl (List.Subset.refl _) rfl rfl
  | reported active =>
      refine h.keep (fun change hchange => ⟨change, hchange, rfl⟩) (List.Subset.refl _) rfl rfl
        ?_ ?_
      · exact latestRequest_concat events _
      · exact latestRead_concat events _
  | quiet hinput hreads =>
      refine h.keep (fun change hchange => ⟨change, hchange, rfl⟩) hreads rfl rfl ?_ ?_
      · rw [latestRequest_concat, changesSession_of_asks hinput]
        rfl
      · rw [latestRead_concat, changesSession_of_asks hinput]
        rfl
  | readIssued out hout =>
      refine ⟨h.request_le, ?_, ?_, ?_⟩
      · intro change hchange heq
        rw [latestRequest_concat]
        exact h.latest change hchange heq
      · intro other hother
        show other.read ≤ s.read + 1
        rcases List.mem_append.mp hother with hold | hnew
        · have := h.read_le other hold
          omega
        · obtain rfl : other = out := by simpa using hnew
          omega
      · intro other hother heq
        change other.read = s.read + 1 at heq
        rw [latestRead_concat, heq]
        rfl
  | nothingToDo hinput hreads hvalue => exact h.outdated rfl hreads rfl rfl
  | @queued _ reads next change hinput hreads hepoch hrequest =>
      have hold : Numbered (events ++ [⟨input, [.accepted (s.request + 1) next,
            .published { mode := s.value.mode, changing := true }]⟩])
          { s with reads := reads, request := s.request + 1, read := s.read + 1 } :=
        h.outdated rfl hreads rfl rfl
      refine ⟨?_, ?_, hold.read_le, hold.read_latest⟩
      · intro other hother
        rcases List.mem_append.mp hother with hearlier | hnew
        · exact hold.request_le other hearlier
        · obtain rfl : other = change := by simpa using hnew
          exact hrequest.le
      · intro other hother heq
        change other.request = s.request + 1 at heq
        rw [latestRequest_concat, changesSession_of_asks hinput, heq]
        rfl
  | continues hinput htail hcontinues =>
      obtain ⟨hrequest, hread, hreads⟩ := hcontinues.numbers
      refine h.keep (hcontinues.tail htail) (by simp [hreads]) hrequest hread ?_ ?_
      · rw [latestRequest_concat, changesSession_of_completes hinput]
        exact (hcontinues.notes _).1
      · rw [latestRead_concat, changesSession_of_completes hinput]
        exact (hcontinues.notes _).2

theorem numbered_run {active : Bool} {events : List ModeEvent} {s : KeyboardInputModeController}
    (run : Run ModeStep { sessionIsActive := active } events s) : Numbered events s := by
  refine run.invariant Numbered ?_ fun _ _ _ _ => numbered_step
  exact ⟨by simp, by simp, by simp, by simp⟩

/-- A completion for a request or a read that is not the latest of its session
publishes nothing and issues nothing. -/
def StaleIsSilent (before : List ModeEvent) (event : ModeEvent) : Prop :=
  (∀ request, event.input.completes = some request → latestRequest before ≠ some request →
    ∀ effect ∈ event.effects, effect = .dropped request ∨ effect = .failed request) ∧
  (∀ read mode, event.input = .readDone read mode → latestRead before ≠ some read →
    event.effects = [])

theorem request_of_isCurrent {s : KeyboardInputModeController} {change : ModeChange}
    (h : s.isCurrent change = true) :
    s.active = true ∧ change.epoch = s.epoch ∧ s.sessionIsActive = true ∧
      change.request = s.request := by
  simpa [KeyboardInputModeController.isCurrent, KeyboardInputModeController.accepts,
    and_assoc] using h

theorem Continues.silent {s s' : KeyboardInputModeController} {change : ModeChange}
    {effects : List ModeEffect} (h : Continues s change s' effects)
    (hstale : s.isCurrent change ≠ true) :
    ∀ effect ∈ effects, effect = .dropped change.request ∨ effect = .failed change.request := by
  cases h with
  | stale _ effect heffect =>
      intro other hother
      obtain rfl : other = effect := by simpa using hother
      exact heffect
  | await hcurrent => exact absurd hcurrent hstale
  | success hcurrent => exact absurd hcurrent hstale
  | failure hcurrent => exact absurd hcurrent hstale

theorem readDone_stale {s : KeyboardInputModeController} {out : ModeRead}
    (hstale : out.read ≠ s.read) (mode : Option String) : (s.readDone out mode).2 = [] := by
  cases mode with
  | none => rfl
  | some mode => simp [KeyboardInputModeController.readDone, hstale]

theorem staleIsSilent_step {events : List ModeEvent} {s s' : KeyboardInputModeController}
    {event : ModeEvent} (h : Numbered events s) (hstep : ModeStep s event s') :
    StaleIsSilent events event := by
  constructor
  · intro request hrequest hlatest
    have hmoves := hstep.moves
    obtain ⟨input, effects⟩ := event
    cases hmoves with
    | @continues _ _ _ change rest hinput htail hcontinues =>
        obtain rfl : change.request = request := Option.some.inj (hinput.symm.trans hrequest)
        apply hcontinues.silent
        intro hcurrent
        obtain ⟨-, -, -, hnumber⟩ := request_of_isCurrent hcurrent
        exact hlatest (h.latest change (by simp [htail]) hnumber)
    | began => cases hrequest
    | ended => cases hrequest
    | reported => cases hrequest
    | readIssued => cases hrequest
    | quiet hinput => exact absurd (hrequest.symm.trans (completes_of_asks hinput)) nofun
    | nothingToDo hinput => exact absurd (hrequest.symm.trans (completes_of_asks hinput)) nofun
    | queued hinput => exact absurd (hrequest.symm.trans (completes_of_asks hinput)) nofun
  · rintro read mode hinput hlatest
    obtain ⟨input, effects⟩ := event
    obtain rfl : input = .readDone read mode := hinput
    obtain ⟨out, hout, heq⟩ := Option.map_eq_some_iff.mp hstep
    have hread : out.read = read := by simpa using List.find?_some hout
    have hmem : out ∈ s.reads := List.mem_of_find?_eq_some hout
    have heffects : (s.readDone out mode).2 = effects := by rw [heq]
    rw [← heffects]
    apply readDone_stale
    intro hcurrent
    exact hlatest (hread ▸ h.read_latest out hmem hcurrent)

/-! ## Dispatch from a request to a success -/

/-- No keyboard input is dispatched before a success or a new session. -/
structure Blocked (request : ℕ) (s : KeyboardInputModeController) : Prop where
  blocked : s.active = false ∨ s.value.changing = true ∨ s.value.failed = true
  request_le : request ≤ s.request

theorem Blocked.canDispatch {request : ℕ} {s : KeyboardInputModeController}
    (h : Blocked request s) : s.canDispatch = false := by
  rcases h.blocked with hactive | hchanging | hfailed
  · simp [KeyboardInputModeController.canDispatch, KeyboardInputModeController.accepts, hactive]
  · simp [KeyboardInputModeController.canDispatch, hchanging]
  · simp [KeyboardInputModeController.canDispatch, hfailed]

/-- The effects hold a success of this request or a later one. -/
def SucceedsFrom (request : ℕ) (effects : List ModeEffect) : Prop :=
  ∃ later next, request ≤ later ∧ .succeeded later next ∈ effects

theorem blocked_step {request : ℕ} {s s' : KeyboardInputModeController} {event : ModeEvent}
    (h : Blocked request s) (hstep : ModeStep s event s')
    (hsuccess : ¬ SucceedsFrom request event.effects) (hbegin : event.input ≠ .beginSession) :
    Blocked request s' := by
  have hle := h.request_le
  have hmoves := hstep.moves
  obtain ⟨input, effects⟩ := event
  cases hmoves with
  | began => exact absurd rfl hbegin
  | ended => exact ⟨Or.inl rfl, Nat.le_succ_of_le hle⟩
  | reported => exact ⟨h.blocked, hle⟩
  | quiet => exact ⟨h.blocked, hle⟩
  | readIssued => exact ⟨h.blocked, hle⟩
  | @nothingToDo _ _ next => exact absurd ⟨s.request + 1, next, by omega, by simp⟩ hsuccess
  | queued => exact ⟨Or.inr (Or.inl rfl), Nat.le_succ_of_le hle⟩
  | @continues _ _ _ change rest hinput htail hcontinues =>
      cases hcontinues with
      | stale => exact ⟨h.blocked, hle⟩
      | await => exact ⟨h.blocked, hle⟩
      | failure => exact ⟨Or.inr (Or.inr rfl), hle⟩
      | success hcurrent =>
          obtain ⟨-, -, -, hnumber⟩ := request_of_isCurrent hcurrent
          exact absurd ⟨change.request, change.next, by omega, by simp⟩ hsuccess

/-- An accepted request blocks the dispatch unless it succeeds at once. -/
theorem blocked_of_accepted {s s' : KeyboardInputModeController} {event : ModeEvent}
    (hstep : ModeStep s event s') {request : ℕ} {next : ControllerKeyboardInputMode}
    (haccepted : .accepted request next ∈ event.effects)
    (hsuccess : ¬ SucceedsFrom request event.effects) : Blocked request s' := by
  have hmoves := hstep.moves
  obtain ⟨input, effects⟩ := event
  cases hmoves with
  | began => simp at haccepted
  | ended => simp at haccepted
  | reported => simp at haccepted
  | quiet => simp at haccepted
  | readIssued => simp at haccepted
  | nothingToDo =>
      obtain ⟨rfl, rfl⟩ : request = s.request + 1 ∧ next = _ := by simpa using haccepted
      exact absurd ⟨s.request + 1, next, le_refl _, by simp⟩ hsuccess
  | queued =>
      obtain ⟨rfl, rfl⟩ : request = s.request + 1 ∧ next = _ := by simpa using haccepted
      exact ⟨Or.inr (Or.inl rfl), le_refl _⟩
  | continues _ _ hcontinues =>
      cases hcontinues with
      | stale _ effect heffect => rcases heffect with rfl | rfl <;> simp at haccepted
      | await _ phase effect heffect =>
          rcases heffect with rfl | ⟨stored, rfl⟩ <;> simp at haccepted
      | success => simp at haccepted
      | failure => simp at haccepted

/-- From an accepted request on, dispatch needs a success of it or of a later
request, or the beginning of a session. -/
def BlockedUntilSettled (events : List ModeEvent) (s : KeyboardInputModeController) : Prop :=
  ∀ before event after request next, events = before ++ event :: after →
    .accepted request next ∈ event.effects → s.canDispatch = true →
    ∃ later ∈ event :: after, SucceedsFrom request later.effects ∨ later.input = .beginSession

theorem blockedUntilSettled_run {start s : KeyboardInputModeController} {events : List ModeEvent}
    (run : Run ModeStep start events s) : BlockedUntilSettled events s := by
  rintro before event after request next rfl haccepted hdispatch
  by_contra hnone
  push Not at hnone
  rw [List.append_cons] at run
  obtain ⟨middle, hfirst, hafter⟩ := run.split
  obtain ⟨earlier, -, hevent⟩ := hfirst.snoc_inv
  have hmiddle : Blocked request middle :=
    blocked_of_accepted hevent haccepted (hnone event List.mem_cons_self).1
  have hlast : Blocked request s := by
    refine hafter.invariant (fun seen t => seen ⊆ after → Blocked request t) (fun _ => hmiddle) ?_
      (List.Subset.refl _)
    intro seen t later t' ih hstep hseen
    have hmem : later ∈ after := hseen (List.mem_append_right seen (List.mem_singleton_self later))
    have hlater := hnone later (List.mem_cons_of_mem event hmem)
    exact blocked_step (ih fun e he => hseen (List.mem_append_left _ he)) hstep hlater.1 hlater.2
  rw [hlast.canDispatch] at hdispatch
  cases hdispatch

/-! ## The mode once everything is over -/

/-- In an active session a change that shows is still on the tail, and the mode
is that of the last success. -/
structure Settling (mode : ControllerKeyboardInputMode) (s : KeyboardInputModeController) :
    Prop where
  active : s.active = true
  sessionIsActive : s.sessionIsActive = true
  pending : s.value.changing = true →
    ∃ change ∈ s.tail, change.request = s.request ∧ change.epoch = s.epoch
  mode_eq : s.value.mode = mode

theorem settling_step {mode : ControllerKeyboardInputMode} {s s' : KeyboardInputModeController}
    {event : ModeEvent} (h : Settling mode s) (hstep : ModeStep s event s')
    (hstays : event.input.leavesSession = false) :
    Settling (succeededMode mode event.effects) s' := by
  have hmoves := hstep.moves
  obtain ⟨input, effects⟩ := event
  cases hmoves with
  | began => cases hstays
  | ended => cases hstays
  | reported active =>
      cases active with
      | false => cases hstays
      | true => exact ⟨h.active, rfl, h.pending, h.mode_eq⟩
  | quiet => exact ⟨h.active, h.sessionIsActive, h.pending, h.mode_eq⟩
  | readIssued => exact ⟨h.active, h.sessionIsActive, h.pending, h.mode_eq⟩
  | nothingToDo hinput hreads hvalue =>
      refine ⟨h.active, h.sessionIsActive, ?_, ?_⟩
      · simp [hvalue]
      · simp [hvalue, succeededMode]
  | @queued _ reads next change hinput hreads hepoch hrequest =>
      refine ⟨h.active, h.sessionIsActive, fun _ => ⟨change, by simp, hrequest, hepoch⟩, h.mode_eq⟩
  | @continues _ _ _ change rest hinput htail hcontinues =>
      cases hcontinues with
      | stale hstale effect heffect =>
          refine ⟨h.active, h.sessionIsActive, ?_, ?_⟩
          · -- The stale change is not the one that shows, so that one is still behind it.
            intro hchanging
            obtain ⟨shown, hshown, hrequest, hepoch⟩ := h.pending hchanging
            rw [htail] at hshown
            rcases List.mem_cons.mp hshown with rfl | hrest
            · simp [KeyboardInputModeController.isCurrent, KeyboardInputModeController.accepts,
                h.active, h.sessionIsActive, hrequest, hepoch] at hstale
            · exact ⟨shown, by simpa [KeyboardInputModeController.drained, htail] using hrest,
                hrequest, hepoch⟩
          · rcases heffect with rfl | rfl <;> exact h.mode_eq
      | await hcurrent phase effect heffect =>
          obtain ⟨-, hepoch, -, hrequest⟩ := request_of_isCurrent hcurrent
          refine ⟨h.active, h.sessionIsActive, fun _ => ?_, ?_⟩
          · exact ⟨{ change with phase := phase },
              by simp [KeyboardInputModeController.await], hrequest, hepoch⟩
          · rcases heffect with rfl | ⟨stored, rfl⟩ <;> exact h.mode_eq
      | success => exact ⟨h.active, h.sessionIsActive, nofun, rfl⟩
      | failure => exact ⟨h.active, h.sessionIsActive, nofun, h.mode_eq⟩

/-- The run begins here, or the last event began a session. -/
def OpensSession (events : List ModeEvent) : Prop :=
  events = [] ∨ ∃ earlier event, events = earlier ++ [event] ∧ event.input = .beginSession

/-- Where a session opened while reported active and was not left since, an
empty tail means that nothing is changing and the mode is that of the last success. -/
def SettlesOnLatest (start : Bool) (events : List ModeEvent) (s : KeyboardInputModeController) :
    Prop :=
  ∀ before after, events = before ++ after → OpensSession before →
    reportedActive start before = true →
    (∀ event ∈ after, event.input.leavesSession = false) → s.tail = [] →
    s.value.changing = false ∧ s.value.mode = lastSucceeded after

theorem step_published {s s' : KeyboardInputModeController} {event : ModeEvent}
    (hstep : ModeStep s event s') : s'.value = notedValue s.value event.effects := by
  have hmoves := hstep.moves
  obtain ⟨input, effects⟩ := event
  cases hmoves with
  | continues _ _ hcontinues =>
      cases hcontinues with
      | stale _ effect heffect => rcases heffect with rfl | rfl <;> rfl
      | await _ phase effect heffect => rcases heffect with rfl | ⟨stored, rfl⟩ <;> rfl
      | success => rfl
      | failure => rfl
  | began => rfl
  | ended => rfl
  | reported => rfl
  | quiet => rfl
  | readIssued => rfl
  | nothingToDo => rfl
  | queued => rfl

/-- The value of the controller is the one it published last. -/
theorem run_published {active : Bool} {events : List ModeEvent} {s : KeyboardInputModeController}
    (run : Run ModeStep { sessionIsActive := active } events s) :
    s.value = publishedValue events := by
  refine run.invariant (fun events s => s.value = publishedValue events) rfl ?_
  intro events s event s' ih hstep
  calc s'.value = notedValue s.value event.effects := step_published hstep
    _ = publishedValue (events ++ [event]) := by simp [publishedValue, List.foldl_append, ih]

theorem step_reported {s s' : KeyboardInputModeController} {event : ModeEvent}
    (hstep : ModeStep s event s') :
    s'.sessionIsActive = reportedActive s.sessionIsActive [event] := by
  have hmoves := hstep.moves
  obtain ⟨input, effects⟩ := event
  have hasks : ∀ {input : ModeInput} {effects : List ModeEffect}, input.asks = true →
      reportedActive s.sessionIsActive [⟨input, effects⟩] = s.sessionIsActive := by
    intro input effects hinput
    cases input <;> first | rfl | cases hinput
  cases hmoves with
  | began => rfl
  | ended => rfl
  | reported => rfl
  | readIssued => rfl
  | quiet hinput => exact (hasks hinput).symm
  | nothingToDo hinput => exact (hasks hinput).symm
  | queued hinput => exact (hasks hinput).symm
  | continues hinput _ hcontinues =>
      have hsame : s'.sessionIsActive = s.sessionIsActive := by cases hcontinues <;> rfl
      rw [hsame]
      cases input <;> first | rfl | cases hinput

theorem run_reported {active : Bool} {events : List ModeEvent} {s : KeyboardInputModeController}
    (run : Run ModeStep { sessionIsActive := active } events s) :
    s.sessionIsActive = reportedActive active events := by
  refine run.invariant (fun events s => s.sessionIsActive = reportedActive active events) rfl ?_
  intro events s event s' ih hstep
  calc s'.sessionIsActive = reportedActive s.sessionIsActive [event] := step_reported hstep
    _ = reportedActive active (events ++ [event]) := by
      simp [reportedActive, List.foldl_append, ih]

theorem settling_of_opensSession {active : Bool} {before : List ModeEvent}
    {s : KeyboardInputModeController}
    (run : Run ModeStep { sessionIsActive := active } before s) (hopens : OpensSession before)
    (hactive : reportedActive active before = true) : Settling .auto s := by
  have hreported := (run_reported run).trans hactive
  rcases hopens with rfl | ⟨earlier, event, rfl, hinput⟩
  · generalize hevents : ([] : List ModeEvent) = events at run
    cases run with
    | nil => exact ⟨rfl, hreported, nofun, rfl⟩
    | snoc => simp at hevents
  · obtain ⟨previous, -, hstep⟩ := run.snoc_inv
    obtain ⟨input, effects⟩ := event
    obtain rfl : input = .beginSession := hinput
    obtain ⟨rfl, rfl⟩ := Prod.mk.inj (Option.some.inj hstep)
    exact ⟨rfl, hreported, nofun, rfl⟩

theorem settlesOnLatest_run {active : Bool} {events : List ModeEvent}
    {s : KeyboardInputModeController}
    (run : Run ModeStep { sessionIsActive := active } events s) :
    SettlesOnLatest active events s := by
  rintro before after rfl hopens hactive hstays hdone
  obtain ⟨middle, hbefore, hafter⟩ := run.split
  have hopen : Settling .auto middle := settling_of_opensSession hbefore hopens hactive
  have hlast : Settling (lastSucceeded after) s := by
    refine hafter.invariant
      (fun seen t => seen ⊆ after → Settling (lastSucceeded seen) t) (fun _ => hopen) ?_
      (List.Subset.refl _)
    intro seen t event t' ih hstep hseen
    have hmem : event ∈ after := hseen (List.mem_append_right seen (List.mem_singleton_self event))
    have hnext := settling_step (ih fun e he => hseen (List.mem_append_left _ he)) hstep
      (hstays event hmem)
    simpa [lastSucceeded, List.foldl_append] using hnext
  refine ⟨?_, hlast.mode_eq⟩
  -- A change that showed would still be on the tail.
  cases hchanging : s.value.changing with
  | false => rfl
  | true =>
      obtain ⟨change, hchange, -⟩ := hlast.pending hchanging
      simp [hdone] at hchange

/-- In every order of calls and completions, stale completions leave no trace,
dispatch is blocked from a request to a success or a new session, and at the end
the published mode is that of the latest success. -/
theorem inputMode_settles {active : Bool} {events : List ModeEvent}
    {s : KeyboardInputModeController}
    (run : Run ModeStep { sessionIsActive := active } events s) :
    s.value = publishedValue events ∧ Always StaleIsSilent events ∧
      BlockedUntilSettled events s ∧ SettlesOnLatest active events s := by
  refine ⟨run_published run, ?_, blockedUntilSettled_run run, settlesOnLatest_run run⟩
  have hboth : Numbered events s ∧ Always StaleIsSilent events := by
    refine run.invariant (fun events s => Numbered events s ∧ Always StaleIsSilent events)
      ⟨numbered_run .nil, always_nil⟩ ?_
    rintro events s event s' ⟨hnumbered, hsilent⟩ hstep
    exact ⟨numbered_step hnumbered hstep,
      always_concat.mpr ⟨hsilent, staleIsSilent_step hnumbered hstep⟩⟩
  exact hboth.2

/-- `setMode('text')` on a session that is reported active. -/
def textRequested : ModeEvent where
  input := .setMode "text" false
  effects := [.accepted 1 .text, .published { mode := .auto, changing := true }]

def textQueued : KeyboardInputModeController where
  value := { mode := .auto, changing := true }
  tail := [{ epoch := 0, request := 1, next := .text, needsReset := true, persist := false }]
  request := 1
  read := 1
  sessionIsActive := true

theorem run_textRequested : Run ModeStep { sessionIsActive := true } [textRequested] textQueued :=
  Run.single (by decide)

/-- The event, if its effects are those of the step. -/
def KeyboardInputModeController.follow (s : KeyboardInputModeController) (event : ModeEvent) :
    Option KeyboardInputModeController :=
  (s.step event.input).bind fun stepped =>
    if stepped.2 = event.effects then some stepped.1 else none

theorem modeStep_of_follow {s s' : KeyboardInputModeController} {event : ModeEvent}
    (h : s.follow event = some s') : ModeStep s event s' := by
  obtain ⟨stepped, hstep, hrest⟩ := Option.bind_eq_some_iff.mp h
  split_ifs at hrest with heffects
  obtain rfl := Option.some.inj hrest
  rw [ModeStep, hstep, ← heffects]

/-- The keyboard is reset for `text` when `physical` is asked for: the reset that completes then
is stale, and the later change succeeds. -/
def superseded : List ModeEvent :=
  [textRequested, ⟨.start 1, [.resetIssued 1]⟩,
    ⟨.setMode "physical" false, [.accepted 2 .physical, .published { changing := true }]⟩,
    ⟨.resetDone 1 true, [.dropped 1]⟩, ⟨.start 2, [.resetIssued 2]⟩,
    ⟨.resetDone 2 true, [.published { mode := .physical }, .succeeded 2 .physical]⟩]

def settledOnPhysical : KeyboardInputModeController where
  value := { mode := .physical }
  request := 2
  read := 2
  sessionIsActive := true

theorem run_superseded :
    Run ModeStep { sessionIsActive := true } superseded settledOnPhysical := by
  have hruns : superseded.foldlM KeyboardInputModeController.follow { sessionIsActive := true } =
      some settledOnPhysical := by decide
  exact (run_of_foldlM hruns).mono fun _ _ _ => modeStep_of_follow

/-- `inputMode_settles` where a request is superseded: its reset leaves no trace, and the mode
at the end is that of the later one. -/
theorem inputMode_settles_superseded :
    settledOnPhysical.value = publishedValue superseded ∧ Always StaleIsSilent superseded ∧
      BlockedUntilSettled superseded settledOnPhysical ∧
      settledOnPhysical.value.mode = lastSucceeded superseded := by
  obtain ⟨hvalue, hsilent, hblocked, hsettles⟩ := inputMode_settles run_superseded
  refine ⟨hvalue, hsilent, hblocked, ?_⟩
  exact (hsettles [] superseded rfl (.inl rfl) rfl (by decide) rfl).2

/-- A new session opens the dispatch though the change never succeeded. -/
theorem not_blocked_until_success :
    ¬ ∀ (events : List ModeEvent) (s : KeyboardInputModeController),
      Run ModeStep { sessionIsActive := true } events s →
      ∀ before event after request next, events = before ++ event :: after →
        .accepted request next ∈ event.effects → s.canDispatch = true →
        ∃ later ∈ event :: after, SucceedsFrom request later.effects := by
  intro h
  have hbegin : ModeStep textQueued ⟨.beginSession, [.published {}]⟩
      textQueued.beginSession.1 := rfl
  obtain ⟨later, hlater, number, next, -, hmem⟩ :=
    h _ _ (run_textRequested.snoc hbegin) [] textRequested [⟨.beginSession, [.published {}]⟩]
      1 .text rfl (by decide) (by decide)
  rcases List.mem_cons.mp hlater with rfl | hlast
  · simp [textRequested] at hmem
  · obtain rfl : later = ⟨.beginSession, [.published {}]⟩ := by simpa using hlast
    simp at hmem

end RustAdmin.Keyboard
