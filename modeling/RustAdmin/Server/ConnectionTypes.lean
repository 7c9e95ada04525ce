import RustAdmin.Server.Moves
import RustAdmin.Support.Run

/-!
# What a connection is let in for

Each login request adds to what a connection asks for, but the policy looks at one
type only: the first of the flags that is set.  The socket of a port forward is
opened for the last request, whatever the policy looked at, and a request that comes
with a switch of sides is not checked against the options at all.

What a connection asks for grows by one login request at a time.  `Sourced` traces
each flag to a request that came while its option was on, and `sourced_run` keeps it
as long as the connection waits.  Only one turn authorizes, so the question is about
the connection that the policy finds in it: `asksFor_granted_iff` and
`asksFor_enabled_iff` say what the policy has not looked at, and
`covered_and_enabled_iff` puts the two together.
-/

namespace RustAdmin.Server

open RustAdmin.Support

def LoginUnion.connType : LoginUnion → AuthConnType
  | .remote => .remote
  | .fileTransfer _ _ => .fileTransfer
  | .viewCamera => .viewCamera
  | .terminal => .terminal
  | .portForward _ => .portForward

/-- The option a type of connection depends on. -/
def AuthConnType.option : AuthConnType → Option PermissionOption
  | .remote => none
  | .fileTransfer => some .enableFileTransfer
  | .portForward => some .enableTunnel
  | .viewCamera => some .enableCamera
  | .terminal => some .enableTerminal

/-- The option of a type is on. -/
def Answers.enables (answers : Answers) (connType : AuthConnType) : Bool :=
  connType.option.all answers.permission

/-- The connection can be used as this type, besides remote control. -/
def Connection.has (c : Connection) : AuthConnType → Bool
  | .remote => false
  | .fileTransfer => c.fileTransfer.isSome
  | .portForward => c.portForwardSocket.isSome
  | .viewCamera => c.viewCamera
  | .terminal => c.terminal

/-- What the connection will have once it is authorized. -/
def Connection.asksFor (c : Connection) : AuthConnType → Bool
  | .portForward => c.wantedSocket.isSome
  | connType => c.has connType

/-- A request for this type came while its option was on. -/
def EnabledFor (platform : Platform) (events : List ConnectionEvent) (connType : AuthConnType) :
    Prop :=
  ∃ event ∈ events, ∃ lr, event.input.request platform = some lr ∧
    lr.union.connType = connType ∧ event.answers.enables connType = true

/-- The event that brought the login request the connection holds. -/
def lastRequest (platform : Platform) (events : List ConnectionEvent) : Option ConnectionEvent :=
  events.reverse.find? fun event => (event.input.request platform).isSome

/-! ## What is asked of an authorization -/

/-- Every type has its grant, except for unattended access. -/
def Covered (c : Connection) : Prop :=
  c.sessionAuthKind ≠ .unattendedPassword →
    ∀ connType, c.has connType = true → c.sessionConnectionGranted connType = true

/-- Every type was asked for while its option was on. -/
def OptionsEnabled (platform : Platform) (events : List ConnectionEvent) (c : Connection) : Prop :=
  ∀ connType, c.has connType = true → EnabledFor platform events connType

/-- A turn that authorizes lets the connection in only for what it may do. -/
def LetInFairly (platform : Platform) (start : Connection) (events : List ConnectionEvent)
    (event : ConnectionEvent) : Prop :=
  let c := connectionAfter platform start events
  c.authorized = false → (c.next platform event).authorized = true →
    Covered (c.next platform event) ∧
      OptionsEnabled platform (events ++ [event]) (c.next platform event)

/-! ## The exact condition -/

/-- What the connection asks for besides the type the policy looks at is granted. -/
def UninspectedGranted (p : Connection) : Prop :=
  p.sessionAuthKind = .unattendedPassword ∨ ∀ connType, connType ≠ p.sessionConnectionType →
    p.asksFor connType = true → p.sessionConnectionGranted connType = true

/-- The last login request came with a switch of sides and asks for a port forward. -/
def SwitchedTarget (platform : Platform) (events : List ConnectionEvent) : Prop :=
  ∃ event uuid lr, lastRequest platform events = some event ∧
    event.input = .switchSidesResponse uuid (some lr) ∧ lr.union.connType = .portForward

/-- A turn that authorizes finds everything granted that the policy does not look at,
and a port forward of a switch of sides only where tunnelling was on. -/
def AsksFairly (platform : Platform) (start : Connection) (events : List ConnectionEvent)
    (event : ConnectionEvent) : Prop :=
  let c := connectionAfter platform start events
  c.isOpen = true → c.authorized = false → ∀ p, c.atPolicy platform event = some p →
    p.admits platform event.answers = true →
      UninspectedGranted p ∧ (SwitchedTarget platform (events ++ [event]) →
        EnabledFor platform (events ++ [event]) .portForward)

/-! ## Requests and options -/

variable {platform : Platform} {answers : Answers} {lr : LoginRequest} {c c' : Connection}
  {events : List ConnectionEvent} {event : ConnectionEvent} {connType : AuthConnType}

theorem EnabledFor.concat (h : EnabledFor platform events connType) :
    EnabledFor platform (events ++ [event]) connType := by
  obtain ⟨earlier, hmem, hearlier⟩ := h
  exact ⟨earlier, List.mem_append_left _ hmem, hearlier⟩

theorem enabledFor_last (hrequest : event.input.request platform = some lr)
    (henables : event.answers.enables lr.union.connType = true) :
    EnabledFor platform (events ++ [event]) lr.union.connType :=
  ⟨event, List.mem_append_right _ (List.mem_singleton_self _), lr, hrequest, rfl, henables⟩

theorem lastRequest_concat : lastRequest platform (events ++ [event]) =
    if (event.input.request platform).isSome then some event
    else lastRequest platform events := by
  rw [lastRequest, List.reverse_append, List.reverse_singleton, List.singleton_append,
    List.find?_cons]
  split_ifs with h
  · rw [h]
  · rw [Bool.eq_false_iff.mpr h]
    rfl

/-- A noted request adds its own type, whose option is on. -/
theorem requestConnection_has (hnoted : c.requestConnection platform answers lr = some c') :
    answers.enables lr.union.connType = true ∧
      ∀ connType, c'.has connType = true →
        c.has connType = true ∨ connType = lr.union.connType := by
  unfold Connection.requestConnection at hnoted
  unfold Answers.enables
  cases hunion : lr.union with
  | remote =>
      rw [hunion] at hnoted
      dsimp only at hnoted
      split_ifs at hnoted
      obtain rfl := Option.some.inj hnoted
      exact ⟨rfl, fun _ => Or.inl⟩
  | fileTransfer dir showHidden =>
      rw [hunion] at hnoted
      dsimp only at hnoted
      split_ifs at hnoted with henabled
      obtain rfl := Option.some.inj hnoted
      refine ⟨henabled, ?_⟩
      intro connType hhas
      cases connType with
      | fileTransfer => exact Or.inr rfl
      | _ => exact Or.inl hhas
  | viewCamera =>
      rw [hunion] at hnoted
      dsimp only at hnoted
      split_ifs at hnoted with henabled
      obtain rfl := Option.some.inj hnoted
      refine ⟨henabled, ?_⟩
      intro connType hhas
      cases connType with
      | viewCamera => exact Or.inr rfl
      | _ => exact Or.inl hhas
  | terminal =>
      rw [hunion] at hnoted
      dsimp only at hnoted
      split_ifs at hnoted with henabled
      obtain rfl := Option.some.inj hnoted
      refine ⟨(Bool.and_eq_true_iff.mp henabled).1, ?_⟩
      intro connType hhas
      cases connType with
      | terminal => exact Or.inr rfl
      | _ => exact Or.inl hhas
  | portForward pf =>
      rw [hunion] at hnoted
      dsimp only at hnoted
      split_ifs at hnoted with henabled
      obtain rfl := Option.some.inj hnoted
      exact ⟨henabled, fun _ => Or.inl⟩

/-! ## Where a wish comes from -/

/-- The flags, the socket and the last request. -/
def Connection.wishes (c : Connection) :
    Option (String × Bool) × Bool × Bool × Option String × LoginRequest :=
  (c.fileTransfer, c.viewCamera, c.terminal, c.portForwardSocket, c.lr)

/-- Every flag was set while its option was on, the last request is the one that is
stored, and its port forward was checked unless the sides were switched with it. -/
structure Sourced (platform : Platform) (events : List ConnectionEvent) (c : Connection) :
    Prop where
  noSocket : c.portForwardSocket = none
  enabled : ∀ connType, c.has connType = true → EnabledFor platform events connType
  stored : ∀ event lr, lastRequest platform events = some event →
    event.input.request platform = some lr → c.lr = lr
  target : c.lr.union.connType = .portForward →
    EnabledFor platform events .portForward ∨ SwitchedTarget platform events

theorem has_of_wishes (hwishes : c'.wishes = c.wishes) (connType : AuthConnType) :
    c'.has connType = c.has connType := by
  simp only [Connection.wishes, Prod.mk.injEq] at hwishes
  cases connType <;> simp [Connection.has, hwishes]

theorem Sourced.of_wishes (hc : Sourced platform events c) (hwishes : c'.wishes = c.wishes) :
    Sourced platform events c' := by
  have hhas := has_of_wishes hwishes
  simp only [Connection.wishes, Prod.mk.injEq] at hwishes
  obtain ⟨_, _, _, hsocket, hlr⟩ := hwishes
  refine ⟨hsocket.trans hc.noSocket, ?_, ?_, ?_⟩
  · intro connType h
    exact hc.enabled connType ((hhas connType) ▸ h)
  · rw [hlr]
    exact hc.stored
  · rw [hlr]
    exact hc.target

/-- An input without a request keeps the sources. -/
theorem Sourced.concat (hc : Sourced platform events c)
    (hnone : event.input.request platform = none) (hwishes : c'.wishes = c.wishes) :
    Sourced platform (events ++ [event]) c' := by
  have hlast : lastRequest platform (events ++ [event]) = lastRequest platform events := by
    rw [lastRequest_concat, hnone]
    rfl
  refine Sourced.of_wishes (c := c) ⟨hc.noSocket, ?_, ?_, ?_⟩ hwishes
  · intro connType h
    exact (hc.enabled connType h).concat
  · rw [hlast]
    exact hc.stored
  · intro h
    refine (hc.target h).imp EnabledFor.concat ?_
    rintro ⟨earlier, uuid, lr, hrequest, hinput⟩
    exact ⟨earlier, uuid, lr, hlast.trans hrequest, hinput⟩

/-- A request that is stored, with the flags of before or its own. -/
theorem Sourced.concat_request (hc : Sourced platform events c)
    (hrequest : event.input.request platform = some lr) (hlr : c'.lr = lr)
    (hsocket : c'.portForwardSocket = c.portForwardSocket)
    (hhas : ∀ connType, c'.has connType = true → c.has connType = true ∨
      (connType = lr.union.connType ∧ event.answers.enables connType = true))
    (htarget : lr.union.connType = .portForward → event.answers.enables .portForward = true ∨
      ∃ uuid, event.input = .switchSidesResponse uuid (some lr)) :
    Sourced platform (events ++ [event]) c' := by
  have hlast : lastRequest platform (events ++ [event]) = some event := by
    rw [lastRequest_concat, hrequest]
    rfl
  refine ⟨hsocket.trans hc.noSocket, ?_, ?_, ?_⟩
  · intro connType h
    rcases hhas connType h with hbefore | ⟨rfl, henables⟩
    · exact (hc.enabled connType hbefore).concat
    · exact enabledFor_last hrequest henables
  · intro last lr' hlast' hrequest'
    obtain rfl : event = last := Option.some.inj (hlast.symm.trans hlast')
    exact hlr.trans (Option.some.inj (hrequest.symm.trans hrequest'))
  · intro hforward
    rw [hlr] at hforward
    rcases htarget hforward with henables | ⟨uuid, hinput⟩
    · rw [← hforward] at henables ⊢
      exact Or.inl (enabledFor_last hrequest henables)
    · exact Or.inr ⟨event, uuid, lr, hlast, hinput, hforward⟩

theorem wishes_without_validation (answers : Answers) (c : Connection) (lr : LoginRequest) :
    (c.handleLoginRequestWithoutValidation answers lr).wishes = ({ c with lr := lr }).wishes := by
  unfold Connection.handleLoginRequestWithoutValidation
  dsimp only
  split_ifs <;> rfl

/-- The request stays stored, and adds only its own type, whose option is on. -/
structure Adds (answers : Answers) (lr : LoginRequest) (c c' : Connection) : Prop where
  stored : c'.lr = lr
  socket : c'.portForwardSocket = c.portForwardSocket
  has : ∀ connType, c'.has connType = true → c.has connType = true ∨
    (connType = lr.union.connType ∧ answers.enables connType = true)

theorem Adds.of_wishes {first : Connection} (hc : Adds answers lr first c)
    (hwishes : c'.wishes = c.wishes) : Adds answers lr first c' := by
  have hhas := has_of_wishes hwishes
  simp only [Connection.wishes, Prod.mk.injEq] at hwishes
  refine ⟨hwishes.2.2.2.2.trans hc.stored, hwishes.2.2.2.1.trans hc.socket, ?_⟩
  intro connType h
  exact hc.has connType (hhas connType ▸ h)

theorem adds_move {first : Connection} (hmove : LoginMove platform answers lr c c')
    (hc : Adds answers lr first c) : Adds answers lr first c' := by
  cases hmove with
  | request => exact ⟨rfl, hc.socket, hc.has⟩
  | trust => exact hc.of_wishes rfl
  | note _ hnoted =>
      obtain ⟨henables, hhas⟩ := requestConnection_has hnoted
      obtain ⟨_, _, _, _, rfl⟩ := requestConnection_eq hnoted
      refine ⟨hc.stored, hc.socket, ?_⟩
      intro connType h
      rcases hhas connType h with hbefore | rfl
      · exact hc.has connType hbefore
      · exact Or.inr ⟨rfl, henables⟩
  | session _ kind sessions => exact hc.of_wishes rfl
  | token token => exact hc.of_wishes rfl
  | pass => exact hc.of_wishes rfl

/-- A login request that is not refused finds its option on. -/
theorem enables_of_keeps (hnew : c.authorized = false)
    (hkeeps : (c.handleLoginRequest platform answers lr).keeps = true) :
    answers.enables lr.union.connType = true := by
  have hmoves : LoginMoves platform answers lr c
      (c.handleLoginRequestWithoutValidation answers lr) :=
    handleLoginRequestWithoutValidation_moves platform lr
  have hnew' : ¬ (c.handleLoginRequestWithoutValidation answers lr).authorized = true := by
    rw [hmoves.authorized_eq, hnew]
    exact Bool.false_ne_true
  rw [Connection.handleLoginRequest, if_neg hnew'] at hkeeps
  split at hkeeps
  · cases hkeeps
  · rename_i hnoted
    exact (requestConnection_has hnoted).1

theorem adds_handleLoginRequest (lr : LoginRequest) :
    Adds answers lr c (c.handleLoginRequest platform answers lr).state := by
  have hfrom : (c.handleLoginRequest platform answers lr).MovesFrom platform answers lr
      (c.handleLoginRequestWithoutValidation answers lr) := handleLoginRequest_moves lr
  have hstored : Adds answers lr c { c with lr := lr } := ⟨rfl, rfl, fun _ => Or.inl⟩
  exact hfrom.moves.invariant adds_move
    (hstored.of_wishes (wishes_without_validation answers c lr))

/-- The handler of an input keeps the sources. -/
theorem sourced_dispatch (hc : Sourced platform events c) (hnew : c.authorized = false)
    (hkeeps : (c.dispatch platform event).keeps = true) :
    Sourced platform (events ++ [event]) (c.dispatch platform event).state := by
  by_cases hother : event.input.logsIn = false
  · obtain ⟨_, _, _, _, heq⟩ := dispatch_of_not_logsIn platform c hother
    have hnone : event.input.request platform = none := by
      cases hinput : event.input <;> simp_all [Input.logsIn, Input.request]
    rw [heq]
    exact hc.concat hnone rfl
  cases hinput : event.input with
  | loginRequest lr =>
      have hhandled : c.dispatch platform event =
          c.handleLoginRequest platform event.answers lr := by
        simp [Connection.dispatch, hinput]
      rw [hhandled] at hkeeps ⊢
      have henables := enables_of_keeps hnew hkeeps
      have hadds : Adds event.answers lr c
          (c.handleLoginRequest platform event.answers lr).state := adds_handleLoginRequest lr
      have hrequest : event.input.request platform = some lr := by
        simp [hinput, Input.request]
      apply hc.concat_request hrequest hadds.stored hadds.socket hadds.has
      intro hforward
      rw [hforward] at henables
      exact Or.inl henables
  | auth2fa code =>
      have hnone : event.input.request platform = none := by simp [hinput, Input.request]
      have hhandled : c.dispatch platform event = c.handleAuth2fa event.answers code := by
        simp [Connection.dispatch, hinput]
      rw [hhandled, Connection.handleAuth2fa]
      split_ifs <;> exact hc.concat hnone rfl
  | switchSidesResponse uuid lr =>
      have hhandled : c.dispatch platform event =
          c.handleSwitchSidesResponse platform event.answers uuid lr := by
        simp [Connection.dispatch, hinput]
      rw [hhandled]
      unfold Connection.handleSwitchSidesResponse
      cases lr with
      | none => exact hc.concat (by simp [hinput, Input.request]) rfl
      | some lr =>
          dsimp only
          split_ifs with hmobile huuid
          · exact hc.concat (by simp [hinput, Input.request, hmobile]) rfl
          all_goals
            have hrequest : event.input.request platform = some lr := by
              simp [hinput, Input.request, hmobile]
            have hwishes := wishes_without_validation event.answers c lr
            have hsource : Sourced platform (events ++ [event]) { c with lr := lr } := by
              refine hc.concat_request hrequest ?_ ?_ ?_ ?_
              · rfl
              · rfl
              · exact fun _ => Or.inl
              · exact fun _ => Or.inr ⟨uuid, hinput⟩
            exact hsource.of_wishes hwishes
  | authorize =>
      have hnone : event.input.request platform = none := by simp [hinput, Input.request]
      have hhandled : c.dispatch platform event = c.handleAuthorize := by
        simp [Connection.dispatch, hinput]
      rw [hhandled]
      exact hc.concat hnone rfl
  | _ => simp [hinput, Input.logsIn] at hother

/-! ## Runs -/

/-- As long as a connection waits for its authorization, its wishes have sources. -/
theorem sourced_run {start : Connection} (hstart : Sourced platform [] start)
    (events : List ConnectionEvent)
    (hopen : (connectionAfter platform start events).isOpen = true)
    (hnew : (connectionAfter platform start events).authorized = false) :
    Sourced platform events (connectionAfter platform start events) := by
  induction events using List.reverseRecOn with
  | nil => exact hstart
  | append_singleton events event ih =>
      rw [connectionAfter_concat] at hopen hnew ⊢
      have hbefore : (connectionAfter platform start events).authorized = false := by
        by_contra hauthorized
        rw [authorized_next (Bool.eq_true_of_not_eq_false hauthorized)] at hnew
        cases hnew
      obtain ⟨hopenBefore, hkeeps, _, _, _, _, heq⟩ := next_of_waiting hbefore hopen hnew
      rw [heq]
      exact (sourced_dispatch (ih hopenBefore hbefore) hbefore hkeeps).of_wishes rfl

/-- The connection that the policy finds has the wishes the handler left. -/
theorem wishes_atPolicy {p : Connection} (hp : c.atPolicy platform event = some p) :
    (c.dispatch platform event).keeps = true ∧
      p.wishes = (c.dispatch platform event).state.wishes := by
  obtain ⟨hkeeps, kind, sessions, checks, rfl⟩ := atPolicy_eq hp
  exact ⟨hkeeps, rfl⟩

/-- Where the policy lets a connection in, all it asks for is granted exactly if that
holds for what the policy did not look at. -/
theorem asksFor_granted_iff {p : Connection} (hadmits : p.admits platform answers = true) :
    (p.sessionAuthKind ≠ .unattendedPassword → ∀ connType, p.asksFor connType = true →
      p.sessionConnectionGranted connType = true) ↔ UninspectedGranted p := by
  simp only [Connection.admits, Bool.and_eq_true, Option.isNone_iff_eq_none] at hadmits
  have hpolicy := connectionPolicy_eq_none.mp hadmits.1.1
  constructor
  · intro h
    by_cases hkind : p.sessionAuthKind = .unattendedPassword
    · exact Or.inl hkind
    · exact Or.inr fun connType _ => h hkind connType
  · rintro (hkind | hothers) hattended connType hasks
    · exact absurd hkind hattended
    · by_cases hinspected : connType = p.sessionConnectionType
      · subst hinspected
        rcases hpolicy with hkind | hremote | hgranted
        · exact absurd hkind hattended
        · rw [hremote] at hasks
          cases hasks
        · exact hgranted
      · exact hothers connType hinspected hasks

/-- What an authorized connection has is what it asked for. -/
theorem has_after {p : Connection} {token isOpen : Bool} {permitted : Permission → Bool}
    {address : String} (connType : AuthConnType) :
    Connection.has { p with
      terminalUserToken := token
      permitted := permitted
      portForwardAddress := address
      portForwardSocket := p.wantedSocket
      authorized := true
      isOpen := isOpen } connType = p.asksFor connType := by
  cases connType <;> rfl

/-- A port forward is asked for by the last request where there is no socket yet. -/
theorem asksFor_portForward {p : Connection} (hsocket : p.portForwardSocket = none) :
    p.asksFor .portForward = true ↔ p.lr.union.connType = .portForward := by
  unfold Connection.asksFor Connection.wantedSocket
  rw [hsocket]
  cases hunion : p.lr.union <;> simp [LoginUnion.connType]

/-- With sources, the options were on exactly if this holds for a port forward of a
switch of sides. -/
theorem asksFor_enabled_iff {p : Connection} (hp : Sourced platform events p) :
    (∀ connType, p.asksFor connType = true → EnabledFor platform events connType) ↔
      (SwitchedTarget platform events → EnabledFor platform events .portForward) := by
  constructor
  · rintro h ⟨event, uuid, lr, hlast, hinput, htarget⟩
    have hmobile : platform.isMobile = false := by
      by_contra hmobile
      have hrequest := List.find?_some hlast
      simp [hinput, Input.request, Bool.eq_true_of_not_eq_false hmobile] at hrequest
    have hlr : p.lr = lr := by
      apply hp.stored event lr hlast
      simp [hinput, Input.request, hmobile]
    apply h
    rw [asksFor_portForward hp.noSocket, hlr]
    exact htarget
  · intro h connType hasks
    cases connType with
    | portForward =>
        rw [asksFor_portForward hp.noSocket] at hasks
        exact (hp.target hasks).elim id h
    | _ => exact hp.enabled _ hasks

theorem sourced_fresh {host2fa : Bool} {permitted : Permission → Bool}
    {sessions : SessionKey → Option Session} :
    Sourced platform [] (freshConnection host2fa permitted sessions) where
  noSocket := rfl
  enabled := by
    intro connType h
    cases connType <;> cases h
  stored := by
    intro event lr hlast
    cases hlast
  target := by
    intro h
    cases h

/-- What the policy finds has sources. -/
theorem sourced_atPolicy {start p : Connection} (hstart : Sourced platform [] start)
    (hopen : (connectionAfter platform start events).isOpen = true)
    (hnew : (connectionAfter platform start events).authorized = false)
    (hp : (connectionAfter platform start events).atPolicy platform event = some p) :
    Sourced platform (events ++ [event]) p := by
  obtain ⟨hkeeps, hwishes⟩ := wishes_atPolicy hp
  have hc := sourced_run hstart events hopen hnew
  exact (sourced_dispatch hc hnew hkeeps).of_wishes hwishes

/-- The turn that authorizes is fair exactly if what it asks for is. -/
theorem covered_and_enabled_iff {start p : Connection} (hstart : Sourced platform [] start)
    (hopen : (connectionAfter platform start events).isOpen = true)
    (hnew : (connectionAfter platform start events).authorized = false)
    (hp : (connectionAfter platform start events).atPolicy platform event = some p)
    (hadmits : p.admits platform event.answers = true) :
    (Covered ((connectionAfter platform start events).next platform event) ∧
      OptionsEnabled platform (events ++ [event])
        ((connectionAfter platform start events).next platform event)) ↔
      (UninspectedGranted p ∧ (SwitchedTarget platform (events ++ [event]) →
        EnabledFor platform (events ++ [event]) .portForward)) := by
  obtain ⟨token, permitted, address, isOpen, heq⟩ := next_of_admits hopen hnew hp hadmits
  rw [heq]
  apply and_congr
  · rw [← asksFor_granted_iff hadmits]
    unfold Covered
    simp only [has_after]
    rfl
  · rw [← asksFor_enabled_iff (sourced_atPolicy hstart hopen hnew hp)]
    unfold OptionsEnabled
    simp only [has_after]

/-- In every run, the turn that authorizes lets the connection in only for what is
granted and was enabled exactly if what the policy does not look at is granted and no
switch of sides brought a port forward while tunnelling was off. -/
theorem letInFairly_iff (platform : Platform) (host2fa : Bool) (permitted : Permission → Bool)
    (sessions : SessionKey → Option Session) (events : List ConnectionEvent) :
    Always (LetInFairly platform (freshConnection host2fa permitted sessions)) events ↔
      Always (AsksFairly platform (freshConnection host2fa permitted sessions)) events := by
  constructor
  · intro h before event after hevents hopen hnew p hp hadmits
    rw [← covered_and_enabled_iff sourced_fresh hopen hnew hp hadmits]
    apply h before event after hevents hnew
    obtain ⟨_, _, _, _, heq⟩ := next_of_admits hopen hnew hp hadmits
    rw [heq]
  · intro h before event after hevents hnew hauthorized
    obtain ⟨hopen, p, hp, hadmits⟩ := exists_atPolicy hnew hauthorized
    rw [covered_and_enabled_iff sourced_fresh hopen hnew hp hadmits]
    exact h before event after hevents hopen hnew p hp hadmits

/-! ## Two different requests -/

/-- A session with a grant for file transfer only. -/
def fileTransferSession : SessionKey → Option Session := fun key =>
  if key = ⟨"peer", "", 0⟩ then some { grants := { connectionTypes := {"file_transfer"} } }
  else none

/-- A file transfer is asked for without a password, then a port forward with the
one-time password. -/
def differingRequests : List ConnectionEvent :=
  [⟨.loginRequest { myId := "peer", union := .fileTransfer "" false }, {}⟩,
    ⟨.loginRequest { myId := "peer", password := [1], union := .portForward ⟨"db", 5432⟩ },
      { temporaryPassword := some "123456", hashMatches := fun _ password => password = "123456" }⟩]

/-- The policy looks at the file transfer, and the socket of the port forward opens
without a grant. -/
theorem not_letInFairly_differingRequests :
    ¬ ∀ (platform : Platform) (host2fa : Bool) (permitted : Permission → Bool)
        (sessions : SessionKey → Option Session) (events : List ConnectionEvent),
      Always (LetInFairly platform (freshConnection host2fa permitted sessions)) events := by
  intro h
  have hfair := h .linux false (fun _ => true) fileTransferSession differingRequests
    [differingRequests[0]] differingRequests[1] [] rfl
  obtain ⟨hcovered, _⟩ := hfair (by decide) (by decide)
  have hgranted := hcovered (by decide) .portForward (by decide)
  revert hgranted
  decide

end RustAdmin.Server
