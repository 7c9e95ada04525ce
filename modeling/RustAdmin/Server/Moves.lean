import RustAdmin.Server.Login
import Mathlib.Logic.Relation

/-!
# What the handlers do to a connection

The handling of a login request, said once as a chain of moves: the request is
stored, its device is trusted, its wish is noted, the session and its kind are
looked up, a terminal is prepared, a password passes.  Nothing else happens before
`send_logon_response_and_keep_alive`, whose own part comes second.

A handler gets one lemma: it leads along `LoginMoves`, and goes on to the logon only
with a password that passed (`Handled.MovesFrom`).  What every single move keeps is
then kept by the whole handling of a request (`LoginMoves.invariant`).  The turn that
authorizes is taken apart in the same way: `exists_atPolicy` gives the connection that
the policy finds in it, and `next_of_admits` what becomes of it.
-/

namespace RustAdmin.Server

open Relation

variable {platform : Platform} {answers : Answers} {lr : LoginRequest} {c c' : Connection}

/-! ## What stands in the way of an authorization -/

namespace Connection

/-- A terminal's login is ready or succeeds. -/
def terminalAdmits (platform : Platform) (answers : Answers) (c : Connection) : Bool :=
  platform.isMobile || !c.terminal || c.terminalUserToken || answers.terminalLoginSucceeds

/-- The socket that the last request asks for, where there is none. -/
def wantedSocket (c : Connection) : Option String :=
  match c.portForwardSocket, c.lr.union with
  | none, .portForward pf => some (normalizePortForwardTarget pf)
  | socket, _ => socket

/-- A port forward connects, where one is asked for. -/
def portForwardAdmits (answers : Answers) (c : Connection) : Bool :=
  match c.portForwardSocket, c.lr.union with
  | none, .portForward _ => answers.portForwardConnects
  | _, _ => true

/-- The policy, the terminal's login and the port forward let the connection in. -/
def admits (platform : Platform) (answers : Answers) (c : Connection) : Bool :=
  c.sessionConnectionPolicyDenialReason.isNone && c.terminalAdmits platform answers &&
    c.portForwardAdmits answers

end Connection

/-! ## The parts of a login -/

theorem isRecentSession_eq (answers : Answers) (c : Connection) (tfa : Bool) :
    ∃ kind sessions, (c.isRecentSession answers tfa).1 =
      { c with sessionAuthKind := kind, sessions := sessions } := by
  unfold Connection.isRecentSession
  dsimp only
  split
  · split <;> exact ⟨_, _, rfl⟩
  · exact ⟨_, _, rfl⟩

theorem validatePassword_eq (answers : Answers) (c : Connection) (allow : Bool) :
    ∃ kind sessions, (c.validatePassword answers allow).1 =
      { c with sessionAuthKind := kind, sessions := sessions } := by
  unfold Connection.validatePassword
  split
  · exact ⟨_, _, rfl⟩
  · split <;> exact ⟨_, _, rfl⟩

theorem prepareTerminalLogin_eq (platform : Platform) (answers : Answers) (c : Connection) :
    ∃ token, c.prepareTerminalLoginForAuthorization platform answers =
      ({ c with terminalUserToken := token },
        if c.terminalAdmits platform answers then none else some false) := by
  unfold Connection.prepareTerminalLoginForAuthorization Connection.terminalAdmits
  cases hready : platform.isMobile || !c.terminal || c.terminalUserToken with
  | true => exact ⟨c.terminalUserToken, rfl⟩
  | false =>
      cases answers.terminalLoginSucceeds with
      | true => exact ⟨true, rfl⟩
      | false => exact ⟨c.terminalUserToken, rfl⟩

theorem connectPortForward_eq (answers : Answers) (c : Connection) :
    ∃ address, c.connectPortForwardIfNeeded answers =
      ({ c with
          portForwardAddress := address
          portForwardSocket :=
            if c.portForwardAdmits answers then c.wantedSocket else c.portForwardSocket },
        c.portForwardAdmits answers) := by
  unfold Connection.connectPortForwardIfNeeded Connection.portForwardAdmits
    Connection.wantedSocket
  have hkeep : ∀ socket, c.portForwardSocket = socket →
      (c, true) = ({ c with
        portForwardAddress := c.portForwardAddress
        portForwardSocket := socket }, true) := by
    rintro _ rfl
    rfl
  cases hsocket : c.portForwardSocket with
  | some socket => exact ⟨_, hkeep _ hsocket⟩
  | none =>
      cases hunion : c.lr.union with
      | portForward pf =>
          dsimp only
          split_ifs with hconnects
          · exact ⟨normalizePortForwardTarget pf, by rw [hconnects]⟩
          · exact ⟨normalizePortForwardTarget pf, by simp [hconnects, ← hsocket]⟩
      | _ => exact ⟨_, hkeep _ hsocket⟩

theorem sendLoginResponse_eq (c : Connection) :
    ∃ permitted, c.sendLoginResponse = { c with permitted := permitted } ∧
      ∀ permission, permitted permission = true → c.permitted permission = true := by
  unfold Connection.sendLoginResponse
  split_ifs
  · refine ⟨_, rfl, ?_⟩
    intro permission hpermitted
    by_cases hkeyboard : permission = .keyboard
    · subst hkeyboard
      simp at hpermitted
    · rwa [Function.update_of_ne hkeyboard] at hpermitted
  · exact ⟨_, rfl, fun _ => id⟩

theorem applySessionPermissionDefaults_eq (c : Connection) :
    ∃ permitted, c.applySessionPermissionDefaults = { c with permitted := permitted } ∧
      ∀ permission, permitted permission = true → c.permitted permission = true := by
  refine ⟨_, rfl, ?_⟩
  intro permission
  simp only [sessionDefaultPermission, lowPermissionDefault_name]
  split_ifs
  · exact id
  · intro hdefault
    exact (Bool.and_eq_true_iff.mp hdefault).2

/-- The second factor changes only what is known about the session, and passes where
none is required, where a recent session had it and after a switch of sides. -/
theorem checkTwoFactor_eq (answers : Answers) (c : Connection) :
    ∃ kind sessions checks, (c.checkTwoFactor answers).1 =
        { c with sessionAuthKind := kind, sessions := sessions, checks := checks } ∧
      c.checks ⊆ checks ∧
      ((c.checkTwoFactor answers).2 = true → c.require2fa = true →
        .recentConfirmed ∈ checks ∨ c.fromSwitch = true) := by
  unfold Connection.checkTwoFactor
  split_ifs with hrequired
  · obtain ⟨kind, sessions, heq⟩ := isRecentSession_eq answers c true
    cases hrecent : c.isRecentSession answers true with
    | mk recent found =>
        obtain rfl : recent = { c with sessionAuthKind := kind, sessions := sessions } := by
          rw [← heq, hrecent]
        cases found with
        | true =>
            refine ⟨kind, sessions, c.checks ++ [.recentConfirmed], rfl,
              List.subset_append_left _ _, fun _ _ => Or.inl ?_⟩
            exact List.mem_append_right _ (List.mem_singleton_self _)
        | false => exact ⟨kind, sessions, c.checks, rfl, List.Subset.refl _, fun h _ => Or.inr h⟩
  · exact ⟨c.sessionAuthKind, c.sessions, c.checks, rfl, List.Subset.refl _,
      fun _ h => absurd h hrequired⟩

theorem checkTwoFactor_of_not_required (answers : Answers) (hrequired : c.require2fa = false) :
    c.checkTwoFactor answers = (c, true) := by
  rw [Connection.checkTwoFactor, if_neg (by simp [hrequired])]

/-- The logon after the second factor: the connection is authorized with the socket
of its last request, or not kept alive.  No permission is switched on. -/
theorem authorize_eq (platform : Platform) (answers : Answers) (c : Connection) :
    ∃ token permitted address, c.authorize platform answers =
      (if c.admits platform answers then
        { c with
          terminalUserToken := token
          permitted := permitted
          portForwardAddress := address
          portForwardSocket := c.wantedSocket
          authorized := true }
      else
        { c with
          terminalUserToken := token
          permitted := permitted
          portForwardAddress := address },
      c.admits platform answers) ∧
      ∀ permission, permitted permission = true → c.permitted permission = true := by
  obtain ⟨token, hprepare⟩ := prepareTerminalLogin_eq platform answers c
  unfold Connection.authorize Connection.admits
  cases hpolicy : c.sessionConnectionPolicyDenialReason with
  | some reason => exact ⟨c.terminalUserToken, c.permitted, c.portForwardAddress, by simp⟩
  | none =>
      rw [if_neg (by simp), hprepare]
      cases hterminal : c.terminalAdmits platform answers with
      | false => exact ⟨token, c.permitted, c.portForwardAddress, by simp⟩
      | true =>
          obtain ⟨permitted, hdefaults, hpermitted⟩ :=
            applySessionPermissionDefaults_eq { c with terminalUserToken := token }
          obtain ⟨address, hconnect⟩ := connectPortForward_eq answers
            { c with terminalUserToken := token, permitted := permitted }
          simp only [if_pos, hdefaults, hconnect]
          cases hforward : c.portForwardAdmits answers with
          | false =>
              have hforward' : Connection.portForwardAdmits answers
                  { c with terminalUserToken := token, permitted := permitted } = false := hforward
              refine ⟨token, permitted, address, ?_, hpermitted⟩
              simp [hforward']
          | true =>
              have hforward' : Connection.portForwardAdmits answers
                  { c with terminalUserToken := token, permitted := permitted } = true := hforward
              obtain ⟨last, hresponse, hlast⟩ := sendLoginResponse_eq
                { c with
                  terminalUserToken := token
                  permitted := permitted
                  portForwardAddress := address
                  portForwardSocket := c.wantedSocket
                  authorized := true }
              refine ⟨token, last, address, ?_, fun permission h => hpermitted _ (hlast _ h)⟩
              simp only [hforward', if_true]
              exact congrArg (·, true) hresponse

/-! ## The handling of a login request -/

/-- One move of the handling of a login request. -/
inductive LoginMove (platform : Platform) (answers : Answers) (lr : LoginRequest) :
    Connection → Connection → Prop
  | request (c : Connection) : LoginMove platform answers lr c { c with lr := lr }
  | trust (c : Connection) :
      LoginMove platform answers lr c ({ c with require2fa := false }.passed .deviceTrusted)
  | note {c c' : Connection} (hnew : c.authorized = false)
      (hnoted : c.requestConnection platform answers lr = some c') :
      LoginMove platform answers lr c c'
  | session {c : Connection} (hnew : c.authorized = false) (kind : SessionAuthKind)
      (sessions : SessionKey → Option Session) :
      LoginMove platform answers lr c { c with sessionAuthKind := kind, sessions := sessions }
  | token (c : Connection) (token : Bool) :
      LoginMove platform answers lr c { c with terminalUserToken := token }
  | pass (c : Connection) : LoginMove platform answers lr c (c.passed .loginPassed)

/-- A chain of moves. -/
def LoginMoves (platform : Platform) (answers : Answers) (lr : LoginRequest) :
    Connection → Connection → Prop :=
  ReflTransGen (LoginMove platform answers lr)

/-- What every move keeps, every chain of moves keeps. -/
theorem LoginMoves.invariant {Inv : Connection → Prop}
    (hmoves : LoginMoves platform answers lr c c')
    (hmove : ∀ {c c'}, LoginMove platform answers lr c c' → Inv c → Inv c') (hc : Inv c) :
    Inv c' := by
  induction hmoves with
  | refl => exact hc
  | tail _ hlast ih => exact hmove hlast ih

theorem requestConnection_eq
    (hnoted : c.requestConnection platform answers lr = some c') :
    ∃ fileTransfer viewCamera terminal address, c' =
      { c with
        fileTransfer := fileTransfer
        viewCamera := viewCamera
        terminal := terminal
        portForwardAddress := address } := by
  unfold Connection.requestConnection at hnoted
  split at hnoted <;> split_ifs at hnoted <;> cases hnoted <;> exact ⟨_, _, _, _, rfl⟩

theorem LoginMove.authorized_eq (hmove : LoginMove platform answers lr c c') :
    c'.authorized = c.authorized := by
  cases hmove with
  | note _ hnoted =>
      obtain ⟨_, _, _, _, rfl⟩ := requestConnection_eq hnoted
      rfl
  | _ => rfl

theorem LoginMoves.authorized_eq (hmoves : LoginMoves platform answers lr c c') :
    c'.authorized = c.authorized := by
  induction hmoves with
  | refl => rfl
  | tail _ hlast ih => exact hlast.authorized_eq.trans ih

def Handled.state : Handled → Connection
  | .done c _ => c
  | .logon c => c

/-- The connection is not closed by the handler. -/
def Handled.keeps : Handled → Bool
  | .done _ keepAlive => keepAlive
  | .logon _ => true

/-- A handler moves the connection, and goes on to the logon only with a password
that passed. -/
structure Handled.MovesFrom (platform : Platform) (answers : Answers)
    (lr : LoginRequest) (c : Connection) (handled : Handled) : Prop where
  moves : LoginMoves platform answers lr c handled.state
  passed : ∀ c', handled = .logon c' → .loginPassed ∈ c'.checks ∧ c'.authorized = false

namespace Handled.MovesFrom

theorem done (hmoves : LoginMoves platform answers lr c c') (keepAlive : Bool) :
    (Handled.done c' keepAlive).MovesFrom platform answers lr c where
  moves := hmoves
  passed := by
    intro c' h
    cases h

theorem after {middle : Connection} {handled : Handled}
    (hmoves : LoginMoves platform answers lr c middle)
    (hhandled : handled.MovesFrom platform answers lr middle) :
    handled.MovesFrom platform answers lr c where
  moves := ReflTransGen.trans hmoves hhandled.moves
  passed := hhandled.passed

end Handled.MovesFrom

theorem handleLoginRequestWithoutValidation_moves (platform : Platform) (lr : LoginRequest) :
    LoginMoves platform answers lr c (c.handleLoginRequestWithoutValidation answers lr) := by
  unfold Connection.handleLoginRequestWithoutValidation
  dsimp only
  split_ifs
  · exact .tail (.single (.request c)) (.trust _)
  · exact .single (.request c)

theorem isRecentSession_moves (hnew : c.authorized = false) (tfa : Bool) :
    LoginMoves platform answers lr c (c.isRecentSession answers tfa).1 := by
  obtain ⟨kind, sessions, heq⟩ := isRecentSession_eq answers c tfa
  rw [heq]
  exact .single (.session hnew kind sessions)

theorem validatePassword_moves (hnew : c.authorized = false) (allow : Bool) :
    LoginMoves platform answers lr c (c.validatePassword answers allow).1 := by
  obtain ⟨kind, sessions, heq⟩ := validatePassword_eq answers c allow
  rw [heq]
  exact .single (.session hnew kind sessions)

theorem awaitApproval_moves :
    (c.awaitApproval platform answers).MovesFrom platform answers lr c := by
  obtain ⟨token, hprepare⟩ := prepareTerminalLogin_eq platform answers c
  unfold Connection.awaitApproval
  split_ifs
  · rw [hprepare]
    cases c.terminalAdmits platform answers with
    | true => exact .done (.single (.token c token)) _
    | false => exact .done (.single (.token c token)) _
  · exact .done .refl _

theorem loginPassed_moves (hnew : c.authorized = false) (errMsg : String) :
    (c.loginPassed errMsg).MovesFrom platform answers lr c := by
  have hmoves : LoginMoves platform answers lr c (c.passed .loginPassed) := .single (.pass c)
  unfold Connection.loginPassed
  dsimp only
  split_ifs
  · refine ⟨hmoves, ?_⟩
    rintro _ ⟨⟩
    exact ⟨List.mem_append_right _ (List.mem_singleton_self _), hnew⟩
  · exact .done hmoves _

theorem checkPassword_moves (hnew : c.authorized = false) (errMsg : String) :
    (c.checkPassword platform answers errMsg).MovesFrom platform answers lr c := by
  unfold Connection.checkPassword
  split
  · exact awaitApproval_moves
  have hrecent : LoginMoves platform answers lr c (c.isRecentSession answers false).1 :=
    isRecentSession_moves hnew false
  cases hresult : c.isRecentSession answers false with
  | mk recent found =>
      rw [hresult] at hrecent
      have hnewRecent : recent.authorized = false := hrecent.authorized_eq.trans hnew
      cases found with
      | true => exact .after hrecent (loginPassed_moves hnewRecent errMsg)
      | false =>
          dsimp only
          split
          · split
            · exact .after hrecent awaitApproval_moves
            · exact .done hrecent _
          split
          · exact .done hrecent _
          · have hvalid : LoginMoves platform answers lr recent
                (recent.validatePassword answers answers.allowLogonScreenPassword).1 :=
              validatePassword_moves hnewRecent _
            cases hvalidate : recent.validatePassword answers
                answers.allowLogonScreenPassword with
            | mk valid accepted =>
                rw [hvalidate] at hvalid
                have hnewValid : valid.authorized = false :=
                  hvalid.authorized_eq.trans hnewRecent
                cases accepted with
                | true =>
                    exact .after (hrecent.trans hvalid) (loginPassed_moves hnewValid errMsg)
                | false => exact .done (hrecent.trans hvalid) _

theorem checkLogin_moves (hnew : c.authorized = false) :
    (c.checkLogin platform answers).MovesFrom platform answers lr c := by
  unfold Connection.checkLogin
  dsimp only
  split_ifs
  · exact .done .refl _
  · exact .done .refl _
  · exact .done .refl _
  · exact .done .refl _
  · exact checkPassword_moves hnew _
  · exact .done .refl _
  · exact checkPassword_moves hnew _

/-- The rest of the handling starts where the request is stored. -/
theorem handleLoginRequest_moves (lr : LoginRequest) :
    (c.handleLoginRequest platform answers lr).MovesFrom platform answers lr
      (c.handleLoginRequestWithoutValidation answers lr) := by
  unfold Connection.handleLoginRequest
  dsimp only
  split_ifs with hauthorized
  · exact .done .refl _
  have hnew := Bool.eq_false_iff.mpr hauthorized
  cases hnoted : (c.handleLoginRequestWithoutValidation answers lr).requestConnection platform
      answers lr with
  | none => exact .done .refl _
  | some noted =>
      have hmove : LoginMove platform answers lr _ noted := .note hnew hnoted
      have hnewNoted : noted.authorized = false := hmove.authorized_eq.trans hnew
      exact .after (.single hmove) (checkLogin_moves hnewNoted)

/-! ## The other inputs -/

/-- The inputs that do not log in change only permissions, their requests and the
sessions. -/
theorem dispatch_of_not_logsIn (platform : Platform) (c : Connection) {event : ConnectionEvent}
    (hother : event.input.logsIn = false) :
    ∃ permitted sessions pending keepAlive, c.dispatch platform event =
      .done { c with
        permitted := permitted
        sessions := sessions
        pendingPermissionRequests := pending } keepAlive := by
  unfold Connection.dispatch
  cases hinput : event.input with
  | closeReason => exact ⟨_, _, _, _, rfl⟩
  | close => exact ⟨_, _, _, _, rfl⟩
  | loginRequest | auth2fa | switchSidesResponse | authorize =>
      rw [hinput] at hother
      cases hother
  | sessionPermissionRequest requestId name enabled =>
      obtain ⟨permitted, sessions, pending, heq⟩ :=
        handleSessionPermissionRequest_eq event.answers c requestId name enabled
      dsimp only
      split_ifs
      · exact ⟨permitted, sessions, pending, true, congrArg (Handled.done · true) heq⟩
      · exact ⟨_, _, _, _, rfl⟩
  | switchPermission name enabled =>
      obtain ⟨permitted, heq⟩ := handleSwitchPermission_eq c name enabled
      exact ⟨permitted, _, _, true, congrArg (Handled.done · true) heq⟩
  | permissionRequestResult requestId name enabled approved =>
      obtain ⟨permitted, sessions, pending, heq⟩ :=
        handlePermissionRequestResult_eq event.answers c requestId approved
      exact ⟨permitted, sessions, pending, true, congrArg (Handled.done · true) heq⟩
  | sessionsChanged sessions => exact ⟨_, _, _, _, rfl⟩

/-! ## The turn that authorizes -/

theorem authorized_dispatch (platform : Platform) (c : Connection) (event : ConnectionEvent) :
    (c.dispatch platform event).state.authorized = c.authorized := by
  by_cases hother : event.input.logsIn = false
  · obtain ⟨_, _, _, _, heq⟩ := dispatch_of_not_logsIn platform c hother
    rw [heq]
    rfl
  have hstored : ∀ lr,
      (c.handleLoginRequestWithoutValidation event.answers lr).authorized = c.authorized := by
    intro lr
    have hmoves : LoginMoves platform event.answers lr c
        (c.handleLoginRequestWithoutValidation event.answers lr) :=
      handleLoginRequestWithoutValidation_moves platform lr
    exact hmoves.authorized_eq
  unfold Connection.dispatch
  cases hinput : event.input with
  | loginRequest lr =>
      have hfrom : (c.handleLoginRequest platform event.answers lr).MovesFrom platform
          event.answers lr (c.handleLoginRequestWithoutValidation event.answers lr) :=
        handleLoginRequest_moves lr
      exact hfrom.moves.authorized_eq.trans (hstored lr)
  | auth2fa code =>
      dsimp only
      unfold Connection.handleAuth2fa
      split_ifs <;> rfl
  | switchSidesResponse uuid lr =>
      dsimp only
      unfold Connection.handleSwitchSidesResponse
      cases lr with
      | none => rfl
      | some lr =>
          dsimp only
          split_ifs
          · rfl
          · exact hstored lr
          · exact hstored lr
  | authorize => rfl
  | _ => simp [hinput, Input.logsIn] at hother

/-- On an authorized connection the handler is all that happens. -/
theorem next_of_authorized (platform : Platform) (event : ConnectionEvent)
    (hopen : c.isOpen = true) (hauthorized : c.authorized = true) :
    ∃ isOpen, c.next platform event =
      { (c.dispatch platform event).state with isOpen := isOpen } := by
  have hstate := authorized_dispatch platform c event
  rw [Connection.next, if_pos hopen]
  cases hhandled : c.dispatch platform event with
  | done c' keepAlive => exact ⟨_, rfl⟩
  | logon c' =>
      rw [hhandled] at hstate
      have hauthorized' : c'.authorized = true := hstate.trans hauthorized
      rw [Handled.finish, Connection.sendLogonResponseAndKeepAlive, if_pos hauthorized']
      exact ⟨_, rfl⟩

/-- An authorized connection stays authorized. -/
theorem authorized_next {event : ConnectionEvent} (hauthorized : c.authorized = true) :
    (c.next platform event).authorized = true := by
  by_cases hopen : c.isOpen = true
  · obtain ⟨_, heq⟩ := next_of_authorized platform event hopen hauthorized
    rw [heq]
    exact (authorized_dispatch platform c event).trans hauthorized
  · rw [Connection.next, if_neg hopen]
    exact hauthorized

/-- The connection as the policy finds it: after the handler of the input and the
second factor. -/
def Connection.atPolicy (platform : Platform) (c : Connection) (event : ConnectionEvent) :
    Option Connection :=
  match c.dispatch platform event with
  | .done _ _ => none
  | .logon c' =>
      match c'.checkTwoFactor event.answers with
      | (c', true) => some c'
      | (_, false) => none

/-- Up to the policy only the second factor is looked at. -/
theorem atPolicy_eq {event : ConnectionEvent} {p : Connection}
    (hp : c.atPolicy platform event = some p) :
    (c.dispatch platform event).keeps = true ∧
      ∃ kind sessions checks, p = { (c.dispatch platform event).state with
        sessionAuthKind := kind
        sessions := sessions
        checks := checks } := by
  unfold Connection.atPolicy at hp
  cases hhandled : c.dispatch platform event with
  | done c' keepAlive =>
      rw [hhandled] at hp
      cases hp
  | logon c' =>
      rw [hhandled] at hp
      obtain ⟨kind, sessions, checks, hchecked, -⟩ := checkTwoFactor_eq event.answers c'
      cases hresult : c'.checkTwoFactor event.answers with
      | mk q accepted =>
          dsimp only at hp
          rw [hresult] at hp hchecked
          cases accepted with
          | false => cases hp
          | true =>
              obtain rfl : q = p := Option.some.inj hp
              exact ⟨rfl, kind, sessions, checks, hchecked⟩

theorem authorized_atPolicy {event : ConnectionEvent} {p : Connection}
    (hp : c.atPolicy platform event = some p) : p.authorized = c.authorized := by
  obtain ⟨-, kind, sessions, checks, rfl⟩ := atPolicy_eq hp
  exact authorized_dispatch platform c event

/-- A turn of a waiting connection that the policy does not see. -/
theorem next_of_atPolicy_none {event : ConnectionEvent} (hopen : c.isOpen = true)
    (hnew : c.authorized = false) (hp : c.atPolicy platform event = none) :
    ∃ kind sessions checks isOpen,
      c.next platform event = { (c.dispatch platform event).state with
        sessionAuthKind := kind
        sessions := sessions
        checks := checks
        isOpen := isOpen } ∧
      (isOpen = true → (c.dispatch platform event).keeps = true) := by
  have hstate := authorized_dispatch platform c event
  unfold Connection.atPolicy at hp
  rw [Connection.next, if_pos hopen]
  cases hhandled : c.dispatch platform event with
  | done c' keepAlive =>
      refine ⟨c'.sessionAuthKind, c'.sessions, c'.checks, _, rfl, ?_⟩
      exact fun hkept => (Bool.and_eq_true_iff.mp hkept).1
  | logon c' =>
      rw [hhandled] at hp hstate
      have hwaits : ¬ c'.authorized = true := by
        rw [show c'.authorized = c.authorized from hstate, hnew]
        exact Bool.false_ne_true
      obtain ⟨kind, sessions, checks, hchecked, -⟩ := checkTwoFactor_eq event.answers c'
      rw [Handled.finish, Connection.sendLogonResponseAndKeepAlive, if_neg hwaits]
      cases hresult : c'.checkTwoFactor event.answers with
      | mk q accepted =>
          dsimp only at hp
          rw [hresult] at hp hchecked
          cases accepted with
          | true => cases hp
          | false =>
              dsimp only at hchecked ⊢
              rw [hchecked]
              exact ⟨kind, sessions, checks, _, rfl, fun _ => rfl⟩

/-- A turn of a waiting connection that the policy sees: it is authorized, or closed. -/
theorem next_of_atPolicy {event : ConnectionEvent} {p : Connection} (hopen : c.isOpen = true)
    (hnew : c.authorized = false) (hp : c.atPolicy platform event = some p) :
    ∃ token permitted address isOpen, c.next platform event =
      if p.admits platform event.answers then
        { p with
          terminalUserToken := token
          permitted := permitted
          portForwardAddress := address
          portForwardSocket := p.wantedSocket
          authorized := true
          isOpen := isOpen }
      else
        { p with
          terminalUserToken := token
          permitted := permitted
          portForwardAddress := address
          isOpen := false } := by
  have hstate := authorized_dispatch platform c event
  unfold Connection.atPolicy at hp
  rw [Connection.next, if_pos hopen]
  cases hhandled : c.dispatch platform event with
  | done c' keepAlive =>
      rw [hhandled] at hp
      cases hp
  | logon c' =>
      rw [hhandled] at hp hstate
      have hwaits : ¬ c'.authorized = true := by
        rw [show c'.authorized = c.authorized from hstate, hnew]
        exact Bool.false_ne_true
      obtain ⟨token, permitted, address, heq, -⟩ := authorize_eq platform event.answers p
      rw [Handled.finish, Connection.sendLogonResponseAndKeepAlive, if_neg hwaits]
      cases hresult : c'.checkTwoFactor event.answers with
      | mk q accepted =>
          dsimp only at hp
          rw [hresult] at hp
          cases accepted with
          | false => cases hp
          | true =>
              obtain rfl : q = p := Option.some.inj hp
              dsimp only
              rw [heq]
              cases q.admits platform event.answers with
              | true => exact ⟨token, permitted, address, _, rfl⟩
              | false => exact ⟨token, permitted, address, true, rfl⟩

/-- A turn that authorizes leads through the policy. -/
theorem exists_atPolicy {event : ConnectionEvent} (hnew : c.authorized = false)
    (hauthorized : (c.next platform event).authorized = true) :
    c.isOpen = true ∧ ∃ p, c.atPolicy platform event = some p ∧
      p.admits platform event.answers = true := by
  by_cases hopen : c.isOpen = true
  · refine ⟨hopen, ?_⟩
    cases hp : c.atPolicy platform event with
    | none =>
        obtain ⟨_, _, _, _, heq, -⟩ := next_of_atPolicy_none hopen hnew hp
        have hstate := authorized_dispatch platform c event
        rw [heq] at hauthorized
        rw [show (c.dispatch platform event).state.authorized = true from hauthorized,
          hnew] at hstate
        cases hstate
    | some p =>
        refine ⟨p, rfl, ?_⟩
        by_contra hadmits
        obtain ⟨_, _, _, _, heq⟩ := next_of_atPolicy hopen hnew hp
        have hstate := authorized_atPolicy hp
        rw [heq, if_neg hadmits] at hauthorized
        rw [show p.authorized = true from hauthorized, hnew] at hstate
        cases hstate
  · rw [Connection.next, if_neg hopen, hnew] at hauthorized
    cases hauthorized

/-- A connection that stays open without being authorized was kept by the handler and
only the second factor was looked at. -/
theorem next_of_waiting {event : ConnectionEvent} (hnew : c.authorized = false)
    (hopen : (c.next platform event).isOpen = true)
    (hwaiting : (c.next platform event).authorized = false) :
    c.isOpen = true ∧ (c.dispatch platform event).keeps = true ∧
      ∃ kind sessions checks isOpen, c.next platform event =
        { (c.dispatch platform event).state with
          sessionAuthKind := kind
          sessions := sessions
          checks := checks
          isOpen := isOpen } := by
  have hbefore : c.isOpen = true := by
    by_contra hclosed
    rw [Connection.next, if_neg hclosed] at hopen
    exact hclosed hopen
  refine ⟨hbefore, ?_⟩
  cases hp : c.atPolicy platform event with
  | none =>
      obtain ⟨kind, sessions, checks, isOpen, heq, hkeeps⟩ :=
        next_of_atPolicy_none hbefore hnew hp
      rw [heq] at hopen ⊢
      exact ⟨hkeeps hopen, kind, sessions, checks, isOpen, rfl⟩
  | some p =>
      obtain ⟨_, _, _, _, heq⟩ := next_of_atPolicy hbefore hnew hp
      rw [heq] at hopen hwaiting
      split_ifs at hopen hwaiting

/-- The connection after the turn that authorizes it. -/
theorem next_of_admits {event : ConnectionEvent} {p : Connection} (hopen : c.isOpen = true)
    (hnew : c.authorized = false) (hp : c.atPolicy platform event = some p)
    (hadmits : p.admits platform event.answers = true) :
    ∃ token permitted address isOpen, c.next platform event =
      { p with
        terminalUserToken := token
        permitted := permitted
        portForwardAddress := address
        portForwardSocket := p.wantedSocket
        authorized := true
        isOpen := isOpen } := by
  obtain ⟨token, permitted, address, isOpen, heq⟩ := next_of_atPolicy hopen hnew hp
  rw [if_pos hadmits] at heq
  exact ⟨token, permitted, address, isOpen, heq⟩

end RustAdmin.Server
