import RustAdmin.Server.Permissions

/-!
# Logging in

Five handlers lead to `send_logon_response_and_keep_alive`: a login request, a code
of the second factor, a switch of sides and the click of the local user; the
messages may come in any order and any number of times until the connection is
authorized or closed.
-/

namespace RustAdmin.Server

open RustAdmin.Support

/-- `LOGIN_MSG_DESKTOP_SESSION_NOT_READY` -/
def loginMsgDesktopSessionNotReady : String := "Desktop session not ready"

/-- What a handler leads to: the connection with whether it is kept alive, or the
call of `send_logon_response_and_keep_alive`. -/
inductive Handled
  | done (c : Connection) (keepAlive : Bool)
  | logon (c : Connection)

def Handled.finish (platform : Platform) (answers : Answers) : Handled → Connection × Bool
  | .done c keepAlive => (c, keepAlive)
  | .logon c => c.sendLogonResponseAndKeepAlive platform answers

/-- The device of a login request is trusted. -/
def Answers.trusts (answers : Answers) (lr : LoginRequest) : Bool :=
  lr.hwid ≠ [] && answers.enableTrustedDevices &&
    (answers.trustedDevices.find? fun device => device.hwid = lr.hwid).any fun device =>
      !device.outdated && device.id = lr.myId && device.name = lr.myName &&
        device.platform = lr.myPlatform

namespace Connection

variable (platform : Platform) (answers : Answers) (c : Connection)

/-- `handle_login_request_without_validation` -/
def handleLoginRequestWithoutValidation (lr : LoginRequest) : Connection :=
  let c := { c with lr := lr }
  if c.require2fa && answers.trusts lr then { c with require2fa := false }.passed .deviceTrusted
  else c

/-- What the request asks for is noted where its option is on; otherwise the
connection is closed. -/
def requestConnection (lr : LoginRequest) : Option Connection :=
  match lr.union with
  | .fileTransfer dir showHidden =>
      if answers.permission .enableFileTransfer then
        some { c with fileTransfer := some (dir, showHidden) }
      else none
  | .viewCamera =>
      if answers.permission .enableCamera then some { c with viewCamera := true } else none
  | .terminal =>
      if answers.permission .enableTerminal &&
          !(platform = .windows && lr.osUsername ≠ "" && !answers.isInstalled) then
        some { c with terminal := true }
      else none
  | .portForward pf =>
      if answers.permission .enableTunnel then
        some { c with portForwardAddress := normalizePortForwardTarget pf }
      else none
  | .remote => if answers.inPrivacyMode then none else some c

/-- The peer waits for the local user; a terminal with its own login tries it now. -/
def awaitApproval : Handled :=
  if shouldUseTerminalOsLoginScope platform c.terminal c.lr.osUsername then
    match c.prepareTerminalLoginForAuthorization platform answers with
    | (c, some keepAlive) => .done c keepAlive
    | (c, none) => .done c true
  else .done c true

/-- `should_check_linux_headless_os_auth_before_desktop_start` -/
def shouldCheckHeadless : Bool :=
  platform = .linux && answers.isHeadlessAllowed && !blank c.lr.osUsername &&
    answers.desktopUsername = ""

/-- The password passed: the connection is let on unless the desktop has to start
first. -/
def loginPassed (errMsg : String) : Handled :=
  let c := c.passed .loginPassed
  if errMsg = "" then .logon c else .done c true

/-- A login request from the choice of its password check on. -/
def checkPassword (errMsg : String) : Handled :=
  if (answers.approveMode = .click ∧ answers.allowLogonScreenPassword = false) ∨
      (answers.approveMode = .both ∧ answers.hasValidPassword = false) then
    c.awaitApproval platform answers
  else
    match c.isRecentSession answers false with
    | (c, true) => c.loginPassed errMsg
    | (c, false) =>
        if c.lr.password = [] then
          if errMsg = "" then c.awaitApproval platform answers else .done c true
        else if answers.passwordAttemptAllowed = false then .done c true
        else
          match c.validatePassword answers answers.allowLogonScreenPassword with
          | (c, true) => c.loginPassed errMsg
          | (c, false) => .done c true

/-- A login request whose wish is noted, up to the password. -/
def checkLogin : Handled :=
  if answers.isAddress c.lr.username = false ∧ c.lr.username ≠ answers.ownId then .done c false
  else if platform = .windows && c.terminal && blank c.lr.osUsername && answers.isPrelogin then
    .done c false
  else if c.shouldCheckHeadless platform answers && !answers.headlessLoginAllowed then
    .done c true
  else
    let errMsg := if platform = .linux then answers.desktopError else ""
    if errMsg ≠ "" ∧ errMsg ≠ loginMsgDesktopSessionNotReady then .done c true
    else c.checkPassword platform answers errMsg

def handleLoginRequest (lr : LoginRequest) : Handled :=
  let c := c.handleLoginRequestWithoutValidation answers lr
  if c.authorized then .done c true
  else
    match c.requestConnection platform answers lr with
    | none => .done c false
    | some c => c.checkLogin platform answers

/-- The connection with an accepted code. -/
def acceptCode : Connection :=
  { c with require2fa := false }.setSession2fa.passed .totpAccepted

/-- A code of the second factor counts while one is required, whatever came before. -/
def handleAuth2fa (code : String) : Handled :=
  if answers.totpAttemptAllowed && c.require2fa && answers.totpAccepts code then
    .logon c.acceptCode
  else .done c true

/-- The connection after the sides were switched. -/
def switchSides : Connection :=
  { c with fromSwitch := true }.passed .uuidMatched

def handleSwitchSidesResponse (uuid : List UInt8) (lr : Option LoginRequest) : Handled :=
  match lr with
  | none => .done c true
  | some lr =>
      if platform.isMobile then .done c true
      else
        let c := c.handleLoginRequestWithoutValidation answers lr
        if uuid.length = 16 ∧ answers.switchSidesUuid lr.myId = some uuid then
          .logon c.switchSides
        else .done c true

/-- The connection after the local user's click. -/
def approve : Connection :=
  { c with sessionAuthKind := .clickApproval, require2fa := false }.passed .approved

def handleAuthorize : Handled := .logon c.approve

end Connection

/-! ## The loop of a connection -/

/-- A message of the peer, an order of the connection manager, or a change of the
sessions by other connections. -/
inductive Input
  | closeReason
  | loginRequest (lr : LoginRequest)
  | auth2fa (code : String)
  | switchSidesResponse (uuid : List UInt8) (lr : Option LoginRequest)
  | sessionPermissionRequest (requestId : ℕ) (name : String) (enabled : Bool)
  | authorize
  | close
  | switchPermission (name : String) (enabled : Bool)
  | permissionRequestResult (requestId : ℕ) (name : String) (enabled approved : Bool)
  | sessionsChanged (sessions : SessionKey → Option Session)

/-- The login request that a connection takes from an input. -/
def Input.request (platform : Platform) : Input → Option LoginRequest
  | .loginRequest lr => some lr
  | .switchSidesResponse _ lr => if platform.isMobile then none else lr
  | _ => none

/-- The inputs that may lead to an authorization. -/
def Input.logsIn : Input → Bool
  | .loginRequest _ | .auth2fa _ | .switchSidesResponse _ _ | .authorize => true
  | _ => false

structure ConnectionEvent where
  input : Input
  answers : Answers := {}

namespace Connection

variable (platform : Platform) (c : Connection)

/-- The handler of an input. -/
def dispatch (event : ConnectionEvent) : Handled :=
  match event.input with
  | .closeReason | .close => .done c false
  | .loginRequest lr => c.handleLoginRequest platform event.answers lr
  | .auth2fa code => c.handleAuth2fa event.answers code
  | .switchSidesResponse uuid lr => c.handleSwitchSidesResponse platform event.answers uuid lr
  | .authorize => c.handleAuthorize
  | .sessionPermissionRequest requestId name enabled =>
      if c.authorized && c.portForwardSocket.isNone then
        .done (c.handleSessionPermissionRequest event.answers requestId name enabled) true
      else .done c true
  | .switchPermission name enabled => .done (c.handleSwitchPermission name enabled) true
  | .permissionRequestResult requestId _ _ approved =>
      .done (c.handlePermissionRequestResult event.answers requestId approved) true
  | .sessionsChanged sessions => .done { c with sessions := sessions } true

/-- An authorized port forward leaves the loop, after a message only when no answer
to a delay test is due. -/
def forwards (event : ConnectionEvent) : Bool :=
  c.portForwardSocket.isSome && c.authorized &&
    match event.input with
    | .authorize => true
    | .closeReason | .loginRequest _ | .auth2fa _ | .switchSidesResponse _ _
    | .sessionPermissionRequest _ _ _ => !event.answers.testDelayPending
    | _ => false

/-- One turn of the loop, while it runs. -/
def next (event : ConnectionEvent) : Connection :=
  if c.isOpen then
    let result := (c.dispatch platform event).finish platform event.answers
    { result.1 with isOpen := result.2 && !result.1.forwards event }
  else c

end Connection

/-- A connection after a run of events. -/
def connectionAfter (platform : Platform) (start : Connection) (events : List ConnectionEvent) :
    Connection :=
  events.foldl (Connection.next platform) start

@[simp] theorem connectionAfter_nil (platform : Platform) (start : Connection) :
    connectionAfter platform start [] = start := rfl

theorem connectionAfter_concat (platform : Platform) (start : Connection)
    (events : List ConnectionEvent) (event : ConnectionEvent) :
    connectionAfter platform start (events ++ [event]) =
      (connectionAfter platform start events).next platform event := by
  simp [connectionAfter]

/-- A connection that was just accepted. -/
def freshConnection (require2fa : Bool) (permitted : Permission → Bool)
    (sessions : SessionKey → Option Session) : Connection :=
  { require2fa := require2fa, permitted := permitted, sessions := sessions }

end RustAdmin.Server
