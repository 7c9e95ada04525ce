import RustAdmin.Support.LinkedMap
import RustAdmin.Server.Policy
import Mathlib.Logic.Function.Basic

/-!
# The state of an incoming connection

The fields of a connection that its authorization and its permissions depend on,
the table of sessions that all connections share, and what the device answers
while a message is handled: its settings, the checks of passwords and codes, the
system's replies.
-/

namespace RustAdmin.Server

open RustAdmin.Support

/-! ## Login requests -/

structure PortForward where
  host : String
  port : ℤ
  deriving DecidableEq, Repr

/-- What a login request asks for. -/
inductive LoginUnion
  | remote
  | fileTransfer (dir : String) (showHidden : Bool)
  | viewCamera
  | terminal
  | portForward (pf : PortForward)
  deriving DecidableEq, Repr

structure LoginRequest where
  username : String := ""
  password : List UInt8 := []
  myId : String := ""
  myName : String := ""
  myPlatform : String := ""
  sessionId : ℕ := 0
  hwid : List UInt8 := []
  osUsername : String := ""
  union : LoginUnion := .remote
  deriving DecidableEq, Repr

/-- What a session is remembered under. -/
structure SessionKey where
  peerId : String
  name : String
  sessionId : ℕ
  deriving DecidableEq, Repr

structure SessionPermissionGrants where
  permissions : Finset String := ∅
  connectionTypes : Finset String := ∅
  deriving DecidableEq

structure Session where
  randomPassword : String := ""
  tfa : Bool := false
  authKind : SessionAuthKind := .unknown
  grants : SessionPermissionGrants := {}
  deriving DecidableEq

/-- `normalize_port_forward_target`: the address. -/
def normalizePortForwardTarget (pf : PortForward) : String :=
  let pf : PortForward := if pf.host = "RDP" ∧ pf.port = 0 then ⟨"localhost", 3389⟩ else pf
  let host := if pf.host = "" then "localhost" else pf.host
  host ++ ":" ++ toString pf.port

/-- `char::is_whitespace` -/
def isWhitespace (c : Char) : Bool :=
  (9 ≤ c.toNat && c.toNat ≤ 13) || c.toNat ∈ [0x20, 0x85, 0xA0, 0x1680, 0x2028, 0x2029, 0x202F,
    0x205F, 0x3000] || (0x2000 ≤ c.toNat && c.toNat ≤ 0x200A)

/-- `trim().is_empty()` -/
def blank (text : String) : Bool := text.toList.all isWhitespace

def shouldUseTerminalOsLoginScope (platform : Platform) (isTerminal : Bool)
    (osLoginUsername : String) : Bool :=
  platform = .windows && isTerminal && !blank osLoginUsername

/-! ## The device -/

inductive ApproveMode
  | both
  | password
  | click
  deriving DecidableEq, Repr

structure TrustedDevice where
  hwid : List UInt8
  id : String
  name : String
  platform : String
  outdated : Bool
  deriving DecidableEq, Repr

/-- What the device and its user's system answer while one message is handled, and
the clock, in nanoseconds: the handling takes the time `lag`. -/
structure Answers where
  now : ℕ := 0
  lag : ℕ := 0
  permission : PermissionOption → Bool := fun _ => true
  expired : SessionKey → Bool := fun _ => false
  hashMatches : LoginRequest → String → Bool := fun _ _ => false
  temporaryPassword : Option String := none
  permanentEnabled : Bool := true
  permanentMatches : LoginRequest → Bool := fun _ => false
  approveMode : ApproveMode := .both
  hasValidPassword : Bool := true
  allowLogonScreenPassword : Bool := false
  enableTrustedDevices : Bool := false
  trustedDevices : List TrustedDevice := []
  totpAccepts : String → Bool := fun _ => false
  switchSidesUuid : String → Option (List UInt8) := fun _ => none
  ownId : String := ""
  isAddress : String → Bool := fun _ => false
  inPrivacyMode : Bool := false
  isInstalled : Bool := true
  isPrelogin : Bool := false
  isHeadlessAllowed : Bool := false
  desktopUsername : String := ""
  desktopError : String := ""
  headlessLoginAllowed : Bool := true
  passwordAttemptAllowed : Bool := true
  totpAttemptAllowed : Bool := true
  terminalLoginSucceeds : Bool := true
  portForwardConnects : Bool := true
  testDelayPending : Bool := false

/-! ## The connection -/

/-- A check that was passed on a connection. -/
inductive AuthCheck
  | approved
  | uuidMatched
  | loginPassed
  | totpAccepted
  | deviceTrusted
  | recentConfirmed
  deriving DecidableEq, Repr

structure PendingPermissionRequest where
  name : String
  enabled : Bool
  requestedAt : ℕ
  deriving DecidableEq, Repr

/-- `require2fa`, `portForwardSocket` and `terminalUserToken` say whether the field
is there; `permitted` stands for the seven fields of the switchable permissions.
`sessions` is the shared table `SESSIONS`, `isOpen` says that the loop that takes
messages runs, and `checks` remembers the checks that were passed. -/
structure Connection where
  require2fa : Bool := false
  fileTransfer : Option (String × Bool) := none
  viewCamera : Bool := false
  terminal : Bool := false
  terminalUserToken : Bool := false
  portForwardSocket : Option String := none
  portForwardAddress : String := ""
  authorized : Bool := false
  permitted : Permission → Bool := fun _ => true
  lr : LoginRequest := {}
  fromSwitch : Bool := false
  sessionAuthKind : SessionAuthKind := .unknown
  pendingPermissionRequests : LinkedMap ℕ PendingPermissionRequest := ∅
  sessions : SessionKey → Option Session := fun _ => none
  isOpen : Bool := true
  checks : List AuthCheck := []

namespace Connection

variable (platform : Platform) (answers : Answers) (c : Connection)

/-- One more check was passed. -/
def passed (check : AuthCheck) : Connection :=
  { c with checks := c.checks ++ [check] }

def sessionKey : SessionKey := ⟨c.lr.myId, c.lr.myName, c.lr.sessionId⟩

def sessionPermissionGranted (name : String) : Bool :=
  (c.sessions c.sessionKey).any fun session => name ∈ session.grants.permissions

def sessionConnectionGranted (connType : AuthConnType) : Bool :=
  (c.sessions c.sessionKey).any fun session =>
    connectionTypeGrantName connType ∈ session.grants.connectionTypes

/-- The session of the connection changes, where there is one. -/
def updateSession (update : Session → Session) : Connection :=
  match c.sessions c.sessionKey with
  | some session =>
      { c with sessions := Function.update c.sessions c.sessionKey (some (update session)) }
  | none => c

/-- The session of the connection changes, a new one where there is none. -/
def updateOrInsertSession (update : Session → Session) : Connection :=
  let session := (c.sessions c.sessionKey).getD {}
  { c with sessions := Function.update c.sessions c.sessionKey (some (update session)) }

/-- `update_or_insert_session_auth` -/
def updateOrInsertSessionAuth (authKind : SessionAuthKind) (password : Option String)
    (tfa : Option Bool) : Connection :=
  { c with sessionAuthKind := authKind }.updateOrInsertSession fun session =>
    { session with
      randomPassword := password.getD session.randomPassword
      tfa := tfa.getD session.tfa
      authKind := authKind }

/-- `AuthedConnID::set_session_2fa` of this connection's session. -/
def setSession2fa : Connection :=
  c.updateOrInsertSession fun session =>
    { session with tfa := true, authKind := c.sessionAuthKind }

def validatePasswordPlain (password : String) : Bool :=
  password ≠ "" && answers.hashMatches c.lr password

/-- `validate_password` -/
def validatePassword (allowPermanentPassword : Bool) : Connection × Bool :=
  match answers.temporaryPassword.filter (c.validatePasswordPlain answers) with
  | some password =>
      (c.updateOrInsertSessionAuth .oneTimePassword (some password) (some false), true)
  | none =>
      if (answers.permanentEnabled || allowPermanentPassword) && answers.permanentMatches c.lr
      then (c.updateOrInsertSessionAuth .unattendedPassword none none, true)
      else (c, false)

/-- `is_recent_session`, which also forgets the expired sessions. -/
def isRecentSession (tfa : Bool) : Connection × Bool :=
  let c := { c with sessions := fun key =>
    if answers.expired key then none else c.sessions key }
  match c.sessions c.sessionKey with
  | some session =>
      if c.lr.password ≠ [] ∧
          (tfa && session.tfa ||
            !tfa && c.validatePasswordPlain answers session.randomPassword) then
        ({ c with sessionAuthKind := session.authKind }, true)
      else (c, false)
  | none => (c, false)

/-- The type the policy looks at: the first of the flags that is set. -/
def sessionConnectionType : AuthConnType :=
  if c.fileTransfer.isSome then .fileTransfer
  else if c.portForwardSocket.isSome || c.portForwardAddress ≠ "" then .portForward
  else if c.viewCamera then .viewCamera
  else if c.terminal then .terminal
  else .remote

/-- `session_connection_policy_denial_reason` -/
def sessionConnectionPolicyDenialReason : Option String :=
  connectionPolicyDenialReasonWithGrant c.sessionAuthKind c.sessionConnectionType
    (c.sessionConnectionGranted c.sessionConnectionType)

/-- `prepare_terminal_login_for_authorization`: nothing to object, or the answer
to whether the connection is kept. -/
def prepareTerminalLoginForAuthorization : Connection × Option Bool :=
  if platform.isMobile || !c.terminal || c.terminalUserToken then (c, none)
  else if answers.terminalLoginSucceeds then ({ c with terminalUserToken := true }, none)
  else (c, some false)

/-- `apply_session_permission_defaults` -/
def applySessionPermissionDefaults : Connection :=
  { c with permitted := fun permission =>
      sessionDefaultPermission c.sessionAuthKind permission.name (c.permitted permission) }

/-- `connect_port_forward_if_needed`: the target is that of the last request. -/
def connectPortForwardIfNeeded : Connection × Bool :=
  match c.portForwardSocket, c.lr.union with
  | none, .portForward pf =>
      let addr := normalizePortForwardTarget pf
      if answers.portForwardConnects then
        ({ c with portForwardAddress := addr, portForwardSocket := some addr }, true)
      else ({ c with portForwardAddress := addr }, false)
  | _, _ => (c, true)

/-- The end of `send_logon_response_and_keep_alive`: a terminal and a camera leave
the keyboard off. -/
def sendLoginResponse : Connection :=
  if c.portForwardSocket.isNone && c.fileTransfer.isNone && (c.terminal || c.viewCamera) then
    { c with permitted := Function.update c.permitted .keyboard false }
  else c

/-- The second factor of `send_logon_response_and_keep_alive`: the connection goes
on where none is required, a recent session had it, or the sides were switched. -/
def checkTwoFactor : Connection × Bool :=
  if c.require2fa then
    let (c, recent) := c.isRecentSession answers true
    if recent then (c.passed .recentConfirmed, true) else (c, c.fromSwitch)
  else (c, true)

/-- `send_logon_response_and_keep_alive` after the second factor. -/
def authorize : Connection × Bool :=
  if c.sessionConnectionPolicyDenialReason.isSome then (c, false)
  else
    match c.prepareTerminalLoginForAuthorization platform answers with
    | (c, some keepAlive) => (c, keepAlive)
    | (c, none) =>
        match c.applySessionPermissionDefaults.connectPortForwardIfNeeded answers with
        | (c, false) => (c, false)
        | (c, true) => ({ c with authorized := true }.sendLoginResponse, true)

/-- `send_logon_response_and_keep_alive` -/
def sendLogonResponseAndKeepAlive : Connection × Bool :=
  if c.authorized then (c, true)
  else
    match c.checkTwoFactor answers with
    | (c, false) => (c, true)
    | (c, true) => c.authorize platform answers

end Connection

end RustAdmin.Server
