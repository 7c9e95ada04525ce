import Mathlib.Data.Finset.Insert

/-!
# What a session may do

A session is authorized by a password, by a click of the local user or not at
all yet.  Only unattended access has all permissions; every other kind of session
is for support and gets what the local user grants.
-/

namespace RustAdmin.Server

/-- The systems the program is compiled for. -/
inductive Platform
  | windows
  | linux
  | macos
  | android
  | ios
  deriving DecidableEq, Repr

/-- `cfg!(any(target_os = "android", target_os = "ios"))` -/
def Platform.isMobile : Platform → Bool
  | android | ios => true
  | windows | linux | macos => false

inductive SessionAuthKind
  | unknown
  | oneTimePassword
  | unattendedPassword
  | clickApproval
  deriving DecidableEq, Repr

def SessionAuthKind.isUnattendedAccess (kind : SessionAuthKind) : Bool :=
  kind = .unattendedPassword

def SessionAuthKind.isLowPermissionSupport (kind : SessionAuthKind) : Bool :=
  !kind.isUnattendedAccess

inductive AuthConnType
  | remote
  | fileTransfer
  | portForward
  | viewCamera
  | terminal
  deriving DecidableEq, Repr

/-- The permissions that can be switched while a session lasts. -/
inductive Permission
  | keyboard
  | clipboard
  | audio
  | file
  | restart
  | recording
  | blockInput
  deriving DecidableEq, Repr

/-- The options of `Self::permission`. -/
inductive PermissionOption
  | enableKeyboard
  | enableClipboard
  | enableAudio
  | enableFileTransfer
  | enableRemoteRestart
  | enableRecordSession
  | enableBlockInput
  | enableTunnel
  | enableCamera
  | enableTerminal
  deriving DecidableEq, Repr

def switchPermissionFromName : String → Option Permission
  | "keyboard" => some .keyboard
  | "clipboard" => some .clipboard
  | "audio" => some .audio
  | "file" => some .file
  | "restart" => some .restart
  | "recording" => some .recording
  | "block_input" => some .blockInput
  | _ => none

/-- The name of a permission in requests and grants. -/
def Permission.name : Permission → String
  | keyboard => "keyboard"
  | clipboard => "clipboard"
  | audio => "audio"
  | file => "file"
  | restart => "restart"
  | recording => "recording"
  | blockInput => "block_input"

theorem switchPermissionFromName_eq_some {name : String} {permission : Permission} :
    switchPermissionFromName name = some permission ↔ name = permission.name := by
  constructor
  · intro h
    unfold switchPermissionFromName at h
    split at h <;> cases h <;> rfl
  · rintro rfl
    cases permission <;> rfl

/-- Low-permission support sessions still allow basic interactive help. -/
def lowPermissionDefault (name : String) (current : Bool) : Bool :=
  match name with
  | "keyboard" => current
  | _ => false

theorem lowPermissionDefault_name (permission : Permission) (current : Bool) :
    lowPermissionDefault permission.name current = (permission = .keyboard && current) := by
  cases permission <;> simp [lowPermissionDefault, Permission.name]

def sessionDefaultPermission (authKind : SessionAuthKind) (name : String) (current : Bool) :
    Bool :=
  if authKind.isUnattendedAccess then current else lowPermissionDefault name current

def shouldRejectAdditionalPermissionRequest (authKind : SessionAuthKind)
    (hasActivePendingPrompt : Bool) : Bool :=
  authKind.isLowPermissionSupport && hasActivePendingPrompt

def switchPermissionPolicyDenialReasonWithGrant (authKind : SessionAuthKind) (name : String)
    (enabled hasGrant : Bool) : Option String :=
  if !enabled || authKind.isUnattendedAccess || lowPermissionDefault name true || hasGrant then
    none
  else some "Permission upgrades require local approval for this session."

/-- A switchable permission needs approval to be enabled in a support session,
unless it is the keyboard or was granted before. -/
theorem switchPermissionPolicy_eq_none {authKind : SessionAuthKind} {permission : Permission}
    {hasGrant : Bool} :
    switchPermissionPolicyDenialReasonWithGrant authKind permission.name true hasGrant = none ↔
      authKind = .unattendedPassword ∨ permission = .keyboard ∨ hasGrant = true := by
  simp only [switchPermissionPolicyDenialReasonWithGrant, lowPermissionDefault_name]
  by_cases hkind : authKind = .unattendedPassword
  · simp [SessionAuthKind.isUnattendedAccess, hkind]
  · by_cases hkeyboard : permission = .keyboard <;>
      simp [SessionAuthKind.isUnattendedAccess, hkind, hkeyboard]

def connectionPolicyDenialReasonWithGrant (authKind : SessionAuthKind) (connType : AuthConnType)
    (hasGrant : Bool) : Option String :=
  if !authKind.isLowPermissionSupport || hasGrant then none
  else
    match connType with
    | .remote => none
    | .fileTransfer => some "File transfer requires local approval for this session."
    | .portForward => some "IP tunneling requires local approval for this session."
    | .viewCamera => some "Camera viewing requires local approval for this session."
    | .terminal => some "Terminal access requires local approval for this session."

/-- A connection is let in for unattended access, as remote control or with a grant. -/
theorem connectionPolicy_eq_none {authKind : SessionAuthKind} {connType : AuthConnType}
    {hasGrant : Bool} :
    connectionPolicyDenialReasonWithGrant authKind connType hasGrant = none ↔
      authKind = .unattendedPassword ∨ connType = .remote ∨ hasGrant = true := by
  by_cases hkind : authKind = .unattendedPassword
  · simp [connectionPolicyDenialReasonWithGrant, SessionAuthKind.isLowPermissionSupport,
      SessionAuthKind.isUnattendedAccess, hkind]
  · cases hasGrant <;> cases connType <;>
      simp [connectionPolicyDenialReasonWithGrant, SessionAuthKind.isLowPermissionSupport,
        SessionAuthKind.isUnattendedAccess, hkind]

def connectionTypeGrantName : AuthConnType → String
  | .remote => "remote"
  | .fileTransfer => "file_transfer"
  | .portForward => "port_forward"
  | .viewCamera => "view_camera"
  | .terminal => "terminal"

def permissionRequestConnectionType : String → Option AuthConnType
  | "file_transfer" => some .fileTransfer
  | "port_forward" => some .portForward
  | "view_camera" => some .viewCamera
  | "terminal" => some .terminal
  | _ => none

/-- A name asks for a permission or for a type of connection, not for both. -/
theorem permissionRequestConnectionType_name (permission : Permission) :
    permissionRequestConnectionType permission.name = none := by
  cases permission <;> rfl

/-- The option that a request by name depends on. -/
def localPermissionOption : String → Option PermissionOption
  | "keyboard" => some .enableKeyboard
  | "clipboard" => some .enableClipboard
  | "audio" => some .enableAudio
  | "file" | "file_transfer" => some .enableFileTransfer
  | "restart" => some .enableRemoteRestart
  | "recording" => some .enableRecordSession
  | "block_input" => some .enableBlockInput
  | "port_forward" => some .enableTunnel
  | "view_camera" => some .enableCamera
  | "terminal" => some .enableTerminal
  | _ => none

end RustAdmin.Server
