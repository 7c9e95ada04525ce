import RustAdmin.Server.State

/-!
# Switching permissions

The local user switches a permission directly; the peer asks for one.  A request
that the policy lets pass is approved at once, any other waits in the table of
pending requests for the local user's answer.  What was approved is remembered
with the session.
-/

namespace RustAdmin.Server

open RustAdmin.Support

/-- `PENDING_PERMISSION_REQUEST_TIMEOUT_SECS`, in nanoseconds. -/
def pendingPermissionRequestTimeout : ℕ := 120 * 1000000000

/-- A request is as old as the timeout allows, or older. -/
def PendingPermissionRequest.expired (request : PendingPermissionRequest) (now : ℕ) : Bool :=
  pendingPermissionRequestTimeout ≤ now - request.requestedAt

namespace Connection

variable (answers : Answers) (c : Connection)

def localPermissionEnabledForRequest (name : String) : Bool :=
  (localPermissionOption name).any answers.permission

def permissionRequestDenialReason (name : String) : Option String :=
  if name = "privacy_mode" then
    some "Privacy mode is available only for unattended access sessions."
  else if (switchPermissionFromName name).isNone &&
      (permissionRequestConnectionType name).isNone then
    some "Unknown permission requested."
  else if !localPermissionEnabledForRequest answers name then
    some "Permission is disabled on this device."
  else none

def grantSessionPermission (name : String) : Connection :=
  c.updateSession fun session =>
    let permissions := insert name session.grants.permissions
    { session with grants := { session.grants with permissions := permissions } }

def grantSessionConnection (connType : AuthConnType) : Connection :=
  c.updateSession fun session =>
    let connectionTypes :=
      insert (connectionTypeGrantName connType) session.grants.connectionTypes
    { session with grants := { session.grants with connectionTypes := connectionTypes } }

/-- `apply_switch_permission` on the fields. -/
def applySwitchPermission (name : String) (enabled : Bool) : Connection :=
  match switchPermissionFromName name with
  | some permission => { c with permitted := Function.update c.permitted permission enabled }
  | none => c

def cleanupPendingPermissionRequests : Connection :=
  { c with pendingPermissionRequests :=
      c.pendingPermissionRequests.filter fun _ request => !request.expired answers.now }

def hasActivePendingPermissionRequest : Bool :=
  c.pendingPermissionRequests.values.any fun request =>
    !request.expired (answers.now + answers.lag)

/-- `approve_permission_request` -/
def approvePermissionRequest (name : String) (enabled : Bool) : Connection :=
  match permissionRequestConnectionType name with
  | some connType => c.grantSessionConnection connType
  | none =>
      if (switchPermissionFromName name).isSome then
        (c.grantSessionPermission name).applySwitchPermission name enabled
      else c

/-- The policy asks for the local user's approval. -/
def needsApproval (name : String) (enabled : Bool) : Bool :=
  match permissionRequestConnectionType name with
  | some connType =>
      (connectionPolicyDenialReasonWithGrant c.sessionAuthKind connType
        (c.sessionConnectionGranted connType)).isSome
  | none =>
      (switchPermissionPolicyDenialReasonWithGrant c.sessionAuthKind name enabled
        (c.sessionPermissionGranted name)).isSome

/-- `handle_session_permission_request` -/
def handleSessionPermissionRequest (requestId : ℕ) (name : String) (enabled : Bool) :
    Connection :=
  let c := c.cleanupPendingPermissionRequests answers
  if requestId = 0 ∨ enabled = false then c
  else if (permissionRequestDenialReason answers name).isSome then c
  else if !c.needsApproval name enabled then c.approvePermissionRequest name enabled
  else if shouldRejectAdditionalPermissionRequest c.sessionAuthKind
      (c.hasActivePendingPermissionRequest answers) then c
  else if 16 ≤ c.pendingPermissionRequests.keys.length then c
  else if c.pendingPermissionRequests.contains requestId then c
  else
    { c with pendingPermissionRequests :=
        c.pendingPermissionRequests.set requestId ⟨name, enabled, answers.now + answers.lag⟩ }

/-- `handle_permission_request_result`: the name and the value are those of the
pending request. -/
def handlePermissionRequestResult (requestId : ℕ) (approved : Bool) : Connection :=
  let c := c.cleanupPendingPermissionRequests answers
  match c.pendingPermissionRequests.get? requestId with
  | none => c
  | some pending =>
      let c := { c with pendingPermissionRequests :=
        c.pendingPermissionRequests.remove requestId }
      if pending.expired (answers.now + answers.lag) then c
      else if !approved then c
      else if (permissionRequestDenialReason answers pending.name).isSome then c
      else c.approvePermissionRequest pending.name pending.enabled

/-- The local user's switch. -/
def handleSwitchPermission (name : String) (enabled : Bool) : Connection :=
  if (switchPermissionPolicyDenialReasonWithGrant c.sessionAuthKind name enabled
      (c.sessionPermissionGranted name)).isSome then c
  else c.applySwitchPermission name enabled

end Connection

/-! ## What the handlers leave alone -/

variable (answers : Answers) (c : Connection)

theorem updateSession_eq (update : Session → Session) :
    ∃ sessions, c.updateSession update = { c with sessions := sessions } := by
  unfold Connection.updateSession
  split <;> exact ⟨_, rfl⟩

theorem applySwitchPermission_eq (name : String) (enabled : Bool) :
    ∃ permitted, c.applySwitchPermission name enabled = { c with permitted := permitted } := by
  unfold Connection.applySwitchPermission
  split <;> exact ⟨_, rfl⟩

theorem approvePermissionRequest_eq (name : String) (enabled : Bool) :
    ∃ permitted sessions, c.approvePermissionRequest name enabled =
      { c with permitted := permitted, sessions := sessions } := by
  unfold Connection.approvePermissionRequest
  split
  · rename_i connType _
    obtain ⟨sessions, hgrant⟩ := updateSession_eq c _
    exact ⟨c.permitted, sessions, hgrant⟩
  · split_ifs
    · obtain ⟨sessions, hgrant⟩ := updateSession_eq c _
      rw [Connection.grantSessionPermission, hgrant]
      obtain ⟨permitted, happly⟩ := applySwitchPermission_eq { c with sessions := sessions } name
        enabled
      exact ⟨permitted, sessions, happly⟩
    · exact ⟨c.permitted, c.sessions, rfl⟩

theorem handleSessionPermissionRequest_eq (requestId : ℕ) (name : String) (enabled : Bool) :
    ∃ permitted sessions pending,
      c.handleSessionPermissionRequest answers requestId name enabled =
        { c with
          permitted := permitted
          sessions := sessions
          pendingPermissionRequests := pending } := by
  unfold Connection.handleSessionPermissionRequest
  dsimp only
  split_ifs
  · exact ⟨_, _, _, rfl⟩
  · exact ⟨_, _, _, rfl⟩
  · obtain ⟨permitted, sessions, happrove⟩ :=
      approvePermissionRequest_eq (c.cleanupPendingPermissionRequests answers) name enabled
    exact ⟨permitted, sessions, _, happrove⟩
  · exact ⟨_, _, _, rfl⟩
  · exact ⟨_, _, _, rfl⟩
  · exact ⟨_, _, _, rfl⟩
  · exact ⟨_, _, _, rfl⟩

theorem handlePermissionRequestResult_eq (requestId : ℕ) (approved : Bool) :
    ∃ permitted sessions pending,
      c.handlePermissionRequestResult answers requestId approved =
        { c with
          permitted := permitted
          sessions := sessions
          pendingPermissionRequests := pending } := by
  unfold Connection.handlePermissionRequestResult
  dsimp only
  split
  · exact ⟨_, _, _, rfl⟩
  · rename_i pending _
    split_ifs
    · exact ⟨_, _, _, rfl⟩
    · exact ⟨_, _, _, rfl⟩
    · exact ⟨_, _, _, rfl⟩
    · obtain ⟨permitted, sessions, happrove⟩ := approvePermissionRequest_eq
        { c.cleanupPendingPermissionRequests answers with
          pendingPermissionRequests :=
            (c.cleanupPendingPermissionRequests answers).pendingPermissionRequests.remove
              requestId } pending.name pending.enabled
      exact ⟨permitted, sessions, _, happrove⟩

theorem handleSwitchPermission_eq (name : String) (enabled : Bool) :
    ∃ permitted, c.handleSwitchPermission name enabled = { c with permitted := permitted } := by
  unfold Connection.handleSwitchPermission
  split_ifs
  · exact ⟨c.permitted, rfl⟩
  · exact applySwitchPermission_eq c name enabled

end RustAdmin.Server
