import RustAdmin.Server.Moves
import RustAdmin.Support.Run

/-!
# Revoking a permission

The local user switches a permission off while a session lasts.  The peer can have
it back without being approved again where it needs no approval: the keyboard of a
support session, and whatever the session was granted before.

`Revoked` is the invariant of the runs after the revocation: the session is
authorized, of a kind that supports, and without the permission.  Each handler of
permissions gets one lemma that says what it may switch on and by whom; a turn that
logs in leaves an authorized session as it is (`revoked_logsIn`), and all other turns
are those handlers (`revoked_next`).
-/

namespace RustAdmin.Server

open RustAdmin.Support

variable {platform : Platform} {answers : Answers} {c c' : Connection} {permission : Permission}

/-- The local user switches the permission off. -/
def revocation (permission : Permission) (answers : Answers) : ConnectionEvent :=
  ⟨.switchPermission permission.name false, answers⟩

/-! ## Two readings of what may restore a permission -/

/-- A request of the peer is put before the local user. -/
def Forwards (platform : Platform) (c : Connection) (event : ConnectionEvent) (requestId : ℕ) :
    Prop :=
  c.pendingPermissionRequests.get? requestId = none ∧
    ∃ request, (c.next platform event).pendingPermissionRequests.get? requestId = some request

/-- The local user switches the permission on, or approves a request that was put
before him since `start`. -/
def RestoredByUser (platform : Platform) (permission : Permission) (start : Connection)
    (before : List ConnectionEvent) (event : ConnectionEvent) : Prop :=
  event.input = .switchPermission permission.name true ∨
    ∃ requestId name enabled,
      event.input = .permissionRequestResult requestId name enabled true ∧
        ∃ earlier request later, before = earlier ++ request :: later ∧
          Forwards platform (connectionAfter platform start earlier) request requestId

/-- The local user switches the permission on or approves a pending request for it,
or the peer asks for it where no approval is needed. -/
def Restores (permission : Permission) (c : Connection) (event : ConnectionEvent) : Prop :=
  event.input = .switchPermission permission.name true ∨
    (∃ requestId name enabled request,
      event.input = .permissionRequestResult requestId name enabled true ∧
        c.pendingPermissionRequests.get? requestId = some request ∧
          request.name = permission.name) ∨
    ∃ requestId, event.input = .sessionPermissionRequest requestId permission.name true ∧
      requestId ≠ 0 ∧
        Connection.localPermissionEnabledForRequest event.answers permission.name = true ∧
          (permission = .keyboard ∨ c.sessionPermissionGranted permission.name = true)

/-! ## The handlers of permissions -/

theorem permitted_applySwitchPermission (c : Connection) (name : String) (enabled : Bool)
    (permission : Permission) : (c.applySwitchPermission name enabled).permitted permission =
      if name = permission.name then enabled else c.permitted permission := by
  unfold Connection.applySwitchPermission
  split
  · rename_i switched hname
    rw [switchPermissionFromName_eq_some] at hname
    subst hname
    by_cases hpermission : permission = switched
    · subst hpermission
      rw [if_pos rfl]
      exact Function.update_self ..
    · have hnames : ¬ switched.name = permission.name := by
        intro h
        have hsame := switchPermissionFromName_eq_some.mpr h
        rw [switchPermissionFromName_eq_some.mpr rfl] at hsame
        exact hpermission (Option.some.inj hsame).symm
      rw [if_neg hnames]
      exact Function.update_of_ne hpermission ..
  · rename_i hnone
    rw [if_neg]
    rintro rfl
    rw [switchPermissionFromName_eq_some.mpr rfl] at hnone
    cases hnone

theorem permitted_updateSession (c : Connection) (update : Session → Session) :
    (c.updateSession update).permitted = c.permitted := by
  obtain ⟨_, heq⟩ := updateSession_eq c update
  rw [heq]

theorem permitted_approvePermissionRequest (c : Connection) (name : String) (enabled : Bool)
    (permission : Permission) : (c.approvePermissionRequest name enabled).permitted permission =
      if name = permission.name then enabled else c.permitted permission := by
  unfold Connection.approvePermissionRequest
  split
  · rename_i connType htype
    rw [Connection.grantSessionConnection, permitted_updateSession, if_neg]
    rintro rfl
    rw [permissionRequestConnectionType_name] at htype
    cases htype
  · split_ifs with hswitch hname hname
    · rw [permitted_applySwitchPermission, if_pos hname]
    · rw [permitted_applySwitchPermission, if_neg hname, Connection.grantSessionPermission,
        permitted_updateSession]
    · rw [hname, switchPermissionFromName_eq_some.mpr rfl] at hswitch
      exact absurd rfl hswitch
    · rfl

/-- A request that is not denied finds its option on. -/
theorem enabled_of_not_denied {name : String}
    (hdenied : (Connection.permissionRequestDenialReason answers name).isSome = false) :
    Connection.localPermissionEnabledForRequest answers name = true := by
  unfold Connection.permissionRequestDenialReason at hdenied
  split at hdenied
  · cases hdenied
  split at hdenied
  · cases hdenied
  split at hdenied
  · cases hdenied
  · rename_i hlocal
    simpa using hlocal

/-- In a support session a switchable permission needs no approval only as the
keyboard or with a grant. -/
theorem keyboard_or_granted (hkind : c.sessionAuthKind ≠ .unattendedPassword)
    (hneeds : c.needsApproval permission.name true = false) :
    permission = .keyboard ∨ c.sessionPermissionGranted permission.name = true := by
  unfold Connection.needsApproval at hneeds
  rw [permissionRequestConnectionType_name] at hneeds
  have hnone := Option.isSome_eq_false_iff.mp hneeds
  rw [Option.isNone_iff_eq_none, switchPermissionPolicy_eq_none] at hnone
  exact hnone.resolve_left hkind

/-- What the peer's own request may switch on. -/
theorem permitted_handleSessionPermissionRequest
    (hkind : c.sessionAuthKind ≠ .unattendedPassword) {requestId : ℕ} {name : String}
    {enabled : Bool} (hoff : c.permitted permission = false)
    (hrestores : ¬ Restores permission c
      ⟨.sessionPermissionRequest requestId name enabled, answers⟩) :
    (c.handleSessionPermissionRequest answers requestId name enabled).permitted permission =
      false := by
  unfold Connection.handleSessionPermissionRequest
  dsimp only
  split_ifs with hignored hdenied hneeds
  · exact hoff
  · exact hoff
  · rw [permitted_approvePermissionRequest]
    split_ifs with hname
    · subst hname
      push Not at hignored
      refine absurd (Or.inr (Or.inr ⟨requestId, ?_, hignored.1, ?_, ?_⟩)) hrestores
      · rw [Bool.eq_true_of_not_eq_false hignored.2]
      · exact enabled_of_not_denied (Bool.eq_false_iff.mpr hdenied)
      · rw [Bool.eq_true_of_not_eq_false hignored.2] at hneeds
        exact keyboard_or_granted (c := c.cleanupPendingPermissionRequests answers) hkind
          (by simpa using hneeds)
    · exact hoff
  · exact hoff
  · exact hoff
  · exact hoff
  · exact hoff

/-- What the local user's answer may switch on. -/
theorem permitted_handlePermissionRequestResult {requestId : ℕ} {name : String}
    {enabled approved : Bool} (hoff : c.permitted permission = false)
    (hrestores : ¬ Restores permission c
      ⟨.permissionRequestResult requestId name enabled approved, answers⟩) :
    (c.handlePermissionRequestResult answers requestId approved).permitted permission = false := by
  unfold Connection.handlePermissionRequestResult
  dsimp only
  split
  · exact hoff
  · rename_i pending hpending
    split_ifs with hexpired hdeclined hdenied
    · exact hoff
    · exact hoff
    · exact hoff
    · rw [permitted_approvePermissionRequest]
      split_ifs with hname
      · have hbefore : c.pendingPermissionRequests.get? requestId = some pending := by
          have hfiltered : (c.pendingPermissionRequests.filter fun _ request =>
              !request.expired answers.now).get? requestId = some pending := hpending
          rw [LinkedMap.get?_filter, Option.filter_eq_some_iff] at hfiltered
          exact hfiltered.1
        have happroved : approved = true := by simpa using hdeclined
        subst happroved
        exact absurd (Or.inr (Or.inl ⟨requestId, name, enabled, pending, rfl, hbefore, hname⟩))
          hrestores
      · exact hoff

theorem permitted_handleSwitchPermission {name : String} {enabled : Bool}
    (hoff : c.permitted permission = false)
    (hrestores : ¬ Restores permission c ⟨.switchPermission name enabled, answers⟩) :
    (c.handleSwitchPermission name enabled).permitted permission = false := by
  unfold Connection.handleSwitchPermission
  split_ifs
  · exact hoff
  · rw [permitted_applySwitchPermission]
    split_ifs with hname
    · subst hname
      by_contra henabled
      exact hrestores (Or.inl (by rw [Bool.eq_true_of_not_eq_false henabled]))
    · exact hoff

/-! ## A permission that is off -/

/-- An authorized support session without the permission. -/
structure Revoked (permission : Permission) (c : Connection) : Prop where
  authorized : c.authorized = true
  support : c.sessionAuthKind ≠ .unattendedPassword
  off : c.permitted permission = false

/-- Logging in again leaves an authorized session as it is, except that the local
user's click makes it one of his own. -/
theorem revoked_logsIn (hc : Revoked permission c) {event : ConnectionEvent}
    (hlogsIn : event.input.logsIn = true) :
    Revoked permission (c.dispatch platform event).state := by
  have hstored : ∀ lr, Revoked permission
      (c.handleLoginRequestWithoutValidation event.answers lr) := by
    intro lr
    unfold Connection.handleLoginRequestWithoutValidation
    dsimp only
    split_ifs <;> exact ⟨hc.authorized, hc.support, hc.off⟩
  unfold Connection.dispatch
  cases hinput : event.input with
  | loginRequest lr =>
      have hauthorized := (hstored lr).authorized
      dsimp only
      rw [Connection.handleLoginRequest, if_pos hauthorized]
      exact hstored lr
  | auth2fa code =>
      dsimp only
      unfold Connection.handleAuth2fa
      split_ifs <;> exact ⟨hc.authorized, hc.support, hc.off⟩
  | switchSidesResponse uuid lr =>
      dsimp only
      unfold Connection.handleSwitchSidesResponse
      cases lr with
      | none => exact hc
      | some lr =>
          obtain ⟨hauthorized, hsupport, hoff⟩ := hstored lr
          dsimp only
          split_ifs
          · exact hc
          · exact ⟨hauthorized, hsupport, hoff⟩
          · exact ⟨hauthorized, hsupport, hoff⟩
  | authorize => exact ⟨hc.authorized, SessionAuthKind.noConfusion, hc.off⟩
  | _ => simp [hinput, Input.logsIn] at hlogsIn

/-- One turn of the loop leaves the permission off, if nothing restores it. -/
theorem revoked_next (hc : Revoked permission c) {event : ConnectionEvent}
    (hrestores : ¬ Restores permission c event) : Revoked permission (c.next platform event) := by
  by_cases hopen : c.isOpen = true
  · obtain ⟨isOpen, heq⟩ := next_of_authorized platform event hopen hc.authorized
    have hstate : Revoked permission (c.dispatch platform event).state := by
      by_cases hother : event.input.logsIn = false
      · obtain ⟨permitted, sessions, pending, keepAlive, hdispatch⟩ :=
          dispatch_of_not_logsIn platform c hother
        refine ⟨?_, ?_, ?_⟩
        · rw [hdispatch]
          exact hc.authorized
        · rw [hdispatch]
          exact hc.support
        · unfold Connection.dispatch
          obtain ⟨input, answers⟩ := event
          cases input with
          | sessionPermissionRequest requestId name enabled =>
              dsimp only
              split_ifs
              · exact permitted_handleSessionPermissionRequest hc.support hc.off hrestores
              · exact hc.off
          | switchPermission name enabled =>
              exact permitted_handleSwitchPermission hc.off hrestores
          | permissionRequestResult requestId name enabled approved =>
              exact permitted_handlePermissionRequestResult hc.off hrestores
          | closeReason => exact hc.off
          | close => exact hc.off
          | sessionsChanged sessions => exact hc.off
          | _ => cases hother
      · exact revoked_logsIn hc (Bool.eq_true_of_not_eq_false hother)
    rw [heq]
    exact ⟨hstate.authorized, hstate.support, hstate.off⟩
  · rw [Connection.next, if_neg hopen]
    exact hc

/-- The revocation itself is never denied. -/
theorem revoked_revocation (hopen : c.isOpen = true) (hauthorized : c.authorized = true)
    (hkind : c.sessionAuthKind ≠ .unattendedPassword) (answers : Answers) :
    Revoked permission (c.next platform (revocation permission answers)) := by
  obtain ⟨isOpen, heq⟩ :=
    next_of_authorized platform (revocation permission answers) hopen hauthorized
  have happlied : (c.dispatch platform (revocation permission answers)).state =
      c.applySwitchPermission permission.name false := by
    show c.handleSwitchPermission permission.name false = _
    rw [Connection.handleSwitchPermission, switchPermissionPolicyDenialReasonWithGrant]
    rfl
  obtain ⟨permitted, hpermitted⟩ := applySwitchPermission_eq c permission.name false
  have hoff : (c.applySwitchPermission permission.name false).permitted permission = false := by
    rw [permitted_applySwitchPermission, if_pos rfl]
  rw [heq, happlied]
  rw [hpermitted] at hoff ⊢
  exact ⟨hauthorized, hkind, hoff⟩

/-- After the local user switched a permission off in an authorized support session it
stays off until he switches it on, approves a pending request for it, or the peer asks
for it where no approval is needed. -/
theorem revocation_sticks {platform : Platform} {c : Connection} {permission : Permission}
    {answers : Answers} {more : List ConnectionEvent} (hopen : c.isOpen = true)
    (hauthorized : c.authorized = true) (hkind : c.sessionAuthKind ≠ .unattendedPassword)
    (hmore : Always (fun before event => ¬ Restores permission
      (connectionAfter platform c (revocation permission answers :: before)) event) more) :
    (connectionAfter platform c (revocation permission answers :: more)).permitted permission =
      false := by
  have hrun : Revoked permission
      (connectionAfter platform c (revocation permission answers :: more)) := by
    induction more using List.reverseRecOn with
    | nil => exact revoked_revocation hopen hauthorized hkind answers
    | append_singleton more event ih =>
        obtain ⟨hbefore, hlast⟩ := always_concat.mp hmore
        rw [← List.cons_append, connectionAfter_concat]
        exact revoked_next (ih hbefore) hlast
  exact hrun.off

/-- A session that the local user let in. -/
def supportSession : Connection where
  authorized := true
  sessionAuthKind := .clickApproval

theorem revocation_sticks_audio :
    (connectionAfter .linux supportSession [revocation .audio {},
      ⟨.sessionPermissionRequest 1 "audio" true, {}⟩]).permitted .audio = false := by
  refine revocation_sticks rfl rfl (by decide) ?_
  rw [always_singleton]
  rintro (h | ⟨requestId, name, enabled, request, h, _⟩ | ⟨requestId, _, _, _, h | h⟩)
  · cases h
  · cases h
  · cases h
  · cases h

/-! ## What the peer gets back by itself -/

/-- The keyboard is switched off and the peer asks for it. -/
theorem not_restored_only_by_user :
    ¬ ∀ (platform : Platform) (c : Connection) (permission : Permission) (answers : Answers)
        (more : List ConnectionEvent), c.isOpen = true → c.authorized = true →
      c.sessionAuthKind ≠ .unattendedPassword →
      Always (fun before event => ¬ RestoredByUser platform permission
        (connectionAfter platform c [revocation permission answers]) before event) more →
      (connectionAfter platform c (revocation permission answers :: more)).permitted permission =
        false := by
  intro h
  have hoff := h .linux supportSession .keyboard {}
    [⟨.sessionPermissionRequest 1 "keyboard" true, {}⟩] rfl rfl (by decide) (by
      rw [always_singleton]
      rintro (h | ⟨requestId, name, enabled, h, _⟩)
      · cases h
      · cases h)
  have hon : (connectionAfter .linux supportSession [revocation .keyboard {},
      ⟨.sessionPermissionRequest 1 "keyboard" true, {}⟩]).permitted .keyboard = true := by
    decide
  rw [hon] at hoff
  cases hoff

end RustAdmin.Server
