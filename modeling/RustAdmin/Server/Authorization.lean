import RustAdmin.Server.Moves
import RustAdmin.Support.Run

/-!
# Who is authorized

A connection should be authorized by the local user's click, by a switch of sides,
or by a password with the second factor where the device requires one.  A code of
the second factor that comes first authorizes it without any password.

`Accounted` says that every authorization, every second factor and every switch of
sides has its check among the inputs so far.  The moves of a login keep it
(`accounted_moves`), and so do the other handlers, each by its own lemma; the one turn
that may not is an accepted code that authorizes.  `next_of_codeAuthorizes` shows that
such a turn adds no other check, so it is sound exactly if a first factor was there
before it.
-/

namespace RustAdmin.Server

open RustAdmin.Support

variable {platform : Platform} {answers : Answers} {lr : LoginRequest} {host2fa : Bool}
  {c c' : Connection}

/-- One of the checks that a second factor can be added to was passed. -/
def FirstFactor (checks : List AuthCheck) : Prop :=
  .approved ∈ checks ∨ .uuidMatched ∈ checks ∨ .loginPassed ∈ checks

/-- The checks that make an authorization sound. -/
def Vouched (host2fa : Bool) (checks : List AuthCheck) : Prop :=
  .approved ∈ checks ∨ .uuidMatched ∈ checks ∨
    (.loginPassed ∈ checks ∧ (host2fa = true →
      .totpAccepted ∈ checks ∨ .deviceTrusted ∈ checks ∨ .recentConfirmed ∈ checks))

/-- The connection is authorized only with such checks. -/
def SoundlyAuthorized (host2fa : Bool) (c : Connection) : Prop :=
  c.authorized = true → Vouched host2fa c.checks

namespace Connection

/-- A code of the second factor is accepted on a connection that it can authorize. -/
def codeAuthorizes (platform : Platform) (c : Connection) (event : ConnectionEvent) : Bool :=
  match event.input with
  | .auth2fa code =>
      c.isOpen && !c.authorized && c.require2fa && event.answers.totpAttemptAllowed &&
        event.answers.totpAccepts code && c.admits platform event.answers
  | _ => false

end Connection

/-- A code of the second factor that authorizes comes after a first factor. -/
def CodeFollowsLogin (platform : Platform) (start : Connection)
    (events : List ConnectionEvent) (event : ConnectionEvent) : Prop :=
  let c := connectionAfter platform start events
  c.codeAuthorizes platform event = true → FirstFactor c.checks

/-! ## What each handler keeps -/

/-- Every authorization, every second factor and every switch of sides has its
check. -/
structure Accounted (host2fa : Bool) (c : Connection) : Prop where
  sound : SoundlyAuthorized host2fa c
  factor : host2fa = true → c.require2fa = false →
    .totpAccepted ∈ c.checks ∨ .deviceTrusted ∈ c.checks ∨ .approved ∈ c.checks
  switched : c.fromSwitch = true → .uuidMatched ∈ c.checks

theorem Vouched.mono {checks checks' : List AuthCheck} (hsub : checks ⊆ checks')
    (hvouched : Vouched host2fa checks) : Vouched host2fa checks' := by
  rcases hvouched with happroved | huuid | ⟨hpassed, hfactor⟩
  · exact Or.inl (hsub happroved)
  · exact Or.inr (Or.inl (hsub huuid))
  · refine Or.inr (Or.inr ⟨hsub hpassed, fun hhost => ?_⟩)
    exact (hfactor hhost).imp (@hsub _) (Or.imp (@hsub _) (@hsub _))

/-- A connection that differs by more checks and what they allow is accounted for. -/
theorem Accounted.of_le (hc : Accounted host2fa c) (hauthorized : c'.authorized = c.authorized)
    (hsub : c.checks ⊆ c'.checks)
    (hfactor : c'.require2fa = false → c.require2fa = false ∨
      .totpAccepted ∈ c'.checks ∨ .deviceTrusted ∈ c'.checks ∨ .approved ∈ c'.checks)
    (hswitched : c'.fromSwitch = true → c.fromSwitch = true ∨ .uuidMatched ∈ c'.checks) :
    Accounted host2fa c' where
  sound := by
    intro h
    exact (hc.sound (hauthorized ▸ h)).mono hsub
  factor := by
    intro hhost hoff
    rcases hfactor hoff with hbefore | hnow
    · exact (hc.factor hhost hbefore).imp (@hsub _) (Or.imp (@hsub _) (@hsub _))
    · exact hnow
  switched := by
    intro hfrom
    exact (hswitched hfrom).elim (fun h => hsub (hc.switched h)) id

/-- A connection with the same standing is accounted for. -/
theorem Accounted.of_eq (hc : Accounted host2fa c) (hauthorized : c'.authorized = c.authorized)
    (hchecks : c'.checks = c.checks) (hfactor : c'.require2fa = c.require2fa)
    (hswitched : c'.fromSwitch = c.fromSwitch) : Accounted host2fa c' := by
  apply hc.of_le hauthorized
  · rw [hchecks]
    exact List.Subset.refl _
  · intro h
    exact Or.inl (hfactor ▸ h)
  · intro h
    exact Or.inl (hswitched ▸ h)

theorem accounted_passed (hc : Accounted host2fa c) (check : AuthCheck) :
    Accounted host2fa (c.passed check) :=
  hc.of_le rfl (List.subset_append_left _ _) Or.inl Or.inl

theorem accounted_move (hmove : LoginMove platform answers lr c c') (hc : Accounted host2fa c) :
    Accounted host2fa c' := by
  cases hmove with
  | request => exact hc.of_eq rfl rfl rfl rfl
  | trust =>
      refine hc.of_le ?_ (List.subset_append_left _ _) ?_ ?_
      · rfl
      · intro _
        exact Or.inr (Or.inr (Or.inl (List.mem_append_right _ (List.mem_singleton_self _))))
      · exact Or.inl
  | note _ hnoted =>
      obtain ⟨_, _, _, _, rfl⟩ := requestConnection_eq hnoted
      exact hc.of_eq rfl rfl rfl rfl
  | session _ kind sessions => exact hc.of_eq rfl rfl rfl rfl
  | token token => exact hc.of_eq rfl rfl rfl rfl
  | pass => exact accounted_passed hc .loginPassed

theorem accounted_moves (hmoves : LoginMoves platform answers lr c c')
    (hc : Accounted host2fa c) : Accounted host2fa c' :=
  hmoves.invariant accounted_move hc

/-- With a first factor and the second one where it is required, the checks vouch
for the connection. -/
theorem Accounted.vouched (hc : Accounted host2fa c) (hfirst : FirstFactor c.checks)
    (hsecond : c.require2fa = true →
      .recentConfirmed ∈ c.checks ∨ c.fromSwitch = true) : Vouched host2fa c.checks := by
  rcases hfirst with happroved | huuid | hpassed
  · exact Or.inl happroved
  · exact Or.inr (Or.inl huuid)
  · cases hrequired : c.require2fa with
    | true =>
        rcases hsecond hrequired with hrecent | hfrom
        · exact Or.inr (Or.inr ⟨hpassed, fun _ => Or.inr (Or.inr hrecent)⟩)
        · exact Or.inr (Or.inl (hc.switched hfrom))
    | false =>
        by_cases happroved : .approved ∈ c.checks
        · exact Or.inl happroved
        · refine Or.inr (Or.inr ⟨hpassed, fun hhost => ?_⟩)
          rcases hc.factor hhost hrequired with htotp | htrusted | happroved'
          · exact Or.inl htotp
          · exact Or.inr (Or.inl htrusted)
          · exact absurd happroved' happroved

theorem accounted_authorize (hc : Accounted host2fa c)
    (hvouched : c.admits platform answers = true → Vouched host2fa c.checks) :
    Accounted host2fa (c.authorize platform answers).1 := by
  obtain ⟨token, permitted, address, heq, _⟩ := authorize_eq platform answers c
  rw [heq]
  cases hadmits : c.admits platform answers with
  | false => exact hc.of_eq rfl rfl rfl rfl
  | true => exact ⟨fun _ => hvouched hadmits, hc.factor, hc.switched⟩

/-- The logon keeps the account with a first factor, or where the connection is not
let in. -/
theorem accounted_logon (hc : Accounted host2fa c)
    (hfirst : FirstFactor c.checks ∨ c.authorized = true ∨
      (c.require2fa = false ∧ c.admits platform answers = false)) :
    Accounted host2fa (c.sendLogonResponseAndKeepAlive platform answers).1 := by
  unfold Connection.sendLogonResponseAndKeepAlive
  split_ifs with hauthorized
  · exact hc
  rcases hfirst with hfirst | hauthorized' | ⟨hrequired, hadmits⟩
  · obtain ⟨kind, sessions, checks, heq, hsub, hsecond⟩ := checkTwoFactor_eq answers c
    cases hresult : c.checkTwoFactor answers with
    | mk checked accepted =>
        rw [hresult] at heq hsecond
        dsimp only at heq hsecond
        subst heq
        have hchecked : Accounted host2fa
            { c with sessionAuthKind := kind, sessions := sessions, checks := checks } :=
          hc.of_le rfl hsub Or.inl Or.inl
        cases accepted with
        | false => exact hchecked
        | true =>
            apply accounted_authorize hchecked
            intro _
            refine hchecked.vouched ?_ (hsecond rfl)
            exact hfirst.imp (@hsub _) (Or.imp (@hsub _) (@hsub _))
  · exact absurd hauthorized' hauthorized
  · rw [checkTwoFactor_of_not_required answers hrequired]
    apply accounted_authorize hc
    intro h
    rw [hadmits] at h
    cases h

/-! ## The turns of the loop -/

/-- A change of the session that keeps its grants keeps what is granted. -/
theorem sessionConnectionGranted_updateOrInsertSession (c : Connection)
    (update : Session → Session) (hgrants : ∀ session, (update session).grants = session.grants)
    (connType : AuthConnType) :
    (c.updateOrInsertSession update).sessionConnectionGranted connType =
      c.sessionConnectionGranted connType := by
  show ((Function.update c.sessions c.sessionKey _) c.sessionKey).any _ = _
  rw [Function.update_self, Connection.sessionConnectionGranted]
  cases c.sessions c.sessionKey with
  | none => simp [hgrants]
  | some session => simp [hgrants]

/-- An accepted code leaves the policy as it was. -/
theorem admits_acceptCode (platform : Platform) (answers : Answers) (c : Connection) :
    c.acceptCode.admits platform answers = c.admits platform answers := by
  have hgranted : ∀ connType,
      c.acceptCode.sessionConnectionGranted connType = c.sessionConnectionGranted connType :=
    sessionConnectionGranted_updateOrInsertSession { c with require2fa := false }
      (fun session => { session with tfa := true, authKind := c.sessionAuthKind })
      fun _ => rfl
  unfold Connection.admits Connection.sessionConnectionPolicyDenialReason
  rw [hgranted]
  rfl

theorem accounted_loginRequest (hc : Accounted host2fa c) (lr : LoginRequest) :
    Accounted host2fa ((c.handleLoginRequest platform answers lr).finish platform answers).1 := by
  have hstored : Accounted host2fa (c.handleLoginRequestWithoutValidation answers lr) :=
    accounted_moves (handleLoginRequestWithoutValidation_moves platform lr) hc
  have hfrom : (c.handleLoginRequest platform answers lr).MovesFrom platform answers lr
      (c.handleLoginRequestWithoutValidation answers lr) := handleLoginRequest_moves lr
  have hstate := accounted_moves hfrom.moves hstored
  cases hhandled : c.handleLoginRequest platform answers lr with
  | done c' keepAlive =>
      rw [hhandled] at hstate
      exact hstate
  | logon c' =>
      rw [hhandled] at hstate
      apply accounted_logon hstate
      exact Or.inl (Or.inr (Or.inr (hfrom.passed c' hhandled).1))

theorem accounted_auth2fa (hc : Accounted host2fa c) (code : String)
    (hfollows : !c.authorized && c.require2fa && answers.totpAttemptAllowed &&
      answers.totpAccepts code && c.admits platform answers = true → FirstFactor c.checks) :
    Accounted host2fa ((c.handleAuth2fa answers code).finish platform answers).1 := by
  unfold Connection.handleAuth2fa
  split_ifs with hcounts
  · have hcoded : Accounted host2fa c.acceptCode := by
      apply hc.of_le
      · rfl
      · exact List.subset_append_left _ _
      · intro _
        exact Or.inr (Or.inl (List.mem_append_right _ (List.mem_singleton_self _)))
      · exact Or.inl
    apply accounted_logon hcoded
    by_cases hauthorized : c.authorized = true
    · exact Or.inr (Or.inl hauthorized)
    · by_cases hadmits : c.admits platform answers = true
      · have hfirst : FirstFactor c.checks := by
          apply hfollows
          simp only [Bool.and_eq_true] at hcounts
          simp [hauthorized, hadmits, hcounts]
        exact Or.inl (hfirst.imp (List.mem_append_left _)
          (Or.imp (List.mem_append_left _) (List.mem_append_left _)))
      · refine Or.inr (Or.inr ⟨rfl, ?_⟩)
        rw [admits_acceptCode]
        exact Bool.eq_false_iff.mpr hadmits
  · exact hc

theorem accounted_switchSides (hc : Accounted host2fa c) (uuid : List UInt8)
    (lr : Option LoginRequest) :
    Accounted host2fa
      ((c.handleSwitchSidesResponse platform answers uuid lr).finish platform answers).1 := by
  unfold Connection.handleSwitchSidesResponse
  cases lr with
  | none => exact hc
  | some lr =>
      have hstored : Accounted host2fa (c.handleLoginRequestWithoutValidation answers lr) :=
        accounted_moves (handleLoginRequestWithoutValidation_moves platform lr) hc
      dsimp only
      split_ifs with hmobile huuid
      · exact hc
      · have hmatched : .uuidMatched ∈
            (c.handleLoginRequestWithoutValidation answers lr).switchSides.checks :=
          List.mem_append_right _ (List.mem_singleton_self _)
        apply accounted_logon
        · apply hstored.of_le
          · rfl
          · exact List.subset_append_left _ _
          · exact Or.inl
          · exact fun _ => Or.inr hmatched
        · exact Or.inl (Or.inr (Or.inl hmatched))
      · exact hstored

theorem accounted_approval (hc : Accounted host2fa c) :
    Accounted host2fa (c.handleAuthorize.finish platform answers).1 := by
  have happroved : .approved ∈ c.approve.checks :=
    List.mem_append_right _ (List.mem_singleton_self _)
  apply accounted_logon
  · apply hc.of_le
    · rfl
    · exact List.subset_append_left _ _
    · exact fun _ => Or.inr (Or.inr (Or.inr happroved))
    · exact Or.inl
  · exact Or.inl (Or.inl happroved)

/-- One turn of the loop keeps the account, if a code that authorizes comes after a
first factor. -/
theorem accounted_next (hc : Accounted host2fa c) (event : ConnectionEvent)
    (hfollows : c.codeAuthorizes platform event = true → FirstFactor c.checks) :
    Accounted host2fa (c.next platform event) := by
  unfold Connection.next
  split_ifs with hopen
  · have hresult : Accounted host2fa
        ((c.dispatch platform event).finish platform event.answers).1 := by
      by_cases hother : event.input.logsIn = false
      · obtain ⟨_, _, _, keepAlive, heq⟩ := dispatch_of_not_logsIn platform c hother
        rw [heq]
        exact hc.of_eq rfl rfl rfl rfl
      unfold Connection.dispatch
      cases hinput : event.input with
      | loginRequest lr => exact accounted_loginRequest hc lr
      | auth2fa code =>
          apply accounted_auth2fa hc
          intro hauthorizes
          apply hfollows
          simpa [Connection.codeAuthorizes, hinput, hopen] using hauthorizes
      | switchSidesResponse uuid lr => exact accounted_switchSides hc uuid lr
      | authorize => exact accounted_approval hc
      | _ => simp [hinput, Input.logsIn] at hother
    exact hresult.of_eq rfl rfl rfl rfl
  · exact hc

/-! ## Whole runs -/

variable {permitted : Permission → Bool} {sessions : SessionKey → Option Session}

theorem accounted_fresh : Accounted host2fa (freshConnection host2fa permitted sessions) where
  sound := by
    intro h
    cases h
  factor := by
    intro hhost hoff
    rw [hhost] at hoff
    cases hoff
  switched := by
    intro h
    cases h

theorem accounted_run {events : List ConnectionEvent}
    (hfollows : Always (CodeFollowsLogin platform (freshConnection host2fa permitted sessions))
      events) :
    Accounted host2fa
      (connectionAfter platform (freshConnection host2fa permitted sessions) events) := by
  induction events using List.reverseRecOn with
  | nil => exact accounted_fresh
  | append_singleton events event ih =>
      obtain ⟨hevents, hevent⟩ := always_concat.mp hfollows
      rw [connectionAfter_concat]
      exact accounted_next (ih hevents) event hevent

/-- An accepted code authorizes a connection that is let in, and adds no other
check. -/
theorem next_of_codeAuthorizes {event : ConnectionEvent}
    (hauthorizes : c.codeAuthorizes platform event = true) :
    (c.next platform event).authorized = true ∧
      (c.next platform event).checks = c.checks ++ [.totpAccepted] := by
  unfold Connection.codeAuthorizes at hauthorizes
  split at hauthorizes
  · rename_i code hinput
    simp only [Bool.and_eq_true, Bool.not_eq_true'] at hauthorizes
    obtain ⟨⟨⟨⟨⟨hopen, hnew⟩, hrequired⟩, hallowed⟩, haccepts⟩, hadmits⟩ := hauthorizes
    have hhandled : c.dispatch platform event = .logon c.acceptCode := by
      simp [Connection.dispatch, hinput, Connection.handleAuth2fa, hrequired, hallowed, haccepts]
    have hcoded : c.acceptCode.admits platform event.answers = true :=
      (admits_acceptCode platform event.answers c).trans hadmits
    have hpolicy : c.atPolicy platform event = some c.acceptCode := by
      rw [Connection.atPolicy, hhandled]
      dsimp only
      rw [checkTwoFactor_of_not_required event.answers rfl]
    obtain ⟨_, _, _, _, heq⟩ := next_of_admits hopen hnew hpolicy hcoded
    rw [heq]
    exact ⟨rfl, rfl⟩
  · cases hauthorizes

/-- A run authorizes soundly at every point exactly when every code of the second
factor that authorizes comes after a click, a switch of sides or a login that passed
its password check. -/
theorem soundlyAuthorized_iff (platform : Platform) (host2fa : Bool)
    (permitted : Permission → Bool) (sessions : SessionKey → Option Session)
    (events : List ConnectionEvent) :
    (∀ before, before <+: events → SoundlyAuthorized host2fa
      (connectionAfter platform (freshConnection host2fa permitted sessions) before)) ↔
    Always (CodeFollowsLogin platform (freshConnection host2fa permitted sessions)) events := by
  constructor
  · rintro h before event after rfl hauthorizes
    have hsound := h (before ++ [event]) ⟨after, by simp⟩
    rw [connectionAfter_concat] at hsound
    obtain ⟨hauthorized, hchecks⟩ := next_of_codeAuthorizes hauthorizes
    have hvouched := hsound hauthorized
    rw [hchecks] at hvouched
    simp only [Vouched, List.mem_append, List.mem_singleton] at hvouched
    rcases hvouched with (happroved | h) | (huuid | h) | ⟨hpassed | h, _⟩
    · exact Or.inl happroved
    · cases h
    · exact Or.inr (Or.inl huuid)
    · cases h
    · exact Or.inr (Or.inr hpassed)
    · cases h
  · rintro h before ⟨after, rfl⟩
    apply (accounted_run ?_).sound
    rintro earlier event later rfl
    exact h earlier event (later ++ after) (by simp)

/-! ## A code without a password -/

/-- The first message of the peer is a code of the second factor. -/
def codeFirst : List ConnectionEvent :=
  [⟨.auth2fa "123456", { totpAccepts := fun code => code = "123456" }⟩]

/-- On a device with a second factor a correct code alone authorizes. -/
theorem not_soundlyAuthorized_codeFirst :
    ¬ ∀ (platform : Platform) (host2fa : Bool) (permitted : Permission → Bool)
        (sessions : SessionKey → Option Session) (events : List ConnectionEvent),
      SoundlyAuthorized host2fa
        (connectionAfter platform (freshConnection host2fa permitted sessions) events) := by
  intro h
  have hvouched := h .linux true (fun _ => true) (fun _ => none) codeFirst rfl
  have hchecks : (connectionAfter .linux
      (freshConnection true (fun _ => true) fun _ => none) codeFirst).checks =
        [.totpAccepted] := rfl
  rw [hchecks] at hvouched
  simp [Vouched] at hvouched

end RustAdmin.Server
