import RustAdmin.Handshake.ViewerAnswer

/-!
# The attempts of one connection

`connect_secure_direct_with_pairing_retry`, `promote_confirmed_direct_to_quic` and
`retry_after_cleared_rendezvous_pairing` of `src/src/client.rs`: the triples of the loops,
and what they say about every run.

The loops are handled by what holds between two attempts: `FromGood` says that a
program may be started wherever `Good` holds, and `spec_pairingRetry` is the induction
over the retries.  `BoundTrusted` is what a returned attempt leaves and what the
upgrade to QUIC starts from (`connectPretrusted_kept`, `secureDirectConnection_kept`).
A rendezvous connection brings its signed identity with the route, and nothing before
the next route changes it (`signedIdPk_kept`), so what
`validateRendezvousPeerIdentity` has checked still holds at the end.
-/

namespace RustAdmin.Handshake.Viewer

open RustAdmin.Support

variable {σ : Type} {C : PeerConfigs σ} {P : Primitives} {B : Base64} {cfg : Config}
  {target : Target} {host : DirectSignedId}

/-- The triples here start anywhere. -/
abbrev FromGood (C : PeerConfigs σ) (P : Primitives) (B : Base64) (cfg : Config)
    (target : Target) {α : Type} (task : Task α) (Post : α → World σ → Prop) : Prop :=
  Spec C P B cfg target (fun w => Good w) task Post

theorem spec_fail {α : Type} {e : HandshakeError} {Pre : World σ → Prop}
    {Post : α → World σ → Prop} (hgood : ∀ w, Pre w → Good w) :
    Spec C P B cfg target Pre (.fail e : Task α) Post := Holds.fail hgood

theorem loadInput_fromGood : FromGood C P B cfg target Task.loadInput
    fun input w => Good w ∧ input = w.input :=
  Holds.ask (fun _ h => h) (fun _ _ => trivial) fun _ _ h => ⟨h, h, rfl⟩

/-- Flags of an attempt may change between attempts. -/
theorem storeInput_fromGood {input : HandshakeInput} {start : HandshakeInput}
    (hpeer : input.peer = start.peer) (hpassphrase : input.passphrase = start.passphrase)
    (happroved : input.repairIdentityApproved = start.repairIdentityApproved) :
    Spec C P B cfg target (fun w => Good w ∧ start = w.input) (Task.storeInput input)
      fun _ w => Good w := by
  have hstore : Spec C P B cfg target (fun w => Good w ∧ start = w.input) (Task.storeInput input)
      fun _ w => Good w ∧ True := by
    refine spec_storeInput ?_
    rintro w ⟨hgood, rfl⟩
    refine ⟨.inr hpeer, hgood.storeInput hpeer ?_ ?_, trivial⟩
    · rw [hpassphrase]
      exact hgood.passphrase
    · rw [happroved]
      exact hgood.approved
  exact hstore.weaken (fun _ h => h) fun _ _ h => h.1

theorem stable_true : Stable C cfg fun _ : World σ => True := fun _ _ _ h => h

theorem connect_fromGood {candidate : Bool} :
    FromGood C P B cfg target (Task.connect candidate) fun _ w => Good w :=
  (spec_connect stable_true).weaken (fun _ h => ⟨h, trivial⟩) fun _ _ h => h.1

theorem hasConfirmed_fromGood {scope : PairingScope} :
    FromGood C P B cfg target (hasConfirmedPairedViewer scope) fun _ w => Good w :=
  (spec_hasConfirmedPairedViewer stable_true.storeStable).weaken (fun _ h => ⟨h, trivial⟩)
    fun _ _ h => h.1

theorem spec_connectDirect : FromGood C P B cfg target connectDirect fun _ w => Good w := by
  refine Holds.bind loadInput_fromGood fun input => ?_
  refine Holds.ite (fun _ => ?_) fun _ => ?_
  · exact connect_fromGood.weaken (fun _ h => h.1) fun _ _ h => h
  have hconnect : Spec C P B cfg target (fun w => Good w ∧ input = w.input)
      (Task.connect false).attempt fun _ w => Good w ∧ input = w.input :=
    Holds.attemptChecked (fun _ h => h.1) (fun _ _ => trivial)
      fun _ _ h => ⟨h.1.connected, h.1.connected, h.2⟩
  refine Holds.bind hconnect fun result => ?_
  split
  · exact Holds.ret (fun _ h => h.1) fun _ h => h.1
  · exact Holds.bind (storeInput_fromGood rfl rfl rfl) fun _ => connect_fromGood
  · exact spec_fail fun _ h => h.1

/-- The next attempt starts with the flag of the last one cleared. -/
theorem clearReopen_fromGood {γ : Type} {next : Task γ} {Post : γ → World σ → Prop}
    (hnext : FromGood C P B cfg target next Post) :
    FromGood C P B cfg target
      (Task.loadInput.bind fun input =>
        (Task.storeInput { input with reopenRequested := false }).bind fun _ => next) Post :=
  Holds.bind loadInput_fromGood fun _ => Holds.bind (storeInput_fromGood rfl rfl rfl) fun _ => hnext

/-- What an attempt leaves where its failure is looked at. -/
theorem secureDirectConnection_attempt {isQuic : Bool} :
    FromGood C P B cfg .direct (secureDirectConnection P B cfg isQuic).attempt
      fun result w => Good w ∧ ∀ pk, result = .ok pk → Established C P B cfg .direct pk w :=
  Holds.attempt spec_secureDirectConnection

theorem spec_pairingRetry {hadConfirmed : Bool} (attempts : ℕ)
    (retriedRejected retriedRemembered : Bool) :
    FromGood C P B cfg .direct (pairingRetry P B cfg hadConfirmed attempts retriedRejected
      retriedRemembered) fun result w => Established C P B cfg .direct result.2 w := by
  induction attempts generalizing retriedRejected retriedRemembered with
  | zero => exact spec_fail fun _ h => h
  | succ attempts ih =>
      refine clearReopen_fromGood ?_
      refine Holds.bind spec_connectDirect fun isQuic => ?_
      refine Holds.bind secureDirectConnection_attempt fun result => ?_
      cases result with
      | ok pk => exact Holds.ret (fun _ h => h.1) fun _ h => h.2 pk rfl
      | error error =>
          refine Holds.consequence (fun w => Good w) (fun _ h => h.1) ?_
          refine Holds.ite (fun _ => ih _ _) fun _ => ?_
          refine Holds.ite (fun _ => Holds.ite (fun _ => spec_fail fun _ h => h) fun _ => ih _ _)
            fun _ => ?_
          have hstill : FromGood C P B cfg .direct
              (if hadConfirmed = true then hasConfirmedPairedViewer .direct else pure true)
              fun _ w => Good w :=
            Holds.ite (fun _ => hasConfirmed_fromGood)
              fun _ => Holds.ret (fun _ h => h) fun _ h => h
          refine Holds.bind hstill fun still => ?_
          exact Holds.ite (fun _ => spec_fail fun _ h => h) fun _ => ih _ _

/-- The key of the peer that the attempts are bound to is trusted. -/
def BoundTrusted (C : PeerConfigs σ) (B : Base64) (cfg : Config) (pk : PublicKey)
    (w : World σ) : Prop :=
  ∃ id, w.input.peer = some (id, pk) ∧ Trusted C B cfg w id pk

theorem BoundTrusted.stable {pk : PublicKey} : Stable C cfg (BoundTrusted C B cfg pk) := by
  rintro w w' hkeeps ⟨id, hpeer, htrusted⟩
  exact ⟨id, hkeeps.peer.trans hpeer, htrusted.keeps hkeeps⟩

/-- No allowed call takes the trust of the peer that the attempts are bound to. -/
theorem BoundTrusted.kept {pk : PublicKey} (call : Call) (env : Environment) (w : World σ)
    (hallowed : Allowed C P B cfg target call w) (h : BoundTrusted C B cfg pk w) :
    BoundTrusted C B cfg pk (machine C cfg call env w).2 := by
  obtain ⟨id, hpeer, htrusted⟩ := h
  cases call with
  | newInput =>
      rw [show w.input.peer = none from hallowed] at hpeer
      cases hpeer
  | storeInput input =>
      rcases hallowed with hnone | hsame
      · rw [hnone] at hpeer
        cases hpeer
      · exact ⟨id, hsame.trans hpeer, htrusted⟩
  | storeOptions options =>
      refine ⟨id, hpeer, ?_⟩
      have hload : World.options C cfg
          { w with store := C.store cfg.peerConfigId options w.store } = options := C.load_store ..
      rcases hallowed.1 with hsame | ⟨id', pk', hpeer', hbootstrap, hpinned, -⟩
      · exact htrusted.keeps (.store hsame)
      · -- A new pin is that of the bound peer itself.
        obtain ⟨rfl, rfl⟩ := Prod.mk.inj (Option.some.inj (hpeer'.symm.trans hpeer))
        have hpk : pk'.bytes ≠ [] := by
          intro hnil
          have := pk'.length_bytes
          rw [hnil] at this
          cases this
        simp only [machine, Trusted]
        rw [hload, trustedPeerSigningKeyStatus, if_neg hpk, hbootstrap, if_neg (by simp), hpinned,
          pinnedPeerSigningKeyStatus_encode hpk]
  | receive => exact stable _ _ (.receive w _) ⟨id, hpeer, htrusted⟩
  | confirmPeerTrust _ fingerprint =>
      exact stable _ _ (.approve w fingerprint _) ⟨id, hpeer, htrusted⟩
  | requestPairingPassphrase => exact stable _ _ (.type w _) ⟨id, hpeer, htrusted⟩
  | pairingProof => exact stable _ _ (.prove w _ _) ⟨id, hpeer, htrusted⟩
  | _ => exact ⟨id, hpeer, htrusted⟩

/-! ## The upgrade to QUIC -/

theorem connectPretrusted_kept {pk : PublicKey} :
    Spec C P B cfg target (fun w => Good w ∧ BoundTrusted C B cfg pk w) Task.connectPretrusted
      fun _ w => Good w ∧ BoundTrusted C B cfg pk w :=
  Holds.checked (fun _ h => h.1) (fun _ _ => trivial)
    fun _ _ h => ⟨h.1.connected, fun _ _ => ⟨h.1.connected, h.2⟩⟩

/-- An attempt leaves the trust in the peer that the attempts are bound to. -/
theorem secureDirectConnection_kept {isQuic : Bool} {pk : PublicKey} :
    Spec C P B cfg .direct (fun w => Good w ∧ BoundTrusted C B cfg pk w)
      (secureDirectConnection P B cfg isQuic).attempt
      fun _ w => Good w ∧ BoundTrusted C B cfg pk w := by
  have hattempt : Spec C P B cfg .direct (fun w => Good w) (secureDirectConnection P B cfg isQuic)
      (Established C P B cfg .direct) := spec_secureDirectConnection
  have hframe := hattempt.frame (J := BoundTrusted C B cfg pk) BoundTrusted.kept
  exact (hframe.attempt.relaxStop fun _ h => h.1).weaken (fun _ h => h) fun _ _ h => h.1

/-- The upgrade hands out the key it was asked for, which is still trusted. -/
theorem spec_promoteConfirmedDirectToQuic {pk : PublicKey} (attempts : ℕ) :
    Spec C P B cfg .direct (fun w => Good w ∧ BoundTrusted C B cfg pk w)
      (promoteConfirmedDirectToQuic P B cfg pk attempts)
      fun promoted w => promoted = pk ∧ Good w ∧ BoundTrusted C B cfg pk w := by
  induction attempts with
  | zero => exact spec_bail
  | succ attempts ih =>
      refine Holds.bind spec_loadInput fun input => ?_
      have hclear : Spec C P B cfg .direct
          (fun w => Good w ∧ BoundTrusted C B cfg pk w ∧ input = w.input)
          (Task.storeInput { input with reopenRequested := false })
          fun _ w => Good w ∧ BoundTrusted C B cfg pk w := by
        refine spec_storeInput ?_
        rintro w ⟨hgood, htrusted, rfl⟩
        exact ⟨.inr rfl, hgood.storeInput rfl hgood.passphrase hgood.approved,
          BoundTrusted.stable w _ (.storeInput rfl rfl) htrusted⟩
      refine Holds.bind hclear fun _ => ?_
      refine Holds.bind connectPretrusted_kept fun promotion => ?_
      have hkeep : Spec C P B cfg .direct (fun w => Good w ∧ BoundTrusted C B cfg pk w)
          (.ret pk : Task PublicKey)
          fun promoted w => promoted = pk ∧ Good w ∧ BoundTrusted C B cfg pk w :=
        Holds.ret (fun _ h => h.1) fun _ h => ⟨rfl, h⟩
      cases promotion with
      | notTrusted => exact hkeep
      | timedOut => exact hkeep
      | stream =>
          refine Holds.bind secureDirectConnection_kept fun result => ?_
          split
          · refine Holds.bind spec_ensure fun _ => ?_
            refine Holds.ret (fun _ h => h.1) fun w h => ⟨?_, h.1, h.2.1⟩
            exact of_decide_eq_true h.2.2
          · exact ih
          · exact Holds.fail fun _ h => h.1

/-! ## The connection -/

/-- The world in which a connection begins: nothing is left from the ones before. -/
structure Fresh (w : World σ) : Prop where
  input : w.input = {}
  contact : w.contact = {}

theorem Fresh.good {w : World σ} (h : Fresh w) : Good w := by
  refine ⟨?_, ?_, ?_, ?_, ?_⟩ <;> simp [h.input, h.contact]

theorem spec_newInput :
    Spec C P B cfg target (fun w => Good w ∧ w.input.peer = none) Task.newInput fun _ w => Good w :=
  Holds.ask (fun _ h => h.1) (fun _ h => h.2) fun _ w h =>
    have hgood : Good { w with input := ({ canReopen := true } : HandshakeInput) } :=
      ⟨by simp, by simp, h.1.proved, h.1.sent, h.1.acked⟩
    ⟨hgood, hgood⟩

theorem spec_connectSecureDirectWithPairingRetry :
    Spec C P B cfg .direct (Fresh (σ := σ)) (connectSecureDirectWithPairingRetry P B cfg)
      (Established C P B cfg .direct) := by
  have hunbound : StoreStable C cfg fun w : World σ => w.input.peer = none := fun _ _ _ h => h
  refine Holds.consequence (fun w => Good w ∧ w.input.peer = none)
    (fun _ h => ⟨h.good, by simp [h.input]⟩) ?_
  refine Holds.bind (spec_hasConfirmedPairedViewer hunbound) fun hadConfirmed => ?_
  refine Holds.bind (spec_check (fun _ _ => rfl) fun _ _ => trivial) fun hadQuicTrust => ?_
  refine Holds.bind spec_newInput fun _ => ?_
  refine Holds.bind (spec_pairingRetry 5 false false) fun result => ?_
  refine Holds.ite (fun _ => Holds.ret (fun _ h => h.good) fun _ h => h) fun _ => ?_
  refine (spec_promoteConfirmedDirectToQuic 3).weaken (fun _ h => ⟨h.good, h.trusted⟩) ?_
  rintro _ w ⟨rfl, hgood, htrusted⟩
  exact ⟨hgood, nofun, htrusted⟩

/-! ## Rendezvous connections -/

/-- A direct attempt does nothing that a rendezvous one may not do. -/
theorem Allowed.rendezvous {peerId : String} {rsPk : Option PublicKey} {udp : Bool} {call : Call}
    {w : World σ} (h : Allowed C P B cfg .direct call w) :
    Allowed C P B cfg (.rendezvous peerId rsPk udp) call w := by
  cases call with
  | storeOptions options =>
      refine ⟨?_, fun scope => ?_⟩
      · rcases h.1 with hsame | ⟨id, pk, hpeer, hbootstrap, hpinned, hwhy⟩
        · exact .inl hsame
        refine .inr ⟨id, pk, hpeer, hbootstrap, hpinned, ?_⟩
        exact hwhy.imp_right fun hpaired => ⟨hpaired.acked, hpaired.typed, by simp⟩
      · rcases h.2 scope with hsame | hnone | hlegacy | ⟨id, pk, hpeer, hacked | hvouched⟩
        · exact .inl hsame
        · exact .inr (.inl hnone)
        · exact .inr (.inr (.inl hlegacy))
        · exact .inr (.inr (.inr ⟨id, pk, hpeer, .inl hacked⟩))
        · obtain ⟨-, -, rsPk, udp, htarget, -⟩ := hvouched
          cases htarget
  | openRoute => exact absurd rfl h
  | _ => exact h

/-- A direct attempt opens no route: what the last one brought stays. -/
theorem signedIdPk_kept {signed : Option Bytes} (call : Call) (env : Environment) (w : World σ)
    (hallowed : Allowed C P B cfg .direct call w) (h : w.signedIdPk = signed) :
    (machine C cfg call env w).2.signedIdPk = signed := by
  have hkeeps : ∀ {w' : World σ}, Keeps C cfg w w' → w'.signedIdPk = signed :=
    fun hkeeps => hkeeps.signedIdPk.trans h
  cases call with
  | openRoute => exact absurd rfl hallowed
  | receive => exact hkeeps (.receive w _)
  | confirmPeerTrust _ fingerprint => exact hkeeps (.approve w fingerprint _)
  | requestPairingPassphrase => exact hkeeps (.type w _)
  | pairingProof => exact hkeeps (.prove w _ _)
  | _ => exact h

section Routes

variable {peerId : String} {rsPk : Option PublicKey} {udp : Bool}

/-- A direct attempt over the stream of a route. -/
theorem spec_quicRoute {isQuic : Bool} {signed : Option Bytes} :
    Spec C P B cfg (.rendezvous peerId rsPk udp) (fun w => Good w ∧ w.signedIdPk = signed)
      (secureDirectConnection P B cfg isQuic)
      fun pk w => Good w ∧ BoundTrusted C B cfg pk w ∧ w.signedIdPk = signed := by
  have hattempt : Spec C P B cfg .direct (fun w => Good w) (secureDirectConnection P B cfg isQuic)
      (Established C P B cfg .direct) := spec_secureDirectConnection
  have hframe := hattempt.frame (J := fun w => w.signedIdPk = signed) signedIdPk_kept
  have hdirect : Spec C P B cfg .direct (fun w => Good w ∧ w.signedIdPk = signed)
      (secureDirectConnection P B cfg isQuic)
      fun pk w => Good w ∧ BoundTrusted C B cfg pk w ∧ w.signedIdPk = signed :=
    (hframe.relaxStop fun _ h => h.1).weaken (fun _ h => h)
      fun _ _ h => ⟨h.1.good, h.1.trusted, h.2⟩
  exact hdirect.relaxGuard fun _ _ h => h.rendezvous

/-- The stream of a route that is promoted to QUIC: the trust of before is kept. -/
theorem quicRoute_kept {isQuic : Bool} {signed : Option Bytes} {pk : PublicKey} :
    Spec C P B cfg (.rendezvous peerId rsPk udp)
      (fun w => (Good w ∧ w.signedIdPk = signed) ∧ BoundTrusted C B cfg pk w)
      (secureDirectConnection P B cfg isQuic)
      fun _ w => Good w ∧ BoundTrusted C B cfg pk w ∧ w.signedIdPk = signed := by
  have hattempt : Spec C P B cfg (.rendezvous peerId rsPk udp)
      (fun w => Good w ∧ w.signedIdPk = signed) (secureDirectConnection P B cfg isQuic)
      fun pk w => Good w ∧ BoundTrusted C B cfg pk w ∧ w.signedIdPk = signed := spec_quicRoute
  have hframe := hattempt.frame (J := BoundTrusted C B cfg pk) BoundTrusted.kept
  exact (hframe.relaxStop fun _ h => h.1).weaken (fun _ h => h) fun _ _ h => ⟨h.1.1, h.2, h.1.2.2⟩

/-- The identity of a QUIC stream is the one that the server vouches for. -/
theorem validateRendezvousPeerIdentity_eq_ok {signed : Bytes} {pk : PublicKey} {u : Unit}
    (h : validateRendezvousPeerIdentity P peerId signed rsPk pk = .ok u) :
    ∃ serverPk, rsPk = some serverPk ∧ ServerSigned P.toExternals serverPk signed peerId pk := by
  unfold validateRendezvousPeerIdentity at h
  cases rsPk with
  | none => cases h
  | some serverPk =>
      dsimp only at h
      split at h
      · cases h
      split at h
      · cases h
      next id signedPk hdecode =>
        split at h
        · cases h
        next hmatches =>
          push Not at hmatches
          obtain ⟨rfl, rfl⟩ := hmatches
          exact ⟨serverPk, rfl, decodeIdPk_eq_ok.mp hdecode⟩

theorem spec_connectRoute :
    FromGood C P B cfg (.rendezvous peerId rsPk udp) (connectRoute P B cfg peerId rsPk)
      (Established C P B cfg (.rendezvous peerId rsPk udp)) := by
  have hopen : FromGood C P B cfg (.rendezvous peerId rsPk udp) Task.openRoute
      fun route w => Good w ∧ w.signedIdPk = some route.signedIdPk := by
    refine Holds.checked (fun _ h => h) (fun _ _ => nofun) fun env w h => ?_
    have hgood : Good (machine C cfg .openRoute env w).2 :=
      ⟨h.passphrase, h.approved, by simp [machine], by simp [machine], by simp [machine]⟩
    refine ⟨hgood, fun route hroute => ⟨hgood, ?_⟩⟩
    have hanswer : env .openRoute = .ok route := hroute
    simp only [machine, hanswer, routeIdentity]
  refine Holds.bind hopen fun route => ?_
  refine Holds.ite (fun _ => ?_) fun _ => ?_
  · refine Holds.bind spec_quicRoute fun quicPk => ?_
    refine Holds.bind spec_ofText fun _ => ?_
    refine Holds.ret (fun _ h => h.1) fun w h => ?_
    obtain ⟨hgood, ⟨htrusted, hrouted⟩, hvalid⟩ := h
    obtain ⟨serverPk, hserver, hsigned⟩ := validateRendezvousPeerIdentity_eq_ok hvalid
    refine ⟨hgood, ?_, htrusted⟩
    rintro _ _ _ ⟨⟩
    exact ⟨serverPk, _, hserver, hrouted, hsigned⟩
  · refine Holds.bind spec_secureConnection fun pk => ?_
    -- What is known of the key of the peer does not depend on the stream.
    refine Holds.pointwise fun start hstart => ?_
    have hvouches := hstart.vouched peerId rsPk udp rfl
    let known : World σ → Prop := fun w =>
      (Good w ∧ w.signedIdPk = start.signedIdPk) ∧ BoundTrusted C B cfg pk w
    have hknown : ∀ w, known w → Established C P B cfg (.rendezvous peerId rsPk udp) pk w := by
      rintro w ⟨⟨hgood, hrouted⟩, htrusted⟩
      refine ⟨hgood, ?_, htrusted⟩
      rintro _ _ _ ⟨⟩
      obtain ⟨serverPk, signed, hserver, hsome, hsigned⟩ := hvouches
      exact ⟨serverPk, signed, hserver, hrouted.trans hsome, hsigned⟩
    refine Holds.consequence known ?_ ?_
    · rintro w rfl
      exact ⟨⟨hstart.good, rfl⟩, hstart.trusted⟩
    have hreturn : Spec C P B cfg (.rendezvous peerId rsPk udp) known (.ret pk : Task PublicKey)
        (Established C P B cfg (.rendezvous peerId rsPk udp)) :=
      Holds.ret (fun _ h => h.1.1) hknown
    refine Holds.ite (fun _ => ?_) fun _ => hreturn
    have hconnect : Spec C P B cfg (.rendezvous peerId rsPk udp) known Task.connectPretrusted
        fun _ w => known w :=
      Holds.checked (fun _ h => h.1.1) (fun _ _ => trivial) fun _ _ h =>
        ⟨h.1.1.connected, fun _ _ => ⟨⟨h.1.1.connected, h.1.2⟩, h.2⟩⟩
    refine Holds.bind hconnect fun promotion => ?_
    cases promotion with
    | notTrusted => exact hreturn
    | timedOut => exact hreturn
    | stream =>
        refine Holds.bind quicRoute_kept fun quicPk => ?_
        refine Holds.bind spec_ensure fun _ => ?_
        refine Holds.ret (fun _ h => h.1) fun w h => ?_
        obtain rfl : quicPk = pk := of_decide_eq_true h.2.2
        exact hknown w ⟨⟨h.1, h.2.1.2⟩, h.2.1.1⟩

theorem spec_startRoutes :
    FromGood C P B cfg (.rendezvous peerId rsPk udp) (startRoutes P B cfg peerId rsPk udp)
      (Established C P B cfg (.rendezvous peerId rsPk udp)) := by
  refine Holds.ite (fun _ => ?_) fun _ => spec_connectRoute
  refine Holds.bind (Holds.attempt spec_connectRoute) fun result => ?_
  cases result with
  | ok pk => exact Holds.ret (fun _ h => h.1) fun _ h => h.2 pk rfl
  | error _ => exact spec_connectRoute.weaken (fun _ h => h.1) fun _ _ h => h

theorem spec_startOperation :
    FromGood C P B cfg (.rendezvous peerId rsPk udp) (startOperation P B cfg peerId rsPk udp)
      (Established C P B cfg (.rendezvous peerId rsPk udp)) := by
  refine Holds.bind (Holds.attempt spec_startRoutes) fun result => ?_
  cases result with
  | ok pk => exact Holds.ret (fun _ h => h.1) fun _ h => h.2 pk rfl
  | error error =>
      refine Holds.consequence (fun w => Good w) (fun _ h => h.1) ?_
      refine Holds.bind loadInput_fromGood fun input => ?_
      have hagain : ∀ {changed : HandshakeInput}, changed.peer = input.peer →
          changed.passphrase = input.passphrase →
          changed.repairIdentityApproved = input.repairIdentityApproved →
          Spec C P B cfg (.rendezvous peerId rsPk udp) (fun w => Good w ∧ input = w.input)
            ((Task.storeInput changed).bind fun _ => .fail .reopenAfterApproval)
            (Established C P B cfg (.rendezvous peerId rsPk udp)) :=
        fun hpeer hpassphrase happroved =>
          Holds.bind (storeInput_fromGood hpeer hpassphrase happroved) fun _ =>
            spec_fail fun _ h => h
      refine Holds.ite (fun _ => hagain rfl rfl rfl) fun _ => ?_
      exact Holds.ite (fun _ => hagain rfl rfl rfl) fun _ => spec_fail fun _ h => h.1

theorem spec_retryAfterClearedRendezvousPairing {α : Type} {op : Task α} {hadConfirmed : Bool}
    {Post : α → World σ → Prop} (hop : FromGood C P B cfg target op Post) (operations : ℕ)
    (retriedRemembered retriedRejected : Bool) :
    FromGood C P B cfg target (retryAfterClearedRendezvousPairing hadConfirmed op operations
      retriedRemembered retriedRejected) Post := by
  induction operations generalizing retriedRemembered retriedRejected with
  | zero => exact spec_fail fun _ h => h
  | succ operations ih =>
      refine Holds.bind hop.attempt fun result => ?_
      cases result with
      | ok result => exact Holds.ret (fun _ h => h.1) fun _ h => h.2 result rfl
      | error error =>
          refine Holds.consequence (fun w => Good w) (fun _ h => h.1) ?_
          refine Holds.ite (fun _ => ih _ _) fun _ => ?_
          refine Holds.ite (fun _ => ih _ _) fun _ => ?_
          have hstill : FromGood C P B cfg target
              (if hadConfirmed = true then hasConfirmedPairedViewer .rendezvous else pure true)
              fun _ w => Good w :=
            Holds.ite (fun _ => hasConfirmed_fromGood)
              fun _ => Holds.ret (fun _ h => h) fun _ h => h
          refine Holds.bind hstill fun still => ?_
          exact Holds.ite (fun _ => spec_fail fun _ h => h) fun _ => ih _ _

theorem spec_startRendezvous :
    Spec C P B cfg (.rendezvous peerId rsPk udp) (Fresh (σ := σ))
      (startRendezvous P B cfg peerId rsPk udp)
      (Established C P B cfg (.rendezvous peerId rsPk udp)) := by
  refine Holds.consequence (fun w => Good w ∧ w.input.peer = none)
    (fun _ h => ⟨h.good, by simp [h.input]⟩) ?_
  refine Holds.bind spec_newInput fun _ => ?_
  refine Holds.bind hasConfirmed_fromGood fun hadConfirmed => ?_
  exact spec_retryAfterClearedRendezvousPairing spec_startOperation 5 false false

end Routes

end RustAdmin.Handshake.Viewer
