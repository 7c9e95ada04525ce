import RustAdmin.Handshake.ViewerTrust

/-!
# One attempt of a viewer

The phases of `secure_direct_connection_with_input` and `secure_connection_with_input`
(`src/src/client.rs`): the offer, the binding to one identity, the trust that it needs, the
answer, the acknowledgement and what is remembered.

One triple for each phase, each from the condition that the phase before it leaves:
`BoundTo` the identity, `Assessed` its key, `Offered` the trust that is still pending.
All of these depend only on what `Keeps` says stays, so they are `Stable` and survive
the calls in between.
-/

namespace RustAdmin.Handshake

open RustAdmin.Support

variable {E : Externals}

/-! ## Offers -/

theorem SaltField.isSome {required : Bool} {bytes : Bytes} {salt : Option Salt}
    (h : SaltField required bytes salt) : salt.isSome = required := by
  cases h <;> rfl

/-- An offer asks for pairing just where it carries a salt. -/
theorem decodeDirectIdPk_isSome {payload : Bytes} {direct : DirectSignedId}
    (h : decodeDirectIdPk E payload = .ok direct) :
    direct.pairingSalt.isSome = direct.pairingRequired := by
  cases (decodeDirectIdPk_eq_ok_iff payload direct).mp h with
  | plain => rfl
  | paired _ _ _ hsalt => exact hsalt.isSome
  | quic _ _ _ _ _ _ _ _ hsalt => exact hsalt.isSome

theorem decodeSecureSignedId_isSome {signed : Bytes} {key : PublicKey} {secure : SecureSignedId}
    (h : decodeSecureSignedId E signed key = .ok secure) :
    secure.pairingSalt.isSome = secure.pairingRequired := by
  unfold decodeSecureSignedId at h
  split at h
  · cases h
  split at h
  · unfold readSecureV2 at h
    split at h
    · simp only at h
      split at h
      · cases h
      split at h
      · cases h
      rename_i hsalt
      split at h
      · cases h
      obtain rfl := Except.ok.inj h
      exact (readPairingSalt_eq_ok.mp hsalt).isSome
    · cases h
  · split at h
    · cases h
    · obtain rfl := Except.ok.inj h
      rfl

/-- A QUIC identity adds a certificate to an offer and changes nothing else. -/
theorem attachDirectQuicIdentity_eq_ok {directId directId' : DirectSignedId} {payload : Bytes}
    (h : attachDirectQuicIdentity E directId payload = .ok directId') :
    ∃ certificate, directId' = { directId with quicCertificateDer := certificate } := by
  unfold attachDirectQuicIdentity at h
  split at h
  · exact ⟨directId.quicCertificateDer, (Except.ok.inj h).symm⟩
  · split at h
    · cases h
    · split at h
      · cases h
      · exact ⟨_, (Except.ok.inj h).symm⟩

theorem attachSecureQuicIdentity_eq_ok {secureId secureId' : SecureSignedId} {key : PublicKey}
    {payload : Bytes} (h : attachSecureQuicIdentity E secureId key payload = .ok secureId') :
    ∃ certificate, secureId' = { secureId with quicCertificateDer := certificate } := by
  unfold attachSecureQuicIdentity at h
  split at h
  · exact ⟨secureId.quicCertificateDer, (Except.ok.inj h).symm⟩
  · split at h
    · cases h
    · split at h
      · cases h
      · exact ⟨_, (Except.ok.inj h).symm⟩

namespace Viewer

variable {σ : Type} {C : PeerConfigs σ} {P : Primitives} {B : Base64} {cfg : Config}
  {target : Target} {I : World σ → Prop} {w w' : World σ} {host : DirectSignedId}

theorem mapError_eq_ok {α : Type} {result : Except String α} {f : String → String} {a : α} :
    result.mapError f = .ok a ↔ result = .ok a := by
  cases result <;> simp [Except.mapError]

theorem spec_receiveSignedId (hI : Stable C cfg I) :
    Spec C P B cfg target (fun w => Good w ∧ I w) receiveSignedId fun _ w => Good w ∧ I w := by
  refine Holds.pointwise fun start hstart => ?_
  refine Holds.bind (Holds.weaken (spec_receive hI start.contact.sent) ?_
    fun _ _ h => h) fun received => ?_
  · rintro w rfl
    exact ⟨hstart.1, hstart.2, rfl⟩
  · have hgood : ∀ w : World σ, Good w ∧ I w ∧ w.contact.sent = start.contact.sent ∧
        (isAck (.ok received) = true → w.contact.acked = start.contact.sent) →
        Good w ∧ I w := fun w h => ⟨h.1, h.2.1⟩
    refine Holds.weaken ?_ hgood fun _ _ h => h
    split
    · exact spec_bail
    · exact Holds.ret (fun _ h => h.1) fun _ h => h
    · exact spec_bail

theorem spec_validateBinding {isQuic : Bool} {signPk : PublicKey} {certificate : Option Bytes} :
    Spec C P B cfg target (fun w => Good w ∧ I w) (validateBinding isQuic signPk certificate)
      fun _ w => Good w ∧ I w := by
  unfold validateBinding
  refine Holds.ite (fun _ => ?_) fun _ => Holds.ret (fun _ h => h.1) fun _ h => h
  cases certificate with
  | none => exact spec_bail
  | some certificate => exact spec_check (fun _ _ => rfl) fun _ _ => trivial

theorem spec_directHello (hI : Stable C cfg I) {isQuic : Bool} :
    Spec C P B cfg target (fun w => Good w ∧ I w) (directHello P isQuic)
      fun host w => Good w ∧ I w ∧ host.pairingSalt.isSome = host.pairingRequired := by
  refine Holds.bind (spec_receiveSignedId hI) fun signedId => ?_
  refine Holds.bind spec_ofText fun directId => ?_
  refine Holds.assuming (fun w h => mapError_eq_ok.mp h.2.2) fun hdecode => ?_
  refine Holds.bind spec_ofText fun attached => ?_
  refine Holds.assuming (fun w h => h.2.2) fun hattach => ?_
  refine Holds.bind spec_validateBinding fun _ => ?_
  refine Holds.ret (fun _ h => h.1) fun w h => ⟨h.1, h.2.1.1, ?_⟩
  obtain ⟨certificate, rfl⟩ := attachDirectQuicIdentity_eq_ok hattach
  exact show directId.pairingSalt.isSome = _ from decodeDirectIdPk_isSome hdecode

theorem spec_rendezvousHello (hI : Stable C cfg I) {isQuic : Bool} {signPk : PublicKey} :
    Spec C P B cfg target (fun w => Good w ∧ I w) (rendezvousHello P isQuic signPk)
      fun host w => Good w ∧ I w ∧
        host.pairingSalt.isSome = host.pairingRequired ∧ host.signPk = signPk := by
  refine Holds.bind (spec_receiveSignedId hI) fun signedId => ?_
  refine Holds.bind spec_ofText fun secureId => ?_
  refine Holds.assuming (fun w h => mapError_eq_ok.mp h.2.2) fun hdecode => ?_
  refine Holds.bind spec_ofText fun attached => ?_
  refine Holds.assuming (fun w h => h.2.2) fun hattach => ?_
  refine Holds.bind spec_validateBinding fun _ => ?_
  refine Holds.ret (fun _ h => h.1) fun w h => ⟨h.1, h.2.1.1, ?_, rfl⟩
  obtain ⟨certificate, rfl⟩ := attachSecureQuicIdentity_eq_ok hattach
  exact show secureId.pairingSalt.isSome = _ from decodeSecureSignedId_isSome hdecode

/-! ## The identity of the attempts -/

/-- The attempts are bound to the peer of this offer. -/
def BoundTo (host : DirectSignedId) (w : World σ) : Prop :=
  w.input.peer = some (host.id, host.signPk)

theorem spec_bindPeer (hI : ∀ w input, I w → I { w with input := input }) :
    Spec C P B cfg target (fun w => Good w ∧ I w) (bindPeer host.id host.signPk)
      fun _ w => Good w ∧ BoundTo host w ∧ I w := by
  refine Holds.bind spec_loadInput fun input => ?_
  cases hpeer : input.peer with
  | some expected =>
      refine Holds.ite (fun heq => ?_) fun _ => spec_bail
      refine Holds.ret (fun _ h => h.1) ?_
      rintro w ⟨hgood, hi, rfl⟩
      exact ⟨hgood, hpeer.trans (congrArg some heq), hi⟩
  | none =>
      refine spec_storeInput ?_
      rintro w ⟨hgood, hi, rfl⟩
      -- Nothing can be left over from an attempt that was bound to no identity.
      have hpassphrase : w.input.passphrase = none := by
        cases hp : w.input.passphrase with
        | none => rfl
        | some passphrase =>
            obtain ⟨peer, hsome, -⟩ := hgood.passphrase passphrase hp
            rw [hpeer] at hsome
            cases hsome
      have happroved : w.input.repairIdentityApproved = false := by
        by_contra hne
        obtain ⟨id, pk, hsome, -⟩ := hgood.approved (by simpa using hne)
        rw [hpeer] at hsome
        cases hsome
      refine ⟨.inl hpeer, ⟨?_, ?_, hgood.proved, hgood.sent, hgood.acked⟩, rfl,
        hI w _ hi⟩
      · intro passphrase hp
        rw [hpassphrase] at hp
        cases hp
      · intro happ
        rw [happroved] at happ
        cases happ

/-! ## The trust that is needed -/

/-- Behind a rendezvous server the offer is that of the peer which the server vouches for. -/
def VouchedFor (P : Primitives) (target : Target) (host : DirectSignedId) (w : World σ) : Prop :=
  ∀ peerId rsPk udp, target = .rendezvous peerId rsPk udp →
    host.id = peerId ∧ ServerVouches P w rsPk peerId host.signPk

theorem ServerVouches.stable {rsPk : Option PublicKey} {id : String} {pk : PublicKey} :
    Stable C cfg fun w : World σ => ServerVouches P w rsPk id pk := by
  rintro w w' hkeeps ⟨serverPk, signed, hserver, hrouted, hsigned⟩
  exact ⟨serverPk, signed, hserver, hkeeps.signedIdPk.trans hrouted, hsigned⟩

theorem VouchedFor.stable : Stable C cfg fun w : World σ => VouchedFor P target host w := by
  intro w w' hkeeps h peerId rsPk udp htarget
  obtain ⟨hid, hvouches⟩ := h peerId rsPk udp htarget
  exact ⟨hid, ServerVouches.stable w w' hkeeps hvouches⟩

theorem VouchedFor.direct : VouchedFor P .direct host w := nofun

/-- How the offer stands to the pinned key. -/
structure Assessed (C : PeerConfigs σ) (P : Primitives) (B : Base64) (cfg : Config)
    (target : Target) (host : DirectSignedId) (pending : Option PendingPeerTrust) (w : World σ) :
    Prop where
  bound : BoundTo host w
  vouched : VouchedFor P target host w
  trusted : pending = none → Trusted C B cfg w host.id host.signPk
  fingerprint : ∀ trust, pending = some trust →
    trust.fingerprint = pkToFingerprint host.signPk.bytes
  unpinned : ∀ trust, pending = some trust → trust.replaceExistingPin = false →
    nonempty (w.options C cfg).pinnedSigningKey = none

theorem Trusted.keeps {id : String} {pk : PublicKey} (h : Trusted C B cfg w id pk)
    (hkeeps : Keeps C cfg w w') : Trusted C B cfg w' id pk :=
  (trustedPeerSigningKeyStatus_congr hkeeps.pinned).trans h

theorem Assessed.stable {pending : Option PendingPeerTrust} :
    Stable C cfg (Assessed C P B cfg target host pending) := by
  intro w w' hkeeps h
  refine ⟨hkeeps.peer.trans h.bound, VouchedFor.stable w w' hkeeps h.vouched,
    fun hnone => (h.trusted hnone).keeps hkeeps, h.fingerprint, fun trust htrust hreplace => ?_⟩
  rw [hkeeps.pinned]
  exact h.unpinned trust htrust hreplace

/-- What the status of a key says about the pending trust. -/
theorem Assessed.ofStatus {status : TrustedPeerSigningKeyStatus} (hbound : BoundTo host w)
    (hvouched : VouchedFor P target host w)
    (hstatus : trustedPeerSigningKeyStatus B (cfg.bootstrapKey host.id) (w.options C cfg)
      host.signPk.bytes = .ok status) :
    Assessed C P B cfg target host (pendingPeerTrustFromStatus P status host.signPk) w := by
  cases status with
  | trusted => exact ⟨hbound, hvouched, fun _ => hstatus, by simp [pendingPeerTrustFromStatus],
      by simp [pendingPeerTrustFromStatus]⟩
  | missing =>
      refine ⟨hbound, hvouched, by simp [pendingPeerTrustFromStatus], ?_,
        fun _ _ _ => missing_of_status hstatus⟩
      rintro trust ⟨⟩
      rfl
  | changed expected actual =>
      refine ⟨hbound, hvouched, by simp [pendingPeerTrustFromStatus], ?_, ?_⟩
      · rintro trust ⟨⟩
        rfl
      · rintro trust ⟨⟩ ⟨⟩
  | invalidPinnedKey reason =>
      refine ⟨hbound, hvouched, by simp [pendingPeerTrustFromStatus], ?_, ?_⟩
      · rintro trust ⟨⟩
        rfl
      · rintro trust ⟨⟩ ⟨⟩

/-- Where a changed identity is to be repaired, the user has compared this one. -/
def RepairApproved (host : DirectSignedId) (pending : Option PendingPeerTrust) (w : World σ) :
    Prop :=
  pending.isSome = true → w.input.requireAuthenticatedRepair = true →
    pkToFingerprint host.signPk.bytes ∈ w.approved

theorem RepairApproved.stable {pending : Option PendingPeerTrust} :
    Stable C cfg (RepairApproved (σ := σ) host pending) := by
  intro w w' hkeeps h hpending hrepair
  rw [hkeeps.repair] at hrepair
  exact hkeeps.approved _ (h hpending hrepair)

theorem Stable.and {J : World σ → Prop} (hI : Stable C cfg I) (hJ : Stable C cfg J) :
    Stable C cfg fun w => I w ∧ J w :=
  fun w w' hkeeps h => ⟨hI w w' hkeeps h.1, hJ w w' hkeeps h.2⟩

/-- Knowing the present input, an attempt may change it in a way that keeps the peer. -/
theorem Good.storeInput {input : HandshakeInput} (h : Good w) (hpeer : input.peer = w.input.peer)
    (hpassphrase : ∀ passphrase, input.passphrase = some passphrase →
      ∃ peer, w.input.peer = some peer ∧ (passphrase, peer) ∈ w.typed)
    (happroved : input.repairIdentityApproved = true → ∃ id pk, w.input.peer = some (id, pk) ∧
      pkToFingerprint (Block.bytes pk) ∈ w.approved) : Good { w with input := input } where
  passphrase := by
    intro passphrase hp
    obtain ⟨peer, hsome, hmem⟩ := hpassphrase passphrase hp
    exact ⟨peer, hpeer.trans hsome, hmem⟩
  approved := by
    intro happ
    obtain ⟨id, pk, hsome, hmem⟩ := happroved happ
    exact ⟨id, pk, hpeer.trans hsome, hmem⟩
  proved := h.proved
  sent := h.sent
  acked := h.acked

theorem Keeps.storeInput {input : HandshakeInput} (hpeer : input.peer = w.input.peer)
    (hrepair : input.requireAuthenticatedRepair = w.input.requireAuthenticatedRepair) :
    Keeps C cfg w { w with input := input } := ⟨hpeer, hrepair, rfl, rfl, fun _ h => h⟩

theorem spec_approveRepair {pending : Option PendingPeerTrust} :
    Spec C P B cfg target (fun w => Good w ∧ Assessed C P B cfg target host pending w)
      (approveRepair host pending)
      fun _ w => Good w ∧ Assessed C P B cfg target host pending w ∧
        RepairApproved host pending w := by
  refine Holds.bind spec_loadInput fun input => ?_
  cases pending with
  | none => exact Holds.ret (fun _ h => h.1) fun _ h => ⟨h.1, h.2.1, by simp [RepairApproved]⟩
  | some trust =>
      refine Holds.assuming (fun w h => h.2.1.fingerprint trust rfl) fun hfingerprint => ?_
      refine Holds.ite (fun _ => ?_) fun hskip => ?_
      · have hask : Spec C P B cfg target
            (fun w => Good w ∧ Assessed C P B cfg target host (some trust) w ∧ input = w.input)
            (Task.confirmPeerTrust host.id trust.fingerprint trust.trustPhrase true)
            fun _ w => Good w ∧ Assessed C P B cfg target host (some trust) w ∧ w.input = input ∧
              pkToFingerprint host.signPk.bytes ∈ w.approved := by
          refine Holds.pointwise fun start hstart => ?_
          refine (spec_confirmPeerTrust (I := Assessed C P B cfg target host (some trust))
            Assessed.stable start.contact.allowed input).weaken ?_ ?_
          · rintro w rfl
            exact ⟨hstart.1, hstart.2.1, rfl, hstart.2.2.symm⟩
          · rintro _ w ⟨hgood, hassessed, -, hinput, -, hmem⟩
            exact ⟨hgood, hassessed, hinput, hfingerprint ▸ hmem⟩
        refine Holds.bind hask fun _ => ?_
        refine spec_storeInput ?_
        rintro w ⟨hgood, hassessed, rfl, hmem⟩
        refine ⟨.inr rfl, hgood.storeInput rfl hgood.passphrase
          fun _ => ⟨_, _, hassessed.bound, hmem⟩, ?_, ?_⟩
        · exact Assessed.stable w _ (.storeInput rfl rfl) hassessed
        · exact fun _ _ => hmem
      · refine Holds.ret (fun _ h => h.1) ?_
        rintro w ⟨hgood, hassessed, rfl⟩
        refine ⟨hgood, hassessed, fun _ hrepair => ?_⟩
        -- The identity was approved in an attempt before, and the attempts are bound to it.
        have happroved : w.input.repairIdentityApproved = true := by
          simpa [hrepair] using hskip
        obtain ⟨id, pk, hpeer, hmem⟩ := hgood.approved happroved
        obtain ⟨rfl, rfl⟩ := Prod.mk.inj (Option.some.inj (hpeer.symm.trans hassessed.bound))
        exact hmem

/-- What is known after the first contact, if there was one. -/
structure Offered (C : PeerConfigs σ) (P : Primitives) (B : Base64) (cfg : Config)
    (target : Target) (host : DirectSignedId) (pending : Option PendingPeerTrust) (w : World σ) :
    Prop where
  bound : BoundTo host w
  vouched : VouchedFor P target host w
  trusted : pending = none → Trusted C B cfg w host.id host.signPk
  approved : target = .direct → RepairApproved host pending w

theorem Offered.stable {pending : Option PendingPeerTrust} :
    Stable C cfg (Offered C P B cfg target host pending) := by
  intro w w' hkeeps h
  exact ⟨hkeeps.peer.trans h.bound, VouchedFor.stable w w' hkeeps h.vouched,
    fun hnone => (h.trusted hnone).keeps hkeeps,
    fun hdirect => RepairApproved.stable w w' hkeeps (h.approved hdirect)⟩

theorem spec_reopenIfLate {input : HandshakeInput} (hI : Stable C cfg I) :
    Spec C P B cfg target (fun w => Good w ∧ I w ∧ input = w.input) (reopenIfLate input)
      fun _ w => Good w ∧ I w := by
  refine Holds.bind (spec_look (fun _ _ => rfl) fun _ => trivial) fun late => ?_
  refine Holds.ite (fun _ => ?_) fun _ => Holds.ret (fun _ h => h.1) fun _ h => ⟨h.1, h.2.1⟩
  have hstore : Spec C P B cfg target (fun w => Good w ∧ I w ∧ input = w.input)
      (Task.storeInput { input with reopenRequested := true }) fun _ w => Good w ∧ I w := by
    refine spec_storeInput ?_
    rintro w ⟨hgood, hi, rfl⟩
    exact ⟨.inr rfl, hgood.storeInput rfl hgood.passphrase hgood.approved,
      hI w _ (.storeInput rfl rfl) hi⟩
  exact Holds.bind hstore fun _ => Holds.fail fun _ h => h.1

/-- The key that the user has compared is pinned, and trusted from then on. -/
theorem spec_pinFirstContact {options pinned : PeerOptions} {trust : PendingPeerTrust}
    (hpin : pinTrustedPeerSigningKey B (cfg.bootstrapKey host.id) options host.signPk.bytes =
      .ok pinned) :
    Spec C P B cfg target
      (fun w => Good w ∧ ((Assessed C P B cfg target host (some trust) w ∧
        FirstContact C cfg w host.signPk) ∧ options = w.options C cfg) ∧
        pinTrustedPeerSigningKey B (cfg.bootstrapKey host.id) options host.signPk.bytes =
          .ok pinned)
      (Task.storeOptions pinned) fun _ w => Good w ∧ Offered C P B cfg target host none w := by
  have hcases := pinTrustedPeerSigningKey_eq_ok hpin
  refine spec_storeOptions ?_ ?_
  · rintro w ⟨-, ⟨⟨hassessed, hcontact⟩, rfl⟩, -⟩
    refine ⟨?_, fun scope => .inl ?_⟩
    · rcases hcases with rfl | ⟨-, hbootstrap, rfl⟩
      · exact .inl rfl
      · exact .inr ⟨_, _, hassessed.bound, hbootstrap, rfl, .inl hcontact⟩
    · rcases hcases with rfl | ⟨-, -, rfl⟩
      · rfl
      · cases scope <;> rfl
  · rintro w ⟨-, ⟨⟨hassessed, -⟩, -⟩, -⟩
    refine ⟨hassessed.bound, hassessed.vouched, fun _ => ?_, by simp [RepairApproved]⟩
    have hload : World.options C cfg
        { w with store := C.store cfg.peerConfigId pinned w.store } = pinned := C.load_store ..
    rw [Trusted, hload]
    exact trusted_of_pinTrusted hpin

theorem spec_trustFirstContact {texts : TrustTexts} {pending : Option PendingPeerTrust} :
    Spec C P B cfg target
      (fun w => Good w ∧ Assessed C P B cfg target host pending w ∧
        (target = .direct → RepairApproved host pending w))
      (trustFirstContact B cfg texts host pending)
      fun result w => Good w ∧ Offered C P B cfg target host result.1 w ∧
        (result.1.isSome = true → host.pairingRequired = true) := by
  cases pending with
  | none =>
      refine Holds.ret (fun _ h => h.1) fun w h =>
        ⟨h.1, ⟨h.2.1.bound, h.2.1.vouched, h.2.1.trusted, h.2.2⟩, ?_⟩
      simp
  | some trust =>
      refine Holds.ite (fun hrequired => ?_) fun _ => ?_
      · exact Holds.ret (fun _ h => h.1) fun w h =>
          ⟨h.1, ⟨h.2.1.bound, h.2.1.vouched, by simp, h.2.2⟩, fun _ => hrequired⟩
      refine Holds.ite (fun _ => spec_bail) fun hreplace => ?_
      have hreplace : trust.replaceExistingPin = false := by simpa using hreplace
      have hallow : Spec C P B cfg target
          (fun w => Good w ∧ Assessed C P B cfg target host (some trust) w ∧
            (target = .direct → RepairApproved host (some trust) w)) Task.allowUnverifiedPeerTrust
          fun allowed w => Good w ∧ Assessed C P B cfg target host (some trust) w ∧
            w.contact.allowed = allowed :=
        (spec_allowUnverifiedPeerTrust (I := Assessed C P B cfg target host (some trust))
          Assessed.stable).weaken (fun _ h => ⟨h.1, h.2.1⟩) fun _ _ h => h
      refine Holds.bind hallow fun allowed => ?_
      refine Holds.bind spec_ensure fun _ => ?_
      refine Holds.assuming (fun w h => h.2.2) fun hallowed => ?_
      have hask : Spec C P B cfg target
          (fun w => Good w ∧ (Assessed C P B cfg target host (some trust) w ∧
            w.contact.allowed = allowed) ∧ allowed = true)
          (Task.confirmPeerTrust host.id trust.fingerprint trust.trustPhrase texts.direct)
          fun _ w => Good w ∧ Assessed C P B cfg target host (some trust) w ∧
            FirstContact C cfg w host.signPk := by
        refine Holds.pointwise fun start hstart => ?_
        refine (spec_confirmPeerTrust (I := Assessed C P B cfg target host (some trust))
          Assessed.stable true start.input).weaken ?_ ?_
        · rintro w rfl
          exact ⟨hstart.1, hstart.2.1.1, hstart.2.1.2.trans hallowed, rfl⟩
        · rintro _ w ⟨hgood, hassessed, hallow, -, hconfirmed, -⟩
          refine ⟨hgood, hassessed, hassessed.unpinned trust rfl hreplace, hallow, ?_⟩
          rw [hconfirmed, hassessed.fingerprint trust rfl]
      refine Holds.bind hask fun _ => ?_
      refine Holds.bind spec_loadOptions fun options => ?_
      refine Holds.bind spec_ofText fun pinned => ?_
      refine Holds.assuming (fun w h => h.2.2) fun hpin => ?_
      refine Holds.bind (spec_pinFirstContact hpin) fun _ => ?_
      refine Holds.bind spec_loadInput fun input => ?_
      refine Holds.bind (spec_reopenIfLate Offered.stable) fun _ => ?_
      exact Holds.ret (fun _ h => h.1) fun _ h => ⟨h.1, h.2, by simp⟩

end Viewer

end RustAdmin.Handshake
