import RustAdmin.Handshake.ViewerAttempt

/-!
# The answer of a viewer and what it remembers

The second half of an attempt (`src/src/client.rs`): the passphrase and its proof, the
acknowledgement of the host, and the writes to the stores that follow.

Each phase has one triple.  `Facts` is what an answer that was sent leaves to the
later phases, and `Established` what a returned connection is good for.
`spec_exchange` chains the phases from the offer to the acknowledgement; the direct
and the rendezvous attempt differ only in the offer before it and in what is
remembered after it.
-/

namespace RustAdmin.Handshake.Viewer

open RustAdmin.Support

variable {σ : Type} {C : PeerConfigs σ} {P : Primitives} {B : Base64} {cfg : Config}
  {target : Target} {I : World σ → Prop} {w : World σ} {host : DirectSignedId}

/-! ## The passphrase -/

theorem spec_takePassphrase (hI : Stable C cfg I) (hbound : ∀ w, I w → BoundTo host w)
    {direct : Bool} :
    Spec C P B cfg target (fun w => Good w ∧ I w) (takePassphrase host.id direct)
      fun passphrase w => Good w ∧ I w ∧ (passphrase, host.id, host.signPk) ∈ w.typed := by
  refine Holds.bind spec_loadInput fun input => ?_
  cases hpassphrase : input.passphrase with
  | none =>
      exact (spec_requestPairingPassphrase hI hbound).weaken (fun _ h => ⟨h.1, h.2.1⟩)
        fun _ _ h => h
  | some passphrase =>
      have htyped : ∀ w : World σ, Good w → I w → input = w.input →
          (passphrase, host.id, host.signPk) ∈ w.typed := by
        rintro w hgood hi rfl
        obtain ⟨peer, hpeer, hmem⟩ := hgood.passphrase passphrase hpassphrase
        obtain rfl := Option.some.inj (hpeer.symm.trans (hbound w hi))
        exact hmem
      have hstore : Spec C P B cfg target (fun w => Good w ∧ I w ∧ input = w.input)
          (Task.storeInput { input with passphrase := none })
          fun _ w => Good w ∧ I w ∧ (passphrase, host.id, host.signPk) ∈ w.typed := by
        refine spec_storeInput ?_
        rintro w ⟨hgood, hi, rfl⟩
        exact ⟨.inr rfl, hgood.storeInput rfl (by simp) hgood.approved,
          hI w _ (.storeInput rfl rfl) hi, htyped w hgood hi rfl⟩
      exact Holds.bind hstore fun _ => Holds.ret (fun _ h => h.1) fun _ h => h

/-- A proof is for the identity that the attempts are bound to. -/
theorem spec_provePassphrase (hI : Stable C cfg I) (hbound : ∀ w, I w → BoundTo host w)
    {direct usePairedViewer : Bool} {ourBoxPk : PublicKey} :
    Spec C P B cfg target (fun w => Good w ∧ I w)
      (provePassphrase direct host ourBoxPk usePairedViewer)
      fun proof w => Good w ∧ I w ∧
        (proof.isSome = true → w.contact.proved = some (host.id, host.signPk)) ∧
        (host.pairingSalt.isSome = true → usePairedViewer = false → proof.isSome = true) ∧
        (proof.isSome = true → host.pairingSalt.isSome = true) := by
  unfold provePassphrase
  cases host.pairingSalt with
  | none => exact Holds.ret (fun _ h => h.1) fun _ h => ⟨h.1, h.2, by simp, by simp, by simp⟩
  | some salt =>
      refine Holds.ite (fun huse => ?_) fun _ => ?_
      · exact Holds.ret (fun _ h => h.1) fun _ h => ⟨h.1, h.2, by simp, by simp [huse], by simp⟩
      refine Holds.bind (spec_takePassphrase hI hbound) fun passphrase => ?_
      refine Holds.bind spec_loadInput fun input => ?_
      refine Holds.bind (spec_look (fun _ _ => rfl) fun _ => trivial) fun late => ?_
      refine Holds.ite (fun _ => ?_) fun _ => ?_
      · have hstore : Spec C P B cfg target
            (fun w => Good w ∧ (I w ∧ (passphrase, host.id, host.signPk) ∈ w.typed) ∧
              input = w.input)
            (Task.storeInput
              { input with passphrase := some passphrase, reopenRequested := true })
            fun _ w => Good w ∧ I w := by
          refine spec_storeInput ?_
          rintro w ⟨hgood, ⟨hi, htyped⟩, rfl⟩
          refine ⟨.inr rfl, hgood.storeInput rfl ?_ hgood.approved,
            hI w _ (.storeInput rfl rfl) hi⟩
          intro other hother
          obtain rfl : passphrase = other := Option.some.inj hother
          exact ⟨_, hbound w hi, htyped⟩
        exact Holds.bind hstore fun _ => Holds.fail fun _ h => h.1
      · have hprove : Spec C P B cfg target
            (fun w => Good w ∧ I w ∧ (passphrase, host.id, host.signPk) ∈ w.typed)
            (Task.pairingProof passphrase salt host.id host.signPk host.boxPk ourBoxPk)
            fun _ w => Good w ∧ I w ∧ w.contact.proved = some (host.id, host.signPk) :=
          spec_pairingProof hI hbound
        refine Holds.bind (hprove.weaken (fun _ h => ⟨h.1, h.2.1⟩) fun _ _ h => h) fun proof => ?_
        exact Holds.ret (fun _ h => h.1) fun _ h => ⟨h.1, h.2.1, fun _ => h.2.2, by simp, by simp⟩

/-! ## The answer -/

/-- What the rest of an attempt knows about the answer that was sent. -/
structure Facts (host : DirectSignedId) (pending : Option PendingPeerTrust)
    (answered : Answered) : Prop where
  proven : pending.isSome = true → answered.pairingWasProven = true
  initiator : answered.sentInitiator = true → host.pairingRequired = true
  required : answered.pairingWasProven = true → host.pairingRequired = true

theorem spec_sendPublicKey (hI : Stable C cfg I) (hbound : ∀ w, I w → BoundTo host w)
    (hsalt : host.pairingSalt.isSome = host.pairingRequired) {scope : PairingScope}
    {pending : Option PendingPeerTrust}
    (hrequired : pending.isSome = true → host.pairingRequired = true) :
    Spec C P B cfg target (fun w => Good w ∧ I w) (sendPublicKey P cfg scope host pending)
      fun answered w => Good w ∧ I w ∧ Facts host pending answered ∧
        (answered.pairingWasProven = true → w.contact.sent = some (host.id, host.signPk)) := by
  refine Holds.bind (spec_look (fun _ _ => rfl) fun _ => trivial) fun keys => ?_
  refine Holds.bind (spec_look (fun _ _ => rfl) fun _ => trivial) fun remember => ?_
  generalize hidentified :
    (host.pairingRequired && host.supportsPairedViewerIdentity && remember) = identified
  have hremembered : Spec C P B cfg target (fun w => Good w ∧ I w)
      (if (identified && pending.isNone) = true then hasConfirmedPairedViewer scope else pure false)
      fun use w => Good w ∧ I w ∧ (pending.isSome = true → use = false) := by
    refine Holds.ite (fun huse => ?_)
      fun _ => Holds.ret (fun _ h => h.1) fun _ h => ⟨h.1, h.2, by simp⟩
    refine (spec_hasConfirmedPairedViewer hI.storeStable).weaken (fun _ h => h) ?_
    intro use w h
    refine ⟨h.1, h.2, fun hsome => ?_⟩
    cases pending with
    | none => cases hsome
    | some trust => simp at huse
  refine Holds.bind hremembered fun usePairedViewer => ?_
  refine Holds.assuming (fun w h => h.2.2) fun huse => ?_
  refine Holds.bind spec_ofText fun initiatorSignedId => ?_
  refine Holds.assuming (fun w h => h.2.2) fun hinitiator => ?_
  refine Holds.bind spec_ofText fun quicIdentity => ?_
  have hprove : Spec C P B cfg target (fun w => Good w ∧ I w)
      (provePassphrase (scope == .direct) host keys.boxPk usePairedViewer)
      fun proof w => Good w ∧ I w ∧
        (proof.isSome = true → w.contact.proved = some (host.id, host.signPk)) ∧
        (host.pairingSalt.isSome = true → usePairedViewer = false → proof.isSome = true) ∧
        (proof.isSome = true → host.pairingSalt.isSome = true) :=
    spec_provePassphrase hI hbound
  refine Holds.bind (hprove.weaken (fun _ h => ⟨h.1, h.2.1.1.1⟩) fun _ _ h => h) fun proof => ?_
  refine Holds.assuming (fun w h => h.2.2.2) fun hproof => ?_
  refine Holds.bind spec_ofText fun wrapped => ?_
  have hsend : Spec C P B cfg target
      (fun w => Good w ∧ I w ∧
        (proof.isSome = true → w.contact.proved = some (host.id, host.signPk)))
      (Task.send (.publicKey keys.boxPk.bytes wrapped quicIdentity))
      fun _ w => Good w ∧ I w ∧
        (proof.isSome = true → w.contact.sent = some (host.id, host.signPk)) := by
    refine Holds.pointwise fun start hstart => ?_
    have hsent : Spec C P B cfg target
        (fun w => Good w ∧ I w ∧ w.contact.proved = start.contact.proved)
        (Task.send (.publicKey keys.boxPk.bytes wrapped quicIdentity))
        fun _ w => Good w ∧ I w ∧ w.contact.sent = start.contact.proved := spec_send hI
    refine hsent.weaken ?_ ?_
    · rintro w rfl
      exact ⟨hstart.1, hstart.2.1, rfl⟩
    · rintro _ w ⟨hgood, hi, hsent⟩
      exact ⟨hgood, hi, fun hsome => hsent.trans (hstart.2.2 hsome)⟩
  refine Holds.bind (hsend.weaken (fun _ h => ⟨h.1, h.2.1.1, h.2.1.2.1⟩) fun _ _ h => h)
    fun _ => ?_
  refine Holds.bind (spec_look (fun _ _ => rfl) fun _ => trivial) fun _ => ?_
  refine Holds.ret (fun _ h => h.1) fun w h => ⟨h.1, h.2.1, ⟨?_, ?_, ?_⟩, h.2.2⟩
  · intro hsome
    exact hproof.1 (hsalt.trans (hrequired hsome)) (huse hsome)
  · intro hsent
    -- An initiator is sent only where the host asks for pairing.
    cases hid : identified with
    | true =>
        rw [hid] at hidentified
        simp only [Bool.and_eq_true] at hidentified
        exact hidentified.1.1
    | false =>
        rw [hid] at hinitiator
        obtain rfl : none = initiatorSignedId := by simpa using hinitiator
        cases hsent
  · exact fun hsome => hsalt.symm.trans (hproof.2 hsome)

/-! ## The acknowledgement -/

/-- A refusal never goes on. -/
theorem spec_refuse (hI : StoreStable C cfg I) {scope : PairingScope} {use : Bool} {text : String}
    {Post : Unit → World σ → Prop} :
    Spec C P B cfg target (fun w => Good w ∧ I w) (refuse scope use text) Post := by
  have hforget : Spec C P B cfg target (fun w => Good w ∧ I w)
      (if use = true then setConfirmedPairedViewer scope false else pure ())
      fun _ w => Good w ∧ I w :=
    Holds.ite (fun _ => spec_setConfirmedPairedViewer hI (by simp))
      fun _ => Holds.ret (fun _ h => h.1) fun _ h => h
  exact Holds.bind hforget fun _ => spec_bail

/-- An attempt goes on only behind the acknowledgement of what was sent. -/
theorem spec_awaitAck (hI : Stable C cfg I) (x : Option (String × PublicKey))
    {scope : PairingScope} {texts : AckTexts} {use : Bool} :
    Spec C P B cfg target (fun w => Good w ∧ I w ∧ w.contact.sent = x) (awaitAck scope texts use)
      fun _ w => Good w ∧ I w ∧ w.contact.acked = x := by
  refine Holds.bind (spec_receive hI x) fun received => ?_
  have hrefuse : ∀ text, Spec C P B cfg target
      (fun w => Good w ∧ I w ∧ w.contact.sent = x ∧
        (isAck (.ok received) = true → w.contact.acked = x))
      (refuse scope use text) fun _ w => Good w ∧ I w ∧ w.contact.acked = x :=
    fun text => spec_refuse (hI.storeStable.and_contact fun contact =>
      contact.sent = x ∧ (isAck (.ok received) = true → contact.acked = x))
  split
  · refine Holds.ite (fun hid => ?_) fun _ => hrefuse _
    refine Holds.ret (fun _ h => h.1) fun w h => ⟨h.1, h.2.1, h.2.2.2 ?_⟩
    simp [isAck, hid]
  · exact Holds.ite (fun _ => hrefuse _) fun _ => hrefuse _
  · exact hrefuse _
  · exact hrefuse _

/-! ## What is remembered -/

/-- After a pairing that was acknowledged the key of the host is trusted. -/
theorem spec_trustAfterPairing {pending : Option PendingPeerTrust}
    {acked : Option (String × PublicKey)}
    (hacked : pending.isSome = true → acked = some (host.id, host.signPk)) :
    Spec C P B cfg target
      (fun w => Good w ∧ Offered C P B cfg target host pending w ∧ w.contact.acked = acked)
      (trustAfterPairing B cfg host pending)
      fun _ w => Good w ∧ Offered C P B cfg target host none w ∧ w.contact.acked = acked := by
  cases pending with
  | none => exact Holds.ret (fun _ h => h.1) fun _ h => h
  | some trust =>
      refine Holds.bind spec_loadOptions fun options => ?_
      refine Holds.bind spec_ofText fun trusted => ?_
      refine Holds.assuming (fun w h => h.2.2) fun htrust => ?_
      have hcases := trustPeerSigningKeyAfterPairing_eq_ok htrust
      refine spec_storeOptions ?_ ?_
      · rintro w ⟨hgood, ⟨⟨hoffered, hcontact⟩, rfl⟩, -⟩
        have hpaired : Paired target w host.id host.signPk := by
          have hsome := hcontact.trans (hacked rfl)
          exact ⟨hsome, hgood.acked _ hsome, fun hdirect => hoffered.approved hdirect rfl⟩
        refine ⟨?_, fun scope => .inl ?_⟩
        · rcases hcases with rfl | ⟨hbootstrap, rfl⟩
          · exact .inl rfl
          · exact .inr ⟨_, _, hoffered.bound, hbootstrap, rfl, .inr hpaired⟩
        · rcases hcases with rfl | ⟨-, rfl⟩
          · rfl
          · cases scope <;> rfl
      · rintro w ⟨-, ⟨⟨hoffered, hcontact⟩, -⟩, -⟩
        refine ⟨⟨hoffered.bound, hoffered.vouched, fun _ => ?_, by simp [RepairApproved]⟩, hcontact⟩
        have hload : World.options C cfg
            { w with store := C.store cfg.peerConfigId trusted w.store } = trusted :=
          C.load_store ..
        rw [Trusted, hload]
        exact trusted_of_trustAfterPairing htrust

theorem spec_rememberQuicPeer (hI : ∀ w, I w → BoundTo host w ∧
      Trusted C B cfg w host.id host.signPk) {certificate : Bytes} :
    Spec C P B cfg target (fun w => Good w ∧ I w) (rememberQuicPeer cfg host certificate)
      fun _ w => Good w ∧ I w := by
  have hremember : ∀ id, Spec C P B cfg target (fun w => Good w ∧ I w)
      (Task.rememberAuthenticatedPeer id host.signPk certificate) fun _ w => Good w ∧ I w :=
    fun id => spec_check (fun _ _ => rfl) fun w h => ⟨host.id, hI w h.2⟩
  refine Holds.bind (hremember _) fun _ => ?_
  exact Holds.ite (fun _ => hremember _) fun _ => Holds.ret (fun _ h => h.1) fun _ h => h

/-! ## The attempts -/

/-- What is known of a connection that is handed out. -/
structure Established (C : PeerConfigs σ) (P : Primitives) (B : Base64) (cfg : Config)
    (target : Target) (pk : PublicKey) (w : World σ) : Prop where
  good : Good w
  vouched : ∀ peerId rsPk udp, target = .rendezvous peerId rsPk udp →
    ServerVouches P w rsPk peerId pk
  trusted : ∃ id, w.input.peer = some (id, pk) ∧ Trusted C B cfg w id pk

theorem bound_of_offered {pending : Option PendingPeerTrust} :
    ∀ w, Offered C P B cfg target host pending w → BoundTo host w := fun _ h => h.bound

/-- An approval that asked for it ends the attempt before it begins. -/
theorem spec_reopen {input : HandshakeInput} :
    Spec C P B cfg target (fun w => Good w ∧ I w ∧ input = w.input)
      (if input.reopenRequested = true then .fail .reopenAfterApproval else pure ())
      fun _ w => Good w ∧ I w :=
  Holds.ite (fun _ => Holds.fail fun _ h => h.1)
    fun _ => Holds.ret (fun _ h => h.1) fun _ h => ⟨h.1, h.2.1⟩

/-- What holds behind the exchange: no trust is pending, and a proof was acknowledged. -/
def Concluded (C : PeerConfigs σ) (P : Primitives) (B : Base64) (cfg : Config) (target : Target)
    (host : DirectSignedId) (answered : Answered) (w : World σ) : Prop :=
  Offered C P B cfg target host none w ∧
    (answered.pairingWasProven = true → w.contact.acked = some (host.id, host.signPk))

section Concluded

variable {answered : Answered}

theorem Concluded.storeStable : StoreStable C cfg (Concluded C P B cfg target host answered) :=
  Offered.stable.storeStable.and_contact fun contact =>
    answered.pairingWasProven = true → contact.acked = some (host.id, host.signPk)

theorem Concluded.known (h : Concluded C P B cfg target host answered w) :
    BoundTo host w ∧ Trusted C B cfg w host.id host.signPk :=
  ⟨h.1.bound, h.1.trusted rfl⟩

theorem Concluded.vouched {peerId : String} {rsPk : Option PublicKey} {udp : Bool}
    (h : Concluded C P B cfg (.rendezvous peerId rsPk udp) host answered w)
    (hid : host.id = peerId) : ServerVouches P w rsPk host.id host.signPk :=
  hid ▸ (h.1.vouched peerId rsPk udp rfl).2

/-- A proof that was acknowledged lets the pairing of either scope be remembered. -/
theorem spec_rememberProven (hproven : answered.pairingWasProven = true) {scope : PairingScope} :
    Spec C P B cfg target (fun w => Good w ∧ Concluded C P B cfg target host answered w)
      (setConfirmedPairedViewer scope true)
      fun _ w => Good w ∧ Concluded C P B cfg target host answered w :=
  spec_setConfirmedPairedViewer Concluded.storeStable fun _ _ h =>
    ⟨_, _, h.1.bound, .inl (h.2 hproven)⟩

/-- Over a rendezvous server the direct pairing needs no acknowledgement: the key is trusted,
and the server vouches for it. -/
theorem spec_rememberVouched {peerId : String} {rsPk : Option PublicKey} {udp : Bool}
    (hid : host.id = peerId) :
    Spec C P B cfg (.rendezvous peerId rsPk udp)
      (fun w => Good w ∧ Concluded C P B cfg (.rendezvous peerId rsPk udp) host answered w)
      (setConfirmedPairedViewer .direct true)
      fun _ w => Good w ∧ Concluded C P B cfg (.rendezvous peerId rsPk udp) host answered w :=
  spec_setConfirmedPairedViewer Concluded.storeStable fun _ _ h =>
    ⟨_, _, h.known.1, .inr ⟨rfl, h.known.2, rsPk, udp, by rw [hid], h.vouched hid⟩⟩

end Concluded

/-- The answer, the acknowledgement and the trust that follows from it. -/
theorem spec_exchange (hsalt : host.pairingSalt.isSome = host.pairingRequired)
    {scope : PairingScope} {texts : AckTexts} {pending : Option PendingPeerTrust}
    (hrequired : pending.isSome = true → host.pairingRequired = true) {γ : Type}
    {next : Answered → Task γ} {Post : γ → World σ → Prop}
    (hnext : ∀ answered, Facts host pending answered →
      Spec C P B cfg target (fun w => Good w ∧ Concluded C P B cfg target host answered w)
        (next answered) Post) :
    Spec C P B cfg target (fun w => Good w ∧ Offered C P B cfg target host pending w)
      ((sendPublicKey P cfg scope host pending).bind fun answered =>
        (if host.pairingRequired = true then awaitAck scope texts answered.usedPairedViewer
          else pure ()).bind fun _ =>
          (trustAfterPairing B cfg host pending).bind fun _ => next answered) Post := by
  refine Holds.bind (spec_sendPublicKey Offered.stable bound_of_offered hsalt hrequired)
    fun answered => ?_
  refine Holds.assuming (fun w h => h.2.2.1) fun hfacts => ?_
  -- What was acknowledged is what was sent, where an acknowledgement was awaited at all.
  let acked : Option (String × PublicKey) → Prop := fun peer =>
    answered.pairingWasProven = true → peer = some (host.id, host.signPk)
  have hack : Spec C P B cfg target
      (fun w => Good w ∧ Offered C P B cfg target host pending w ∧ Facts host pending answered ∧
        acked w.contact.sent)
      (if host.pairingRequired = true then awaitAck scope texts answered.usedPairedViewer
        else pure ())
      fun _ w => Good w ∧ Offered C P B cfg target host pending w ∧ acked w.contact.acked := by
    refine Holds.ite (fun _ => ?_) fun hnot => ?_
    · refine Holds.pointwise fun start hstart => ?_
      have hawait : Spec C P B cfg target
          (fun w => Good w ∧ Offered C P B cfg target host pending w ∧
            w.contact.sent = start.contact.sent)
          (awaitAck scope texts answered.usedPairedViewer)
          fun _ w => Good w ∧ Offered C P B cfg target host pending w ∧
            w.contact.acked = start.contact.sent := spec_awaitAck Offered.stable _
      refine hawait.weaken ?_ ?_
      · rintro w rfl
        exact ⟨hstart.1, hstart.2.1, rfl⟩
      · rintro _ w ⟨hgood, hoffered, hacked⟩
        exact ⟨hgood, hoffered, fun hproven => hacked.trans (hstart.2.2.2 hproven)⟩
    · refine Holds.ret (fun _ h => h.1) fun w h => ⟨h.1, h.2.1, fun hproven => ?_⟩
      exact absurd (hfacts.required hproven) hnot
  refine Holds.bind hack fun _ => ?_
  have htrust : Spec C P B cfg target
      (fun w => Good w ∧ Offered C P B cfg target host pending w ∧ acked w.contact.acked)
      (trustAfterPairing B cfg host pending)
      fun _ w => Good w ∧ Offered C P B cfg target host none w ∧ acked w.contact.acked := by
    refine Holds.pointwise fun start hstart => ?_
    have hpaired : Spec C P B cfg target
        (fun w => Good w ∧ Offered C P B cfg target host pending w ∧
          w.contact.acked = start.contact.acked)
        (trustAfterPairing B cfg host pending)
        fun _ w => Good w ∧ Offered C P B cfg target host none w ∧
          w.contact.acked = start.contact.acked :=
      spec_trustAfterPairing fun hsome => hstart.2.2 (hfacts.proven hsome)
    refine hpaired.weaken ?_ ?_
    · rintro w rfl
      exact ⟨hstart.1, hstart.2.1, rfl⟩
    · rintro _ w ⟨hgood, hoffered, hacked⟩
      exact ⟨hgood, hoffered, fun hproven => hacked.trans (hstart.2.2 hproven)⟩
  exact Holds.bind htrust fun _ => hnext answered hfacts

theorem spec_secureDirectConnection {isQuic : Bool} :
    Spec C P B cfg .direct (fun w => Good w) (secureDirectConnection P B cfg isQuic)
      (Established C P B cfg .direct) := by
  unfold secureDirectConnection
  have htriv : ∀ w : World σ, Good w → Good w ∧ True := fun _ h => ⟨h, trivial⟩
  have hstable : Stable C cfg fun _ : World σ => True := fun _ _ _ h => h
  refine Holds.bind (Holds.weaken spec_loadInput htriv fun _ _ h => h) fun input => ?_
  refine Holds.bind spec_reopen fun _ => ?_
  refine Holds.bind (spec_directHello hstable) fun host => ?_
  refine Holds.assuming (fun w h => h.2.2) fun hsalt => ?_
  refine Holds.bind ((spec_bindPeer (I := fun _ => True) fun _ _ h => h).weaken
    (fun _ h => ⟨h.1, trivial⟩) fun _ _ h => h) fun _ => ?_
  refine Holds.bind spec_ensure fun _ => ?_
  refine Holds.bind spec_loadOptions fun options => ?_
  refine Holds.bind spec_ofText fun status => ?_
  refine Holds.consequence (fun w => Good w ∧
    Assessed C P B cfg .direct host (pendingPeerTrustFromStatus P status host.signPk) w) ?_ ?_
  · rintro w ⟨hgood, ⟨⟨⟨hbound, -⟩, -⟩, rfl⟩, hstatus⟩
    exact ⟨hgood, .ofStatus hbound .direct hstatus⟩
  refine Holds.bind spec_loadInput fun input => ?_
  refine Holds.bind spec_ensure fun _ => ?_
  refine Holds.bind (Holds.weaken spec_approveRepair (fun _ h => ⟨h.1, h.2.1.1⟩) fun _ _ h => h)
    fun _ => ?_
  refine Holds.bind (Holds.weaken spec_trustFirstContact
    (fun _ h => ⟨h.1, h.2.1, fun _ => h.2.2⟩) fun _ _ h => h) fun first => ?_
  refine Holds.assuming (fun w h => h.2.2) fun hrequired => ?_
  refine Holds.consequence (fun w => Good w ∧ Offered C P B cfg .direct host first.1 w)
    (fun _ h => ⟨h.1, h.2.1⟩) ?_
  refine spec_exchange hsalt hrequired fun answered hfacts => ?_
  let I : World σ → Prop := Concluded C P B cfg .direct host answered
  have hconfirm : Spec C P B cfg .direct (fun w => Good w ∧ I w)
      (if (answered.pairingWasProven && answered.sentInitiator) = true then
        setConfirmedPairedViewer .direct true else pure ()) fun _ w => Good w ∧ I w := by
    refine Holds.ite (fun hproven => ?_) fun _ => Holds.ret (fun _ h => h.1) fun _ h => h
    simp only [Bool.and_eq_true] at hproven
    exact spec_rememberProven hproven.1
  refine Holds.bind hconfirm fun _ => ?_
  refine Holds.bind (spec_hasConfirmedPairedViewer Concluded.storeStable) fun confirmed => ?_
  have hreturn : Spec C P B cfg .direct (fun w => Good w ∧ I w) (pure host.signPk)
      (Established C P B cfg .direct) :=
    Holds.ret (fun _ h => h.1) fun w h => ⟨h.1, nofun, host.id, h.2.known⟩
  cases host.quicCertificateDer with
  | none => exact hreturn
  | some certificate =>
      refine Holds.ite (fun _ => ?_) fun _ => hreturn
      exact Holds.bind (spec_rememberQuicPeer fun _ => Concluded.known) fun _ => hreturn

/-- The key of a rendezvous handshake is the one that the server has signed for the peer. -/
theorem vouchedKey_eq_ok {peerId : String} {signedIdPk : Bytes} {rsPk : Option PublicKey}
    {pk : PublicKey} (h : vouchedKey P peerId signedIdPk rsPk = .ok pk) :
    ∃ serverPk, rsPk = some serverPk ∧
      ServerSigned P.toExternals serverPk signedIdPk peerId pk := by
  unfold vouchedKey at h
  cases rsPk with
  | none => cases h
  | some serverPk =>
      dsimp only at h
      split at h
      · cases h
      split at h
      · cases h
      next id signedPk hdecode =>
        split at h
        · cases h
        next hid =>
          obtain rfl := Except.ok.inj h
          obtain rfl : id = peerId := not_not.mp hid
          exact ⟨serverPk, rfl, decodeIdPk_eq_ok.mp hdecode⟩

/-- An attempt over a rendezvous server, which vouches for the key of the peer.  What is
asked of the user is the same but for the repair of a changed identity. -/
theorem spec_secureConnection {isQuic : Bool} {peerId : String} {signedIdPk : Bytes}
    {rsPk : Option PublicKey} {udp : Bool} :
    Spec C P B cfg (.rendezvous peerId rsPk udp)
      (fun w => Good w ∧ w.signedIdPk = some signedIdPk)
      (secureConnection P B cfg isQuic peerId signedIdPk rsPk)
      (Established C P B cfg (.rendezvous peerId rsPk udp)) := by
  unfold secureConnection
  refine Holds.bind spec_loadInput fun input => ?_
  refine Holds.bind spec_reopen fun _ => ?_
  refine Holds.bind spec_ofText fun pk => ?_
  let vouched : World σ → Prop := fun w => ServerVouches P w rsPk peerId pk
  have hstable : Stable C cfg vouched := ServerVouches.stable
  refine Holds.consequence (fun w => Good w ∧ vouched w) ?_ ?_
  · rintro w ⟨hgood, hrouted, hkey⟩
    obtain ⟨serverPk, hserver, hsigned⟩ := vouchedKey_eq_ok hkey
    exact ⟨hgood, serverPk, signedIdPk, hserver, hrouted, hsigned⟩
  refine Holds.bind (spec_rendezvousHello hstable) fun host => ?_
  refine Holds.assuming (fun w h => h.2.2) fun hhello => ?_
  obtain ⟨hsalt, hsignPk⟩ := hhello
  refine Holds.bind spec_ensure fun _ => ?_
  refine Holds.assuming (fun w h => h.2.2) fun hid => ?_
  have hid : host.id = peerId := of_decide_eq_true hid
  have hbind : Spec C P B cfg (.rendezvous peerId rsPk udp) (fun w => Good w ∧ vouched w)
      (bindPeer host.id host.signPk) fun _ w => Good w ∧ BoundTo host w ∧ vouched w :=
    spec_bindPeer fun _ _ h => h
  refine Holds.bind (hbind.weaken (fun _ h => ⟨h.1, h.2.1.1⟩) fun _ _ h => h) fun _ => ?_
  refine Holds.bind spec_loadOptions fun options => ?_
  refine Holds.bind spec_ofText fun status => ?_
  refine Holds.consequence (fun w => Good w ∧
    Assessed C P B cfg (.rendezvous peerId rsPk udp) host
      (pendingPeerTrustFromStatus P status host.signPk) w) ?_ ?_
  · rintro w ⟨hgood, ⟨⟨hbound, hvouched⟩, rfl⟩, hstatus⟩
    refine ⟨hgood, .ofStatus hbound ?_ hstatus⟩
    rintro _ _ _ ⟨⟩
    exact ⟨hid, hsignPk ▸ hvouched⟩
  refine Holds.bind (Holds.weaken spec_trustFirstContact
    (fun _ h => ⟨h.1, h.2, by simp⟩) fun _ _ h => h) fun first => ?_
  refine Holds.assuming (fun w h => h.2.2) fun hrequired => ?_
  let offered : Option PendingPeerTrust → World σ → Prop :=
    Offered C P B cfg (.rendezvous peerId rsPk udp) host
  refine Holds.consequence (fun w => Good w ∧ offered first.1 w) (fun _ h => ⟨h.1, h.2.1⟩) ?_
  refine spec_exchange hsalt hrequired fun answered hfacts => ?_
  let I : World σ → Prop := Concluded C P B cfg (.rendezvous peerId rsPk udp) host answered
  have hconfirm : Spec C P B cfg (.rendezvous peerId rsPk udp) (fun w => Good w ∧ I w)
      (if (answered.pairingWasProven && answered.sentInitiator) = true then
        (setConfirmedPairedViewer .rendezvous true).bind fun _ =>
          if host.quicCertificateDer.isSome = true then setConfirmedPairedViewer .direct true
          else pure ()
        else pure ()) fun _ w => Good w ∧ I w := by
    refine Holds.ite (fun hproven => ?_) fun _ => Holds.ret (fun _ h => h.1) fun _ h => h
    simp only [Bool.and_eq_true] at hproven
    refine Holds.bind (spec_rememberProven hproven.1) fun _ => ?_
    exact Holds.ite (fun _ => spec_rememberVouched hid)
      fun _ => Holds.ret (fun _ h => h.1) fun _ h => h
  refine Holds.bind hconfirm fun _ => ?_
  refine Holds.bind (spec_hasConfirmedPairedViewer Concluded.storeStable)
    fun confirmedRendezvous => ?_
  have hconfirmed : Spec C P B cfg (.rendezvous peerId rsPk udp) (fun w => Good w ∧ I w)
      (if confirmedRendezvous = true then pure true else hasConfirmedPairedViewer .direct)
      fun _ w => Good w ∧ I w :=
    Holds.ite (fun _ => Holds.ret (fun _ h => h.1) fun _ h => h)
      fun _ => spec_hasConfirmedPairedViewer Concluded.storeStable
  refine Holds.bind hconfirmed fun confirmed => ?_
  have hreturn : Spec C P B cfg (.rendezvous peerId rsPk udp) (fun w => Good w ∧ I w)
      (pure host.signPk) (Established C P B cfg (.rendezvous peerId rsPk udp)) := by
    refine Holds.ret (fun _ h => h.1) fun w h => ⟨h.1, ?_, host.id, h.2.known⟩
    rintro _ _ _ ⟨⟩
    exact hid ▸ h.2.vouched hid
  cases host.quicCertificateDer with
  | none => exact hreturn
  | some certificate =>
      refine Holds.ite (fun _ => ?_) fun _ => hreturn
      exact Holds.bind (spec_rememberVouched hid) fun _ =>
        Holds.bind (spec_rememberQuicPeer fun _ => Concluded.known) fun _ => hreturn

end RustAdmin.Handshake.Viewer
