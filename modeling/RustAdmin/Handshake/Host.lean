import RustAdmin.Handshake.Pairing
import RustAdmin.Handshake.PeerTrust

/-!
# The host's side of a handshake

`create_tcp_connection_with_mode` of `src/src/server.rs`: the offer that a host sends, what
it makes of the answer, and the paired viewers that it remembers over its connections.
-/

namespace RustAdmin.Handshake.Host

open RustAdmin.Support

/-! ## Offers -/

inductive HandshakeMode
  | disabled
  | rendezvous
  | direct
deriving DecidableEq, Repr

/-- The scope of the pairings of a mode. -/
def HandshakeMode.pairingScope : HandshakeMode → Option PairingScope
  | .disabled => none
  | .rendezvous => some .rendezvous
  | .direct => some .direct

/-- What a host has drawn and read for one connection when it sends its offer.  A salt is
drawn where there is a passphrase.  In the mode `disabled` no offer is sent and the connection
goes on without a handshake; `enabled` leaves that out. -/
structure Offer where
  mode : HandshakeMode
  enabled : mode ≠ .disabled
  isQuic : Bool
  id : String
  signPk : PublicKey
  signSk : SecretKey
  boxPk : PublicKey
  boxSk : PublicKey
  passphrase : String
  pairingSalt : Option Salt
  salt_isSome : pairingSalt.isSome = true ↔ passphrase ≠ ""
  secureChannel : UInt32
  certificate : Bytes

variable (P : Primitives)

def Offer.directionalOffered (offer : Offer) : Bool :=
  offer.secureChannel == P.secureChannelDirectional

/-- The first message. -/
def Offer.hello (offer : Offer) : Except String Message :=
  match createDirectSignedIdWithQuic P.toExternals offer.id offer.boxPk offer.signPk offer.signSk
      offer.certificate with
  | .error e => .error e
  | .ok quicIdentity =>
      .ok (.signedId (createHostSignedId P.toExternals (offer.mode == .direct) offer.id offer.boxPk
        offer.signPk offer.signSk offer.pairingSalt offer.secureChannel) quicIdentity)

/-! ## The answer of a viewer -/

/-- An entry of the paired viewers, as far as it is looked up. -/
structure PairedViewer where
  scope : PairingScope
  id : String
  signPk : PublicKey
deriving DecidableEq

/-- What a host reads while it handles an answer. -/
structure Surroundings where
  rememberPairedViewers : Bool
  hasPairedViewer : PairedViewer → Bool
  validateQuicBinding : PublicKey → Bytes → Except String Unit
  rememberPairedPeer : String → PublicKey → Bytes → Except String Unit

/-- Why a connection is refused, and whether the viewer is told. -/
structure Refusal where
  text : String
  told : Bool := false
  /-- The session key with its mode, where the stream has been given one by then. -/
  key : Option (SessionKey × Bool) := none
deriving DecidableEq

def Refusal.keyed (session : SessionKey × Bool) (refusal : Refusal) : Refusal :=
  { refusal with key := some session }

/-- A connection that is let in: its session key, the viewers that are remembered for it,
and whether it is acknowledged. -/
structure Admission where
  key : SessionKey
  directional : Bool
  paired : List PairedViewer := []
  acked : Bool := false
deriving DecidableEq

variable (offer : Offer) (sur : Surroundings)

def refuse {α : Type} (text : String) : Except Refusal α := .error { text }

def ofText {α : Type} (result : Except String α) : Except Refusal α :=
  result.mapError fun text => { text }

/-- The signed id with the certificate of the viewer, where there is one. -/
def readQuicInitiator (asymmetricValue quicIdentity : Bytes) :
    Except Refusal (Option DirectSignedId) :=
  if quicIdentity = [] then .ok none else do
    let identity ← ofText (decodeDirectIdPk P.toExternals quicIdentity)
    ofText (validateDirectPublicKeyInitiator identity asymmetricValue)
    match identity.quicCertificateDer with
    | none => refuse "Handshake failed: client QUIC identity has no certificate"
    | some certificate => do
        if offer.isQuic then ofText (sur.validateQuicBinding identity.signPk certificate)
        else pure ()
        pure (some identity)

/-- On a QUIC stream there has to be one, and it names the viewer that the payload names. -/
def checkQuicInitiator (initiator quicInitiator : Option DirectSignedId) : Except Refusal Unit :=
  if offer.isQuic ∧ quicInitiator.isNone then
    refuse "Handshake failed: QUIC client omitted its signed TLS certificate binding"
  else
    match initiator, quicInitiator with
    | some legacy, some quic =>
        if legacy.id ≠ quic.id ∨ legacy.signPk ≠ quic.signPk then
          refuse "Handshake failed: client QUIC identity does not match paired viewer identity"
        else .ok ()
    | _, _ => .ok ()

/-- A viewer without a proof is let in where it is remembered. -/
def trustsPairedViewer (initiator : Option DirectSignedId) (asymmetricValue : Bytes) :
    Except Refusal Bool :=
  if sur.rememberPairedViewers then
    match initiator with
    | none => .ok false
    | some initiator => do
        ofText (validateDirectPublicKeyInitiator initiator asymmetricValue)
        pure (match offer.mode.pairingScope with
          | none => false
          | some scope => sur.hasPairedViewer ⟨scope, initiator.id, initiator.signPk⟩)
  else .ok false

/-- The viewer that a proof pairs, with the scope of the pairing. -/
def pairedInitiator (initiator : Option DirectSignedId) (asymmetricValue : Bytes) :
    Except Refusal (Option (PairingScope × DirectSignedId)) :=
  if sur.rememberPairedViewers then
    match initiator with
    | none => .ok none
    | some initiator => do
        ofText (validateDirectPublicKeyInitiator initiator asymmetricValue)
        pure (offer.mode.pairingScope.map fun scope => (scope, initiator))
  else .ok none

def checkPairing (payload : DirectPublicKeyPayload) (asymmetricValue : Bytes) (theirPk : PublicKey)
    (pairingSalt : Salt) : Except Refusal (Option (PairingScope × DirectSignedId)) :=
  match payload.pairingProof with
  | some pairingProof => do
      let expectedProof ← ofText (computeDirectPairingProof P offer.passphrase pairingSalt offer.id
        offer.signPk offer.boxPk theirPk)
      if pairingProof = expectedProof then
        pairedInitiator offer sur payload.initiator asymmetricValue
      else
        .error { text := "Handshake failed: pairing passphrase rejected", told := true }
  | none => do
      let trusted ← trustsPairedViewer offer sur payload.initiator asymmetricValue
      if trusted then pure none
      else .error { text := "Handshake failed: pairing passphrase required", told := true }

/-- The QUIC identity of a viewer that is let in is saved. -/
def rememberQuicInitiator (quicInitiator : Option DirectSignedId) (asymmetricValue : Bytes) :
    Except Refusal Unit :=
  match quicInitiator with
  | none => .ok ()
  | some initiator =>
      match initiator.quicCertificateDer with
      | none => .ok ()
      | some certificate => do
          ofText (validateDirectPublicKeyInitiator initiator asymmetricValue)
          ofText (sur.rememberPairedPeer initiator.id initiator.signPk certificate)

/-- The entries that are added for a paired viewer; one with a QUIC identity is known to
direct connections as well. -/
def pairedEntries (paired : Option (PairingScope × DirectSignedId))
    (quicInitiator : Option DirectSignedId) : List PairedViewer :=
  match paired with
  | none => []
  | some (scope, initiator) =>
      ⟨scope, initiator.id, initiator.signPk⟩ ::
        if quicInitiator.isSome then [⟨.direct, initiator.id, initiator.signPk⟩] else []

/-- The rest of an answer to an offer with a salt. -/
def admitPaired (payload : DirectPublicKeyPayload) (quicInitiator : Option DirectSignedId)
    (asymmetricValue : Bytes) (theirPk : PublicKey) (pairingSalt : Salt)
    (session : SessionKey × Bool) : Except Refusal Admission := do
  let paired ← checkPairing P offer sur payload asymmetricValue theirPk pairingSalt
  rememberQuicInitiator sur quicInitiator asymmetricValue
  pure
    { key := session.1
      directional := session.2
      paired := pairedEntries paired quicInitiator
      acked := true }

/-- The answer of a viewer whose key has the right length. -/
def admitPublicKey (asymmetricValue symmetricValue quicIdentity : Bytes) (theirPk : PublicKey) :
    Except Refusal Admission :=
  if offer.mode = .direct ∨ offer.pairingSalt.isSome then do
    let payload ← ofText (unwrapDirectPublicKeyPayload P.toExternals symmetricValue
      offer.pairingSalt.isSome)
    let quicInitiator ← readQuicInitiator P offer sur asymmetricValue quicIdentity
    checkQuicInitiator offer payload.initiator quicInitiator
    let (key, directional) ← ofText (P.decodeSession payload.symmetricValue asymmetricValue
      offer.boxSk (offer.directionalOffered P))
    match offer.pairingSalt with
    | none => pure { key, directional }
    | some pairingSalt =>
        -- The stream has the key before the pairing is checked: a refusal is told under it.
        (admitPaired P offer sur payload quicInitiator asymmetricValue theirPk pairingSalt
          (key, directional)).mapError (Refusal.keyed (key, directional))
  else do
    let (key, directional) ← ofText (P.decodeSession symmetricValue asymmetricValue offer.boxSk
      (offer.directionalOffered P))
    pure { key, directional }

/-- What a host makes of the message that follows its offer. -/
def receive : Message → Except Refusal Admission
  | .publicKey asymmetricValue symmetricValue quicIdentity =>
      match getPk asymmetricValue with
      | some theirPk =>
          admitPublicKey P offer sur asymmetricValue symmetricValue quicIdentity theirPk
      | none =>
          if asymmetricValue = [] then
            refuse ("Handshake failed: peer rejected secure session due to missing or stale " ++
              "key binding")
          else refuse "Handshake failed: invalid public key length from peer"
  | _ => refuse "Handshake failed: invalid message type"

/-! ## Who is let in -/

theorem bind_eq_ok {ε α γ : Type} {x : Except ε α} {f : α → Except ε γ} {c : γ} :
    x >>= f = .ok c ↔ ∃ a, x = .ok a ∧ f a = .ok c := by
  cases x with
  | error e => simp [bind, Except.bind]
  | ok a => simp [bind, Except.bind]

theorem ok_bind {ε α γ : Type} (a : α) (f : α → Except ε γ) : (.ok a >>= f) = f a := rfl

theorem ofText_ok {α : Type} (a : α) : ofText (.ok a) = .ok a := rfl

@[simp] theorem ofText_eq_ok {α : Type} {result : Except String α} {a : α} :
    ofText result = .ok a ↔ result = .ok a := by
  cases result <;> simp [ofText, Except.mapError]

theorem mapError_keyed_eq_ok {α : Type} {result : Except Refusal α} {session : SessionKey × Bool}
    {a : α} : result.mapError (Refusal.keyed session) = .ok a ↔ result = .ok a := by
  cases result <;> simp [Except.mapError]

@[simp] theorem refuse_ne_ok {α : Type} {text : String} {a : α} : refuse text ≠ .ok a := by
  simp [refuse]

variable {P offer sur}

/-- The key of the viewer and the payload of its answer, as a pairing host reads them. -/
def Opens (P : Primitives) (message : Message) (theirPk : PublicKey)
    (payload : DirectPublicKeyPayload) : Prop :=
  ∃ symmetricValue quicIdentity, message = .publicKey theirPk.bytes symmetricValue quicIdentity ∧
    unwrapDirectPublicKeyPayload P.toExternals symmetricValue true = .ok payload

/-- The answer carries the proof that only the passphrase of this offer gives. -/
def Proves (P : Primitives) (offer : Offer) (message : Message) : Prop :=
  ∃ theirPk payload salt proof, Opens P message theirPk payload ∧ offer.pairingSalt = some salt ∧
    payload.pairingProof = some proof ∧
    computeDirectPairingProof P offer.passphrase salt offer.id offer.signPk offer.boxPk theirPk =
      .ok proof

/-- The answer carries a signed id of this viewer, for the key that it comes with. -/
def Identifies (P : Primitives) (message : Message) (id : String) (signPk : PublicKey) : Prop :=
  ∃ theirPk payload initiator, Opens P message theirPk payload ∧
    payload.initiator = some initiator ∧ initiator.boxPk = theirPk ∧ initiator.id = id ∧
    initiator.signPk = signPk

/-- An entry that this answer may add. -/
structure Pairs (P : Primitives) (offer : Offer) (message : Message) (viewer : PairedViewer) :
    Prop where
  proves : Proves P offer message
  identifies : Identifies P message viewer.id viewer.signPk
  scope : offer.mode.pairingScope = some viewer.scope ∨ viewer.scope = .direct

theorem validateDirectPublicKeyInitiator_eq_ok {initiator : DirectSignedId} {theirPk : PublicKey} :
    validateDirectPublicKeyInitiator initiator theirPk.bytes = .ok () ↔
      initiator.boxPk = theirPk := by
  by_cases h : initiator.boxPk = theirPk <;> simp [validateDirectPublicKeyInitiator, getPk, h]

theorem trustsPairedViewer_eq_ok {initiator : Option DirectSignedId} {theirPk : PublicKey}
    (h : trustsPairedViewer offer sur initiator theirPk.bytes = .ok true) :
    ∃ viewer scope, initiator = some viewer ∧ viewer.boxPk = theirPk ∧
      offer.mode.pairingScope = some scope ∧
      sur.hasPairedViewer ⟨scope, viewer.id, viewer.signPk⟩ = true := by
  unfold trustsPairedViewer at h
  split at h
  · cases initiator with
    | none => cases h
    | some viewer =>
        obtain ⟨_, hvalid, h⟩ := bind_eq_ok.mp h
        have hkey := validateDirectPublicKeyInitiator_eq_ok.mp (ofText_eq_ok.mp hvalid)
        cases hscope : offer.mode.pairingScope with
        | none =>
            rw [hscope] at h
            cases h
        | some scope =>
            rw [hscope] at h
            exact ⟨viewer, scope, rfl, hkey, rfl, Except.ok.inj h⟩
  · cases h

theorem pairedInitiator_eq_ok {initiator : Option DirectSignedId} {theirPk : PublicKey}
    {scope : PairingScope} {viewer : DirectSignedId}
    (h : pairedInitiator offer sur initiator theirPk.bytes = .ok (some (scope, viewer))) :
    initiator = some viewer ∧ viewer.boxPk = theirPk ∧ offer.mode.pairingScope = some scope := by
  unfold pairedInitiator at h
  split at h
  · cases initiator with
    | none => cases h
    | some initiator =>
        obtain ⟨_, hvalid, h⟩ := bind_eq_ok.mp h
        have hkey := validateDirectPublicKeyInitiator_eq_ok.mp (ofText_eq_ok.mp hvalid)
        cases hscope : offer.mode.pairingScope with
        | none =>
            rw [hscope] at h
            cases h
        | some scope' =>
            rw [hscope] at h
            obtain ⟨rfl, rfl⟩ := Prod.mk.inj (Option.some.inj (Except.ok.inj h))
            exact ⟨rfl, hkey, rfl⟩
  · cases h

/-- A viewer is let in by a proof, which may pair it, or because it is remembered. -/
theorem checkPairing_eq_ok {payload : DirectPublicKeyPayload} {theirPk : PublicKey} {salt : Salt}
    {paired : Option (PairingScope × DirectSignedId)}
    (h : checkPairing P offer sur payload theirPk.bytes theirPk salt = .ok paired) :
    (∃ proof, payload.pairingProof = some proof ∧
      computeDirectPairingProof P offer.passphrase salt offer.id offer.signPk offer.boxPk theirPk =
        .ok proof ∧
      ∀ scope viewer, paired = some (scope, viewer) → payload.initiator = some viewer ∧
        viewer.boxPk = theirPk ∧ offer.mode.pairingScope = some scope) ∨
    (paired = none ∧ ∃ viewer scope, payload.initiator = some viewer ∧ viewer.boxPk = theirPk ∧
      offer.mode.pairingScope = some scope ∧
      sur.hasPairedViewer ⟨scope, viewer.id, viewer.signPk⟩ = true) := by
  unfold checkPairing at h
  cases hproof : payload.pairingProof with
  | some proof =>
      simp only [hproof] at h
      obtain ⟨expected, hexpected, h⟩ := bind_eq_ok.mp h
      by_cases heq : proof = expected
      · rw [if_pos heq] at h
        subst heq
        refine .inl ⟨proof, rfl, ofText_eq_ok.mp hexpected, ?_⟩
        rintro scope viewer rfl
        exact pairedInitiator_eq_ok h
      · rw [if_neg heq] at h
        cases h
  | none =>
      simp only [hproof] at h
      obtain ⟨trusted, htrusted, h⟩ := bind_eq_ok.mp h
      cases trusted with
      | false => cases h
      | true =>
          obtain rfl : none = paired := Except.ok.inj h
          exact .inr ⟨rfl, trustsPairedViewer_eq_ok htrusted⟩

/-- Who is let in by an offer that asks for a passphrase. -/
theorem receive_eq_ok {message : Message} {admission : Admission}
    (hpassphrase : offer.passphrase ≠ "") (h : receive P offer sur message = .ok admission) :
    (Proves P offer message ∧ ∀ viewer ∈ admission.paired, Pairs P offer message viewer) ∨
    (admission.paired = [] ∧ ∃ viewer : PairedViewer,
      offer.mode.pairingScope = some viewer.scope ∧ Identifies P message viewer.id viewer.signPk ∧
      sur.hasPairedViewer viewer = true) := by
  obtain ⟨salt, hsalt⟩ := Option.isSome_iff_exists.mp (offer.salt_isSome.mpr hpassphrase)
  cases message with
  | publicKey asymmetricValue symmetricValue quicIdentity =>
      unfold receive at h
      simp only at h
      cases hkey : getPk asymmetricValue with
      | none =>
          rw [hkey] at h
          simp only at h
          split at h <;> cases h
      | some theirPk =>
          obtain rfl := Block.ofList?_eq_some.mp hkey
          rw [hkey] at h
          unfold admitPublicKey at h
          simp only [hsalt, Option.isSome_some, or_true, if_true] at h
          obtain ⟨payload, hpayload, h⟩ := bind_eq_ok.mp h
          obtain ⟨quicInitiator, -, h⟩ := bind_eq_ok.mp h
          obtain ⟨_, -, h⟩ := bind_eq_ok.mp h
          obtain ⟨session, -, h⟩ := bind_eq_ok.mp h
          obtain ⟨paired, hpaired, h⟩ := bind_eq_ok.mp (mapError_keyed_eq_ok.mp h)
          obtain ⟨_, -, h⟩ := bind_eq_ok.mp h
          obtain rfl := Except.ok.inj h
          have hopens : Opens P (.publicKey theirPk.bytes symmetricValue quicIdentity) theirPk
              payload := ⟨_, _, rfl, ofText_eq_ok.mp hpayload⟩
          rcases checkPairing_eq_ok hpaired with
            ⟨proof, hproof, hexpected, hpairs⟩ | ⟨rfl, viewer, scope, hviewer, hbox, hscope, hhas⟩
          · have hproves : Proves P offer _ := ⟨_, _, _, _, hopens, hsalt, hproof, hexpected⟩
            refine .inl ⟨hproves, fun entry hentry => ?_⟩
            cases paired with
            | none => cases hentry
            | some pair =>
                obtain ⟨scope, viewer⟩ := pair
                obtain ⟨hviewer, hbox, hscope⟩ := hpairs scope viewer rfl
                have hidentifies : Identifies P _ viewer.id viewer.signPk :=
                  ⟨_, _, _, hopens, hviewer, hbox, rfl, rfl⟩
                rcases List.mem_cons.mp hentry with rfl | hdirect
                · exact ⟨hproves, hidentifies, .inl hscope⟩
                · split at hdirect
                  · obtain rfl := List.mem_singleton.mp hdirect
                    exact ⟨hproves, hidentifies, .inr rfl⟩
                  · cases hdirect
          · exact .inr ⟨rfl, ⟨scope, viewer.id, viewer.signPk⟩, hscope,
              ⟨_, _, _, hopens, hviewer, hbox, rfl, rfl⟩, hhas⟩
  | _ => simp [receive] at h

end RustAdmin.Handshake.Host
