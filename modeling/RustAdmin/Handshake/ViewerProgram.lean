import RustAdmin.Handshake.Pairing
import RustAdmin.Handshake.PeerTrust
import RustAdmin.Support.Attempts

/-!
# The viewer's side of a handshake

`secure_direct_connection_with_input`, `secure_connection_with_input` and the loops around
them in `src/src/client.rs`, as programs that call the network, the user, the clock, the
configuration and the stores.  The answers of the peer and of the user are arbitrary.
-/

namespace RustAdmin.Handshake.Viewer

open RustAdmin.Support

/-! ## Calls -/

/-- What one connection remembers over its attempts; the passphrase is one that the user
typed and that has not been used. -/
structure HandshakeInput where
  peer : Option (String × PublicKey) := none
  passphrase : Option String := none
  canReopen : Bool := false
  requireAuthenticatedRepair : Bool := false
  repairIdentityApproved : Bool := false
  reopenRequested : Bool := false
deriving DecidableEq

inductive HandshakeError
  | reopenAfterApproval
  | quicIdentityRepairRequired
  | text (text : String)
deriving DecidableEq, Repr

/-- What `conn.next` hands out: the end of the stream, or a message. -/
inductive Received
  | closed
  | message (message : Message)

/-- How the promotion to QUIC ends: no pretrusted peer, a timeout, or a stream. -/
inductive Promotion
  | notTrusted
  | timedOut
  | stream

/-- A stream to the peer that a rendezvous server has led to. -/
structure Route where
  isQuic : Bool
  /-- It does not go over a relay. -/
  direct : Bool
  hadQuicTrust : Bool
  signedIdPk : Bytes

inductive Call
  /-- A new connection, over which a first attempt is made. -/
  | connect (pairingCandidate : Bool)
  | connectPretrusted
  | openRoute
  | receive
  | send (message : Message)
  | setKey (key : SessionKey) (directional : Bool)
  /-- Whether half of the connection timeout has passed since the attempt began. -/
  | late
  | now
  | freshKeys
  /-- The input of a connection that begins. -/
  | newInput
  | loadInput
  | storeInput (input : HandshakeInput)
  | loadOptions
  | storeOptions (options : PeerOptions)
  | allowUnverifiedPeerTrust
  | rememberPairedViewers
  | confirmPeerTrust (peerId fingerprint trustPhrase : String) (direct : Bool)
  | requestPairingPassphrase (peerId : String) (direct : Bool)
  | pairingProof (passphrase : String) (salt : Salt) (peerId : String)
      (responderSignPk responderBoxPk initiatorBoxPk : PublicKey)
  | verifyQuicBinding (signPk : PublicKey) (certificate : Bytes)
  | hasPairedPeer
  | rememberAuthenticatedPeer (id : String) (signPk : PublicKey) (certificate : Bytes)

def Call.Answer : Call → Type
  | connect _ => Except HandshakeError Bool
  | connectPretrusted => Except HandshakeError Promotion
  | openRoute => Except HandshakeError Route
  | receive => Except HandshakeError Received
  | send _ => Except HandshakeError Unit
  | setKey _ _ => Unit
  | late => Bool
  | now => ℤ
  | freshKeys => SessionKeys
  | newInput => Unit
  | loadInput => HandshakeInput
  | storeInput _ => Unit
  | loadOptions => PeerOptions
  | storeOptions _ => Unit
  | allowUnverifiedPeerTrust => Bool
  | rememberPairedViewers => Bool
  | confirmPeerTrust _ _ _ _ => Except HandshakeError Unit
  | requestPairingPassphrase _ _ => Except HandshakeError String
  | pairingProof _ _ _ _ _ _ => Except HandshakeError PairingProof
  | verifyQuicBinding _ _ => Except HandshakeError Unit
  | hasPairedPeer => Except HandshakeError Bool
  | rememberAuthenticatedPeer _ _ _ => Except HandshakeError Unit

abbrev Task (α : Type) := Program Call Call.Answer HandshakeError α

/-- What the viewer is configured with. -/
structure Config where
  id : String
  keyFiles : KeyFiles
  quicCertificate : Except String Bytes
  directionalSecretboxEnabled : Bool
  /-- `Config::get_bootstrap_trusted_peer_key`, empty for none. -/
  bootstrapKey : String → String
  peerConfigId : String

/-- What a viewer is asked to connect to; `rsPk` is the rendezvous key of the configuration. -/
inductive Target
  | direct
  | rendezvous (peerId : String) (rsPk : Option PublicKey) (udp : Bool)

def Target.scope : Target → PairingScope
  | .direct => .direct
  | .rendezvous .. => .rendezvous

namespace Task

def bail {α : Type} (text : String) : Task α := Program.fail (HandshakeError.text text)

def ofText {α : Type} (result : Except String α) : Task α :=
  Program.ofExcept (result.mapError HandshakeError.text)

def ensure (c : Bool) (text : String) : Task Unit := if c then Program.ret () else bail text

def connect (pairingCandidate : Bool) : Task Bool := .checked (.connect pairingCandidate) id
def connectPretrusted : Task Promotion := .checked .connectPretrusted id
def openRoute : Task Route := .checked .openRoute id
def receive : Task Received := .checked .receive id
def send (message : Message) : Task Unit := .checked (.send message) id
def setKey (key : SessionKey) (directional : Bool) : Task Unit := .ask (Call.setKey key directional)
def late : Task Bool := .ask Call.late
def now : Task ℤ := .ask Call.now
def freshKeys : Task SessionKeys := .ask Call.freshKeys
def newInput : Task Unit := .ask Call.newInput
def loadInput : Task HandshakeInput := .ask Call.loadInput
def storeInput (input : HandshakeInput) : Task Unit := .ask (Call.storeInput input)
def loadOptions : Task PeerOptions := .ask Call.loadOptions
def storeOptions (options : PeerOptions) : Task Unit := .ask (Call.storeOptions options)
def allowUnverifiedPeerTrust : Task Bool := .ask Call.allowUnverifiedPeerTrust
def rememberPairedViewers : Task Bool := .ask Call.rememberPairedViewers

def confirmPeerTrust (peerId fingerprint trustPhrase : String) (direct : Bool) : Task Unit :=
  .checked (.confirmPeerTrust peerId fingerprint trustPhrase direct) id

def requestPairingPassphrase (peerId : String) (direct : Bool) : Task String :=
  .checked (.requestPairingPassphrase peerId direct) id

def pairingProof (passphrase : String) (salt : Salt) (peerId : String)
    (responderSignPk responderBoxPk initiatorBoxPk : PublicKey) : Task PairingProof :=
  .checked (.pairingProof passphrase salt peerId responderSignPk responderBoxPk initiatorBoxPk) id

def verifyQuicBinding (signPk : PublicKey) (certificate : Bytes) : Task Unit :=
  .checked (.verifyQuicBinding signPk certificate) id

def hasPairedPeer : Task Bool := .checked .hasPairedPeer id

def rememberAuthenticatedPeer (id : String) (signPk : PublicKey) (certificate : Bytes) :
    Task Unit := .checked (.rememberAuthenticatedPeer id signPk certificate) fun answer => answer

end Task

variable (P : Primitives) (B : Base64) (cfg : Config)

/-! ## One attempt -/

/-- The first message of the host. -/
def receiveSignedId : Task (Bytes × Bytes) := do
  match ← Task.receive with
  | .closed => Task.bail "Reset by the peer"
  | .message (.signedId id quicIdentity) => pure (id, quicIdentity)
  | .message _ => Task.bail "Handshake failed: invalid message type"

/-- On a QUIC stream the certificate is the one that the host has signed. -/
def validateBinding (isQuic : Bool) (signPk : PublicKey) (certificate : Option Bytes) :
    Task Unit :=
  if isQuic then
    match certificate with
    | none => Task.bail "Handshake failed: QUIC peer omitted its signed TLS certificate"
    | some certificate => Task.verifyQuicBinding signPk certificate
  else .ret ()

def directHello (isQuic : Bool) : Task DirectSignedId := do
  let signedId ← receiveSignedId
  let directId ← Task.ofText ((decodeDirectIdPk P.toExternals signedId.1).mapError fun e =>
    "Handshake failed: invalid direct peer key: " ++ e)
  let directId ← Task.ofText (attachDirectQuicIdentity P.toExternals directId signedId.2)
  validateBinding isQuic directId.signPk directId.quicCertificateDer
  pure directId

/-- The host's offer in a rendezvous handshake, whose signing key the server has signed. -/
def rendezvousHello (isQuic : Bool) (signPk : PublicKey) : Task DirectSignedId := do
  let signedId ← receiveSignedId
  let secureId ← Task.ofText ((decodeSecureSignedId P.toExternals signedId.1 signPk).mapError
    fun e => "Handshake failed: invalid signed peer key: " ++ e)
  let secureId ← Task.ofText (attachSecureQuicIdentity P.toExternals secureId signPk signedId.2)
  validateBinding isQuic signPk secureId.quicCertificateDer
  pure
    { id := secureId.id
      signPk := signPk
      boxPk := secureId.boxPk
      pairingRequired := secureId.pairingRequired
      pairingSalt := secureId.pairingSalt
      supportsPairedViewerIdentity := secureId.supportsPairedViewerIdentity
      quicCertificateDer := secureId.quicCertificateDer
      secureChannel := secureId.secureChannel }

def bindPeer (id : String) (signingKey : PublicKey) : Task Unit := do
  let input ← Task.loadInput
  match input.peer with
  | some expected =>
      if expected = (id, signingKey) then pure () else
        Task.bail (
            "Handshake failed: peer identity changed during authentication; " ++
            "verify the remote device before retrying")
  | none => Task.storeInput { input with peer := some (id, signingKey) }

structure PendingPeerTrust where
  fingerprint : String
  trustPhrase : String
  replaceExistingPin : Bool
deriving DecidableEq, Repr

def PendingPeerTrust.new (pk : PublicKey) (replaceExistingPin : Bool) : PendingPeerTrust :=
  let fingerprint := pkToFingerprint pk.bytes
  { fingerprint, trustPhrase := fingerprintToTrustPhrase P.sha256 fingerprint, replaceExistingPin }

def pendingPeerTrustFromStatus (status : TrustedPeerSigningKeyStatus) (pk : PublicKey) :
    Option PendingPeerTrust :=
  match status with
  | .trusted => none
  | .missing => some (.new P pk false)
  | .changed _ _ => some (.new P pk true)
  | .invalidPinnedKey _ => some (.new P pk true)

/-- A changed identity is shown to the user once before anything else is asked. -/
def approveRepair (host : DirectSignedId) (pending : Option PendingPeerTrust) : Task Unit := do
  let input ← Task.loadInput
  match pending with
  | some pending =>
      if input.requireAuthenticatedRepair && !input.repairIdentityApproved then do
        Task.confirmPeerTrust host.id pending.fingerprint pending.trustPhrase true
        Task.storeInput { input with repairIdentityApproved := true }
      else pure ()
  | none => pure ()

/-- After the user has taken long, the attempt starts over on a fresh socket. -/
def reopenIfLate (input : HandshakeInput) : Task Unit := do
  let late ← Task.late
  if input.canReopen && late then do
    Task.storeInput { input with reopenRequested := true }
    .fail .reopenAfterApproval
  else pure ()

/-- What the refusals of a first contact say. -/
structure TrustTexts where
  noChallenge : String
  notAllowed : String
  direct : Bool

/-- First contact without a pairing challenge; returns the trust that is still pending and
whether the key was pinned. -/
def trustFirstContact (texts : TrustTexts) (host : DirectSignedId)
    (pending : Option PendingPeerTrust) : Task (Option PendingPeerTrust × Bool) :=
  match pending with
  | none => .ret (none, false)
  | some pending =>
      if host.pairingRequired then .ret (some pending, false)
      else if pending.replaceExistingPin then Task.bail texts.noChallenge
      else do
        let allowed ← Task.allowUnverifiedPeerTrust
        Task.ensure allowed texts.notAllowed
        Task.confirmPeerTrust host.id pending.fingerprint pending.trustPhrase texts.direct
        let options ← Task.loadOptions
        let pinned ← Task.ofText
          (pinTrustedPeerSigningKey B (cfg.bootstrapKey host.id) options host.signPk.bytes)
        Task.storeOptions pinned
        let input ← Task.loadInput
        reopenIfLate input
        pure (none, true)

def hasConfirmedPairedViewer (scope : PairingScope) : Task Bool := do
  let now ← Task.now
  let options ← Task.loadOptions
  let answer := options.hasConfirmedPairedViewer scope now
  (if answer.2 = options then pure () else Task.storeOptions answer.2)
  pure answer.1

def setConfirmedPairedViewer (scope : PairingScope) (confirmed : Bool) : Task Unit := do
  let now ← Task.now
  let options ← Task.loadOptions
  Task.storeOptions (options.setConfirmedPairedViewer scope confirmed now)

def createDirectPublicKeyInitiatorId (boxPk : PublicKey) : Except String Bytes :=
  match getLocalSigningKeypair cfg.keyFiles with
  | .error e => .error e
  | .ok (signPk, signSk) => .ok (createDirectSignedId P.toExternals cfg.id boxPk signPk signSk)

def createDirectQuicIdentity (boxPk : PublicKey) : Except String Bytes :=
  match getLocalSigningKeypair cfg.keyFiles with
  | .error e => .error e
  | .ok (signPk, signSk) =>
      match cfg.quicCertificate with
      | .error e => .error e
      | .ok certificate =>
          createDirectSignedIdWithQuic P.toExternals cfg.id boxPk signPk signSk certificate

/-- The passphrase that is left from an attempt before, or one that the user types now. -/
def takePassphrase (peerId : String) (direct : Bool) : Task String := do
  let input ← Task.loadInput
  match input.passphrase with
  | some passphrase => do
      Task.storeInput { input with passphrase := none }
      pure passphrase
  | none => Task.requestPairingPassphrase peerId direct

/-- The pairing proof for a salt, unless a remembered pairing is to stand in for it. -/
def provePassphrase (direct : Bool) (host : DirectSignedId) (ourBoxPk : PublicKey)
    (usePairedViewer : Bool) : Task (Option PairingProof) :=
  match host.pairingSalt with
  | none => .ret none
  | some salt =>
      if usePairedViewer then .ret none else do
        let passphrase ← takePassphrase host.id direct
        let input ← Task.loadInput
        let late ← Task.late
        if input.canReopen && late then do
          Task.storeInput { input with passphrase := some passphrase, reopenRequested := true }
          .fail .reopenAfterApproval
        else do
          let proof ←
            Task.pairingProof passphrase salt host.id host.signPk host.boxPk ourBoxPk
          pure (some proof)

/-- What the viewer has sent. -/
structure Answered where
  usedPairedViewer : Bool
  pairingWasProven : Bool
  sentInitiator : Bool
deriving DecidableEq, Repr

/-- The viewer's answer to an offer. -/
def sendPublicKey (scope : PairingScope) (host : DirectSignedId)
    (pending : Option PendingPeerTrust) : Task Answered := do
  let directional :=
    viewerSelectsDirectionalSecretbox P cfg.directionalSecretboxEnabled host.secureChannel
  let keys ← Task.freshKeys
  let remember ← Task.rememberPairedViewers
  let identified := host.pairingRequired && host.supportsPairedViewerIdentity && remember
  let usePairedViewer ←
    (if identified && pending.isNone then hasConfirmedPairedViewer scope else pure false)
  let initiatorSignedId ← Task.ofText
    (if identified then (createDirectPublicKeyInitiatorId P cfg keys.boxPk).map some
      else .ok none)
  let quicIdentity ← Task.ofText
    (if host.quicCertificateDer.isSome then createDirectQuicIdentity P cfg keys.boxPk else .ok [])
  let pairingProof ← provePassphrase (scope == .direct) host keys.boxPk usePairedViewer
  let wrapped ← Task.ofText (wrapDirectPublicKeySymmetricValueWithIdentity
    (createSymmetricKeyMsgWithMode P keys host.boxPk directional) pairingProof initiatorSignedId)
  Task.send (.publicKey keys.boxPk.bytes wrapped quicIdentity)
  Task.setKey keys.key directional
  pure
    { usedPairedViewer := usePairedViewer
      pairingWasProven := pairingProof.isSome
      sentInitiator := initiatorSignedId.isSome }

/-- A refused pairing that was remembered is forgotten. -/
def refuse (scope : PairingScope) (usedPairedViewer : Bool) (text : String) : Task Unit := do
  (if usedPairedViewer then setConfirmedPairedViewer scope false else pure ())
  Task.bail text

/-- What the failures of an acknowledgement say. -/
structure AckTexts where
  invalid : String
  missing : String

def awaitAck (scope : PairingScope) (texts : AckTexts) (usedPairedViewer : Bool) : Task Unit := do
  match ← Task.receive with
  | .message (.signedId id _) =>
      if id = directHandshakeAckOk then pure () else refuse scope usedPairedViewer texts.invalid
  | .message (.messageBox msgtype text) =>
      if msgtype = "error" then refuse scope usedPairedViewer text
      else refuse scope usedPairedViewer texts.invalid
  | .message _ => refuse scope usedPairedViewer texts.invalid
  | .closed => refuse scope usedPairedViewer texts.missing

/-- The key of a host that has acknowledged a pairing is pinned. -/
def trustAfterPairing (host : DirectSignedId) (pending : Option PendingPeerTrust) : Task Unit :=
  match pending with
  | none => .ret ()
  | some _ => do
      let options ← Task.loadOptions
      let trusted ← Task.ofText (trustPeerSigningKeyAfterPairing B (cfg.bootstrapKey host.id)
        options host.signPk.bytes)
      Task.storeOptions trusted

/-- `remember_authenticated_peer` under the id of the peer and under that of its options. -/
def rememberQuicPeer (host : DirectSignedId) (certificate : Bytes) : Task Unit := do
  Task.rememberAuthenticatedPeer host.id host.signPk certificate
  if cfg.peerConfigId ≠ host.id then
    Task.rememberAuthenticatedPeer cfg.peerConfigId host.signPk certificate
  else pure ()

def authenticatedPeerAllowsQuicPin (signingKeyWasTrusted trustWasConfirmed pairingWasProven
    pairedViewerWasConfirmed : Bool) : Bool :=
  signingKeyWasTrusted || trustWasConfirmed || pairingWasProven || pairedViewerWasConfirmed

def directTrustTexts : TrustTexts where
  noChallenge :=
      "Handshake failed: trusted peer key changed or is invalid; local or " ++
      "rendezvous pairing passphrase is required to repair trust. No pairing " ++
      "challenge was offered; configure Local pairing passphrase on the remote " ++
      "device and reconnect. The remote-access password is separate"
  notAllowed :=
      "Handshake failed: first direct secure contact requires a trusted peer " ++
      "key or local/rendezvous pairing passphrase. Enable 'Allow unverified " ++
      "peer trust' to allow legacy first-contact trust"
  direct := true

def directAckTexts : AckTexts where
  invalid := "Handshake failed: invalid direct handshake acknowledgement"
  missing := "Handshake failed: missing direct handshake acknowledgement"

/-- `secure_direct_connection_with_input`. -/
def secureDirectConnection (isQuic : Bool) : Task PublicKey := do
  let input ← Task.loadInput
  (if input.reopenRequested then .fail .reopenAfterApproval else pure ())
  let host ← directHello P isQuic
  bindPeer host.id host.signPk
  Task.ensure (host.id ≠ "") "Handshake failed: empty peer id"
  let options ← Task.loadOptions
  let status ← Task.ofText
    (trustedPeerSigningKeyStatus B (cfg.bootstrapKey host.id) options host.signPk.bytes)
  let signingKeyWasTrusted := status == .trusted
  let input ← Task.loadInput
  Task.ensure
    (!(input.requireAuthenticatedRepair && !signingKeyWasTrusted && !host.pairingRequired))
    ("Handshake failed: server identity changed and no pairing passphrase is " ++
      "configured on the server; configure Local pairing passphrase on the " ++
      "remote device and reconnect. The remote-access password is separate")
  let pending := pendingPeerTrustFromStatus P status host.signPk
  approveRepair host pending
  let (pending, pinned) ← trustFirstContact B cfg directTrustTexts host pending
  let answered ← sendPublicKey P cfg .direct host pending
  (if host.pairingRequired then awaitAck .direct directAckTexts answered.usedPairedViewer
    else pure ())
  trustAfterPairing B cfg host pending
  (if answered.pairingWasProven && answered.sentInitiator then
    setConfirmedPairedViewer .direct true else pure ())
  let confirmed ← hasConfirmedPairedViewer .direct
  match host.quicCertificateDer with
  | some certificate =>
      if authenticatedPeerAllowsQuicPin signingKeyWasTrusted (pinned || pending.isSome)
          answered.pairingWasProven confirmed then do
        rememberQuicPeer cfg host certificate
        pure host.signPk
      else pure host.signPk
  | none => pure host.signPk

def rendezvousTrustTexts : TrustTexts where
  noChallenge :=
    "Handshake failed: trusted peer key changed or is invalid; rendezvous pairing " ++
    "passphrase is required to repair trust. No pairing challenge was offered; configure " ++
    "the rendezvous pairing passphrase on the remote device and reconnect"
  notAllowed :=
    "Handshake failed: first secure contact requires a trusted peer key or rendezvous " ++
    "pairing passphrase. Enable 'Allow unverified peer trust' to allow legacy " ++
    "first-contact trust"
  direct := false

def rendezvousAckTexts : AckTexts where
  invalid := "Handshake failed: invalid pairing acknowledgement"
  missing := "Handshake failed: pairing acknowledgement missing"

/-- The key that the rendezvous server vouches for. -/
def vouchedKey (peerId : String) (signedIdPk : Bytes) (rsPk : Option PublicKey) :
    Except String PublicKey :=
  match rsPk with
  | none => .error "Handshake failed: no valid rendezvous signing key is configured"
  | some rsPk =>
      if signedIdPk = [] then
        .error "Handshake failed: missing public key from rendezvous server"
      else
        match decodeIdPk P.toExternals signedIdPk rsPk with
        | .error e =>
            .error ("Handshake failed: invalid public key from rendezvous server: " ++ e)
        | .ok (id, pk) =>
            if id ≠ peerId then
              .error "Handshake failed: peer id mismatch from rendezvous server"
            else .ok pk

/-- `secure_connection_with_input`; `rsPk` is the rendezvous key of the configuration. -/
def secureConnection (isQuic : Bool) (peerId : String) (signedIdPk : Bytes)
    (rsPk : Option PublicKey) : Task PublicKey := do
  let input ← Task.loadInput
  (if input.reopenRequested then .fail .reopenAfterApproval else pure ())
  let pk ← Task.ofText (vouchedKey P peerId signedIdPk rsPk)
  let host ← rendezvousHello P isQuic pk
  Task.ensure (host.id = peerId) "Handshake failed: peer id mismatch"
  bindPeer host.id host.signPk
  let options ← Task.loadOptions
  let status ← Task.ofText
    (trustedPeerSigningKeyStatus B (cfg.bootstrapKey host.id) options host.signPk.bytes)
  let signingKeyWasTrusted := status == .trusted
  let pending := pendingPeerTrustFromStatus P status host.signPk
  let (pending, pinned) ← trustFirstContact B cfg rendezvousTrustTexts host pending
  let answered ← sendPublicKey P cfg .rendezvous host pending
  (if host.pairingRequired then
    awaitAck .rendezvous rendezvousAckTexts answered.usedPairedViewer else pure ())
  trustAfterPairing B cfg host pending
  (if answered.pairingWasProven && answered.sentInitiator then do
    setConfirmedPairedViewer .rendezvous true
    if host.quicCertificateDer.isSome then setConfirmedPairedViewer .direct true else pure ()
    else pure ())
  let confirmedRendezvous ← hasConfirmedPairedViewer .rendezvous
  let confirmed ← (if confirmedRendezvous then pure true else hasConfirmedPairedViewer .direct)
  match host.quicCertificateDer with
  | some certificate =>
      if authenticatedPeerAllowsQuicPin signingKeyWasTrusted (pinned || pending.isSome)
          answered.pairingWasProven confirmed then do
        setConfirmedPairedViewer .direct true
        rememberQuicPeer cfg host certificate
        pure host.signPk
      else pure host.signPk
  | none => pure host.signPk

/-! ## Rendezvous connections -/

/-- The identity of a QUIC stream has to be the one that the rendezvous server vouches for. -/
def validateRendezvousPeerIdentity (peerId : String) (signedIdPk : Bytes)
    (rsPk : Option PublicKey) (directSignPk : PublicKey) : Except String Unit :=
  match rsPk with
  | none => .error "Handshake failed: no valid rendezvous signing key is configured"
  | some rsPk =>
      if signedIdPk = [] then
        .error "Handshake failed: missing public key from rendezvous server"
      else
        match decodeIdPk P.toExternals signedIdPk rsPk with
        | .error e =>
            .error ("Handshake failed: invalid public key from rendezvous server: " ++ e)
        | .ok (signedPeerId, signedPeerPk) =>
            if signedPeerId ≠ peerId ∨ signedPeerPk ≠ directSignPk then
              .error "Handshake failed: QUIC peer identity does not match rendezvous identity"
            else .ok ()

/-- The handshake of `connect` over the stream that it has opened, and its promotion. -/
def connectRoute (peerId : String) (rsPk : Option PublicKey) : Task PublicKey := do
  let route ← Task.openRoute
  if route.isQuic then do
    let quicPk ← secureDirectConnection P B cfg true
    Task.ofText (validateRendezvousPeerIdentity P peerId route.signedIdPk rsPk quicPk)
    pure quicPk
  else do
    let pk ← secureConnection P B cfg false peerId route.signedIdPk rsPk
    if route.direct && !route.hadQuicTrust then
      match ← Task.connectPretrusted with
      | .notTrusted => pure pk
      | .timedOut => pure pk
      | .stream => do
          let quicPk ← secureDirectConnection P B cfg true
          Task.ensure (quicPk = pk) (
            "Handshake failed: QUIC upgrade identity does not match the paired " ++
            "rendezvous identity")
          pure quicPk
    else pure pk

/-- The routes of `_start`, of which there are two where UDP can be punched; their
handshakes exclude each other. -/
def startRoutes (peerId : String) (rsPk : Option PublicKey) (udp : Bool) : Task PublicKey :=
  if udp then do
    match ← (connectRoute P B cfg peerId rsPk).attempt with
    | .ok pk => pure pk
    | .error _ => connectRoute P B cfg peerId rsPk
  else connectRoute P B cfg peerId rsPk

/-- An operation of `start`: another route may have asked to start over. -/
def startOperation (peerId : String) (rsPk : Option PublicKey) (udp : Bool) : Task PublicKey := do
  match ← (startRoutes P B cfg peerId rsPk udp).attempt with
  | .ok pk => pure pk
  | .error error => do
      let input ← Task.loadInput
      if input.reopenRequested then do
        Task.storeInput { input with reopenRequested := false }
        .fail .reopenAfterApproval
      else if input.requireAuthenticatedRepair = false ∧ error = .quicIdentityRepairRequired then do
        Task.storeInput { input with requireAuthenticatedRepair := true }
        .fail .reopenAfterApproval
      else .fail error

/-! ## The attempts of one connection -/

def passphraseRejected : HandshakeError := .text "Handshake failed: pairing passphrase rejected"

/-- The connection of an attempt; a saved QUIC identity that no longer fits asks for an
authenticated repair. -/
def connectDirect : Task Bool := do
  let input ← Task.loadInput
  if input.requireAuthenticatedRepair then Task.connect true else do
    match ← (Task.connect false).attempt with
    | .ok isQuic => pure isQuic
    | .error .quicIdentityRepairRequired => do
        Task.storeInput { input with requireAuthenticatedRepair := true }
        Task.connect true
    | .error e => .fail e

/-- The loop of `connect_secure_direct_with_pairing_retry`, with the attempts that are
left. -/
def pairingRetry (hadConfirmedPairing : Bool) :
    ℕ → (retriedRejected retriedRemembered : Bool) → Task (Bool × PublicKey)
  | 0, _, _ => Task.bail "Handshake failed: authentication retry limit reached"
  | attempts + 1, retriedRejected, retriedRemembered => do
      let input ← Task.loadInput
      Task.storeInput { input with reopenRequested := false }
      let isQuic ← connectDirect
      match ← (secureDirectConnection P B cfg isQuic).attempt with
      | .ok pk => pure (isQuic, pk)
      | .error error =>
          if error = .reopenAfterApproval then
            pairingRetry hadConfirmedPairing attempts retriedRejected retriedRemembered
          else if error = passphraseRejected then
            if retriedRejected then
              Task.bail "Handshake failed: pairing passphrase rejected after retry"
            else pairingRetry hadConfirmedPairing attempts true retriedRemembered
          else do
            let stillConfirmed ←
              (if hadConfirmedPairing then hasConfirmedPairedViewer .direct else pure true)
            if stillConfirmed || retriedRemembered then .fail error
            else pairingRetry hadConfirmedPairing attempts retriedRejected true

/-- `promote_confirmed_direct_to_quic`, with the attempts that are left. -/
def promoteConfirmedDirectToQuic (pk : PublicKey) : ℕ → Task PublicKey
  | 0 => Task.bail "Handshake failed: QUIC upgrade authentication retry limit reached"
  | attempts + 1 => do
      let input ← Task.loadInput
      Task.storeInput { input with reopenRequested := false }
      match ← Task.connectPretrusted with
      | .notTrusted => pure pk
      | .timedOut => pure pk
      | .stream => do
          match ← (secureDirectConnection P B cfg true).attempt with
          | .ok quicPk => do
              Task.ensure (quicPk = pk)
                "Handshake failed: QUIC upgrade identity does not match the paired TCP identity"
              pure quicPk
          | .error .reopenAfterApproval => promoteConfirmedDirectToQuic pk attempts
          | .error e => .fail e

/-- `connect_secure_direct_with_pairing_retry`. -/
def connectSecureDirectWithPairingRetry : Task PublicKey := do
  let hadConfirmedPairing ← hasConfirmedPairedViewer .direct
  let hadQuicTrust ← Task.hasPairedPeer
  Task.newInput
  let (isQuic, pk) ← pairingRetry P B cfg hadConfirmedPairing 5 false false
  if isQuic || hadQuicTrust then pure pk
  else promoteConfirmedDirectToQuic P B cfg pk 3

/-- `retry_after_cleared_rendezvous_pairing`, with the operations that are left. -/
def retryAfterClearedRendezvousPairing {α : Type} (hadConfirmedPairing : Bool) (op : Task α) :
    ℕ → (retriedRemembered retriedRejected : Bool) → Task α
  | 0, _, _ => Task.bail "Handshake failed: authentication retry limit reached"
  | operations + 1, retriedRemembered, retriedRejected => do
      match ← op.attempt with
      | .ok result => pure result
      | .error error =>
          if error = .reopenAfterApproval then
            retryAfterClearedRendezvousPairing hadConfirmedPairing op operations
              retriedRemembered retriedRejected
          else if retriedRejected = false ∧ error = passphraseRejected then
            retryAfterClearedRendezvousPairing hadConfirmedPairing op operations
              retriedRemembered true
          else do
            let stillConfirmed ←
              (if hadConfirmedPairing then hasConfirmedPairedViewer .rendezvous else pure true)
            if stillConfirmed || retriedRemembered then .fail error
            else
              retryAfterClearedRendezvousPairing hadConfirmedPairing op operations
                true retriedRejected

/-- `start` for a peer behind a rendezvous server. -/
def startRendezvous (peerId : String) (rsPk : Option PublicKey) (udp : Bool) : Task PublicKey := do
  Task.newInput
  let hadConfirmedPairing ← hasConfirmedPairedViewer .rendezvous
  retryAfterClearedRendezvousPairing hadConfirmedPairing
    (startOperation P B cfg peerId rsPk udp) 5 false false

end RustAdmin.Handshake.Viewer
