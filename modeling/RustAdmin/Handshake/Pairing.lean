import RustAdmin.Handshake.PublicKeyPayload
import RustAdmin.Support.Utf8

/-!
# Pairing proofs and session keys

What viewer and host compute for one session, `src/src/common.rs`: the proof that the
viewer knows the pairing passphrase, and the session key that it seals for the host.
Argon2id, SHA-256 and the box are those of libsodium and of the `sha2` crate;
`tcp::Encrypt::decode_session` is in `hbb_common`.
-/

namespace RustAdmin.Handshake

open RustAdmin.Support

abbrev SessionKey := Block 32

/-- What both sides use beside signatures. -/
structure Primitives extends Externals where
  /-- `argon2id13::derive_key`, `none` where it fails. -/
  deriveKey : Bytes → Salt → Option (Block 32)
  sha256 : Bytes → Block 32
  /-- `box_::seal` with the nonce of zeros: plaintext, their key, our secret key. -/
  boxSeal : Bytes → PublicKey → PublicKey → Bytes
  /-- `tcp::Encrypt::decode_session`: sealed key, their key, our secret key, and whether the
  directional mode was offered. -/
  decodeSession : Bytes → Bytes → PublicKey → Bool → Except String (SessionKey × Bool)
  /-- `tcp::SESSION_KEY_MODE_DIRECTIONAL` -/
  sessionKeyModeDirectional : UInt8
  /-- `tcp::SECURE_CHANNEL_DIRECTIONAL` -/
  secureChannelDirectional : UInt32

variable (P : Primitives)

/-! ## The proof -/

/-- `"rustdesk-direct-pairing-v1"` -/
def directPairingLabel : Bytes :=
  [0x72, 0x75, 0x73, 0x74, 0x64, 0x65, 0x73, 0x6b, 0x2d, 0x64, 0x69, 0x72, 0x65, 0x63, 0x74, 0x2d,
    0x70, 0x61, 0x69, 0x72, 0x69, 0x6e, 0x67, 0x2d, 0x76, 0x31]

/-- `str::as_bytes` -/
def strBytes (text : String) : Bytes := encodeUtf8 text.toList

/-- What is hashed for a proof. -/
def pairingTranscript (derived : Block 32) (peerId : String)
    (responderSignPk responderBoxPk initiatorBoxPk : PublicKey) : Bytes :=
  directPairingLabel ++ (derived.bytes ++ (strBytes peerId ++
    (responderSignPk.bytes ++ (responderBoxPk.bytes ++ initiatorBoxPk.bytes))))

def computeDirectPairingProof (passphrase : String) (salt : Salt) (peerId : String)
    (responderSignPk responderBoxPk initiatorBoxPk : PublicKey) : Except String PairingProof :=
  match P.deriveKey (strBytes passphrase) salt with
  | none => .error "Handshake failed: could not derive direct pairing key"
  | some derived =>
      .ok (P.sha256 (pairingTranscript derived peerId responderSignPk responderBoxPk
        initiatorBoxPk))

theorem strBytes_inj {text text' : String} (h : strBytes text = strBytes text') :
    text = text' := by
  have hdecoded := congrArg decodeUtf8 h
  unfold strBytes at hdecoded
  rw [decodeUtf8_encodeUtf8, decodeUtf8_encodeUtf8] at hdecoded
  exact Option.some.inj hdecoded

/-- The hashed bytes determine everything that was hashed: the id is the only part
without a fixed length. -/
theorem pairingTranscript_inj {derived derived' : Block 32} {peerId peerId' : String}
    {signPk signPk' boxPk boxPk' initiatorPk initiatorPk' : PublicKey}
    (h : pairingTranscript derived peerId signPk boxPk initiatorPk =
      pairingTranscript derived' peerId' signPk' boxPk' initiatorPk') :
    derived = derived' ∧ peerId = peerId' ∧ signPk = signPk' ∧ boxPk = boxPk' ∧
      initiatorPk = initiatorPk' := by
  obtain ⟨hderived, hrest⟩ := Block.append_inj (List.append_cancel_left h)
  have hlength := congrArg List.length hrest
  simp only [List.length_append, Block.length_bytes] at hlength
  obtain ⟨hid, hkeys⟩ := List.append_inj hrest (by omega)
  obtain ⟨hsign, hboxes⟩ := Block.append_inj hkeys
  rw [← List.append_nil initiatorPk.bytes, ← List.append_nil initiatorPk'.bytes] at hboxes
  obtain ⟨hbox, hinitiator⟩ := Block.append_inj hboxes
  exact ⟨hderived, strBytes_inj hid, hsign, hbox, (Block.append_inj hinitiator).1⟩

/-! ## The session key -/

/-- The key pair and the session key that a viewer draws for one session. -/
structure SessionKeys where
  boxPk : PublicKey
  boxSk : PublicKey
  key : SessionKey
deriving DecidableEq

/-- `create_symmetric_key_msg_with_mode`: the value that is sent sealed. -/
def createSymmetricKeyMsgWithMode (keys : SessionKeys) (theirPk : PublicKey)
    (directional : Bool) : Bytes :=
  P.boxSeal (keys.key.bytes ++ if directional then [P.sessionKeyModeDirectional] else []) theirPk
    keys.boxSk

def viewerSelectsDirectionalSecretbox (directionalEnabled : Bool) (secureChannel : UInt32) :
    Bool := secureChannel == P.secureChannelDirectional && directionalEnabled

def hostSecureChannel (directionalEnabled : Bool) : UInt32 :=
  if directionalEnabled then P.secureChannelDirectional else 0

/-- `b"direct-ok"` -/
def directHandshakeAckOk : Bytes := [0x64, 0x69, 0x72, 0x65, 0x63, 0x74, 0x2d, 0x6f, 0x6b]

/-! ## Messages -/

/-- The messages of a handshake. -/
inductive Message
  | signedId (id quicIdentity : Bytes)
  | publicKey (asymmetricValue symmetricValue quicIdentity : Bytes)
  | messageBox (msgtype text : String)
  /-- A message of any other kind. -/
  | other
deriving DecidableEq, Repr

/-- The signing keys in the configuration, which need not have the right lengths. -/
structure KeyFiles where
  secretKey : Bytes
  publicKey : Bytes
deriving DecidableEq, Repr

/-- `get_local_signing_keypair` -/
def getLocalSigningKeypair (files : KeyFiles) : Except String (PublicKey × SecretKey) :=
  match Block.ofList? 32 files.publicKey, Block.ofList? 64 files.secretKey with
  | some pk, some sk => .ok (pk, sk)
  | _, _ => .error "Handshake failed: invalid local signing key length"

def validateDirectPublicKeyInitiator (initiator : DirectSignedId) (asymmetricValue : Bytes) :
    Except String Unit :=
  match getPk asymmetricValue with
  | none => .error "Handshake failed: invalid initiator public key length"
  | some boxPk =>
      if initiator.boxPk ≠ boxPk then
        .error "Handshake failed: initiator identity does not match public key"
      else .ok ()

/-! ## An instance

The programs can be run with it.  Nothing is secret here: a signature is the secret key in
front of the message, of which the second half is the public key, as in an Ed25519 key. -/

namespace Instance

/-- A number in unary. -/
def putCount (n : ℕ) (rest : Bytes) : Bytes := List.replicate n 1 ++ 0 :: rest

def takeCount : Bytes → ℕ × Bytes
  | [] => (0, [])
  | byte :: rest => if byte = 0 then (0, rest) else ((takeCount rest).1 + 1, (takeCount rest).2)

theorem takeCount_putCount (n : ℕ) (rest : Bytes) : takeCount (putCount n rest) = (n, rest) := by
  induction n with
  | zero => simp [putCount, takeCount]
  | succ n ih =>
      rw [putCount] at ih
      simp [putCount, List.replicate_succ, takeCount, ih]

def writeIdPk (message : IdPk) : Bytes :=
  putCount message.secureChannel.toNat
    (putCount (strBytes message.id).length (strBytes message.id ++ message.pk))

def parseIdPk (bytes : Bytes) : Except String IdPk :=
  if bytes = [] then .ok ⟨"", [], 0⟩ else
    let secureChannel := takeCount bytes
    let idLength := takeCount secureChannel.2
    match decodeUtf8 (idLength.2.take idLength.1) with
    | none => .error "invalid id"
    | some id =>
        .ok ⟨id, idLength.2.drop idLength.1, UInt32.ofNat secureChannel.1⟩

theorem parseIdPk_writeIdPk (message : IdPk) : parseIdPk (writeIdPk message) = .ok message := by
  have hne : writeIdPk message ≠ [] := by simp [writeIdPk, putCount]
  rw [parseIdPk, if_neg hne]
  simp only [writeIdPk, takeCount_putCount, List.take_left, List.drop_left]
  simp [strBytes, decodeUtf8_encodeUtf8]

def externals : Externals where
  sign message key := key.bytes ++ message
  verify signed key := if (signed.take 64).drop 32 = key.bytes then some (signed.drop 64) else none
  writeIdPk := writeIdPk
  parseIdPk := parseIdPk

theorem externals_documented : externals.Documented where
  length_sign message key := by simp [externals]
  parse_write := parseIdPk_writeIdPk
  parse_nil := rfl

/-- A block of one byte over and over. -/
def block (n : ℕ) (byte : UInt8) : Block n := ⟨List.replicate n byte, List.length_replicate⟩

/-- The key pair with this byte. -/
def publicKey (byte : UInt8) : PublicKey := block 32 byte
def secretKey (byte : UInt8) : SecretKey := block 64 byte

theorem isKeyPair (byte : UInt8) : externals.IsKeyPair (publicKey byte) (secretKey byte) := by
  intro message
  simp [externals, publicKey, secretKey, block]

/-- The first bytes, filled up with zeros. -/
def pad (n : ℕ) (bytes : Bytes) : Block n :=
  ⟨(bytes ++ List.replicate n 0).take n, by simp⟩

def primitives : Primitives where
  toExternals := externals
  deriveKey passphrase _ := some (pad 32 passphrase)
  sha256 bytes := pad 32 (bytes.drop 26)
  boxSeal plain _ _ := plain
  decodeSession sealed _ _ directionalOffered :=
    match Block.ofList? 32 (sealed.take 32) with
    | none => .error "Failed to decode session key"
    | some key => .ok (key, directionalOffered && sealed.length == 33)
  sessionKeyModeDirectional := 1
  secureChannelDirectional := 1

end Instance

end RustAdmin.Handshake
