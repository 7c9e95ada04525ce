import RustAdmin.Support.Blocks

/-!
# Signed ids

The first message of a peer handshake, `src/src/common.rs`: the host signs its id
together with the key of this session, in one of four formats, and the viewer takes it
apart.  The signatures are those of libsodium and the message `IdPk` is a protobuf of
`hbb_common`; neither is in this repository.
-/

namespace RustAdmin.Handshake

open RustAdmin.Support

abbrev Bytes := List UInt8

/-- An Ed25519 or a Curve25519 public key. -/
abbrev PublicKey := Block 32

abbrev SecretKey := Block 64

/-- The salt of Argon2id. -/
abbrev Salt := Block 16

/-- The protobuf message `IdPk`. -/
structure IdPk where
  id : String
  pk : Bytes
  secureChannel : UInt32
deriving DecidableEq, Repr

/-- What the signed ids use of libsodium and of the protobuf runtime. -/
structure Externals where
  sign : Bytes → SecretKey → Bytes
  verify : Bytes → PublicKey → Option Bytes
  writeIdPk : IdPk → Bytes
  parseIdPk : Bytes → Except String IdPk

namespace Externals

/-- The documented behaviour of these: a signature is 64 bytes in front of the message, a
message is read as it was written, and no bytes are the empty message. -/
structure Documented (E : Externals) : Prop where
  length_sign : ∀ message key, (E.sign message key).length = 64 + message.length
  parse_write : ∀ message, E.parseIdPk (E.writeIdPk message) = .ok message
  parse_nil : E.parseIdPk [] = .ok ⟨"", [], 0⟩

/-- A key pair that `gen_keypair` returned. -/
def IsKeyPair (E : Externals) (pk : PublicKey) (sk : SecretKey) : Prop :=
  ∀ message, E.verify (E.sign message sk) pk = some message

end Externals

/-! ## Constants -/

/-- `"RDSECV2\0"` -/
def secureSignedIdV2Magic : Bytes := [0x52, 0x44, 0x53, 0x45, 0x43, 0x56, 0x32, 0x00]
/-- `"RDDIRV2\0"` -/
def directSignedIdV2Magic : Bytes := [0x52, 0x44, 0x44, 0x49, 0x52, 0x56, 0x32, 0x00]
/-- `"RDDIRV3\0"` -/
def directSignedIdV3Magic : Bytes := [0x52, 0x44, 0x44, 0x49, 0x52, 0x56, 0x33, 0x00]

def flagPairingRequired : UInt8 := 0x01
def flagPairedViewerIdentity : UInt8 := 0x02
def flagQuicCertificate : UInt8 := 0x04

def directQuicCertificateMaxLen : ℕ := 16 * 1024

/-- `flags & flag != 0`. -/
def hasFlag (flags flag : UInt8) : Bool := flags &&& flag != 0

/-! ## What a host signs -/

structure DirectSignedId where
  id : String
  signPk : PublicKey
  boxPk : PublicKey
  pairingRequired : Bool
  pairingSalt : Option Salt
  supportsPairedViewerIdentity : Bool
  quicCertificateDer : Option Bytes
  secureChannel : UInt32
deriving DecidableEq

structure SecureSignedId where
  id : String
  boxPk : PublicKey
  pairingRequired : Bool
  pairingSalt : Option Salt
  supportsPairedViewerIdentity : Bool
  quicCertificateDer : Option Bytes
  secureChannel : UInt32
deriving DecidableEq

variable (E : Externals)

def encodeIdPk (id : String) (pk : PublicKey) (secureChannel : UInt32) : Bytes :=
  E.writeIdPk ⟨id, pk.bytes, secureChannel⟩

/-- What the formats with a pairing salt put in front of the `IdPk`. -/
def pairingMetadata (salt : Salt) : Bytes :=
  [flagPairingRequired ||| flagPairedViewerIdentity, UInt8.ofNat salt.bytes.length] ++ salt.bytes

def signSecureIdWithPairing (idPk : Bytes) (signSk : SecretKey) (pairingSalt : Salt) : Bytes :=
  E.sign (secureSignedIdV2Magic ++ (pairingMetadata pairingSalt ++ idPk)) signSk

def signDirectId (idPk : Bytes) (signPk : PublicKey) (signSk : SecretKey) : Bytes :=
  signPk.bytes ++ E.sign idPk signSk

def signDirectIdWithPairing (idPk : Bytes) (signPk : PublicKey) (signSk : SecretKey)
    (pairingSalt : Salt) : Bytes :=
  directSignedIdV2Magic ++ (signPk.bytes ++ E.sign (pairingMetadata pairingSalt ++ idPk) signSk)

def createHostSignedId (direct : Bool) (id : String) (boxPk signPk : PublicKey)
    (signSk : SecretKey) (pairingSalt : Option Salt) (secureChannel : UInt32) : Bytes :=
  let idPk := encodeIdPk E id boxPk secureChannel
  match direct, pairingSalt with
  | false, none => E.sign idPk signSk
  | false, some salt => signSecureIdWithPairing E idPk signSk salt
  | true, none => signDirectId E idPk signPk signSk
  | true, some salt => signDirectIdWithPairing E idPk signPk signSk salt

def createDirectSignedId (id : String) (pk signPk : PublicKey) (signSk : SecretKey) : Bytes :=
  signDirectId E (encodeIdPk E id pk 0) signPk signSk

/-- `create_direct_signed_id_v3`. -/
def createDirectSignedIdV3 (id : String) (pk signPk : PublicKey) (signSk : SecretKey)
    (pairingSalt : Option Salt) (quicCertificateDer : Bytes) : Except String Bytes :=
  if quicCertificateDer = [] ∨ directQuicCertificateMaxLen < quicCertificateDer.length then
    .error "Handshake failed: invalid QUIC identity metadata"
  else
    let idPk := encodeIdPk E id pk 0
    let flags := flagPairedViewerIdentity ||| flagQuicCertificate |||
      (if pairingSalt.isSome then flagPairingRequired else 0)
    let salt := (pairingSalt.map Block.bytes).getD []
    .ok (directSignedIdV3Magic ++ (signPk.bytes ++
      E.sign ([flags, UInt8.ofNat salt.length] ++ (putBe16 quicCertificateDer.length ++
        (salt ++ (quicCertificateDer ++ idPk)))) signSk))

def createDirectSignedIdWithQuic (id : String) (pk signPk : PublicKey) (signSk : SecretKey)
    (quicCertificateDer : Bytes) : Except String Bytes :=
  createDirectSignedIdV3 E id pk signPk signSk none quicCertificateDer

def createDirectSignedIdWithPairingAndQuic (id : String) (pk signPk : PublicKey)
    (signSk : SecretKey) (pairingSalt : Salt) (quicCertificateDer : Bytes) : Except String Bytes :=
  createDirectSignedIdV3 E id pk signPk signSk (some pairingSalt) quicCertificateDer

/-! ## What a viewer reads -/

def getPk (pk : Bytes) : Option PublicKey := Block.ofList? 32 pk

/-- The `IdPk` at the end of every format, with a key of the right length. -/
def readIdPk (bytes : Bytes) : Except String (String × PublicKey × UInt32) :=
  match E.parseIdPk bytes with
  | .error e => .error e
  | .ok res =>
      match getPk res.pk with
      | none => .error "Wrong their public length"
      | some pk => .ok (res.id, pk, res.secureChannel)

/-- The salt of a format, present where pairing is required; `lengthText` is the error
for a salt of another length than 16. -/
def readPairingSalt (lengthText : String) (pairingRequired : Bool) (salt : Bytes) :
    Except String (Option Salt) :=
  if pairingRequired then
    match Block.ofList? 16 salt with
    | none => .error lengthText
    | some salt => .ok (some salt)
  else .ok none

/-- What follows the signing key in a direct id with a QUIC certificate. -/
def readDirectV3 (signPk : PublicKey) : Bytes → Except String DirectSignedId
  | flags :: saltLen :: certHigh :: certLow :: rest =>
      if flags &&& ~~~ (flagPairingRequired ||| flagPairedViewerIdentity |||
          flagQuicCertificate) ≠ 0 then
        .error "Handshake failed: invalid direct handshake flags"
      else
        let saltLen := saltLen.toNat
        let certificateLen := ofBe16 certHigh certLow
        if rest.length ≤ saltLen + certificateLen ∨ certificateLen = 0 ∨
            directQuicCertificateMaxLen < certificateLen ∨
            hasFlag flags flagQuicCertificate = false then
          .error "Handshake failed: invalid direct QUIC certificate metadata"
        else
          let pairingRequired := hasFlag flags flagPairingRequired
          if pairingRequired = false ∧ saltLen ≠ 0 then
            .error "Handshake failed: unexpected direct pairing salt"
          else
            match readPairingSalt "Handshake failed: invalid direct pairing salt length"
                pairingRequired (rest.take saltLen) with
            | .error e => .error e
            | .ok pairingSalt =>
                match readIdPk E (rest.drop (saltLen + certificateLen)) with
                | .error e => .error e
                | .ok (id, boxPk, secureChannel) =>
                    .ok
                      { id, signPk, boxPk, pairingRequired, pairingSalt, secureChannel
                        supportsPairedViewerIdentity := hasFlag flags flagPairedViewerIdentity
                        quicCertificateDer := some ((rest.drop saltLen).take certificateLen) }
  | _ => .error "Handshake failed: missing direct QUIC metadata"

/-- What follows the signing key in a direct id with pairing metadata. -/
def readDirectV2 (signPk : PublicKey) : Bytes → Except String DirectSignedId
  | flags :: saltLen :: rest =>
      let saltLen := saltLen.toNat
      if rest.length < saltLen then
        .error "Handshake failed: truncated direct handshake metadata"
      else
        let pairingRequired := hasFlag flags flagPairingRequired
        match readPairingSalt "Handshake failed: invalid direct pairing salt length"
            pairingRequired (rest.take saltLen) with
        | .error e => .error e
        | .ok pairingSalt =>
            match readIdPk E (rest.drop saltLen) with
            | .error e => .error e
            | .ok (id, boxPk, secureChannel) =>
                .ok
                  { id, signPk, boxPk, pairingRequired, pairingSalt, secureChannel
                    supportsPairedViewerIdentity := hasFlag flags flagPairedViewerIdentity
                    quicCertificateDer := none }
  | _ => .error "Handshake failed: missing direct handshake metadata"

/-- What follows the signing key in a direct id without metadata. -/
def readDirectV1 (signPk : PublicKey) (verified : Bytes) : Except String DirectSignedId :=
  match readIdPk E verified with
  | .error e => .error e
  | .ok (id, boxPk, secureChannel) =>
      .ok
        { id, signPk, boxPk, secureChannel
          pairingRequired := false
          pairingSalt := none
          supportsPairedViewerIdentity := false
          quicCertificateDer := none }

/-- The signing key in front of a signature, and what the signature covers, read by `read`. -/
def readSigned (payload : Bytes) (read : PublicKey → Bytes → Except String DirectSignedId) :
    Except String DirectSignedId :=
  if payload.length ≤ 32 then .error "Handshake failed: missing peer signing key" else
  match getPk (payload.take 32) with
  | none => .error "Handshake failed: invalid peer signing key length"
  | some signPk =>
      match E.verify (payload.drop 32) signPk with
      | none => .error "Signature mismatch"
      | some verified => read signPk verified

/-- `decode_direct_id_pk`. -/
def decodeDirectIdPk (payload : Bytes) : Except String DirectSignedId :=
  if directSignedIdV3Magic <+: payload then readSigned E (payload.drop 8) (readDirectV3 E)
  else if directSignedIdV2Magic <+: payload then readSigned E (payload.drop 8) (readDirectV2 E)
  else readSigned E payload (readDirectV1 E)

/-- What follows the magic in a rendezvous id with pairing metadata. -/
def readSecureV2 : Bytes → Except String SecureSignedId
  | flags :: saltLen :: rest =>
      let saltLen := saltLen.toNat
      if rest.length < saltLen then
        .error "Handshake failed: truncated secure handshake metadata"
      else
        let pairingRequired := hasFlag flags flagPairingRequired
        match readPairingSalt "Handshake failed: invalid secure pairing salt length"
            pairingRequired (rest.take saltLen) with
        | .error e => .error e
        | .ok pairingSalt =>
            match readIdPk E (rest.drop saltLen) with
            | .error e => .error e
            | .ok (id, boxPk, secureChannel) =>
                .ok
                  { id, boxPk, pairingRequired, pairingSalt, secureChannel
                    supportsPairedViewerIdentity := hasFlag flags flagPairedViewerIdentity
                    quicCertificateDer := none }
  | _ => .error "Handshake failed: missing secure handshake metadata"

def decodeSecureSignedId (signed : Bytes) (key : PublicKey) : Except String SecureSignedId :=
  match E.verify signed key with
  | none => .error "Signature mismatch"
  | some verified =>
      if secureSignedIdV2Magic <+: verified then readSecureV2 E (verified.drop 8)
      else
        match readIdPk E verified with
        | .error e => .error e
        | .ok (id, boxPk, secureChannel) =>
            .ok
              { id, boxPk, secureChannel
                pairingRequired := false
                pairingSalt := none
                supportsPairedViewerIdentity := false
                quicCertificateDer := none }

/-- The id and the key that a rendezvous server has signed. -/
def decodeIdPk (signed : Bytes) (key : PublicKey) : Except String (String × PublicKey) :=
  match E.verify signed key with
  | none => .error "Signature mismatch"
  | some verified =>
      match readIdPk E verified with
      | .error e => .error e
      | .ok (id, pk, _) => .ok (id, pk)

/-! ## The QUIC identity next to a signed id -/

def attachDirectQuicIdentity (directId : DirectSignedId) (payload : Bytes) :
    Except String DirectSignedId :=
  if payload = [] then .ok directId else
  match decodeDirectIdPk E payload with
  | .error error => .error ("Handshake failed: invalid signed QUIC identity: " ++ error)
  | .ok identity =>
      if identity.id ≠ directId.id ∨ identity.signPk ≠ directId.signPk ∨
          identity.boxPk ≠ directId.boxPk ∨ identity.quicCertificateDer = none then
        .error "Handshake failed: signed QUIC identity does not match direct peer identity"
      else .ok { directId with quicCertificateDer := identity.quicCertificateDer }

def attachSecureQuicIdentity (secureId : SecureSignedId) (expectedSignPk : PublicKey)
    (payload : Bytes) : Except String SecureSignedId :=
  if payload = [] then .ok secureId else
  match decodeDirectIdPk E payload with
  | .error error => .error ("Handshake failed: invalid signed QUIC identity: " ++ error)
  | .ok identity =>
      if identity.id ≠ secureId.id ∨ identity.signPk ≠ expectedSignPk ∨
          identity.boxPk ≠ secureId.boxPk ∨ identity.quicCertificateDer = none then
        .error "Handshake failed: signed QUIC identity does not match rendezvous peer identity"
      else .ok { secureId with quicCertificateDer := identity.quicCertificateDer }

end RustAdmin.Handshake
