import RustAdmin.Handshake.SignedId

/-!
# Trusted peer keys

Which signing key a peer is expected to have, `src/src/common.rs`: the fingerprint and the
trust phrase that the user compares, the pinned key in the options of a peer, and the two
ways a key gets pinned.  The files behind `PeerConfig` are those of `hbb_common`.

A fingerprint gives the bytes of its key back
(`decodeFingerprintBytes_pkToFingerprint`), so no two keys share one.  What is pinned
is decided by the status of a key alone: each function that pins is inverted once, and
the key that it pinned is trusted afterwards (`trusted_of_pinTrusted`,
`trusted_of_trustAfterPairing`).
-/

namespace RustAdmin.Handshake

open RustAdmin.Support

/-! ## Fingerprints -/

def hexDigit (nibble : ℕ) : Char :=
  if nibble < 10 then Char.ofNat (48 + nibble) else Char.ofNat (87 + nibble)

/-- `{:02x}` -/
def hexByte (byte : UInt8) : List Char := [hexDigit (byte.toNat / 16), hexDigit (byte.toNat % 16)]

/-- A space before every fourth character but the first; `i` is the index of the first. -/
def spaced : ℕ → List Char → List Char
  | _, [] => []
  | i, c :: cs => (if 0 < i ∧ i % 4 = 0 then [' ', c] else [c]) ++ spaced (i + 1) cs

def pkToFingerprint (pk : Bytes) : String := String.ofList (spaced 0 (pk.flatMap hexByte))

def decodeHexChar (c : Char) : Option ℕ :=
  if '0' ≤ c ∧ c ≤ '9' then some (c.toNat - 48)
  else if 'a' ≤ c ∧ c ≤ 'f' then some (c.toNat - 97 + 10)
  else if 'A' ≤ c ∧ c ≤ 'F' then some (c.toNat - 65 + 10)
  else none

/-- The bytes behind the pairs of digits. -/
def decodePairs : List Char → Option Bytes
  | high :: low :: rest =>
      (decodeHexChar high).bind fun high =>
        (decodeHexChar low).bind fun low =>
          (decodePairs rest).map fun bytes => UInt8.ofNat (16 * high + low) :: bytes
  | _ => some []

def decodeFingerprintBytes (fingerprint : String) : Option Bytes :=
  let hex := fingerprint.toList.filter fun c => (decodeHexChar c).isSome
  if hex.length < 2 ∨ hex.length % 2 ≠ 0 then none else decodePairs hex

def trustPhraseWords : List String :=
  ["able", "anchor", "apple", "arch", "ash", "badge", "bamboo", "beacon", "birch", "blade",
    "blue", "bridge", "cabin", "cactus", "candle", "canyon", "cedar", "circle", "cloud", "cobalt",
    "coral", "crown", "delta", "drift", "echo", "ember", "falcon", "field", "flame", "forest",
    "frost", "garden", "globe", "harbor", "hazel", "island", "ivory", "jade", "lagoon", "lantern",
    "maple", "meadow", "meteor", "mint", "mountain", "nova", "oasis", "olive", "orbit", "petal",
    "pine", "planet", "prairie", "quartz", "raven", "river", "saffron", "shadow", "silver",
    "solar", "spruce", "stone", "summit", "thunder"]

/-- The bits that wait to become a word, and the words so far. -/
structure WordBuffer where
  bitBuffer : ℕ := 0
  bitCount : ℕ := 0
  words : List String := []

/-- The inner loop of `bytes_to_trust_phrase`: `fuel` is a bound on the bits that wait. -/
def WordBuffer.takeWords : ℕ → WordBuffer → WordBuffer
  | 0, b => b
  | fuel + 1, b =>
      if 6 ≤ b.bitCount ∧ b.words.length < 6 then
        let shift := b.bitCount - 6
        WordBuffer.takeWords fuel
          { words := b.words ++ [trustPhraseWords.getD (b.bitBuffer / 2 ^ shift % 64) ""]
            bitBuffer := b.bitBuffer % 2 ^ shift
            bitCount := shift }
      else b

def WordBuffer.pushByte (b : WordBuffer) (byte : UInt8) : WordBuffer :=
  if b.words.length = 6 then b else
    WordBuffer.takeWords (b.bitCount + 8)
      { b with bitBuffer := b.bitBuffer * 256 + byte.toNat, bitCount := b.bitCount + 8 }

variable (sha256 : Bytes → Block 32)

def bytesToTrustPhrase (bytes : Bytes) : String :=
  if bytes = [] then "" else
    " ".intercalate ((sha256 bytes).bytes.foldl WordBuffer.pushByte {}).words

def fingerprintToTrustPhrase (fingerprint : String) : String :=
  ((decodeFingerprintBytes fingerprint).map (bytesToTrustPhrase sha256)).getD ""

/-! ## Fingerprints tell keys apart -/

theorem decodeHexChar_hexDigit : ∀ nibble < 16, decodeHexChar (hexDigit nibble) = some nibble := by
  decide

theorem decodePairs_hexByte (byte : UInt8) (rest : List Char) :
    decodePairs (hexByte byte ++ rest) = (decodePairs rest).map (byte :: ·) := by
  have hlt : byte.toNat < 256 := byte.toNat_lt
  have hhigh := decodeHexChar_hexDigit (byte.toNat / 16) (by omega)
  have hlow := decodeHexChar_hexDigit (byte.toNat % 16) (by omega)
  have hbyte : UInt8.ofNat (16 * (byte.toNat / 16) + byte.toNat % 16) = byte := by
    rw [Nat.div_add_mod, UInt8.ofNat_toNat]
  simp only [hexByte, List.cons_append, List.nil_append, decodePairs, hhigh, hlow,
    Option.bind_some, hbyte]

theorem decodePairs_flatMap (pk : Bytes) : decodePairs (pk.flatMap hexByte) = some pk := by
  induction pk with
  | nil => rfl
  | cons byte pk ih => rw [List.flatMap_cons, decodePairs_hexByte, ih, Option.map_some]

theorem length_flatMap_hexByte (pk : Bytes) : (pk.flatMap hexByte).length = 2 * pk.length := by
  induction pk with
  | nil => rfl
  | cons byte pk ih =>
      rw [List.flatMap_cons, List.length_append, ih, List.length_cons]
      change 2 + 2 * pk.length = _
      omega

/-- The spaces are no digits. -/
theorem filter_spaced {p : Char → Bool} (hspace : p ' ' = false) (i : ℕ) (cs : List Char) :
    (spaced i cs).filter p = cs.filter p := by
  induction cs generalizing i with
  | nil => rfl
  | cons c cs ih =>
      have hhead : (if 0 < i ∧ i % 4 = 0 then [' ', c] else [c]).filter p = [c].filter p := by
        split
        · rw [List.filter_cons_of_neg (by simp [hspace])]
        · rfl
      calc (spaced i (c :: cs)).filter p
          = [c].filter p ++ cs.filter p := by rw [spaced, List.filter_append, hhead, ih]
        _ = (c :: cs).filter p := by rw [← List.filter_append, List.singleton_append]

/-- The fingerprint of a key shows its bytes. -/
theorem decodeFingerprintBytes_pkToFingerprint {pk : Bytes} (hpk : pk ≠ []) :
    decodeFingerprintBytes (pkToFingerprint pk) = some pk := by
  have hdigit : ∀ byte : UInt8, ∀ c ∈ hexByte byte, (decodeHexChar c).isSome := by
    intro byte c hc
    have hlt : byte.toNat < 256 := byte.toNat_lt
    rcases List.mem_cons.mp hc with rfl | hc
    · rw [decodeHexChar_hexDigit _ (by omega)]
      rfl
    · obtain rfl := List.mem_singleton.mp hc
      rw [decodeHexChar_hexDigit _ (by omega)]
      rfl
  have hall : (pk.flatMap hexByte).filter (fun c => (decodeHexChar c).isSome) =
      pk.flatMap hexByte := by
    rw [List.filter_eq_self]
    intro c hc
    obtain ⟨byte, -, hc⟩ := List.mem_flatMap.mp hc
    exact hdigit byte c hc
  have hpos := List.length_pos_iff.mpr hpk
  have hlength := length_flatMap_hexByte pk
  unfold decodeFingerprintBytes pkToFingerprint
  simp only [String.toList_ofList, filter_spaced (p := fun c => (decodeHexChar c).isSome) rfl, hall]
  rw [if_neg (by omega), decodePairs_flatMap]

theorem pkToFingerprint_inj {pk pk' : Bytes} (hpk : pk ≠ []) (hpk' : pk' ≠ [])
    (h : pkToFingerprint pk = pkToFingerprint pk') : pk = pk' := by
  have hdecoded := congrArg decodeFingerprintBytes h
  rw [decodeFingerprintBytes_pkToFingerprint hpk, decodeFingerprintBytes_pkToFingerprint hpk']
    at hdecoded
  exact Option.some.inj hdecoded

/-! ## The options of a peer -/

/-- The `base64` crate. -/
structure Base64 where
  encode : Bytes → String
  decode : String → Except String Bytes
  decode_encode : ∀ bytes, decode (encode bytes) = .ok bytes
  decode_empty : decode "" = .ok []

/-- The text of a confirmation: the legacy `"Y"`, a number of milliseconds as
`i64::parse` reads it, or any other text. -/
inductive Confirmation
  | legacy
  | at (millis : ℤ)
  | other (text : String)
deriving DecidableEq, Repr

/-- The options of a `PeerConfig` that the handshake reads or writes. -/
structure PeerOptions where
  pinnedSigningKey : Option String := none
  directPairedViewerConfirmed : Option Confirmation := none
  rendezvousPairedViewerConfirmed : Option Confirmation := none
deriving DecidableEq, Repr

/-- `PeerConfig::load` and `PeerConfig::store`: the file of a peer holds what was stored
last. -/
structure PeerConfigs (σ : Type) where
  load : String → σ → PeerOptions
  store : String → PeerOptions → σ → σ
  load_store : ∀ id options s, load id (store id options s) = options
  load_store_of_ne : ∀ id id' options s, id' ≠ id → load id' (store id options s) = load id' s

/-! ## The pinned key -/

inductive TrustedPeerSigningKeyStatus
  | trusted
  | missing
  | changed (expectedFingerprint actualFingerprint : String)
  | invalidPinnedKey (reason : String)
deriving DecidableEq, Repr

variable (B : Base64)

def decodePinnedPeerSigningKey (value : String) : Except String Bytes :=
  (B.decode value).mapError fun e => "Handshake failed: invalid pinned peer signing key: " ++ e

/-- The text of an option that is not empty. -/
def nonempty (value : Option String) : Option String := value.filter fun text => text ≠ ""

/-- Whether a pin is still needed; one that names another key is an error. -/
def validatePinnedPeerSigningKey (pinnedKey : Option String) (pk : Bytes) : Except String Bool :=
  match nonempty pinnedKey with
  | none => .ok true
  | some pinned =>
      match decodePinnedPeerSigningKey B pinned with
      | .error e => .error e
      | .ok expected =>
          if expected ≠ pk then
            .error ("Handshake failed: peer identity changed (expected " ++
              pkToFingerprint expected ++ ", got " ++ pkToFingerprint pk ++ ")")
          else .ok false

def pinnedPeerSigningKeyStatus (pinnedKey : Option String) (pk : Bytes) :
    TrustedPeerSigningKeyStatus :=
  match nonempty pinnedKey with
  | none => .missing
  | some pinned =>
      match decodePinnedPeerSigningKey B pinned with
      | .error e => .invalidPinnedKey e
      | .ok expected =>
          if expected = pk then .trusted
          else .changed (pkToFingerprint expected) (pkToFingerprint pk)

def validateBootstrapTrustedPeerSigningKey (trustedKey : String) (pk : Bytes) :
    Except String Unit :=
  if trustedKey = "" then .ok () else
  match decodePinnedPeerSigningKey B trustedKey with
  | .error e =>
      .error ("Handshake failed: invalid bootstrap trusted peer signing key: " ++ e)
  | .ok expected =>
      if expected ≠ pk then
        .error ("Handshake failed: bootstrap trusted peer identity mismatch (expected " ++
          pkToFingerprint expected ++ ", got " ++ pkToFingerprint pk ++ ")")
      else .ok ()

/-- `trusted_peer_signing_key_status`; `bootstrapKey` is what the configuration names for
the peer, empty for none. -/
def trustedPeerSigningKeyStatus (bootstrapKey : String) (options : PeerOptions) (pk : Bytes) :
    Except String TrustedPeerSigningKeyStatus :=
  if pk = [] then .error "Handshake failed: empty peer signing key"
  else if bootstrapKey ≠ "" then
    match validateBootstrapTrustedPeerSigningKey B bootstrapKey pk with
    | .error e => .error e
    | .ok () => .ok .trusted
  else .ok (pinnedPeerSigningKeyStatus B options.pinnedSigningKey pk)

/-- `pin_peer_signing_key`: the options that are stored. -/
def pinPeerSigningKey (options : PeerOptions) (pk : Bytes) : Except String PeerOptions :=
  if pk = [] then .error "Handshake failed: empty peer signing key" else
  match validatePinnedPeerSigningKey B options.pinnedSigningKey pk with
  | .error e => .error e
  | .ok needsPin =>
      .ok (if needsPin then { options with pinnedSigningKey := some (B.encode pk) } else options)

def pinTrustedPeerSigningKey (bootstrapKey : String) (options : PeerOptions) (pk : Bytes) :
    Except String PeerOptions :=
  if pk = [] then .error "Handshake failed: empty peer signing key"
  else if bootstrapKey ≠ "" then
    match validateBootstrapTrustedPeerSigningKey B bootstrapKey pk with
    | .error e => .error e
    | .ok () => .ok options
  else pinPeerSigningKey B options pk

def trustPeerSigningKeyAfterPairing (bootstrapKey : String) (options : PeerOptions)
    (pk : Bytes) : Except String PeerOptions :=
  if pk = [] then .error "Handshake failed: empty peer signing key"
  else if bootstrapKey ≠ "" then
    match validateBootstrapTrustedPeerSigningKey B bootstrapKey pk with
    | .error e => .error e
    | .ok () => .ok options
  else
    .ok (if options.pinnedSigningKey = some (B.encode pk) then options
      else { options with pinnedSigningKey := some (B.encode pk) })

/-! ## Remembered pairings -/

inductive PairingScope
  | direct
  | rendezvous
deriving DecidableEq, Repr

def pairedViewerConfirmationTtlMs : ℤ := 30 * 24 * 60 * 60 * 1000

def Confirmation.isCurrent (now : ℤ) : Confirmation → Bool
  | .legacy => true
  | .at confirmedAt =>
      0 < confirmedAt && (now ≤ confirmedAt ||
        now - confirmedAt ≤ pairedViewerConfirmationTtlMs)
  | .other _ => false

namespace PeerOptions

/-- The option of a scope. -/
def confirmation (options : PeerOptions) : PairingScope → Option Confirmation
  | .direct => options.directPairedViewerConfirmed
  | .rendezvous => options.rendezvousPairedViewerConfirmed

def setConfirmation (options : PeerOptions) (scope : PairingScope)
    (value : Option Confirmation) : PeerOptions :=
  match scope with
  | .direct => { options with directPairedViewerConfirmed := value }
  | .rendezvous => { options with rendezvousPairedViewerConfirmed := value }

/-- `set_confirmed_paired_viewer`: the options that are stored. -/
def setConfirmedPairedViewer (options : PeerOptions) (scope : PairingScope) (confirmed : Bool)
    (now : ℤ) : PeerOptions :=
  options.setConfirmation scope (if confirmed then some (.at now) else none)

/-- `has_confirmed_paired_viewer`; the legacy text is replaced by the time of the question. -/
def hasConfirmedPairedViewer (options : PeerOptions) (scope : PairingScope) (now : ℤ) :
    Bool × PeerOptions :=
  match options.confirmation scope with
  | none => (false, options)
  | some .legacy => (true, options.setConfirmedPairedViewer scope true now)
  | some value => (value.isCurrent now, options)

@[simp] theorem setConfirmation_pinnedSigningKey (options : PeerOptions) (scope : PairingScope)
    (value : Option Confirmation) :
    (options.setConfirmation scope value).pinnedSigningKey = options.pinnedSigningKey := by
  cases scope <;> rfl

@[simp] theorem setConfirmedPairedViewer_pinnedSigningKey (options : PeerOptions)
    (scope : PairingScope) (confirmed : Bool) (now : ℤ) :
    (options.setConfirmedPairedViewer scope confirmed now).pinnedSigningKey =
      options.pinnedSigningKey := setConfirmation_pinnedSigningKey ..

@[simp] theorem hasConfirmedPairedViewer_pinnedSigningKey (options : PeerOptions)
    (scope : PairingScope) (now : ℤ) :
    (options.hasConfirmedPairedViewer scope now).2.pinnedSigningKey =
      options.pinnedSigningKey := by
  unfold hasConfirmedPairedViewer
  split
  · rfl
  · exact setConfirmedPairedViewer_pinnedSigningKey ..
  · rfl

end PeerOptions

/-! ## What a pin says -/

variable {B} {bootstrapKey : String} {options options' : PeerOptions} {pk : Bytes}

theorem nonempty_eq_some {value : Option String} {text : String} :
    nonempty value = some text ↔ value = some text ∧ text ≠ "" := by
  simp [nonempty, Option.filter_eq_some_iff]

theorem Base64.encode_ne_empty (B : Base64) {pk : Bytes} (hpk : pk ≠ []) : B.encode pk ≠ "" := by
  intro hempty
  have hdecode := B.decode_encode pk
  rw [hempty, B.decode_empty] at hdecode
  exact hpk (Except.ok.inj hdecode).symm

theorem pinnedPeerSigningKeyStatus_encode (hpk : pk ≠ []) :
    pinnedPeerSigningKeyStatus B (some (B.encode pk)) pk = .trusted := by
  have hnonempty : nonempty (some (B.encode pk)) = some (B.encode pk) :=
    nonempty_eq_some.mpr ⟨rfl, B.encode_ne_empty hpk⟩
  simp [pinnedPeerSigningKeyStatus, hnonempty, decodePinnedPeerSigningKey, B.decode_encode,
    Except.mapError]

/-- Pinning on first contact never replaces a key. -/
theorem pinTrustedPeerSigningKey_eq_ok (h : pinTrustedPeerSigningKey B bootstrapKey options pk =
    .ok options') : options' = options ∨
      (nonempty options.pinnedSigningKey = none ∧ bootstrapKey = "" ∧
        options' = { options with pinnedSigningKey := some (B.encode pk) }) := by
  unfold pinTrustedPeerSigningKey at h
  split at h
  · cases h
  split at h
  · split at h
    · cases h
    · exact .inl (Except.ok.inj h).symm
  rename_i hpk hbootstrap
  rw [pinPeerSigningKey, if_neg hpk] at h
  cases hvalid : validatePinnedPeerSigningKey B options.pinnedSigningKey pk with
  | error e => simp [hvalid] at h
  | ok needsPin =>
      have hoptions : (if needsPin then { options with pinnedSigningKey := some (B.encode pk) }
          else options) = options' := by simpa [hvalid] using h
      cases needsPin with
      | false => exact .inl hoptions.symm
      | true =>
          refine .inr ⟨?_, not_not.mp hbootstrap, hoptions.symm⟩
          cases hnonempty : nonempty options.pinnedSigningKey with
          | none => rfl
          | some pinned =>
              -- A pin that is there either fails or is not needed.
              simp only [validatePinnedPeerSigningKey, hnonempty] at hvalid
              split at hvalid
              · cases hvalid
              · split at hvalid <;> cases hvalid

theorem trustPeerSigningKeyAfterPairing_eq_ok
    (h : trustPeerSigningKeyAfterPairing B bootstrapKey options pk = .ok options') :
    options' = options ∨
      (bootstrapKey = "" ∧ options' = { options with pinnedSigningKey := some (B.encode pk) }) := by
  unfold trustPeerSigningKeyAfterPairing at h
  split at h
  · cases h
  split at h
  · split at h
    · cases h
    · exact .inl (Except.ok.inj h).symm
  · rename_i hbootstrap
    split at h
    · exact .inl (Except.ok.inj h).symm
    · exact .inr ⟨not_not.mp hbootstrap, (Except.ok.inj h).symm⟩

/-- A key that was pinned on first contact is trusted from then on. -/
theorem trusted_of_pinTrusted (h : pinTrustedPeerSigningKey B bootstrapKey options pk =
    .ok options') : trustedPeerSigningKeyStatus B bootstrapKey options' pk = .ok .trusted := by
  unfold pinTrustedPeerSigningKey at h
  unfold trustedPeerSigningKeyStatus
  split at h
  · cases h
  rename_i hpk
  rw [if_neg hpk]
  split at h
  · rename_i hbootstrap
    rw [if_pos hbootstrap]
    split at h
    · cases h
    · rfl
  · rename_i hbootstrap
    rw [if_neg hbootstrap]
    rw [pinPeerSigningKey, if_neg hpk] at h
    cases hvalid : validatePinnedPeerSigningKey B options.pinnedSigningKey pk with
    | error e => simp [hvalid] at h
    | ok needsPin =>
        have hoptions : (if needsPin then { options with pinnedSigningKey := some (B.encode pk) }
            else options) = options' := by simpa [hvalid] using h
        cases needsPin with
        | true =>
            rw [← hoptions]
            exact congrArg _ (pinnedPeerSigningKeyStatus_encode hpk)
        | false =>
            -- No pin was needed, because the one that is there names this key.
            rw [← hoptions]
            unfold validatePinnedPeerSigningKey at hvalid
            unfold pinnedPeerSigningKeyStatus
            cases hnonempty : nonempty options.pinnedSigningKey with
            | none => simp [hnonempty] at hvalid
            | some pinned =>
                cases hdecode : decodePinnedPeerSigningKey B pinned with
                | error e => simp [hnonempty, hdecode] at hvalid
                | ok expected =>
                    have heq : expected = pk := by
                      by_contra hne
                      simp [hnonempty, hdecode, hne] at hvalid
                    simp [hnonempty, hdecode, heq]

/-- So is one that was pinned after a pairing. -/
theorem trusted_of_trustAfterPairing
    (h : trustPeerSigningKeyAfterPairing B bootstrapKey options pk = .ok options') :
    trustedPeerSigningKeyStatus B bootstrapKey options' pk = .ok .trusted := by
  unfold trustPeerSigningKeyAfterPairing at h
  unfold trustedPeerSigningKeyStatus
  split at h
  · cases h
  rename_i hpk
  rw [if_neg hpk]
  split at h
  · rename_i hbootstrap
    rw [if_pos hbootstrap]
    split at h
    · cases h
    · rfl
  · rename_i hbootstrap
    rw [if_neg hbootstrap]
    have hpinned : options'.pinnedSigningKey = some (B.encode pk) := by
      split at h
      · rename_i hsame
        rw [← Except.ok.inj h]
        exact hsame
      · rw [← Except.ok.inj h]
    rw [hpinned, pinnedPeerSigningKeyStatus_encode hpk]

/-- The status depends on the pin alone. -/
theorem trustedPeerSigningKeyStatus_congr
    (h : options'.pinnedSigningKey = options.pinnedSigningKey) :
    trustedPeerSigningKeyStatus B bootstrapKey options' pk =
      trustedPeerSigningKeyStatus B bootstrapKey options pk := by
  unfold trustedPeerSigningKeyStatus
  rw [h]

theorem missing_of_status
    (h : trustedPeerSigningKeyStatus B bootstrapKey options pk = .ok .missing) :
    nonempty options.pinnedSigningKey = none := by
  unfold trustedPeerSigningKeyStatus at h
  split at h
  · cases h
  split at h
  · split at h <;> cases h
  · have hstatus := Except.ok.inj h
    unfold pinnedPeerSigningKeyStatus at hstatus
    split at hstatus
    · assumption
    · split at hstatus
      · cases hstatus
      · split at hstatus <;> cases hstatus

/-! ## An instance -/

namespace Instance

theorem toNat_ofNat_byte (byte : UInt8) : (Char.ofNat byte.toNat).toNat = byte.toNat := by
  have hvalid : byte.toNat.isValidChar := .inl (by have := byte.toNat_lt; omega)
  rw [Char.ofNat, dif_pos hvalid]
  rfl

/-- A character for each byte. -/
def charBase64 : Base64 where
  encode bytes := String.ofList (bytes.map fun byte => Char.ofNat byte.toNat)
  decode text := .ok (text.toList.map fun c => UInt8.ofNat c.toNat)
  decode_encode := by
    intro bytes
    simp [Function.comp_def, toNat_ofNat_byte]
  decode_empty := rfl

/-- A file for each peer. -/
def files : PeerConfigs (String → PeerOptions) where
  load id files := files id
  store id options files := fun other => if other = id then options else files other
  load_store := by simp
  load_store_of_ne := by
    intro id id' options files hne
    simp [hne]

end Instance

end RustAdmin.Handshake
