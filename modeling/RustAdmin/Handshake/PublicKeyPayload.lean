import RustAdmin.Handshake.SignedIdFormat

/-!
# The payload behind a public key

The viewer's answer to a signed id, `src/src/common.rs`: the sealed session key, with a
pairing proof and the signed id of the viewer in front of it where they are wanted.
`wrap_direct_public_key_symmetric_value_with_identity` writes it and
`unwrap_direct_public_key_payload` reads it.

`PayloadFormat` has one rule for each format that is taken.  Each reader is inverted
once (`readProof_eq_ok`, `readInitiator_eq_ok`, `unwrapV3_eq_ok`, `unwrapV2_eq_ok`),
and the equivalence puts the cases together; the round trips are instances of it.
-/

namespace RustAdmin.Handshake

open RustAdmin.Support

/-- `"RDPUBV2\0"` -/
def directPublicKeyV2Magic : Bytes := [0x52, 0x44, 0x50, 0x55, 0x42, 0x56, 0x32, 0x00]
/-- `"RDPUBV3\0"` -/
def directPublicKeyV3Magic : Bytes := [0x52, 0x44, 0x50, 0x55, 0x42, 0x56, 0x33, 0x00]

def flagPairingProof : UInt8 := 0x01
def flagInitiatorId : UInt8 := 0x02

/-- `[u8; DIRECT_PAIRING_PROOF_LEN]`. -/
abbrev PairingProof := Block 32

structure DirectPublicKeyPayload where
  pairingProof : Option PairingProof
  initiator : Option DirectSignedId
  symmetricValue : Bytes
deriving DecidableEq

/-! ## Writing -/

def wrapDirectPublicKeySymmetricValue (sealedKey : Bytes) (pairingProof : Option PairingProof) :
    Bytes :=
  match pairingProof with
  | none => sealedKey
  | some proof => directPublicKeyV2Magic ++ (proof.bytes ++ sealedKey)

/-- The bytes of a proof, where there is one. -/
def proofBytes (pairingProof : Option PairingProof) : Bytes :=
  (pairingProof.map Block.bytes).getD []

def wrapDirectPublicKeySymmetricValueWithIdentity (sealedKey : Bytes)
    (pairingProof : Option PairingProof) (initiatorSignedId : Option Bytes) :
    Except String Bytes :=
  match initiatorSignedId with
  | none => .ok (wrapDirectPublicKeySymmetricValue sealedKey pairingProof)
  | some initiator =>
      if initiator.length < 2 ^ 16 then
        let flags := flagInitiatorId ||| (if pairingProof.isSome then flagPairingProof else 0)
        .ok (directPublicKeyV3Magic ++ ([flags] ++ (proofBytes pairingProof ++
          (putBe16 initiator.length ++ (initiator ++ sealedKey)))))
      else .error "Handshake failed: initiator identity too large"

/-! ## Reading -/

variable (E : Externals)

/-- The proof in front of the rest of a payload, where the flags announce one. -/
def readProof (flags : UInt8) (rest : Bytes) : Except String (Option PairingProof × Bytes) :=
  if hasFlag flags flagPairingProof then
    match Block.ofList? 32 (rest.take 32) with
    | none => .error "Handshake failed: truncated direct pairing proof"
    | some proof => .ok (some proof, rest.drop 32)
  else .ok (none, rest)

/-- The initiator in front of the rest of a payload, where the flags announce one. -/
def readInitiator (flags : UInt8) (rest : Bytes) :
    Except String (Option DirectSignedId × Bytes) :=
  if hasFlag flags flagInitiatorId then
    match rest with
    | high :: low :: rest =>
        let initiatorLen := ofBe16 high low
        if initiatorLen = 0 ∨ rest.length < initiatorLen then
          .error "Handshake failed: truncated direct initiator identity"
        else
          match decodeDirectIdPk E (rest.take initiatorLen) with
          | .error e => .error ("Handshake failed: invalid direct initiator identity: " ++ e)
          | .ok initiator => .ok (some initiator, rest.drop initiatorLen)
    | _ => .error "Handshake failed: missing direct initiator identity length"
  else .ok (none, rest)

/-- What follows the magic of the third version. -/
def unwrapV3 (pairingRequired : Bool) : Bytes → Except String DirectPublicKeyPayload
  | [] => .error "Handshake failed: missing direct public key flags"
  | flags :: rest =>
      if flags &&& ~~~ (flagPairingProof ||| flagInitiatorId) ≠ 0 then
        .error "Handshake failed: invalid direct public key flags"
      else
        match readProof flags rest with
        | .error e => .error e
        | .ok (pairingProof, rest) =>
            match readInitiator E flags rest with
            | .error e => .error e
            | .ok (initiator, symmetricValue) =>
                if pairingRequired ∧ pairingProof = none ∧ initiator = none then
                  .error "Handshake failed: missing direct pairing proof"
                else if symmetricValue = [] then
                  .error "Handshake failed: missing encrypted direct session key"
                else .ok { pairingProof, initiator, symmetricValue }

/-- What the second version holds, with a pairing proof in front of the key. -/
def unwrapV2 (payload : Bytes) : Except String DirectPublicKeyPayload :=
  if payload.length ≤ 8 + 32 ∨ ¬ directPublicKeyV2Magic <+: payload then
    .error "Handshake failed: missing direct pairing proof"
  else
    match Block.ofList? 32 ((payload.drop 8).take 32) with
    | none => .error "Handshake failed: missing direct pairing proof"
    | some proof =>
        .ok { pairingProof := some proof
              initiator := none
              symmetricValue := (payload.drop 8).drop 32 }

def unwrapDirectPublicKeyPayload (payload : Bytes) (pairingRequired : Bool) :
    Except String DirectPublicKeyPayload :=
  if directPublicKeyV3Magic <+: payload then unwrapV3 E pairingRequired (payload.drop 8)
  else if pairingRequired = false then
    .ok { pairingProof := none, initiator := none, symmetricValue := payload }
  else unwrapV2 payload

/-! ## The grammar -/

variable {E}

/-- The field of a proof, where the flags announce one. -/
inductive ProofField : Bool → Bytes → Option PairingProof → Prop
  | present (proof : PairingProof) : ProofField true proof.bytes (some proof)
  | absent : ProofField false [] none

/-- The field of an initiator, with its length in front. -/
inductive InitiatorField (E : Externals) : Bool → Bytes → Option DirectSignedId → Prop
  | present {signedId : Bytes} {initiator : DirectSignedId} (hlength : signedId.length < 2 ^ 16)
      (hdecode : decodeDirectIdPk E signedId = .ok initiator) :
      InitiatorField E true (putBe16 signedId.length ++ signedId) (some initiator)
  | absent : InitiatorField E false [] none

/-- The payloads that a host takes, where it requires pairing and where it does not. -/
inductive PayloadFormat (E : Externals) : Bool → Bytes → DirectPublicKeyPayload → Prop
  | identity {required : Bool} {flags : UInt8} {proofBytes initiatorBytes symmetricValue : Bytes}
      {pairingProof : Option PairingProof} {initiator : Option DirectSignedId}
      (hflags : flags &&& ~~~ (flagPairingProof ||| flagInitiatorId) = 0)
      (hproof : ProofField (hasFlag flags flagPairingProof) proofBytes pairingProof)
      (hinitiator : InitiatorField E (hasFlag flags flagInitiatorId) initiatorBytes initiator)
      (hevidence : required = true → pairingProof ≠ none ∨ initiator ≠ none)
      (hkey : symmetricValue ≠ []) :
      PayloadFormat E required (directPublicKeyV3Magic ++ (flags :: (proofBytes ++
        (initiatorBytes ++ symmetricValue)))) ⟨pairingProof, initiator, symmetricValue⟩
  | proof {pairingProof : PairingProof} {symmetricValue : Bytes} (hkey : symmetricValue ≠ []) :
      PayloadFormat E true (directPublicKeyV2Magic ++ (pairingProof.bytes ++ symmetricValue))
        ⟨some pairingProof, none, symmetricValue⟩
  | bare {payload : Bytes} (hv3 : ¬ directPublicKeyV3Magic <+: payload) :
      PayloadFormat E false payload ⟨none, none, payload⟩

theorem readProof_eq_ok {flags : UInt8} {bytes rest : Bytes}
    {pairingProof : Option PairingProof} :
    readProof flags bytes = .ok (pairingProof, rest) ↔
      ∃ field, bytes = field ++ rest ∧
        ProofField (hasFlag flags flagPairingProof) field pairingProof := by
  unfold readProof
  cases hflag : hasFlag flags flagPairingProof with
  | false =>
      constructor
      · intro h
        obtain ⟨rfl, rfl⟩ : none = pairingProof ∧ bytes = rest := by simpa using h
        exact ⟨[], rfl, .absent⟩
      · rintro ⟨field, rfl, hfield⟩
        cases hfield
        rfl
  | true =>
      constructor
      · intro h
        cases hproof : Block.ofList? 32 (bytes.take 32) with
        | none => simp [hproof] at h
        | some proof =>
            obtain ⟨rfl, rfl⟩ : some proof = pairingProof ∧ bytes.drop 32 = rest := by
              simpa [hproof] using h
            refine ⟨proof.bytes, ?_, .present proof⟩
            rw [← Block.ofList?_eq_some.mp hproof, List.take_append_drop]
      · rintro ⟨field, rfl, hfield⟩
        cases hfield with
        | present proof => simp

theorem decode_nil (E : Externals) :
    decodeDirectIdPk E [] = .error "Handshake failed: missing peer signing key" := rfl

theorem readInitiator_eq_ok {flags : UInt8} {bytes rest : Bytes}
    {initiator : Option DirectSignedId} :
    readInitiator E flags bytes = .ok (initiator, rest) ↔
      ∃ field, bytes = field ++ rest ∧
        InitiatorField E (hasFlag flags flagInitiatorId) field initiator := by
  unfold readInitiator
  cases hflag : hasFlag flags flagInitiatorId with
  | false =>
      constructor
      · intro h
        obtain ⟨rfl, rfl⟩ : none = initiator ∧ bytes = rest := by simpa using h
        exact ⟨[], rfl, .absent⟩
      · rintro ⟨field, rfl, hfield⟩
        cases hfield
        rfl
  | true =>
      constructor
      · intro h
        match bytes, h with
        | high :: low :: tail, h =>
            simp only [if_true] at h
            split at h
            · cases h
            rename_i hbounds
            simp only [not_or, not_lt] at hbounds
            cases hdecode : decodeDirectIdPk E (tail.take (ofBe16 high low)) with
            | error e => simp [hdecode] at h
            | ok found =>
                obtain ⟨rfl, rfl⟩ :
                    some found = initiator ∧ tail.drop (ofBe16 high low) = rest := by
                  simpa [hdecode] using h
                have hlength : (tail.take (ofBe16 high low)).length = ofBe16 high low := by
                  rw [List.length_take, Nat.min_eq_left hbounds.2]
                refine ⟨putBe16 (tail.take (ofBe16 high low)).length ++
                  tail.take (ofBe16 high low), ?_, .present ?_ hdecode⟩
                · rw [hlength, putBe16_ofBe16, List.append_assoc, List.take_append_drop]
                  rfl
                · rw [hlength]
                  exact ofBe16_lt high low
        | [], h => cases h
        | [_], h => cases h
      · rintro ⟨field, rfl, hfield⟩
        cases hfield with
        | @present signedId found hlength hdecode =>
            have hne : signedId ≠ [] := by
              rintro rfl
              rw [decode_nil] at hdecode
              cases hdecode
            have hread := ofBe16_putBe16 hlength
            simp [putBe16, hread, hne, hdecode]

theorem unwrapV3_eq_ok {required : Bool} {bytes : Bytes} {payload : DirectPublicKeyPayload} :
    unwrapV3 E required bytes = .ok payload ↔
      PayloadFormat E required (directPublicKeyV3Magic ++ bytes) payload ∧ bytes ≠ [] := by
  constructor
  · intro h
    match bytes, h with
    | flags :: rest, h =>
        simp only [unwrapV3] at h
        split at h
        · cases h
        rename_i hflags
        cases hproof : readProof flags rest with
        | error e => simp [hproof] at h
        | ok read =>
            obtain ⟨pairingProof, rest'⟩ := read
            obtain ⟨proofField, rfl, hproofField⟩ := readProof_eq_ok.mp hproof
            cases hinitiator : readInitiator E flags rest' with
            | error e => simp [hproof, hinitiator] at h
            | ok read' =>
                obtain ⟨initiator, key⟩ := read'
                obtain ⟨initiatorField, rfl, hinitiatorField⟩ :=
                  readInitiator_eq_ok.mp hinitiator
                simp only [hproof, hinitiator] at h
                split at h
                · cases h
                rename_i hevidence
                split at h
                · cases h
                rename_i hkey
                obtain rfl := Except.ok.inj h
                refine ⟨.identity (not_not.mp hflags) hproofField hinitiatorField ?_ hkey,
                  List.cons_ne_nil _ _⟩
                intro hrequired
                by_contra hnone
                simp only [not_or, not_not] at hnone
                exact hevidence ⟨hrequired, hnone⟩
    | [], h => cases h
  · rintro ⟨hformat, hbytes⟩
    generalize hall : directPublicKeyV3Magic ++ bytes = all at hformat
    cases hformat with
    | identity hflags hproof hinitiator hevidence hkey =>
        obtain rfl := List.append_cancel_left hall
        have hno : ∀ {proof : Option PairingProof} {initiator : Option DirectSignedId},
            (required = true → proof ≠ none ∨ initiator ≠ none) →
            ¬ (required = true ∧ proof = none ∧ initiator = none) := by
          rintro proof initiator h ⟨hrequired, rfl, rfl⟩
          exact (h hrequired).elim (fun hne => hne rfl) fun hne => hne rfl
        simp [unwrapV3, hflags, readProof_eq_ok.mpr ⟨_, rfl, hproof⟩,
          readInitiator_eq_ok.mpr ⟨_, rfl, hinitiator⟩, hno hevidence, hkey]
    | proof hkey => simp [directPublicKeyV3Magic, directPublicKeyV2Magic] at hall
    | bare hv3 => exact absurd (hall ▸ List.prefix_append _ _) hv3

theorem unwrapV2_eq_ok {bytes : Bytes} {payload : DirectPublicKeyPayload} :
    unwrapV2 bytes = .ok payload ↔
      ∃ pairingProof key, bytes = directPublicKeyV2Magic ++ (Block.bytes pairingProof ++ key) ∧
        key ≠ [] ∧ payload = ⟨some pairingProof, none, key⟩ := by
  constructor
  · intro h
    unfold unwrapV2 at h
    split at h
    · cases h
    rename_i hbounds
    simp only [not_or, not_le, not_not] at hbounds
    obtain ⟨hlength, rest, rfl⟩ := hbounds
    rw [drop_magic rfl] at h
    cases hproof : Block.ofList? 32 (rest.take 32) with
    | none => simp [hproof] at h
    | some pairingProof =>
        obtain rfl : ⟨some pairingProof, none, rest.drop 32⟩ = payload := by
          simpa [hproof] using h
        refine ⟨pairingProof, rest.drop 32, ?_, ?_, rfl⟩
        · rw [← Block.ofList?_eq_some.mp hproof, List.take_append_drop]
        · intro hnil
          have := congrArg List.length hnil
          simp only [List.length_drop, List.length_nil, List.length_append,
            show directPublicKeyV2Magic.length = 8 from rfl] at this hlength
          omega
  · rintro ⟨pairingProof, key, rfl, hkey, rfl⟩
    have hpos := List.length_pos_iff.mpr hkey
    have hbounds : ¬ ((directPublicKeyV2Magic ++ (pairingProof.bytes ++ key)).length ≤ 8 + 32 ∨
        ¬ directPublicKeyV2Magic <+: directPublicKeyV2Magic ++ (pairingProof.bytes ++ key)) := by
      simp only [not_or, not_le, not_not, List.length_append, Block.length_bytes,
        show directPublicKeyV2Magic.length = 8 from rfl]
      exact ⟨by omega, List.prefix_append _ _⟩
    rw [unwrapV2, if_neg hbounds, drop_magic rfl]
    simp

/-- The host takes exactly the payloads of the grammar; where it requires pairing, each of
them carries a proof or the identity of the viewer. -/
theorem unwrapDirectPublicKeyPayload_eq_ok_iff (bytes : Bytes) (required : Bool)
    (payload : DirectPublicKeyPayload) :
    unwrapDirectPublicKeyPayload E bytes required = .ok payload ↔
      PayloadFormat E required bytes payload := by
  constructor
  · intro h
    unfold unwrapDirectPublicKeyPayload at h
    split at h
    · rename_i hmagic
      obtain ⟨rest, rfl⟩ := hmagic
      rw [drop_magic rfl] at h
      exact (unwrapV3_eq_ok.mp h).1
    · rename_i hv3
      split at h
      · rename_i hrequired
        obtain rfl := hrequired
        obtain rfl := Except.ok.inj h
        exact .bare hv3
      · rename_i hrequired
        obtain rfl : required = true := by simpa using hrequired
        obtain ⟨pairingProof, key, rfl, hkey, rfl⟩ := unwrapV2_eq_ok.mp h
        exact .proof hkey
  · intro h
    cases h with
    | identity hflags hproof hinitiator hevidence hkey =>
        rw [unwrapDirectPublicKeyPayload, if_pos (List.prefix_append _ _), drop_magic rfl]
        exact unwrapV3_eq_ok.mpr
          ⟨.identity hflags hproof hinitiator hevidence hkey, List.cons_ne_nil _ _⟩
    | @proof pairingProof key hkey =>
        have hv3 : ¬ directPublicKeyV3Magic <+:
            directPublicKeyV2Magic ++ (pairingProof.bytes ++ key) := by
          intro h
          have := List.prefix_of_prefix_length_le h (List.prefix_append _ _) (by decide)
          revert this
          decide
        rw [unwrapDirectPublicKeyPayload, if_neg hv3, if_neg (by decide)]
        exact unwrapV2_eq_ok.mpr ⟨pairingProof, key, rfl, hkey, rfl⟩
    | bare hv3 => rw [unwrapDirectPublicKeyPayload, if_neg hv3, if_pos rfl]

/-! ## Round trips -/

/-- So does a bare proof, where the host has asked for one. -/
theorem unwrap_wrap_proof {sealedKey : Bytes} (pairingProof : PairingProof)
    (hsealed : sealedKey ≠ []) :
    unwrapDirectPublicKeyPayload E
        (wrapDirectPublicKeySymmetricValue sealedKey (some pairingProof)) true =
      .ok ⟨some pairingProof, none, sealedKey⟩ := by
  rw [unwrapDirectPublicKeyPayload_eq_ok_iff]
  exact .proof hsealed

end RustAdmin.Handshake
