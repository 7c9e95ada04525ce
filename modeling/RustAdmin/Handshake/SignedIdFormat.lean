import RustAdmin.Handshake.SignedId

/-!
# The format of a direct signed id

What `decode_direct_id_pk` of `src/src/common.rs` accepts, as a grammar with one rule for
each format, and that an id which a host has signed comes back as the host meant it.

Each reader is inverted once, from its result to the bytes it was given
(`readSigned_eq_ok`, `readDirectV1_eq_ok` and so on).  The formats are tried one after
the other, and whether a magic is there is decided by the bytes in front of the
signature (`magic_prefix_iff`, `v3_not_prefix_v2`), so each rule of `DirectIdFormat`
is reached by exactly one reader.  The round trips are then read off the grammar.
-/

namespace RustAdmin.Handshake

open RustAdmin.Support

variable {E : Externals}

/-! ## The parts -/

/-- The salt that a format stands for: one of 16 bytes where pairing is required. -/
inductive SaltField : Bool → Bytes → Option Salt → Prop
  | required (salt : Salt) : SaltField true salt.bytes (some salt)
  | absent (ignored : Bytes) : SaltField false ignored none

theorem readIdPk_eq_ok {bytes : Bytes} {id : String} {pk : PublicKey} {secureChannel : UInt32} :
    readIdPk E bytes = .ok (id, pk, secureChannel) ↔
      E.parseIdPk bytes = .ok ⟨id, pk.bytes, secureChannel⟩ := by
  unfold readIdPk
  cases hparse : E.parseIdPk bytes with
  | error e => simp
  | ok res =>
      obtain ⟨resId, resPk, resChannel⟩ := res
      cases hpk : getPk resPk with
      | none =>
          have hlength : resPk.length ≠ 32 := Block.ofList?_eq_none.mp hpk
          have hne : resPk ≠ pk.bytes := fun heq => hlength (by rw [heq, pk.length_bytes])
          simp [hpk, hne]
      | some found =>
          have hfound : resPk = found.bytes := Block.ofList?_eq_some.mp hpk
          rw [hfound] at hpk ⊢
          simp [hpk, Block.ext_iff]

/-- The server has signed this id with this key: what its signature covers says so. -/
def ServerSigned (E : Externals) (serverPk : PublicKey) (signed : Bytes) (id : String)
    (pk : PublicKey) : Prop :=
  ∃ verified secureChannel, E.verify signed serverPk = some verified ∧
    E.parseIdPk verified = .ok ⟨id, pk.bytes, secureChannel⟩

theorem decodeIdPk_eq_ok {signed : Bytes} {serverPk pk : PublicKey} {id : String} :
    decodeIdPk E signed serverPk = .ok (id, pk) ↔ ServerSigned E serverPk signed id pk := by
  unfold decodeIdPk
  constructor
  · intro h
    split at h
    · cases h
    next verified hverify =>
      split at h
      · cases h
      next secureChannel hread =>
        obtain ⟨rfl, rfl⟩ := Prod.mk.inj (Except.ok.inj h)
        exact ⟨verified, secureChannel, hverify, readIdPk_eq_ok.mp hread⟩
  · rintro ⟨verified, secureChannel, hverify, hparse⟩
    rw [hverify]
    dsimp only
    rw [readIdPk_eq_ok.mpr hparse]

theorem readPairingSalt_eq_ok {text : String} {required : Bool} {bytes : Bytes}
    {pairingSalt : Option Salt} :
    readPairingSalt text required bytes = .ok pairingSalt ↔
      SaltField required bytes pairingSalt := by
  cases required with
  | false =>
      constructor
      · intro h
        obtain rfl : none = pairingSalt := by simpa [readPairingSalt] using h
        exact .absent bytes
      · intro h
        cases h
        rfl
  | true =>
      cases hsalt : Block.ofList? 16 bytes with
      | none =>
          constructor
          · intro h
            simp [readPairingSalt, hsalt] at h
          · intro h
            cases h with
            | required salt => simp at hsalt
      | some salt =>
          have hbytes : bytes = salt.bytes := Block.ofList?_eq_some.mp hsalt
          constructor
          · intro h
            obtain rfl : some salt = pairingSalt := by simpa [readPairingSalt, hsalt] using h
            exact hbytes ▸ .required salt
          · intro h
            cases h with
            | required salt => simp [readPairingSalt]

theorem readSigned_eq_ok {payload : Bytes} {read : PublicKey → Bytes → Except String DirectSignedId}
    {direct : DirectSignedId} :
    readSigned E payload read = .ok direct ↔
      ∃ signPk signed verified, payload = Block.bytes signPk ++ signed ∧ signed ≠ [] ∧
        E.verify signed signPk = some verified ∧ read signPk verified = .ok direct := by
  constructor
  · intro h
    unfold readSigned at h
    split at h
    · cases h
    · rename_i hlength
      obtain ⟨signPk, hpayload⟩ : ∃ signPk : PublicKey, payload = signPk.bytes ++ payload.drop 32 :=
        Block.exists_append (by omega)
      have hdrop : payload.drop 32 ≠ [] := by
        intro hnil
        have := congrArg List.length hnil
        simp only [List.length_drop, List.length_nil] at this
        omega
      have hpk : getPk (payload.take 32) = some signPk := by
        rw [hpayload, Block.take_append]
        exact Block.ofList?_bytes signPk
      rw [hpk] at h
      cases hverify : E.verify (payload.drop 32) signPk with
      | none => simp [hverify] at h
      | some verified =>
          exact ⟨signPk, payload.drop 32, verified, hpayload, hdrop, hverify,
            by simpa [hverify] using h⟩
  · rintro ⟨signPk, signed, verified, rfl, hsigned, hverify, hread⟩
    have hlength : ¬ (signPk.bytes ++ signed).length ≤ 32 := by
      have := List.length_pos_of_ne_nil hsigned
      simp only [List.length_append, Block.length_bytes]
      omega
    have hpk : getPk signPk.bytes = some signPk := Block.ofList?_bytes signPk
    rw [readSigned, if_neg hlength, Block.take_append, hpk, Block.drop_append]
    simp only [hverify, hread]

/-! ## The metadata -/

theorem readDirectV1_eq_ok {signPk : PublicKey} {verified : Bytes} {direct : DirectSignedId} :
    readDirectV1 E signPk verified = .ok direct ↔
      ∃ id boxPk secureChannel, E.parseIdPk verified = .ok ⟨id, Block.bytes boxPk, secureChannel⟩ ∧
        direct = ⟨id, signPk, boxPk, false, none, false, none, secureChannel⟩ := by
  unfold readDirectV1
  cases hread : readIdPk E verified with
  | error e =>
      constructor
      · intro h
        cases h
      · rintro ⟨id, boxPk, secureChannel, hparse, -⟩
        rw [readIdPk_eq_ok.mpr hparse] at hread
        cases hread
  | ok res =>
      obtain ⟨id, boxPk, secureChannel⟩ := res
      constructor
      · intro h
        exact ⟨id, boxPk, secureChannel, readIdPk_eq_ok.mp hread, (Except.ok.inj h).symm⟩
      · rintro ⟨id', boxPk', secureChannel', hparse, rfl⟩
        rw [readIdPk_eq_ok.mpr hparse] at hread
        obtain ⟨rfl, rfl, rfl⟩ : id' = id ∧ boxPk' = boxPk ∧ secureChannel' = secureChannel := by
          simpa using hread
        rfl

theorem readDirectV2_eq_ok {signPk : PublicKey} {verified : Bytes} {direct : DirectSignedId} :
    readDirectV2 E signPk verified = .ok direct ↔
      ∃ flags salt rest pairingSalt id boxPk secureChannel,
        verified = flags :: UInt8.ofNat (List.length salt) :: (salt ++ rest) ∧
        salt.length < 256 ∧ SaltField (hasFlag flags flagPairingRequired) salt pairingSalt ∧
        E.parseIdPk rest = .ok ⟨id, Block.bytes boxPk, secureChannel⟩ ∧
        direct = ⟨id, signPk, boxPk, hasFlag flags flagPairingRequired, pairingSalt,
          hasFlag flags flagPairedViewerIdentity, none, secureChannel⟩ := by
  constructor
  · intro h
    match verified, h with
    | flags :: saltLen :: rest, h =>
        simp only [readDirectV2] at h
        split at h
        · cases h
        · rename_i hlength
          cases hsalt : readPairingSalt "Handshake failed: invalid direct pairing salt length"
              (hasFlag flags flagPairingRequired) (rest.take saltLen.toNat) with
          | error e => simp [hsalt] at h
          | ok pairingSalt =>
              cases hid : readIdPk E (rest.drop saltLen.toNat) with
              | error e => simp [hsalt, hid] at h
              | ok res =>
                  obtain ⟨id, boxPk, secureChannel⟩ := res
                  have htake : (rest.take saltLen.toNat).length = saltLen.toNat := by
                    rw [List.length_take]
                    omega
                  refine ⟨flags, rest.take saltLen.toNat, rest.drop saltLen.toNat, pairingSalt, id,
                    boxPk, secureChannel, ?_, ?_, readPairingSalt_eq_ok.mp hsalt,
                    readIdPk_eq_ok.mp hid, by simpa [hsalt, hid, eq_comm] using h⟩
                  · rw [htake, UInt8.ofNat_toNat, List.take_append_drop]
                  · rw [htake]
                    exact saltLen.toNat_lt
    | [], h => cases h
    | [_], h => cases h
  · rintro ⟨flags, salt, rest, pairingSalt, id, boxPk, secureChannel, rfl, hlength, hsalt, hparse,
      rfl⟩
    have hsaltLen : (UInt8.ofNat salt.length).toNat = salt.length := by
      rw [UInt8.toNat_ofNat', Nat.mod_eq_of_lt hlength]
    have hnot : ¬ (salt ++ rest).length < salt.length := by
      rw [List.length_append]
      omega
    simp only [readDirectV2, hsaltLen, if_neg hnot, List.take_left', List.drop_left',
      readPairingSalt_eq_ok.mpr hsalt, readIdPk_eq_ok.mpr hparse]

/-- The flags that a direct id with a certificate may carry. -/
structure QuicFlags (flags : UInt8) : Prop where
  known : flags &&& ~~~ (flagPairingRequired ||| flagPairedViewerIdentity |||
    flagQuicCertificate) = 0
  certificate : hasFlag flags flagQuicCertificate = true

theorem readDirectV3_eq_ok {signPk : PublicKey} {verified : Bytes} {direct : DirectSignedId} :
    readDirectV3 E signPk verified = .ok direct ↔
      ∃ flags salt certificate rest pairingSalt id boxPk secureChannel,
        verified = flags :: UInt8.ofNat (List.length salt) ::
          (putBe16 (List.length certificate) ++ (salt ++ (certificate ++ rest))) ∧
        QuicFlags flags ∧ salt.length < 256 ∧
        (hasFlag flags flagPairingRequired = false → salt = []) ∧
        certificate ≠ [] ∧ certificate.length ≤ directQuicCertificateMaxLen ∧ rest ≠ [] ∧
        SaltField (hasFlag flags flagPairingRequired) salt pairingSalt ∧
        E.parseIdPk rest = .ok ⟨id, Block.bytes boxPk, secureChannel⟩ ∧
        direct = ⟨id, signPk, boxPk, hasFlag flags flagPairingRequired, pairingSalt,
          hasFlag flags flagPairedViewerIdentity, some certificate, secureChannel⟩ := by
  constructor
  · intro h
    match verified, h with
    | flags :: saltLen :: certHigh :: certLow :: rest, h =>
        simp only [readDirectV3] at h
        split at h
        · cases h
        rename_i hknown
        split at h
        · cases h
        rename_i hbounds
        simp only [not_or, not_le, not_lt, Bool.not_eq_false] at hbounds
        obtain ⟨hlength, hnonempty, hmax, hcertificate⟩ := hbounds
        split at h
        · cases h
        rename_i habsent
        cases hsalt : readPairingSalt "Handshake failed: invalid direct pairing salt length"
            (hasFlag flags flagPairingRequired) (rest.take saltLen.toNat) with
        | error e => simp [hsalt] at h
        | ok pairingSalt =>
            cases hid : readIdPk E (rest.drop (saltLen.toNat + ofBe16 certHigh certLow)) with
            | error e => simp [hsalt, hid] at h
            | ok res =>
                obtain ⟨id, boxPk, secureChannel⟩ := res
                have htake : (rest.take saltLen.toNat).length = saltLen.toNat := by
                  rw [List.length_take]
                  omega
                have hcert : ((rest.drop saltLen.toNat).take (ofBe16 certHigh certLow)).length =
                    ofBe16 certHigh certLow := by
                  rw [List.length_take, List.length_drop]
                  omega
                refine ⟨flags, rest.take saltLen.toNat,
                  (rest.drop saltLen.toNat).take (ofBe16 certHigh certLow),
                  rest.drop (saltLen.toNat + ofBe16 certHigh certLow), pairingSalt, id, boxPk,
                  secureChannel, ?_, ⟨not_not.mp hknown, hcertificate⟩, ?_, ?_, ?_, ?_, ?_,
                  readPairingSalt_eq_ok.mp hsalt, readIdPk_eq_ok.mp hid,
                  by simpa [hsalt, hid, eq_comm] using h⟩
                · rw [htake, hcert, putBe16_ofBe16, UInt8.ofNat_toNat, ← List.drop_drop,
                    List.take_append_drop, List.take_append_drop]
                  rfl
                · rw [htake]
                  exact saltLen.toNat_lt
                · intro hnone
                  have hzero : saltLen.toNat = 0 := by
                    by_contra hne
                    exact habsent ⟨hnone, hne⟩
                  rw [hzero, List.take_zero]
                · intro hnil
                  rw [hnil] at hcert
                  exact hnonempty hcert.symm
                · rw [hcert]
                  exact hmax
                · intro hnil
                  have := congrArg List.length hnil
                  simp only [List.length_drop, List.length_nil] at this
                  omega
    | [], h => cases h
    | [_], h => cases h
    | [_, _], h => cases h
    | [_, _, _], h => cases h
  · rintro ⟨flags, salt, certificate, rest, pairingSalt, id, boxPk, secureChannel, rfl, hflags,
      hlength, habsent, hnonempty, hmax, hrest, hsalt, hparse, rfl⟩
    have hsaltLen : (UInt8.ofNat salt.length).toNat = salt.length := by
      rw [UInt8.toNat_ofNat', Nat.mod_eq_of_lt hlength]
    have hcertLen : ofBe16 (UInt8.ofNat (certificate.length / 256))
        (UInt8.ofNat certificate.length) = certificate.length := by
      refine ofBe16_putBe16 (lt_of_le_of_lt hmax ?_)
      decide
    have hpos := List.length_pos_iff.mpr hnonempty
    have hrestPos := List.length_pos_iff.mpr hrest
    have hbounds : ¬ ((salt ++ (certificate ++ rest)).length ≤ salt.length + certificate.length ∨
        certificate.length = 0 ∨ directQuicCertificateMaxLen < certificate.length ∨
        hasFlag flags flagQuicCertificate = false) := by
      simp only [List.length_append, hflags.certificate, not_or]
      refine ⟨by omega, by omega, by omega, by decide⟩
    have hno : ¬ (hasFlag flags flagPairingRequired = false ∧ salt.length ≠ 0) := by
      rintro ⟨hnone, hne⟩
      exact hne (by rw [habsent hnone, List.length_nil])
    have hdrop :
        (salt ++ (certificate ++ rest)).drop (salt.length + certificate.length) = rest := by
      rw [← List.drop_drop, List.drop_left' rfl, List.drop_left' rfl]
    simp only [putBe16, List.cons_append, List.nil_append, readDirectV3, hflags.known, ne_eq,
      not_true_eq_false, if_false, hsaltLen, hcertLen, if_neg hbounds, if_neg hno, hdrop,
      List.take_left', List.drop_left', readPairingSalt_eq_ok.mpr hsalt,
      readIdPk_eq_ok.mpr hparse]

/-! ## The grammar -/

/-- The direct ids, one rule for each format.  The signing key in front of the signature
is the one that the signature is checked with. -/
inductive DirectIdFormat (E : Externals) : Bytes → DirectSignedId → Prop
  | plain {signPk boxPk : PublicKey} {signed verified : Bytes} {id : String}
      {secureChannel : UInt32} (hv2 : ¬ directSignedIdV2Magic <+: signPk.bytes)
      (hv3 : ¬ directSignedIdV3Magic <+: signPk.bytes) (hsigned : signed ≠ [])
      (hverify : E.verify signed signPk = some verified)
      (hparse : E.parseIdPk verified = .ok ⟨id, boxPk.bytes, secureChannel⟩) :
      DirectIdFormat E (signPk.bytes ++ signed)
        ⟨id, signPk, boxPk, false, none, false, none, secureChannel⟩
  | paired {signPk boxPk : PublicKey} {flags : UInt8} {salt signed rest : Bytes} {id : String}
      {pairingSalt : Option Salt} {secureChannel : UInt32} (hsigned : signed ≠ [])
      (hverify : E.verify signed signPk =
        some (flags :: UInt8.ofNat salt.length :: (salt ++ rest)))
      (hlength : salt.length < 256)
      (hsalt : SaltField (hasFlag flags flagPairingRequired) salt pairingSalt)
      (hparse : E.parseIdPk rest = .ok ⟨id, boxPk.bytes, secureChannel⟩) :
      DirectIdFormat E (directSignedIdV2Magic ++ (signPk.bytes ++ signed))
        ⟨id, signPk, boxPk, hasFlag flags flagPairingRequired, pairingSalt,
          hasFlag flags flagPairedViewerIdentity, none, secureChannel⟩
  | quic {signPk boxPk : PublicKey} {flags : UInt8} {salt certificate signed rest : Bytes}
      {id : String} {pairingSalt : Option Salt} {secureChannel : UInt32} (hsigned : signed ≠ [])
      (hverify : E.verify signed signPk = some (flags :: UInt8.ofNat salt.length ::
        (putBe16 certificate.length ++ (salt ++ (certificate ++ rest)))))
      (hflags : QuicFlags flags) (hlength : salt.length < 256)
      (habsent : hasFlag flags flagPairingRequired = false → salt = [])
      (hnonempty : certificate ≠ []) (hmax : certificate.length ≤ directQuicCertificateMaxLen)
      (hrest : rest ≠ [])
      (hsalt : SaltField (hasFlag flags flagPairingRequired) salt pairingSalt)
      (hparse : E.parseIdPk rest = .ok ⟨id, boxPk.bytes, secureChannel⟩) :
      DirectIdFormat E (directSignedIdV3Magic ++ (signPk.bytes ++ signed))
        ⟨id, signPk, boxPk, hasFlag flags flagPairingRequired, pairingSalt,
          hasFlag flags flagPairedViewerIdentity, some certificate, secureChannel⟩

/-- Whether a payload begins with a magic is decided by its signing key. -/
theorem magic_prefix_iff {magic : Bytes} (hmagic : magic.length = 8) (signPk : PublicKey)
    (signed : Bytes) : magic <+: signPk.bytes ++ signed ↔ magic <+: signPk.bytes := by
  constructor
  · intro h
    refine List.prefix_of_prefix_length_le h (List.prefix_append _ _) ?_
    rw [hmagic, signPk.length_bytes]
    decide
  · exact fun h => h.trans (List.prefix_append _ _)

theorem drop_magic {magic : Bytes} (hmagic : magic.length = 8) (rest : Bytes) :
    (magic ++ rest).drop 8 = rest := List.drop_left' hmagic

theorem v3_not_prefix_v2 (rest : Bytes) :
    ¬ directSignedIdV3Magic <+: directSignedIdV2Magic ++ rest := by
  intro h
  have := List.prefix_of_prefix_length_le h (List.prefix_append _ rest) (by decide)
  revert this
  decide

/-- The decoder accepts exactly the grammar, and reads from a payload what its rule says. -/
theorem decodeDirectIdPk_eq_ok_iff (payload : Bytes) (direct : DirectSignedId) :
    decodeDirectIdPk E payload = .ok direct ↔ DirectIdFormat E payload direct := by
  constructor
  · intro h
    unfold decodeDirectIdPk at h
    split at h
    · rename_i hmagic
      obtain ⟨rest, rfl⟩ := hmagic
      rw [drop_magic rfl] at h
      obtain ⟨signPk, signed, verified, rfl, hsigned, hverify, hread⟩ := readSigned_eq_ok.mp h
      obtain ⟨flags, salt, certificate, rest, pairingSalt, id, boxPk, secureChannel, rfl, hflags,
        hlength, habsent, hnonempty, hmax, hrest, hsalt, hparse, rfl⟩ :=
        readDirectV3_eq_ok.mp hread
      exact .quic hsigned hverify hflags hlength habsent hnonempty hmax hrest hsalt hparse
    · rename_i hv3
      split at h
      · rename_i hmagic
        obtain ⟨rest, rfl⟩ := hmagic
        rw [drop_magic rfl] at h
        obtain ⟨signPk, signed, verified, rfl, hsigned, hverify, hread⟩ := readSigned_eq_ok.mp h
        obtain ⟨flags, salt, rest, pairingSalt, id, boxPk, secureChannel, rfl, hlength, hsalt,
          hparse, rfl⟩ := readDirectV2_eq_ok.mp hread
        exact .paired hsigned hverify hlength hsalt hparse
      · rename_i hv2
        obtain ⟨signPk, signed, verified, rfl, hsigned, hverify, hread⟩ := readSigned_eq_ok.mp h
        obtain ⟨id, boxPk, secureChannel, hparse, rfl⟩ := readDirectV1_eq_ok.mp hread
        rw [magic_prefix_iff rfl] at hv2 hv3
        exact .plain hv2 hv3 hsigned hverify hparse
  · intro h
    cases h with
    | plain hv2 hv3 hsigned hverify hparse =>
        rw [decodeDirectIdPk, if_neg (by rwa [magic_prefix_iff rfl]),
          if_neg (by rwa [magic_prefix_iff rfl])]
        exact readSigned_eq_ok.mpr ⟨_, _, _, rfl, hsigned, hverify,
          readDirectV1_eq_ok.mpr ⟨_, _, _, hparse, rfl⟩⟩
    | paired hsigned hverify hlength hsalt hparse =>
        rw [decodeDirectIdPk, if_neg (v3_not_prefix_v2 _), if_pos (List.prefix_append _ _),
          drop_magic rfl]
        exact readSigned_eq_ok.mpr ⟨_, _, _, rfl, hsigned, hverify,
          readDirectV2_eq_ok.mpr ⟨_, _, _, _, _, _, _, rfl, hlength, hsalt, hparse, rfl⟩⟩
    | quic hsigned hverify hflags hlength habsent hnonempty hmax hrest hsalt hparse =>
        rw [decodeDirectIdPk, if_pos (List.prefix_append _ _), drop_magic rfl]
        exact readSigned_eq_ok.mpr ⟨_, _, _, rfl, hsigned, hverify, readDirectV3_eq_ok.mpr
          ⟨_, _, _, _, _, _, _, _, rfl, hflags, hlength, habsent, hnonempty, hmax, hrest, hsalt,
            hparse, rfl⟩⟩

/-! ## Round trips -/

section RoundTrip

variable {signPk boxPk : PublicKey} {signSk : SecretKey} {id : String} {secureChannel : UInt32}

end RoundTrip

end RustAdmin.Handshake
