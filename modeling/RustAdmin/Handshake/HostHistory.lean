import RustAdmin.Handshake.Host

/-!
# The paired viewers of a host

The answers that a host handles, over connections that go on side by side, and the viewers
that it remembers in between (`src/src/server.rs`): whom it lets in has proved the
passphrase, now or earlier, and has not been removed since.  The list of paired viewers is
kept by `hbb_common`.

What is remembered after a run is traced back through its events: `of_has_step` says
where an entry can have come from in one event, and `of_has_run` is the induction.
`admitted_origin` adds the one answer that is admitted.  `proves_binds` does not look
at runs: two offers that one answer proves have the same proof, so the transcripts
that were hashed are equal or collide, and `pairingTranscript_inj` takes the equal
ones apart.
-/

namespace RustAdmin.Handshake.Host

open RustAdmin.Support

/-- `Config::has_paired_viewer` and the operations that change what it says. -/
structure PairedViewers (σ : Type) where
  has : PairedViewer → σ → Bool
  add : PairedViewer → σ → σ
  remove : List PublicKey → σ → σ
  clear : σ → σ
  has_add : ∀ viewer s, has viewer (add viewer s) = true
  of_has_add : ∀ viewer added s, has viewer (add added s) = true →
    viewer = added ∨ has viewer s = true
  of_has_remove : ∀ viewer signPks s, has viewer (remove signPks s) = true →
    viewer.signPk ∉ signPks ∧ has viewer s = true
  has_clear : ∀ viewer s, has viewer (clear s) = false

/-- What happens at a host: it handles the answer to one of its offers, or its owner
removes viewers. -/
inductive Event
  | answer (offer : Offer) (sur : Surroundings) (message : Message)
  | remove (signPks : List PublicKey)
  | clear

/-- The event removes this viewer. -/
def Event.Removes (signPk : PublicKey) : Event → Prop
  | .answer .. => False
  | .remove signPks => signPk ∈ signPks
  | .clear => True

variable {σ : Type} (V : PairedViewers σ) (P : Primitives)

/-- The answer to an offer, where these viewers are remembered. -/
def receiveWith (viewers : σ) (offer : Offer) (sur : Surroundings) (message : Message) :
    Except Refusal Admission :=
  receive P offer { sur with hasPairedViewer := fun viewer => V.has viewer viewers } message

def addAll (viewers : σ) (added : List PairedViewer) : σ :=
  added.foldl (fun viewers viewer => V.add viewer viewers) viewers

def step (viewers : σ) : Event → σ
  | .answer offer sur message =>
      match receiveWith V P viewers offer sur message with
      | .ok admission => addAll V viewers admission.paired
      | .error _ => viewers
  | .remove signPks => V.remove signPks viewers
  | .clear => V.clear viewers

def run (viewers : σ) (events : List Event) : σ := events.foldl (step V P) viewers

/-- Among these events the viewer has paired, and it has not been removed since. -/
def PairedIn (events : List Event) (viewer : PairedViewer) : Prop :=
  ∃ before offer sur message after, events = before ++ .answer offer sur message :: after ∧
    Pairs P offer message viewer ∧ ∀ event ∈ after, ¬ event.Removes viewer.signPk

variable {V P} {viewers : σ} {events : List Event} {viewer : PairedViewer}

theorem of_has_addAll {added : List PairedViewer}
    (h : V.has viewer (addAll V viewers added) = true) :
    viewer ∈ added ∨ V.has viewer viewers = true := by
  induction added generalizing viewers with
  | nil => exact .inr h
  | cons first added ih =>
      rcases ih h with hmem | hhas
      · exact .inl (List.mem_cons_of_mem _ hmem)
      · rcases V.of_has_add _ _ _ hhas with rfl | hhas
        · exact .inl List.mem_cons_self
        · exact .inr hhas

/-- An offer without a passphrase pairs nobody. -/
theorem paired_eq_nil {offer : Offer} {sur : Surroundings} {message : Message}
    {admission : Admission} (hpassphrase : offer.passphrase = "")
    (h : receive P offer sur message = .ok admission) : admission.paired = [] := by
  have hsalt : offer.pairingSalt = none := by
    cases hsalt : offer.pairingSalt with
    | none => rfl
    | some salt =>
        have := offer.salt_isSome.mp (by rw [hsalt]; rfl)
        exact absurd hpassphrase this
  cases message with
  | publicKey asymmetricValue symmetricValue quicIdentity =>
      unfold receive at h
      simp only at h
      split at h
      · unfold admitPublicKey at h
        split at h
        · obtain ⟨payload, -, h⟩ := bind_eq_ok.mp h
          obtain ⟨quicInitiator, -, h⟩ := bind_eq_ok.mp h
          obtain ⟨_, -, h⟩ := bind_eq_ok.mp h
          obtain ⟨session, -, h⟩ := bind_eq_ok.mp h
          simp only [hsalt] at h
          obtain rfl := Except.ok.inj h
          rfl
        · obtain ⟨session, -, h⟩ := bind_eq_ok.mp h
          obtain rfl := Except.ok.inj h
          rfl
      · split at h <;> simp at h
  | _ => simp [receive] at h

/-- What one event does to what is remembered. -/
theorem of_has_step {event : Event} (h : V.has viewer (step V P viewers event) = true) :
    (V.has viewer viewers = true ∧ ¬ event.Removes viewer.signPk) ∨
      ∃ offer sur message, event = .answer offer sur message ∧ Pairs P offer message viewer := by
  cases event with
  | answer offer sur message =>
      cases hreceive : receiveWith V P viewers offer sur message with
      | error refusal =>
          simp only [step, hreceive] at h
          exact .inl ⟨h, id⟩
      | ok admission =>
          simp only [step, hreceive] at h
          rcases of_has_addAll h with hmem | hhas
          · by_cases hpassphrase : offer.passphrase = ""
            · rw [paired_eq_nil hpassphrase hreceive] at hmem
              cases hmem
            · rcases receive_eq_ok hpassphrase hreceive with ⟨-, hpairs⟩ | ⟨hnil, -⟩
              · exact .inr ⟨offer, sur, message, rfl, hpairs viewer hmem⟩
              · rw [hnil] at hmem
                cases hmem
          · exact .inl ⟨hhas, id⟩
  | remove signPks =>
      obtain ⟨hkept, hhas⟩ := V.of_has_remove _ _ _ h
      exact .inl ⟨hhas, hkept⟩
  | clear => simp [step, V.has_clear] at h

/-- A viewer that is remembered has been remembered all along, or has paired since. -/
theorem of_has_run (h : V.has viewer (run V P viewers events) = true) :
    (V.has viewer viewers = true ∧ ∀ event ∈ events, ¬ event.Removes viewer.signPk) ∨
      PairedIn P events viewer := by
  induction events generalizing viewers with
  | nil => exact .inl ⟨h, by simp⟩
  | cons event events ih =>
      rcases ih h with ⟨hhas, hkept⟩ | ⟨before, offer, sur, message, after, rfl, hpairs, hkept⟩
      · rcases of_has_step hhas with ⟨hhas, hfirst⟩ | ⟨offer, sur, message, rfl, hpairs⟩
        · exact .inl ⟨hhas, List.forall_mem_cons.mpr ⟨hfirst, hkept⟩⟩
        · exact .inr ⟨[], offer, sur, message, events, rfl, hpairs, hkept⟩
      · exact .inr ⟨event :: before, offer, sur, message, after, rfl, hpairs, hkept⟩

/-- Whom an offer with a passphrase lets in, after any events: an answer that proves the
passphrase, or one that is signed by a viewer that was remembered for the scope of the offer
at the start or has proved a passphrase in an earlier answer, and that has not been removed
since. -/
theorem admitted_origin (viewers : σ) (events : List Event) (offer : Offer) (sur : Surroundings)
    (message : Message) (hpassphrase : offer.passphrase ≠ "")
    (hadmitted : (receiveWith V P (run V P viewers events) offer sur message).isOk = true) :
    Proves P offer message ∨
      ∃ viewer : PairedViewer, offer.mode.pairingScope = some viewer.scope ∧
        Identifies P message viewer.id viewer.signPk ∧
        ((V.has viewer viewers = true ∧ ∀ event ∈ events, ¬ event.Removes viewer.signPk) ∨
          PairedIn P events viewer) := by
  cases hreceive : receiveWith V P (run V P viewers events) offer sur message with
  | error refusal =>
      rw [hreceive] at hadmitted
      cases hadmitted
  | ok admission =>
      rcases receive_eq_ok hpassphrase hreceive with ⟨hproves, -⟩ | ⟨-, viewer, hscope, hid, hhas⟩
      · exact .inl hproves
      · exact .inr ⟨viewer, hscope, hid, of_has_run hhas⟩

/-! ## Replays -/

/-- What is hashed for a proof of the passphrase of this offer. -/
def Hashes (P : Primitives) (offer : Offer) (theirPk : PublicKey) (transcript : Bytes) : Prop :=
  ∃ salt derived, offer.pairingSalt = some salt ∧
    P.deriveKey (strBytes offer.passphrase) salt = some derived ∧
    transcript = pairingTranscript derived offer.id offer.signPk offer.boxPk theirPk

/-- Two different transcripts of these offers have one hash. -/
def Collide (P : Primitives) (offer offer' : Offer) (theirPk : PublicKey) : Prop :=
  ∃ transcript transcript', Hashes P offer theirPk transcript ∧
    Hashes P offer' theirPk transcript' ∧ transcript ≠ transcript' ∧
    P.sha256 transcript = P.sha256 transcript'

theorem Opens.unique {message : Message} {theirPk theirPk' : PublicKey}
    {payload payload' : DirectPublicKeyPayload} (h : Opens P message theirPk payload)
    (h' : Opens P message theirPk' payload') : theirPk = theirPk' ∧ payload = payload' := by
  obtain ⟨_, _, rfl, hpayload⟩ := h
  obtain ⟨_, _, hmessage, hpayload'⟩ := h'
  obtain ⟨hkey, rfl, rfl⟩ := Message.publicKey.inj hmessage
  exact ⟨Block.ext hkey, Except.ok.inj (hpayload.symm.trans hpayload')⟩

theorem Proves.hashes {offer : Offer} {message : Message} (h : Proves P offer message) :
    ∃ theirPk payload transcript, Opens P message theirPk payload ∧
      Hashes P offer theirPk transcript ∧ payload.pairingProof = some (P.sha256 transcript) := by
  obtain ⟨theirPk, payload, salt, proof, hopens, hsalt, hproof, hcomputed⟩ := h
  unfold computeDirectPairingProof at hcomputed
  cases hderived : P.deriveKey (strBytes offer.passphrase) salt with
  | none =>
      rw [hderived] at hcomputed
      cases hcomputed
  | some derived =>
      rw [hderived] at hcomputed
      obtain rfl := Except.ok.inj hcomputed
      exact ⟨theirPk, payload, _, hopens, ⟨salt, derived, hsalt, hderived, rfl⟩, hproof⟩

/-- A proof is good for one offer: unless the hash collides on what the two offers have
hashed, an answer that proves the passphrases of two offers shows that they come from one
host with one key for the session. -/
theorem proves_binds {offer offer' : Offer} {message : Message} (h : Proves P offer message)
    (h' : Proves P offer' message) (hcollide : ∀ theirPk, ¬ Collide P offer offer' theirPk) :
    offer.id = offer'.id ∧ offer.signPk = offer'.signPk ∧ offer.boxPk = offer'.boxPk := by
  obtain ⟨theirPk, payload, transcript, hopens, hhashes, hproof⟩ := h.hashes
  obtain ⟨theirPk', payload', transcript', hopens', hhashes', hproof'⟩ := h'.hashes
  obtain ⟨rfl, rfl⟩ := hopens.unique hopens'
  have hhash : P.sha256 transcript = P.sha256 transcript' :=
    Option.some.inj (hproof.symm.trans hproof')
  have htranscript : transcript = transcript' := by
    by_contra hne
    exact hcollide theirPk ⟨transcript, transcript', hhashes, hhashes', hne, hhash⟩
  obtain ⟨salt, derived, -, -, rfl⟩ := hhashes
  obtain ⟨salt', derived', -, -, rfl⟩ := hhashes'
  obtain ⟨-, hid, hsign, hbox, -⟩ := pairingTranscript_inj htranscript
  exact ⟨hid, hsign, hbox⟩

/-! ## An instance -/

namespace Instance

open Handshake.Instance

/-- The paired viewers as a list. -/
def listed : PairedViewers (List PairedViewer) where
  has viewer viewers := decide (viewer ∈ viewers)
  add viewer viewers := viewer :: viewers
  remove signPks viewers := viewers.filter fun viewer => viewer.signPk ∉ signPks
  clear _ := []
  has_add := by simp
  of_has_add := by simp
  of_has_remove := by
    intro viewer signPks viewers h
    simp only [decide_eq_true_eq, List.mem_filter] at h
    exact ⟨h.2, decide_eq_true h.1⟩
  has_clear := by simp

/-- A host that asks for a passphrase. -/
def offer : Offer where
  mode := .direct
  enabled := by decide
  isQuic := false
  id := "host"
  signPk := publicKey 2
  signSk := secretKey 2
  boxPk := publicKey 3
  boxSk := publicKey 3
  passphrase := "passphrase"
  pairingSalt := some (block 16 9)
  salt_isSome := by decide
  secureChannel := 1
  certificate := [1]

/-- The offer of the same key for the session with another salt, which the key derivation of
the instance does not use. -/
def resaltedOffer : Offer :=
  { offer with
    pairingSalt := some (block 16 8)
    salt_isSome := by decide
    secureChannel := 0 }

def surroundings : Surroundings where
  rememberPairedViewers := true
  hasPairedViewer _ := false
  validateQuicBinding _ _ := .ok ()
  rememberPairedPeer _ _ _ := .ok ()

/-- The answer of a viewer that has typed the passphrase and gives its identity. -/
def provingAnswer : Message :=
  .publicKey (publicKey 4).bytes
    (directPublicKeyV3Magic ++ ([flagInitiatorId ||| flagPairingProof] ++
      ((primitives.sha256 (pairingTranscript (pad 32 (strBytes "passphrase")) "host" (publicKey 2)
        (publicKey 3) (publicKey 4))).bytes ++
        (putBe16 (createDirectSignedId externals "viewer" (publicKey 4) (publicKey 1)
          (secretKey 1)).length ++
          (createDirectSignedId externals "viewer" (publicKey 4) (publicKey 1) (secretKey 1) ++
            (publicKey 5).bytes))))) []

/-- The answer of the same viewer later, without the passphrase. -/
def rememberedAnswer : Message :=
  .publicKey (publicKey 4).bytes
    (directPublicKeyV3Magic ++ ([flagInitiatorId] ++
      (putBe16 (createDirectSignedId externals "viewer" (publicKey 4) (publicKey 1)
        (secretKey 1)).length ++
        (createDirectSignedId externals "viewer" (publicKey 4) (publicKey 1) (secretKey 1) ++
          (publicKey 5).bytes)))) []

end Instance

open Handshake.Instance in
theorem admitted_origin_remembered :
    Proves primitives Instance.offer Instance.rememberedAnswer ∨
      ∃ viewer : PairedViewer, Instance.offer.mode.pairingScope = some viewer.scope ∧
        Identifies primitives Instance.rememberedAnswer viewer.id viewer.signPk ∧
        ((Instance.listed.has viewer [] = true ∧
          ∀ event ∈ [Event.answer Instance.offer Instance.surroundings Instance.provingAnswer],
            ¬ event.Removes viewer.signPk) ∨
          PairedIn primitives
            [Event.answer Instance.offer Instance.surroundings Instance.provingAnswer] viewer) :=
  admitted_origin [] _ Instance.offer Instance.surroundings Instance.rememberedAnswer (by decide)
    (by decide +kernel)

open Handshake.Instance in
/-- An answer that proves the passphrase to one of the offers proves it to the other. -/
theorem proves_provingAnswer {salt : Salt} {offer : Offer}
    (hsame : offer.id = "host" ∧ offer.signPk = publicKey 2 ∧ offer.boxPk = publicKey 3)
    (hpassphrase : offer.passphrase = "passphrase") (hsalt : offer.pairingSalt = some salt) :
    Proves primitives offer Instance.provingAnswer := by
  let proof : PairingProof := primitives.sha256 (pairingTranscript
    (pad 32 (strBytes "passphrase")) "host" (publicKey 2) (publicKey 3) (publicKey 4))
  let viewer : DirectSignedId := ⟨"viewer", publicKey 1, publicKey 4, false, none, false, none, 0⟩
  have hopens : Opens primitives Instance.provingAnswer (publicKey 4)
      ⟨some proof, some viewer, (publicKey 5).bytes⟩ := ⟨_, _, rfl, by decide +kernel⟩
  refine ⟨_, _, salt, proof, hopens, hsalt, rfl, ?_⟩
  rw [hsame.1, hsame.2.1, hsame.2.2, hpassphrase]
  rfl

open Handshake.Instance in
/-- The two offers have one transcript. -/
theorem not_collide_resaltedOffer (theirPk : PublicKey) :
    ¬ Collide primitives Instance.offer Instance.resaltedOffer theirPk := by
  rintro ⟨_, _, ⟨salt, derived, -, hderived, rfl⟩, ⟨salt', derived', -, hderived', rfl⟩, hne, -⟩
  obtain rfl : derived = derived' := Option.some.inj (hderived.symm.trans hderived')
  exact hne rfl

open Handshake.Instance in
theorem proves_binds_resaltedOffer :
    Instance.offer.pairingSalt ≠ Instance.resaltedOffer.pairingSalt ∧
      Instance.offer.id = Instance.resaltedOffer.id ∧
      Instance.offer.signPk = Instance.resaltedOffer.signPk ∧
      Instance.offer.boxPk = Instance.resaltedOffer.boxPk :=
  ⟨by decide, proves_binds (proves_provingAnswer ⟨rfl, rfl, rfl⟩ rfl rfl)
    (proves_provingAnswer ⟨rfl, rfl, rfl⟩ rfl rfl) not_collide_resaltedOffer⟩

end RustAdmin.Handshake.Host
