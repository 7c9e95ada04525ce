import Mathlib.Data.List.Induction
import RustAdmin.Handshake.ViewerRuns

/-!
# The connections of a viewer

One connection after another, to any peers and over any routes, each with any answers of
the peer, the user and the network and each cut off anywhere: where the pinned keys and
the remembered pairings come from.

## Strategy

`Connection.spec` is the triple of every connection, so each of its calls is `Allowed`
where it is made.  A property of the stores is then kept over histories by
`history_induction`, which asks for it at the start, when a connection begins, and
over one allowed call.  Only `storeOptions` changes the stores:

* `PinOrigin.stored` splits on why the pin was allowed; the user's part in it is kept
  by `Vouched`, which only grows (`Grows`).
* `PairingOrigin.stored` does the same for a remembered pairing.  A rendezvous
  connection may also remember a direct one, so `history_pairingOrigin` follows the
  connections one by one, up to the first that does.
-/

namespace RustAdmin.Handshake.Viewer

open RustAdmin.Support

structure Connection where
  cfg : Config
  target : Target
  /-- The answers to its calls; the connection is cut off where they end. -/
  answers : List Environment

variable {σ : Type} (C : PeerConfigs σ) (P : Primitives) (B : Base64)

namespace Connection

def task (c : Connection) : Task PublicKey :=
  match c.target with
  | .direct => connectSecureDirectWithPairingRetry P B c.cfg
  | .rendezvous peerId rsPk udp => startRendezvous P B c.cfg peerId rsPk udp

/-- The world in which it begins. -/
def begin (w : World σ) : World σ :=
  { w with input := {}, contact := {}, signedIdPk := none }

def execution (c : Connection) (w : World σ) : Execution Call HandshakeError PublicKey (World σ) :=
  (c.task P B).run (machine C c.cfg) c.answers (begin w)

end Connection

/-- The world after these connections, which begin with a store and a user who has done
nothing. -/
def history (store : σ) (connections : List Connection) : World σ :=
  connections.foldl (fun w c => (c.execution C P B w).last) { store := store }

variable {C P B}

theorem Connection.spec (c : Connection) :
    Spec C P B c.cfg c.target (Fresh (σ := σ)) (c.task P B)
      (Established C P B c.cfg c.target) := by
  obtain ⟨cfg, target, answers⟩ := c
  cases target with
  | direct => exact spec_connectSecureDirectWithPairingRetry
  | rendezvous peerId rsPk udp => exact spec_startRendezvous

theorem fresh_begin (w : World σ) : Fresh (Connection.begin w) := ⟨rfl, rfl⟩

/-- What every allowed call of every connection keeps holds after a history, if the begin
of a connection keeps it. -/
theorem history_induction {J : World σ → Prop} {store : σ} {connections : List Connection}
    (hstart : J { store := store }) (hbegin : ∀ w, J w → J (Connection.begin w))
    (hkeep : ∀ c ∈ connections, ∀ call env w, Allowed C P B c.cfg c.target call w → J w →
      J (machine C c.cfg call env w).2) : J (history C P B store connections) := by
  unfold history
  generalize hw : ({ store := store } : World σ) = w at hstart
  clear hw
  induction connections generalizing w with
  | nil => exact hstart
  | cons c connections ih =>
      refine ih (fun c' hc' => hkeep c' (List.mem_cons_of_mem _ hc')) _ ?_
      have hframe := (c.spec (C := C) (P := P) (B := B)).frame (hkeep c List.mem_cons_self)
      exact (hframe c.answers (Connection.begin w) ⟨fresh_begin w, hbegin w hstart⟩).2.1.2

/-- Whatever happened before and whatever is answered, every call of a connection is one
that is allowed in the state it finds. -/
theorem history_calls_allowed (store : σ) (connections : List Connection) (c : Connection) :
    (c.execution C P B (history C P B store connections)).calls.Forall fun call =>
      Allowed C P B c.cfg c.target call.2 call.1 :=
  List.forall_iff_forall_mem.mpr (c.spec c.answers _ (fresh_begin _)).1

theorem history_concat (store : σ) (connections : List Connection) (c : Connection) :
    history C P B store (connections ++ [c]) =
      (c.execution C P B (history C P B store connections)).last := by
  rw [history, List.foldl_append]
  rfl

/-- A connection that is handed out belongs to the peer that it is bound to, whose key is
trusted from then on; over a rendezvous server it is the key that the server vouches for. -/
theorem returned_trusted (store : σ) (connections : List Connection) (c : Connection)
    (pk : PublicKey)
    (hreturned : (c.execution C P B (history C P B store connections)).outcome = .returned pk) :
    let w := history C P B store (connections ++ [c])
    (∃ id, w.input.peer = some (id, pk) ∧ Trusted C B c.cfg w id pk) ∧
      ∀ peerId rsPk udp, c.target = .rendezvous peerId rsPk udp →
        ServerVouches P w rsPk peerId pk := by
  have hestablished := (c.spec c.answers _ (fresh_begin _)).2.2 pk hreturned
  rw [history_concat]
  exact ⟨hestablished.trusted, hestablished.vouched⟩

/-! ### A first pairing -/

namespace Instance

open Handshake.Instance

def viewer : Config where
  id := "viewer"
  keyFiles := { secretKey := (secretKey 1).bytes, publicKey := (publicKey 1).bytes }
  quicCertificate := .ok [2]
  directionalSecretboxEnabled := true
  bootstrapKey := fun _ => ""
  peerConfigId := "host"

/-- The offer of a host that asks for its passphrase. -/
def hello : Message :=
  .signedId (createHostSignedId externals true "host" (publicKey 3) (publicKey 2) (secretKey 2)
    (some (block 16 9)) 0) []

/-- A user who types a passphrase, and a network that delivers this message. -/
def answers (received : Message) : Environment
  | .connect _ => .ok false
  | .connectPretrusted => .ok .notTrusted
  | .openRoute => .error (.text "Failed to connect via rendezvous server")
  | .receive => .ok (.message received)
  | .send _ => .ok ()
  | .late => false
  | .now => (1 : ℤ)
  | .freshKeys => ⟨publicKey 4, publicKey 4, publicKey 5⟩
  | .loadInput => {}
  | .loadOptions => {}
  | .allowUnverifiedPeerTrust => false
  | .rememberPairedViewers => true
  | .confirmPeerTrust .. => .ok ()
  | .requestPairingPassphrase .. => .ok "passphrase"
  | .pairingProof passphrase salt id signPk boxPk ourPk =>
      (computeDirectPairingProof primitives passphrase salt id signPk boxPk ourPk).mapError .text
  | .verifyQuicBinding .. => .ok ()
  | .hasPairedPeer => .ok false
  | .rememberAuthenticatedPeer .. => .ok ()
  | .setKey .. | .newInput | .storeInput _ | .storeOptions _ => ()

/-- The viewer receives the offer, and later the acknowledgement. -/
def pairing : Connection where
  cfg := viewer
  target := .direct
  answers := List.replicate 12 (answers hello) ++
    List.replicate 48 (answers (.signedId directHandshakeAckOk []))

end Instance

open Handshake.Instance in
theorem returned_trusted_pairing :
    let w := history files primitives charBase64 (fun _ => {}) [Instance.pairing]
    (∃ id, w.input.peer = some (id, publicKey 2) ∧
      Trusted files charBase64 Instance.viewer w id (publicKey 2)) ∧
      ∀ peerId rsPk udp, Instance.pairing.target = .rendezvous peerId rsPk udp →
        ServerVouches primitives w rsPk peerId (publicKey 2) := by
  have htrusted := returned_trusted (C := files) (P := primitives) (B := charBase64) (fun _ => {})
    [] Instance.pairing (publicKey 2) (by decide +kernel)
  rw [List.nil_append] at htrusted
  exact htrusted

/-! ## Where a pin comes from -/

/-- The user has compared the fingerprint of this key, or typed the passphrase of its owner. -/
def Vouched (w : World σ) (id : String) (pk : PublicKey) : Prop :=
  pkToFingerprint pk.bytes ∈ w.approved ∨ ∃ passphrase, (passphrase, id, pk) ∈ w.typed

/-- The pin of a peer is the one from before, or the user has vouched for its key. -/
def PinOrigin (C : PeerConfigs σ) (B : Base64) (peer : String) (store : σ) (w : World σ) : Prop :=
  (C.load peer w.store).pinnedSigningKey = (C.load peer store).pinnedSigningKey ∨
    ∃ id pk, (C.load peer w.store).pinnedSigningKey = some (B.encode (Block.bytes pk)) ∧
      Vouched w id pk

/-- What the user has done is not forgotten. -/
structure Grows (w w' : World σ) : Prop where
  approved : w.approved ⊆ w'.approved
  typed : w.typed ⊆ w'.typed

theorem Grows.refl (w : World σ) : Grows w w := ⟨fun _ h => h, fun _ h => h⟩

theorem Grows.approve (w : World σ) (fingerprint : String) (answer : Except HandshakeError Unit) :
    Grows w (w.approve fingerprint answer) := by
  cases answer with
  | error e => exact .refl w
  | ok _ => exact ⟨fun _ h => List.mem_cons_of_mem _ h, fun _ h => h⟩

theorem Grows.type (w : World σ) (answer : Except HandshakeError String) :
    Grows w (w.type answer) := by
  cases answer with
  | error e => exact .refl w
  | ok passphrase =>
      unfold World.type
      cases w.input.peer with
      | none => exact .refl w
      | some peer => exact ⟨fun _ h => h, fun _ h => List.mem_cons_of_mem _ h⟩

theorem Grows.prove (w : World σ) (peer : String × PublicKey)
    (answer : Except HandshakeError PairingProof) : Grows w (w.prove peer answer) := by
  cases answer <;> exact ⟨fun _ h => h, fun _ h => h⟩

theorem Grows.receive (w : World σ) (answer : Except HandshakeError Received) :
    Grows w (w.receive answer) := by
  unfold World.receive
  split <;> exact ⟨fun _ h => h, fun _ h => h⟩

theorem Grows.machine {cfg : Config} (call : Call) (env : Environment) (w : World σ) :
    Grows w (machine C cfg call env w).2 := by
  cases call with
  | receive => exact .receive w _
  | confirmPeerTrust => exact .approve w _ _
  | requestPairingPassphrase => exact .type w _
  | pairingProof => exact .prove w _ _
  | _ => exact ⟨fun _ h => h, fun _ h => h⟩

theorem Vouched.grows {w w' : World σ} {id : String} {pk : PublicKey} (h : Vouched w id pk)
    (hgrows : Grows w w') : Vouched w' id pk :=
  h.imp (fun hmem => hgrows.approved hmem) fun ⟨passphrase, hmem⟩ =>
    ⟨passphrase, hgrows.typed hmem⟩

/-- Only one call writes to the stores. -/
theorem store_machine {cfg : Config} {call : Call} (hcall : ∀ options, call ≠ .storeOptions options)
    (env : Environment) (w : World σ) : (machine C cfg call env w).2.store = w.store := by
  cases call with
  | storeOptions options => exact absurd rfl (hcall options)
  | receive =>
      simp only [machine, World.receive]
      split <;> rfl
  | confirmPeerTrust id fingerprint phrase direct =>
      cases h : env (.confirmPeerTrust id fingerprint phrase direct) <;>
        simp [machine, h, World.approve]
  | requestPairingPassphrase id direct =>
      simp only [machine, World.type]
      split
      · split <;> rfl
      · rfl
  | pairingProof passphrase salt id signPk boxPk ourPk =>
      cases h : env (.pairingProof passphrase salt id signPk boxPk ourPk) <;>
        simp [machine, h, World.prove]
  | _ => rfl

/-- A fingerprint that is taken for confirmed has been confirmed. -/
def ConfirmedApproved (w : World σ) : Prop :=
  ∀ fingerprint, w.contact.confirmed = some fingerprint → fingerprint ∈ w.approved

theorem ConfirmedApproved.of_none {w : World σ} (h : w.contact.confirmed = none) :
    ConfirmedApproved w := by
  intro fingerprint hconfirmed
  rw [h] at hconfirmed
  cases hconfirmed

theorem ConfirmedApproved.of_eq {w w' : World σ} (h : ConfirmedApproved w) (hgrows : Grows w w')
    (hcontact : w'.contact.confirmed = w.contact.confirmed) : ConfirmedApproved w' := by
  intro fingerprint hconfirmed
  rw [hcontact] at hconfirmed
  exact hgrows.approved (h fingerprint hconfirmed)

theorem ConfirmedApproved.machine {cfg : Config} (call : Call) (env : Environment) {w : World σ}
    (h : ConfirmedApproved w) : ConfirmedApproved (machine C cfg call env w).2 := by
  have hgrows : Grows w (Viewer.machine C cfg call env w).2 := .machine call env w
  cases call with
  | confirmPeerTrust id fingerprint phrase direct =>
      cases hanswer : env (.confirmPeerTrust id fingerprint phrase direct) with
      | error e =>
          refine h.of_eq hgrows ?_
          simp [Viewer.machine, hanswer, World.approve]
      | ok _ =>
          intro other hconfirmed
          simp only [Viewer.machine, hanswer, World.approve] at hconfirmed ⊢
          obtain rfl : fingerprint = other := Option.some.inj hconfirmed
          exact List.mem_cons_self
  | receive =>
      refine h.of_eq hgrows ?_
      simp only [Viewer.machine, World.receive]
      split <;> rfl
  | requestPairingPassphrase id direct =>
      refine h.of_eq hgrows ?_
      simp only [Viewer.machine, World.type]
      split
      · split <;> rfl
      · rfl
  | pairingProof passphrase salt id signPk boxPk ourPk =>
      refine h.of_eq hgrows ?_
      cases hanswer : env (.pairingProof passphrase salt id signPk boxPk ourPk) <;>
        simp [Viewer.machine, hanswer, World.prove]
  | connect => exact .of_none rfl
  | connectPretrusted => exact .of_none rfl
  | openRoute => exact .of_none rfl
  | _ => exact h

/-- A call that stores options, for the peer of the connection or for another one. -/
theorem PinOrigin.stored {cfg : Config} {target : Target} {peer : String} {store : σ}
    {w : World σ} {options : PeerOptions}
    (hallowed : PinAllowed C B cfg target w options) (hconfirmed : ConfirmedApproved w)
    (h : PinOrigin C B peer store w) :
    PinOrigin C B peer store { w with store := C.store cfg.peerConfigId options w.store } := by
  by_cases hpeer : peer = cfg.peerConfigId
  · subst hpeer
    have hload : C.load cfg.peerConfigId (C.store cfg.peerConfigId options w.store) = options :=
      C.load_store ..
    unfold PinOrigin
    rw [hload]
    rcases hallowed with hsame | ⟨id, pk, -, -, hpinned, hwhy⟩
    · rw [hsame]
      exact h
    · refine .inr ⟨id, pk, hpinned, ?_⟩
      rcases hwhy with hfirst | hpaired
      · exact .inl (hconfirmed _ hfirst.confirmed)
      · exact .inr hpaired.typed
  · have hload : C.load peer (C.store cfg.peerConfigId options w.store) = C.load peer w.store :=
      C.load_store_of_ne _ _ _ _ hpeer
    unfold PinOrigin
    rw [hload]
    exact h

theorem PinOrigin.machine {cfg : Config} {target : Target} {peer : String} {store : σ}
    {w : World σ} {call : Call} (env : Environment) (hallowed : Allowed C P B cfg target call w)
    (hconfirmed : ConfirmedApproved w) (h : PinOrigin C B peer store w) :
    PinOrigin C B peer store (machine C cfg call env w).2 := by
  by_cases hcall : ∃ options, call = .storeOptions options
  · obtain ⟨options, rfl⟩ := hcall
    exact h.stored hallowed.1 hconfirmed
  · have hstore : (Viewer.machine C cfg call env w).2.store = w.store :=
      store_machine (fun options hoptions => hcall ⟨options, hoptions⟩) env w
    unfold PinOrigin at h ⊢
    rw [hstore]
    refine h.imp_right ?_
    rintro ⟨id, pk, hpinned, hvouched⟩
    exact ⟨id, pk, hpinned, hvouched.grows (.machine call env w)⟩

/-- After any connections, the pin of a peer is the one from before them, or the user has
vouched for the key: no answer of a peer, of a server or of the network pins a key by
itself. -/
theorem history_pinOrigin (peer : String) (store : σ) (connections : List Connection) :
    PinOrigin C B peer store (history C P B store connections) := by
  have hboth : PinOrigin C B peer store (history C P B store connections) ∧
      ConfirmedApproved (history C P B store connections) := by
    refine history_induction (J := fun w => PinOrigin C B peer store w ∧ ConfirmedApproved w)
      ⟨.inl rfl, .of_none rfl⟩ ?_ ?_
    · rintro w ⟨horigin, -⟩
      exact ⟨horigin, .of_none rfl⟩
    · rintro c - call env w hallowed ⟨horigin, hconfirmed⟩
      exact ⟨horigin.machine env hallowed hconfirmed, hconfirmed.machine call env⟩
  exact hboth.1

/-! ## Where a remembered pairing comes from -/

/-- The identities that a contact has to do with are ones that a passphrase was typed for. -/
structure ContactTyped (w : World σ) : Prop where
  proved : ∀ peer, w.contact.proved = some peer → ∃ passphrase, (passphrase, peer) ∈ w.typed
  sent : ∀ peer, w.contact.sent = some peer → ∃ passphrase, (passphrase, peer) ∈ w.typed
  acked : ∀ peer, w.contact.acked = some peer → ∃ passphrase, (passphrase, peer) ∈ w.typed

theorem ContactTyped.fresh {w : World σ} (h : w.contact = {}) : ContactTyped w := by
  constructor <;> simp [h]

theorem ContactTyped.of_eq {w w' : World σ} (h : ContactTyped w) (hgrows : Grows w w')
    (hproved : w'.contact.proved = w.contact.proved) (hsent : w'.contact.sent = w.contact.sent)
    (hacked : w'.contact.acked = w.contact.acked) : ContactTyped w' := by
  have hgrow : ∀ peer : String × PublicKey, (∃ passphrase, (passphrase, peer) ∈ w.typed) →
      ∃ passphrase, (passphrase, peer) ∈ w'.typed :=
    fun _ ⟨passphrase, hmem⟩ => ⟨passphrase, hgrows.typed hmem⟩
  refine ⟨fun peer hpeer => ?_, fun peer hpeer => ?_, fun peer hpeer => ?_⟩
  · exact hgrow _ (h.proved peer (hproved ▸ hpeer))
  · exact hgrow _ (h.sent peer (hsent ▸ hpeer))
  · exact hgrow _ (h.acked peer (hacked ▸ hpeer))

theorem ContactTyped.machine {cfg : Config} {target : Target} {call : Call}
    (env : Environment) {w : World σ} (hallowed : Allowed C P B cfg target call w)
    (h : ContactTyped w) : ContactTyped (machine C cfg call env w).2 := by
  have hgrows : Grows w (Viewer.machine C cfg call env w).2 := .machine call env w
  cases call with
  | connect => exact .fresh rfl
  | connectPretrusted => exact .fresh rfl
  | openRoute => exact .fresh rfl
  | send => exact ⟨h.proved, h.proved, h.acked⟩
  | receive =>
      simp only [Viewer.machine, World.receive]
      split
      · exact ⟨h.proved, h.sent, h.sent⟩
      · exact h
  | pairingProof passphrase salt id signPk boxPk ourPk =>
      cases hanswer : env (.pairingProof passphrase salt id signPk boxPk ourPk) with
      | error e => simpa [Viewer.machine, hanswer, World.prove] using h
      | ok _ =>
          simp only [Viewer.machine, hanswer, World.prove]
          refine ⟨fun peer hpeer => ?_, h.sent, h.acked⟩
          obtain rfl : (id, signPk) = peer := Option.some.inj hpeer
          exact ⟨passphrase, hallowed.2⟩
  | confirmPeerTrust id fingerprint phrase direct =>
      refine h.of_eq hgrows ?_ ?_ ?_ <;>
        cases hanswer : env (.confirmPeerTrust id fingerprint phrase direct) <;>
          simp [Viewer.machine, hanswer, World.approve]
  | requestPairingPassphrase id direct =>
      have hcontact : (w.type (env (.requestPairingPassphrase id direct))).contact = w.contact := by
        unfold World.type
        split
        · split <;> rfl
        · rfl
      refine h.of_eq hgrows ?_ ?_ ?_ <;> simp [Viewer.machine, hcontact]
  | _ => exact ⟨h.proved, h.sent, h.acked⟩

/-- The call remembers a direct pairing with a peer that the server vouches for. -/
def RemembersVouched (C : PeerConfigs σ) (P : Primitives) (B : Base64) (cfg : Config)
    (target : Target) (call : Call) (w : World σ) : Prop :=
  ∃ options, call = .storeOptions options ∧
    options.confirmation .direct ≠ (w.options C cfg).confirmation .direct ∧
    ∃ id pk, w.input.peer = some (id, pk) ∧ Trusted C B cfg w id pk ∧
      ∃ rsPk udp, target = .rendezvous id rsPk udp ∧ ServerVouches P w rsPk id pk

/-- One of the connections has remembered a direct pairing with this peer, for which its
rendezvous server vouches. -/
def VouchedPairing (C : PeerConfigs σ) (P : Primitives) (B : Base64) (peer : String) (store : σ)
    (connections : List Connection) : Prop :=
  ∃ before c after, connections = before ++ c :: after ∧ c.cfg.peerConfigId = peer ∧
    ∃ call ∈ (c.execution C P B (history C P B store before)).calls,
      RemembersVouched C P B c.cfg c.target call.2 call.1

/-- A remembered pairing is one from before, or the user has typed a passphrase. -/
def PairingOrigin (C : PeerConfigs σ) (peer : String) (scope : PairingScope) (store : σ)
    (w : World σ) : Prop :=
  (C.load peer w.store).confirmation scope ≠ none →
    (C.load peer store).confirmation scope ≠ none ∨ ∃ typed, typed ∈ w.typed

theorem PairingOrigin.stored {cfg : Config} {target : Target} {peer : String}
    {scope : PairingScope} {store : σ} {w : World σ} {options : PeerOptions}
    (hvouched : scope = .direct → cfg.peerConfigId = peer →
      ¬ RemembersVouched C P B cfg target (.storeOptions options) w)
    (hallowed : ConfirmationAllowed C P B cfg target w options scope) (htyped : ContactTyped w)
    (h : PairingOrigin C peer scope store w) :
    PairingOrigin C peer scope store
      { w with store := C.store cfg.peerConfigId options w.store } := by
  by_cases hpeer : peer = cfg.peerConfigId
  · subst hpeer
    have hload : C.load cfg.peerConfigId (C.store cfg.peerConfigId options w.store) = options :=
      C.load_store ..
    intro hsome
    rw [hload] at hsome
    by_cases hsame : options.confirmation scope = (w.options C cfg).confirmation scope
    · exact h (hsame ▸ hsome)
    rcases hallowed with hsame' | hnone | hlegacy | ⟨id, pk, hbound, hacked | hdirect⟩
    · exact absurd hsame' hsame
    · exact absurd hnone hsome
    · refine h ?_
      have hload : (C.load cfg.peerConfigId w.store).confirmation scope = some .legacy := hlegacy
      simp [hload]
    · obtain ⟨passphrase, hmem⟩ := htyped.acked _ hacked
      exact .inr ⟨_, hmem⟩
    · obtain ⟨rfl, htrusted, hserver⟩ := hdirect
      exact absurd ⟨options, rfl, hsame, id, pk, hbound, htrusted, hserver⟩ (hvouched rfl rfl)
  · have hload : C.load peer (C.store cfg.peerConfigId options w.store) = C.load peer w.store :=
      C.load_store_of_ne _ _ _ _ hpeer
    unfold PairingOrigin
    rw [hload]
    exact h

theorem PairingOrigin.machine {cfg : Config} {target : Target} {peer : String}
    {scope : PairingScope} {store : σ} {w : World σ} {call : Call} (env : Environment)
    (hvouched : scope = .direct → cfg.peerConfigId = peer →
      ¬ RemembersVouched C P B cfg target call w)
    (hallowed : Allowed C P B cfg target call w)
    (htyped : ContactTyped w) (h : PairingOrigin C peer scope store w) :
    PairingOrigin C peer scope store (machine C cfg call env w).2 := by
  by_cases hcall : ∃ options, call = .storeOptions options
  · obtain ⟨options, rfl⟩ := hcall
    exact h.stored hvouched (hallowed.2 scope) htyped
  · have hstore : (Viewer.machine C cfg call env w).2.store = w.store :=
      store_machine (fun options hoptions => hcall ⟨options, hoptions⟩) env w
    unfold PairingOrigin at h ⊢
    rw [hstore]
    intro hsome
    refine (h hsome).imp_right ?_
    rintro ⟨typed, hmem⟩
    exact ⟨typed, (Grows.machine call env w).typed hmem⟩

/-- A pairing that is remembered after any connections is one from before them, or the user
has typed a passphrase, or it is a direct one and a rendezvous connection has remembered it
for a peer that its server vouches for. -/
theorem history_pairingOrigin (peer : String) (scope : PairingScope) (store : σ)
    (connections : List Connection) :
    PairingOrigin C peer scope store (history C P B store connections) ∨
      scope = .direct ∧ VouchedPairing C P B peer store connections := by
  induction connections using List.reverseRecOn with
  | nil => exact .inl fun hsome => .inl hsome
  | append_singleton before c ih =>
      rcases ih with horigin | ⟨hscope, earlier, c', after, rfl, hvouched⟩
      · -- the last connection remembers such a pairing, or all its calls keep the origin
        by_cases hvouched : scope = .direct ∧ VouchedPairing C P B peer store (before ++ [c])
        · exact .inr hvouched
        refine .inl ?_
        rw [history_concat]
        let J : World σ → Prop := fun w => PairingOrigin C peer scope store w ∧ ContactTyped w
        have hlast : J (c.execution C P B (history C P B store before)).last := by
          refine Program.last_of_calls ⟨horigin, .fresh rfl⟩ fun env call hcall hboth => ?_
          have hallowed := (c.spec (C := C) (P := P) (B := B) c.answers _ (fresh_begin _)).1 _ hcall
          refine ⟨hboth.1.machine env ?_ hallowed hboth.2, hboth.2.machine env hallowed⟩
          intro hdirect hpeer hremembers
          exact hvouched ⟨hdirect, before, c, [], rfl, hpeer, call, hcall, hremembers⟩
        exact hlast.1
      · exact .inr ⟨hscope, earlier, c', after ++ [c], by simp, hvouched⟩

end RustAdmin.Handshake.Viewer
