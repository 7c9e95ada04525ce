import RustAdmin.Handshake.ViewerProgram

/-!
# What a viewer trusts

Whatever the peer sends, the user answers and the network loses, and wherever the program
is cut short: a signing key is pinned only after the user has compared it or after a
pairing with its owner, a passphrase is used only towards the identity it was typed for,
and a connection that is returned belongs to a trusted key.

`Allowed` says for each call when it may be made, and `Good` what holds wherever the
program stops.  `Spec` is the triple with these two; it is proved here for the single
calls, from what the call changes.  What a later phase needs is carried over a call as
a `Stable` property: one that depends on nothing but what `Keeps` says is the same.
-/

namespace RustAdmin.Handshake.Viewer

open RustAdmin.Support

/-! ## The machine -/

/-- The answers of everything outside, one for each call that can be made. -/
abbrev Environment := (call : Call) → call.Answer

/-- What has happened on the present connection. -/
structure Contact where
  /-- The last answer to whether unverified trust is allowed. -/
  allowed : Bool := false
  /-- The fingerprint that the user confirmed last. -/
  confirmed : Option String := none
  /-- The identity for which a pairing proof was computed, sent and acknowledged. -/
  proved : Option (String × PublicKey) := none
  sent : Option (String × PublicKey) := none
  acked : Option (String × PublicKey) := none

/-- The stores of a viewer and what its user has done.  `typed` and `approved` are not in
the code: the passphrases with the identity they were typed for, and the fingerprints that
the user confirmed. -/
structure World (σ : Type) where
  store : σ
  input : HandshakeInput := {}
  contact : Contact := {}
  /-- What the route to the peer has brought of its identity, signed by a server. -/
  signedIdPk : Option Bytes := none
  typed : List (String × String × PublicKey) := []
  approved : List String := []

variable {σ : Type} (C : PeerConfigs σ) (P : Primitives) (B : Base64) (cfg : Config)

def World.options (w : World σ) : PeerOptions := C.load cfg.peerConfigId w.store

def isAck : Except HandshakeError Received → Bool
  | .ok (.message (.signedId id _)) => id == directHandshakeAckOk
  | _ => false

/-- The world after a passphrase has been typed. -/
def World.type (w : World σ) : Except HandshakeError String → World σ
  | .ok passphrase =>
      match w.input.peer with
      | some peer => { w with typed := (passphrase, peer) :: w.typed }
      | none => w
  | .error _ => w

/-- The world after the user was asked to compare a fingerprint. -/
def World.approve (w : World σ) (fingerprint : String) : Except HandshakeError Unit → World σ
  | .ok _ =>
      { w with
        contact := { w.contact with confirmed := some fingerprint }
        approved := fingerprint :: w.approved }
  | .error _ => w

/-- The world after a proof was computed. -/
def World.prove (w : World σ) (peer : String × PublicKey) :
    Except HandshakeError PairingProof → World σ
  | .ok _ => { w with contact := { w.contact with proved := some peer } }
  | .error _ => w

/-- The world after something was received. -/
def World.receive (w : World σ) (answer : Except HandshakeError Received) : World σ :=
  if isAck answer then { w with contact := { w.contact with acked := w.contact.sent } } else w

/-- What a route brings. -/
def routeIdentity : Except HandshakeError Route → Option Bytes
  | .ok route => some route.signedIdPk
  | .error _ => none

def machine : (call : Call) → Environment → World σ → call.Answer × World σ
  | .newInput, _, w => ((), { w with input := { canReopen := true } })
  | .loadInput, _, w => (w.input, w)
  | .storeInput input, _, w => ((), { w with input := input })
  | .loadOptions, _, w => (w.options C cfg, w)
  | .storeOptions options, _, w =>
      ((), { w with store := C.store cfg.peerConfigId options w.store })
  | .connect candidate, env, w => (env (.connect candidate), { w with contact := {} })
  | .connectPretrusted, env, w => (env .connectPretrusted, { w with contact := {} })
  | .openRoute, env, w =>
      (env .openRoute, { w with contact := {}, signedIdPk := routeIdentity (env .openRoute) })
  | .receive, env, w => (env .receive, w.receive (env .receive))
  | .send message, env, w =>
      (env (.send message), { w with contact := { w.contact with sent := w.contact.proved } })
  | .allowUnverifiedPeerTrust, env, w =>
      (env .allowUnverifiedPeerTrust,
        { w with contact := { w.contact with allowed := env .allowUnverifiedPeerTrust } })
  | .confirmPeerTrust id fingerprint phrase direct, env, w =>
      (env (.confirmPeerTrust id fingerprint phrase direct),
        w.approve fingerprint (env (.confirmPeerTrust id fingerprint phrase direct)))
  | .requestPairingPassphrase id direct, env, w =>
      (env (.requestPairingPassphrase id direct),
        w.type (env (.requestPairingPassphrase id direct)))
  | .pairingProof passphrase salt id signPk boxPk ourPk, env, w =>
      (env (.pairingProof passphrase salt id signPk boxPk ourPk),
        w.prove (id, signPk) (env (.pairingProof passphrase salt id signPk boxPk ourPk)))
  | .setKey key directional, env, w => (env (.setKey key directional), w)
  | .late, env, w => (env .late, w)
  | .now, env, w => (env .now, w)
  | .freshKeys, env, w => (env .freshKeys, w)
  | .rememberPairedViewers, env, w => (env .rememberPairedViewers, w)
  | .verifyQuicBinding signPk certificate, env, w =>
      (env (.verifyQuicBinding signPk certificate), w)
  | .hasPairedPeer, env, w => (env .hasPairedPeer, w)
  | .rememberAuthenticatedPeer id signPk certificate, env, w =>
      (env (.rememberAuthenticatedPeer id signPk certificate), w)

/-! ## When a call may be made -/

/-- The key of this peer is trusted. -/
def Trusted (w : World σ) (id : String) (pk : PublicKey) : Prop :=
  trustedPeerSigningKeyStatus B (cfg.bootstrapKey id) (w.options C cfg) pk.bytes = .ok .trusted

/-- The user has compared the key of a peer that had none. -/
structure FirstContact (w : World σ) (pk : PublicKey) : Prop where
  unpinned : nonempty (w.options C cfg).pinnedSigningKey = none
  allowed : w.contact.allowed = true
  confirmed : w.contact.confirmed = some (pkToFingerprint pk.bytes)

/-- The peer has acknowledged a proof of a passphrase that the user typed for it; where a
changed identity is to be repaired without the server that vouches for it, the user has
compared its fingerprint as well. -/
structure Paired (target : Target) (w : World σ) (id : String) (pk : PublicKey) : Prop where
  acked : w.contact.acked = some (id, pk)
  typed : ∃ passphrase, (passphrase, id, pk) ∈ w.typed
  approved : target = .direct → w.input.requireAuthenticatedRepair = true →
    pkToFingerprint pk.bytes ∈ w.approved

/-- The rendezvous server vouches for a key: the route has brought the id and the key under
its signature. -/
def ServerVouches (w : World σ) (rsPk : Option PublicKey) (id : String) (pk : PublicKey) : Prop :=
  ∃ serverPk signed, rsPk = some serverPk ∧ w.signedIdPk = some signed ∧
    ServerSigned P.toExternals serverPk signed id pk

/-- The pin changes only to the key of the present peer. -/
def PinAllowed (target : Target) (w : World σ) (options : PeerOptions) : Prop :=
  options.pinnedSigningKey = (w.options C cfg).pinnedSigningKey ∨
    ∃ id pk, w.input.peer = some (id, pk) ∧ cfg.bootstrapKey id = "" ∧
      options.pinnedSigningKey = some (B.encode (Block.bytes pk)) ∧
      (FirstContact C cfg w pk ∨ Paired target w id pk)

/-- A remembered pairing is forgotten, refreshed, or follows an acknowledged proof.  A
rendezvous handshake also remembers a direct pairing, where the server vouches for the key of
the peer and the key is trusted. -/
def ConfirmationAllowed (target : Target) (w : World σ) (options : PeerOptions)
    (scope : PairingScope) : Prop :=
  options.confirmation scope = (w.options C cfg).confirmation scope ∨
    options.confirmation scope = none ∨
    (w.options C cfg).confirmation scope = some .legacy ∨
    ∃ id pk, w.input.peer = some (id, pk) ∧ (w.contact.acked = some (id, pk) ∨
      scope = .direct ∧ Trusted C B cfg w id pk ∧
        ∃ rsPk udp, target = .rendezvous id rsPk udp ∧ ServerVouches P w rsPk id pk)

def Allowed (target : Target) : Call → World σ → Prop
  | .storeOptions options, w =>
      PinAllowed C B cfg target w options ∧
        ∀ scope, ConfirmationAllowed C P B cfg target w options scope
  | .pairingProof passphrase _ id signPk _ _, w =>
      w.input.peer = some (id, signPk) ∧ (passphrase, id, signPk) ∈ w.typed
  | .requestPairingPassphrase id _, w => ∃ pk, w.input.peer = some (id, pk)
  | .newInput, w => w.input.peer = none
  | .storeInput input, w => w.input.peer = none ∨ input.peer = w.input.peer
  | .rememberAuthenticatedPeer _ signPk _, w =>
      ∃ id, w.input.peer = some (id, signPk) ∧ Trusted C B cfg w id signPk
  | .openRoute, _ => target ≠ .direct
  | _, _ => True

/-- What holds wherever the program stops: what is left over from an attempt belongs to
the identity that the attempts are bound to. -/
structure Good (w : World σ) : Prop where
  passphrase : ∀ passphrase, w.input.passphrase = some passphrase →
    ∃ peer, w.input.peer = some peer ∧ (passphrase, peer) ∈ w.typed
  approved : w.input.repairIdentityApproved = true →
    ∃ id pk, w.input.peer = some (id, pk) ∧ pkToFingerprint (Block.bytes pk) ∈ w.approved
  proved : ∀ peer, w.contact.proved = some peer → ∃ passphrase, (passphrase, peer) ∈ w.typed
  sent : ∀ peer, w.contact.sent = some peer → ∃ passphrase, (passphrase, peer) ∈ w.typed
  acked : ∀ peer, w.contact.acked = some peer → ∃ passphrase, (passphrase, peer) ∈ w.typed

/-- The triples of the programs here. -/
abbrev Spec (target : Target) {α : Type} (Pre : World σ → Prop) (task : Task α)
    (Post : α → World σ → Prop) : Prop :=
  Holds (machine C cfg) (Allowed C P B cfg target) Good Pre task Post

/-- What the trust in a peer depends on is the same. -/
structure Keeps (w w' : World σ) : Prop where
  peer : w'.input.peer = w.input.peer
  repair : w'.input.requireAuthenticatedRepair = w.input.requireAuthenticatedRepair
  pinned : (w'.options C cfg).pinnedSigningKey = (w.options C cfg).pinnedSigningKey
  signedIdPk : w'.signedIdPk = w.signedIdPk
  approved : ∀ fingerprint ∈ w.approved, fingerprint ∈ w'.approved

/-- A property that depends on nothing else. -/
def Stable (I : World σ → Prop) : Prop := ∀ w w', Keeps C cfg w w' → I w → I w'

variable {C P B cfg} {target : Target} {I : World σ → Prop} {w : World σ}

/-! ## The calls -/

theorem Keeps.contact (w : World σ) (contact : Contact) :
    Keeps C cfg w { w with contact := contact } := ⟨rfl, rfl, rfl, rfl, fun _ h => h⟩

/-- Storing options that name the same key. -/
theorem Keeps.store {options : PeerOptions}
    (hpinned : options.pinnedSigningKey = (w.options C cfg).pinnedSigningKey) :
    Keeps C cfg w { w with store := C.store cfg.peerConfigId options w.store } where
  peer := rfl
  repair := rfl
  pinned := by
    rw [← hpinned]
    exact congrArg _ (C.load_store ..)
  signedIdPk := rfl
  approved := fun _ h => h

theorem Keeps.approve (w : World σ) (fingerprint : String) (answer : Except HandshakeError Unit) :
    Keeps C cfg w (w.approve fingerprint answer) := by
  cases answer with
  | error e => exact ⟨rfl, rfl, rfl, rfl, fun _ h => h⟩
  | ok _ => exact ⟨rfl, rfl, rfl, rfl, fun _ h => List.mem_cons_of_mem _ h⟩

theorem Keeps.type (w : World σ) (answer : Except HandshakeError String) :
    Keeps C cfg w (w.type answer) := by
  cases answer with
  | error e => exact ⟨rfl, rfl, rfl, rfl, fun _ h => h⟩
  | ok passphrase =>
      unfold World.type
      cases hpeer : w.input.peer <;> exact ⟨by simp, rfl, rfl, rfl, fun _ h => h⟩

theorem Keeps.receive (w : World σ) (answer : Except HandshakeError Received) :
    Keeps C cfg w (w.receive answer) := by
  unfold World.receive
  split
  · exact .contact w _
  · exact ⟨rfl, rfl, rfl, rfl, fun _ h => h⟩

theorem Keeps.prove (w : World σ) (peer : String × PublicKey)
    (answer : Except HandshakeError PairingProof) : Keeps C cfg w (w.prove peer answer) := by
  cases answer with
  | error e => exact ⟨rfl, rfl, rfl, rfl, fun _ h => h⟩
  | ok _ => exact .contact w _

/-- A connection that is new has seen nothing. -/
theorem Good.connected (h : Good w) : Good { w with contact := {} } :=
  ⟨h.passphrase, h.approved, by simp, by simp, by simp⟩

theorem Good.store (h : Good w) (store : σ) : Good { w with store := store } :=
  ⟨h.passphrase, h.approved, h.proved, h.sent, h.acked⟩

theorem Good.allow (h : Good w) (allowed : Bool) :
    Good { w with contact := { w.contact with allowed := allowed } } :=
  ⟨h.passphrase, h.approved, h.proved, h.sent, h.acked⟩

theorem Good.send (h : Good w) :
    Good { w with contact := { w.contact with sent := w.contact.proved } } :=
  ⟨h.passphrase, h.approved, h.proved, h.proved, h.acked⟩

theorem Good.receive (h : Good w) (answer : Except HandshakeError Received) :
    Good (w.receive answer) := by
  unfold World.receive
  split
  · exact ⟨h.passphrase, h.approved, h.proved, h.sent, h.sent⟩
  · exact h

theorem Good.approve (h : Good w) (fingerprint : String) (answer : Except HandshakeError Unit) :
    Good (w.approve fingerprint answer) := by
  cases answer with
  | error e => exact h
  | ok _ =>
      refine ⟨h.passphrase, fun happroved => ?_, h.proved, h.sent, h.acked⟩
      obtain ⟨id, pk, hpeer, hmem⟩ := h.approved happroved
      exact ⟨id, pk, hpeer, List.mem_cons_of_mem _ hmem⟩

/-- More passphrases that were typed. -/
theorem Good.typed (h : Good w) (entry : String × String × PublicKey) :
    Good { w with typed := entry :: w.typed } where
  passphrase := by
    intro passphrase hpassphrase
    obtain ⟨peer, hpeer, hmem⟩ := h.passphrase passphrase hpassphrase
    exact ⟨peer, hpeer, List.mem_cons_of_mem _ hmem⟩
  approved := h.approved
  proved := by
    intro peer hpeer
    obtain ⟨passphrase, hmem⟩ := h.proved peer hpeer
    exact ⟨passphrase, List.mem_cons_of_mem _ hmem⟩
  sent := by
    intro peer hpeer
    obtain ⟨passphrase, hmem⟩ := h.sent peer hpeer
    exact ⟨passphrase, List.mem_cons_of_mem _ hmem⟩
  acked := by
    intro peer hpeer
    obtain ⟨passphrase, hmem⟩ := h.acked peer hpeer
    exact ⟨passphrase, List.mem_cons_of_mem _ hmem⟩

theorem Good.type (h : Good w) (answer : Except HandshakeError String) : Good (w.type answer) := by
  cases answer with
  | error e => exact h
  | ok passphrase =>
      cases hpeer : w.input.peer with
      | none => simpa [World.type, hpeer] using h
      | some peer => simpa [World.type, hpeer] using h.typed (passphrase, peer)

/-- A call that only looks. -/
theorem spec_look {call : Call} (hsame : ∀ env (w : World σ), (machine C cfg call env w).2 = w)
    (hallowed : ∀ w, Allowed C P B cfg target call w) :
    Spec C P B cfg target (fun w => Good w ∧ I w) (.ask call) fun _ w => Good w ∧ I w := by
  refine Holds.ask (fun _ h => h.1) (fun w _ => hallowed w) fun env w h => ?_
  rw [hsame]
  exact ⟨h.1, h⟩

/-- The same for one that can fail. -/
theorem spec_check {call : Call} {α : Type} {result : call.Answer → Except HandshakeError α}
    (hsame : ∀ env (w : World σ), (machine C cfg call env w).2 = w)
    (hallowed : ∀ w, Good w ∧ I w → Allowed C P B cfg target call w) :
    Spec C P B cfg target (fun w => Good w ∧ I w) (.checked call result)
      fun _ w => Good w ∧ I w := by
  refine Holds.checked (fun _ h => h.1) hallowed fun env w h => ?_
  rw [hsame]
  exact ⟨h.1, fun _ _ => h⟩

theorem spec_loadInput : Spec C P B cfg target (fun w => Good w ∧ I w) Task.loadInput
    fun input w => Good w ∧ I w ∧ input = w.input :=
  Holds.ask (fun _ h => h.1) (fun _ _ => trivial) fun _ _ h => ⟨h.1, h.1, h.2, rfl⟩

theorem spec_loadOptions : Spec C P B cfg target (fun w => Good w ∧ I w) Task.loadOptions
    fun options w => Good w ∧ I w ∧ options = w.options C cfg :=
  Holds.ask (fun _ h => h.1) (fun _ _ => trivial) fun _ _ h => ⟨h.1, h.1, h.2, rfl⟩

theorem spec_storeInput {input : HandshakeInput} {J : World σ → Prop}
    (hnext : ∀ w, Good w ∧ I w → (w.input.peer = none ∨ input.peer = w.input.peer) ∧
      Good { w with input := input } ∧ J { w with input := input }) :
    Spec C P B cfg target (fun w => Good w ∧ I w) (Task.storeInput input) fun _ w => Good w ∧ J w :=
  Holds.ask (fun _ h => h.1) (fun w h => (hnext w h).1)
    fun _ w h => ⟨(hnext w h).2.1, (hnext w h).2⟩

theorem spec_storeOptions {options : PeerOptions} {J : World σ → Prop}
    (hallowed : ∀ w, Good w ∧ I w → Allowed C P B cfg target (.storeOptions options) w)
    (hnext : ∀ w, Good w ∧ I w → J { w with store := C.store cfg.peerConfigId options w.store }) :
    Spec C P B cfg target (fun w => Good w ∧ I w) (Task.storeOptions options)
      fun _ w => Good w ∧ J w :=
  Holds.ask (fun _ h => h.1) hallowed fun _ w h => ⟨h.1.store _, h.1.store _, hnext w h⟩

theorem spec_ofText {α : Type} {result : Except String α} :
    Spec C P B cfg target (fun w => Good w ∧ I w) (Task.ofText result)
      fun a w => Good w ∧ I w ∧ result = .ok a := by
  refine Holds.ofExcept (fun _ h => h.1) fun a w hresult h => ⟨h.1, h.2, ?_⟩
  cases result with
  | error e => cases hresult
  | ok b =>
      obtain rfl : b = a := Except.ok.inj hresult
      rfl

theorem spec_bail {α : Type} {text : String} {Post : α → World σ → Prop} :
    Spec C P B cfg target (fun w => Good w ∧ I w) (Task.bail text) Post := Holds.fail fun _ h => h.1

theorem spec_ensure {c : Bool} {text : String} :
    Spec C P B cfg target (fun w => Good w ∧ I w) (Task.ensure c text)
      fun _ w => Good w ∧ I w ∧ c = true := by
  cases c with
  | false => exact spec_bail
  | true => exact Holds.ret (fun _ h => h.1) fun _ h => ⟨h.1, h.2, rfl⟩

theorem spec_receive (hI : Stable C cfg I) (x : Option (String × PublicKey)) :
    Spec C P B cfg target (fun w => Good w ∧ I w ∧ w.contact.sent = x) Task.receive
      fun received w => Good w ∧ I w ∧ w.contact.sent = x ∧
        (isAck (.ok received) = true → w.contact.acked = x) := by
  refine Holds.checked (fun _ h => h.1) (fun _ _ => trivial) fun env w h => ?_
  obtain ⟨hgood, hi, hsent⟩ := h
  have hkeeps : I (w.receive (env .receive)) := hI w _ (.receive w _) hi
  refine ⟨hgood.receive _, fun received hreceived => ⟨hgood.receive _, hkeeps, ?_, fun hack => ?_⟩⟩
  · simp only [machine, World.receive]
    split <;> exact hsent
  · have hanswer : env .receive = .ok received := hreceived
    simp only [machine, World.receive, hanswer, if_pos hack]
    exact hsent

theorem spec_confirmPeerTrust (hI : Stable C cfg I) (allowed : Bool) (input : HandshakeInput)
    {id fingerprint phrase : String} {direct : Bool} :
    Spec C P B cfg target (fun w => Good w ∧ I w ∧ w.contact.allowed = allowed ∧ w.input = input)
      (Task.confirmPeerTrust id fingerprint phrase direct)
      fun _ w => Good w ∧ I w ∧ w.contact.allowed = allowed ∧ w.input = input ∧
        w.contact.confirmed = some fingerprint ∧ fingerprint ∈ w.approved := by
  refine Holds.checked (fun _ h => h.1) (fun _ _ => trivial) fun env w h => ?_
  obtain ⟨hgood, hi, hallowed, hinput⟩ := h
  refine ⟨hgood.approve _ _, fun _ hanswer => ?_⟩
  have hok : env (.confirmPeerTrust id fingerprint phrase direct) = .ok () := hanswer
  have hi' := hI w _ (.approve w fingerprint (.ok ())) hi
  have hgood' := hgood.approve fingerprint (.ok ())
  simp only [machine, hok]
  exact ⟨hgood', hi', hallowed, hinput, rfl, List.mem_cons_self⟩

theorem spec_allowUnverifiedPeerTrust (hI : Stable C cfg I) :
    Spec C P B cfg target (fun w => Good w ∧ I w) Task.allowUnverifiedPeerTrust
      fun allowed w => Good w ∧ I w ∧ w.contact.allowed = allowed := by
  refine Holds.ask (fun _ h => h.1) (fun _ _ => trivial) fun env w h => ?_
  exact ⟨h.1.allow _, h.1.allow _, hI w _ (.contact w _) h.2, rfl⟩

/-- The user types a passphrase for the identity that the attempts are bound to. -/
theorem spec_requestPairingPassphrase (hI : Stable C cfg I) {id : String} {pk : PublicKey}
    {direct : Bool} (hpeer : ∀ w, I w → w.input.peer = some (id, pk)) :
    Spec C P B cfg target (fun w => Good w ∧ I w) (Task.requestPairingPassphrase id direct)
      fun passphrase w => Good w ∧ I w ∧ (passphrase, id, pk) ∈ w.typed := by
  refine Holds.checked (fun _ h => h.1) (fun w h => ⟨pk, hpeer w h.2⟩) fun env w h => ?_
  have hi := hI w _ (.type w (env (.requestPairingPassphrase id direct))) h.2
  refine ⟨h.1.type _, fun passphrase hanswer => ⟨h.1.type _, hi, ?_⟩⟩
  have hok : env (.requestPairingPassphrase id direct) = .ok passphrase := hanswer
  simp only [machine, hok, World.type, hpeer w h.2]
  exact List.mem_cons_self

/-- A proof is computed for the identity that the attempts are bound to, from a passphrase
that was typed for it. -/
theorem spec_pairingProof (hI : Stable C cfg I) {id passphrase : String}
    {pk boxPk ourPk : PublicKey} {salt : Salt} (hpeer : ∀ w, I w → w.input.peer = some (id, pk)) :
    Spec C P B cfg target (fun w => Good w ∧ I w ∧ (passphrase, id, pk) ∈ w.typed)
      (Task.pairingProof passphrase salt id pk boxPk ourPk)
      fun _ w => Good w ∧ I w ∧ w.contact.proved = some (id, pk) := by
  refine Holds.checked (fun _ h => h.1) (fun w h => ⟨hpeer w h.2.1, h.2.2⟩) fun env w h => ?_
  obtain ⟨hgood, hi, htyped⟩ := h
  have hprove : ∀ answer, Good (w.prove (id, pk) answer) := by
    intro answer
    cases answer with
    | error e => exact hgood
    | ok _ =>
        refine ⟨hgood.passphrase, hgood.approved, fun peer hproved => ?_, hgood.sent, hgood.acked⟩
        obtain rfl : (id, pk) = peer := Option.some.inj hproved
        exact ⟨passphrase, htyped⟩
  refine ⟨hprove _, fun proof hanswer => ⟨hprove _, hI w _ (.prove w _ _) hi, ?_⟩⟩
  have hok : env (.pairingProof passphrase salt id pk boxPk ourPk) = .ok proof := hanswer
  simp only [machine, hok, World.prove]

theorem spec_send (hI : Stable C cfg I) {message : Message}
    {proved : Option (String × PublicKey)} :
    Spec C P B cfg target (fun w => Good w ∧ I w ∧ w.contact.proved = proved) (Task.send message)
      fun _ w => Good w ∧ I w ∧ w.contact.sent = proved := by
  refine Holds.checked (fun _ h => h.1) (fun _ _ => trivial) fun env w h => ?_
  obtain ⟨hgood, hi, hproved⟩ := h
  exact ⟨hgood.send, fun _ _ => ⟨hgood.send, hI w _ (.contact w _) hi, hproved⟩⟩

/-- A connection begins without a contact. -/
theorem spec_connect (hI : Stable C cfg I) {candidate : Bool} :
    Spec C P B cfg target (fun w => Good w ∧ I w) (Task.connect candidate)
      fun _ w => Good w ∧ I w := by
  refine Holds.checked (fun _ h => h.1) (fun _ _ => trivial) fun env w h => ?_
  exact ⟨h.1.connected, fun _ _ => ⟨h.1.connected, hI w _ (.contact w _) h.2⟩⟩

/-! ## Remembered pairings -/

/-- A property that does not depend on the options beside the pin. -/
def StoreStable (C : PeerConfigs σ) (cfg : Config) (I : World σ → Prop) : Prop :=
  ∀ w options, options.pinnedSigningKey = (w.options C cfg).pinnedSigningKey → I w →
    I { w with store := C.store cfg.peerConfigId options w.store }

theorem Stable.storeStable (hI : Stable C cfg I) : StoreStable C cfg I :=
  fun w _ hpinned hi => hI w _ (.store hpinned) hi

/-- What is known of the contact besides. -/
theorem StoreStable.and_contact (hI : StoreStable C cfg I) (p : Contact → Prop) :
    StoreStable C cfg fun w => I w ∧ p w.contact :=
  fun w options hpinned h => ⟨hI w options hpinned h.1, h.2⟩

/-- A confirmation of a scope is refreshed, written or removed; the pin stays. -/
theorem spec_storeConfirmation {J : World σ → Prop} {options : PeerOptions}
    (hI : StoreStable C cfg I)
    (hpinned : ∀ w, J w → options.pinnedSigningKey = (w.options C cfg).pinnedSigningKey)
    (hallowed : ∀ w, I w ∧ J w → ∀ scope, ConfirmationAllowed C P B cfg target w options scope) :
    Spec C P B cfg target (fun w => Good w ∧ I w ∧ J w) (Task.storeOptions options)
      fun _ w => Good w ∧ I w := by
  refine spec_storeOptions ?_ ?_
  · rintro w ⟨-, hij⟩
    exact ⟨.inl (hpinned w hij.2), hallowed w hij⟩
  · rintro w ⟨-, hi, hj⟩
    exact hI w options (hpinned w hj) hi

theorem confirmation_setConfirmation_of_ne {options : PeerOptions} {scope other : PairingScope}
    {value : Option Confirmation} (h : other ≠ scope) :
    (options.setConfirmation scope value).confirmation other = options.confirmation other := by
  cases scope <;> cases other <;> first | rfl | exact absurd rfl h

theorem confirmation_setConfirmation {options : PeerOptions} {scope : PairingScope}
    {value : Option Confirmation} :
    (options.setConfirmation scope value).confirmation scope = value := by
  cases scope <;> rfl

theorem spec_hasConfirmedPairedViewer (hI : StoreStable C cfg I) {scope : PairingScope} :
    Spec C P B cfg target (fun w => Good w ∧ I w) (hasConfirmedPairedViewer scope)
      fun _ w => Good w ∧ I w := by
  refine Holds.bind (spec_look (fun _ _ => rfl) fun _ => trivial) fun now => ?_
  refine Holds.bind spec_loadOptions fun options => ?_
  have hstore : Spec C P B cfg target (fun w => Good w ∧ I w ∧ options = w.options C cfg)
      (if (options.hasConfirmedPairedViewer scope now).2 = options then pure ()
        else Task.storeOptions (options.hasConfirmedPairedViewer scope now).2)
      fun _ w => Good w ∧ I w := by
    refine Holds.ite (fun _ => ?_) fun hchanged => ?_
    · exact Holds.ret (fun _ h => h.1) fun _ h => ⟨h.1, h.2.1⟩
    · refine spec_storeConfirmation hI ?_ ?_
      · rintro w rfl
        exact PeerOptions.hasConfirmedPairedViewer_pinnedSigningKey ..
      · rintro w ⟨-, rfl⟩ other
        -- The options change only where the legacy text is replaced.
        have hlegacy : (w.options C cfg).confirmation scope = some .legacy := by
          by_contra hne
          refine hchanged ?_
          unfold PeerOptions.hasConfirmedPairedViewer
          split
          · rfl
          · rename_i hvalue
            exact absurd hvalue hne
          · rfl
        by_cases hother : other = scope
        · subst hother
          exact .inr (.inr (.inl hlegacy))
        · refine .inl ?_
          rw [PeerOptions.hasConfirmedPairedViewer, hlegacy]
          exact confirmation_setConfirmation_of_ne hother
  refine Holds.bind hstore fun _ => ?_
  exact Holds.ret (fun _ h => h.1) fun _ h => h

theorem spec_setConfirmedPairedViewer (hI : StoreStable C cfg I) {scope : PairingScope}
    {confirmed : Bool} (hconfirmed : confirmed = true → ∀ w, I w → ∃ id pk,
      w.input.peer = some (id, pk) ∧ (w.contact.acked = some (id, pk) ∨
        scope = .direct ∧ Trusted C B cfg w id pk ∧
          ∃ rsPk udp, target = .rendezvous id rsPk udp ∧ ServerVouches P w rsPk id pk)) :
    Spec C P B cfg target (fun w => Good w ∧ I w) (setConfirmedPairedViewer scope confirmed)
      fun _ w => Good w ∧ I w := by
  refine Holds.bind (spec_look (fun _ _ => rfl) fun _ => trivial) fun now => ?_
  refine Holds.bind spec_loadOptions fun options => ?_
  refine spec_storeConfirmation hI ?_ ?_
  · rintro w rfl
    exact PeerOptions.setConfirmedPairedViewer_pinnedSigningKey ..
  · rintro w ⟨hi, rfl⟩ other
    by_cases hother : other = scope
    · subst hother
      cases confirmed with
      | false => exact .inr (.inl confirmation_setConfirmation)
      | true => exact .inr (.inr (.inr (hconfirmed rfl w hi)))
    · exact .inl (confirmation_setConfirmation_of_ne hother)

end RustAdmin.Handshake.Viewer
