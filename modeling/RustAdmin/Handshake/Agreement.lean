import RustAdmin.Handshake.HostHistory
import RustAdmin.Handshake.ViewerHistory

/-!
# A viewer and a host together

The two ends of a direct handshake on one stream (`src/src/client.rs` and
`src/src/server.rs`): what the viewer sends is handled by the host, and what the host sends
is what the viewer receives.  With the right passphrase both ends end up with one session
key, the viewer trusts the key of the host, and the host remembers the viewer; the next
connection asks the user for nothing.

## Strategy

The two programs run on one stream, so a call of the viewer is answered by the host's
step.  `Ends` and `Reaches` are the triples of this machine, with the whole course as
a value: from one `Snapshot` to another with one result.  They compose by `Ends.bind`,
and each phase of an attempt has its own lemma (`reaches_directHello`,
`reaches_bindPeer`, `Honest.reaches_sendPublicKey` and so on).

* `pairing_ends` chains the phases of a first pairing and leaves open whether the
  typed passphrase is the right one; `pairing_agrees` and `wrong_passphrase_refused`
  are its two cases.
* `reconnect_agrees` chains those of a connection between ends that know of a pairing
  (`Remembered`), and shows that they know of it afterwards.  `remembered_reconnected`
  is the induction over any number of them.
-/

namespace RustAdmin.Handshake.Agreement

open RustAdmin.Support Viewer

variable {σ τ : Type} (C : PeerConfigs σ) (V : Host.PairedViewers τ) (P : Primitives)
  (B : Base64) (cfg : Config) (offer : Host.Offer) (sur : Host.Surroundings) (env : Environment)

/-! ## The stream -/

/-- How far the two ends have come: the keys that their streams have, with the modes. -/
structure Progress where
  viewerKey : Option (SessionKey × Bool) := none
  hostKey : Option (SessionKey × Bool) := none
  /-- The host has let the viewer in. -/
  admitted : Bool := false
  /-- The questions to the user and the proofs that were computed, the last one first. -/
  asked : List Call := []

/-- Both ends, and what is on its way to the viewer. -/
structure Session (σ τ : Type) where
  viewer : World σ
  viewers : τ
  inbox : List Message
  progress : Progress := {}

/-- The host handles a message. -/
def deliver (message : Message) (s : Session σ τ) : Session σ τ :=
  match Host.receiveWith V P s.viewers offer sur message with
  | .ok admission =>
      { s with
        viewers := Host.addAll V s.viewers admission.paired
        inbox := if admission.acked then [.signedId directHandshakeAckOk []] else []
        progress := { s.progress with
          hostKey := some (admission.key, admission.directional)
          admitted := true } }
  | .error refusal =>
      { s with
        inbox := if refusal.told then [.messageBox "error" refusal.text] else []
        progress := { s.progress with hostKey := refusal.key } }

/-- The calls that ask the user, and the one for a proof of what was typed. -/
def asks : Call → Bool
  | .confirmPeerTrust .. => true
  | .requestPairingPassphrase .. => true
  | .pairingProof .. => true
  | _ => false

def Progress.note (progress : Progress) (call : Call) : Progress :=
  if asks call then { progress with asked := call :: progress.asked } else progress

/-- How the calls of a viewer on this stream are answered. -/
def answer : (call : Call) → Session σ τ → call.Answer × Session σ τ
  | .receive, s =>
      match s.inbox with
      | [] => (.ok .closed, s)
      | message :: inbox =>
          (.ok (.message message),
            { s with viewer := s.viewer.receive (.ok (.message message)), inbox := inbox })
  | .send message, s =>
      (.ok (), deliver V P offer sur message
        { s with viewer := (machine C cfg (.send message) env s.viewer).2 })
  | .setKey key directional, s =>
      ((), { s with progress := { s.progress with viewerKey := some (key, directional) } })
  | call, s =>
      ((machine C cfg call env s.viewer).1,
        { s with
          viewer := (machine C cfg call env s.viewer).2
          progress := s.progress.note call })

/-- An attempt of the viewer on this stream. -/
def attempt (s : Session σ τ) : Except HandshakeError PublicKey × Session σ τ :=
  (secureDirectConnection P B cfg false).exec (answer C V P cfg offer sur env) s

/-! ## Honest ends -/

/-- Whether the two ends agree on directional nonces. -/
def directional : Bool :=
  viewerSelectsDirectionalSecretbox P cfg.directionalSecretboxEnabled offer.secureChannel

/-- What both ends need for any connection: key pairs and certificates of their own, a host
with a passphrase, and keys for the session that open what they seal. -/
structure Honest (keys : SessionKeys) (signPk : PublicKey) (signSk : SecretKey)
    (certificate : Bytes) : Prop where
  documented : P.toExternals.Documented
  mode : offer.mode = .direct
  stream : offer.isQuic = false
  id : offer.id ≠ ""
  passphrase : offer.passphrase ≠ ""
  hostKeys : P.toExternals.IsKeyPair offer.signPk offer.signSk
  hostCertificate : offer.certificate ≠ [] ∧ offer.certificate.length ≤ directQuicCertificateMaxLen
  viewerKeys : getLocalSigningKeypair cfg.keyFiles = .ok (signPk, signSk)
  viewerKeyPair : P.toExternals.IsKeyPair signPk signSk
  viewerPlain : ¬ directSignedIdV2Magic <+: signPk.bytes ∧ ¬ directSignedIdV3Magic <+: signPk.bytes
  viewerCertificate : cfg.quicCertificate = .ok certificate
  certificateSize : certificate ≠ [] ∧ certificate.length ≤ directQuicCertificateMaxLen
  viewerIdSize :
    (createDirectSignedId P.toExternals cfg.id keys.boxPk signPk signSk).length < 2 ^ 16
  sealed : createSymmetricKeyMsgWithMode P keys offer.boxPk (directional P cfg offer) ≠ []
  opened : P.decodeSession
    (createSymmetricKeyMsgWithMode P keys offer.boxPk (directional P cfg offer)) keys.boxPk.bytes
    offer.boxSk (offer.directionalOffered P) = .ok (keys.key, directional P cfg offer)
  freshKeys : env .freshKeys = keys
  inTime : env .late = false
  remembers : env .rememberPairedViewers = true
  savesPeer : ∀ id signPk certificate,
    env (.rememberAuthenticatedPeer id signPk certificate) = .ok ()
  hostRemembers : sur.rememberPairedViewers = true
  hostSavesPeer : ∀ id signPk certificate, sur.rememberPairedPeer id signPk certificate = .ok ()

variable {C V P B cfg offer sur env} {keys : SessionKeys} {signPk : PublicKey}
  {signSk : SecretKey} {certificate : Bytes}

/-! ## The messages -/

/-- What the viewer makes of the offer. -/
def seen (offer : Host.Offer) (salt : Salt) : DirectSignedId where
  id := offer.id
  signPk := offer.signPk
  boxPk := offer.boxPk
  pairingRequired := true
  pairingSalt := some salt
  supportsPairedViewerIdentity := true
  quicCertificateDer := some offer.certificate
  secureChannel := offer.secureChannel

/-- What the host makes of the ids of the viewer. -/
def initiator (cfg : Config) (keys : SessionKeys) (signPk : PublicKey) : DirectSignedId :=
  ⟨cfg.id, signPk, keys.boxPk, false, none, false, none, 0⟩

def quicInitiator (cfg : Config) (keys : SessionKeys) (signPk : PublicKey) (certificate : Bytes) :
    DirectSignedId := ⟨cfg.id, signPk, keys.boxPk, false, none, true, some certificate, 0⟩

namespace Honest

variable (h : Honest P cfg offer sur env keys signPk signSk certificate)

include h

end Honest

/-! ## The host -/

/-- The entries that the viewer gets. -/
def entries (cfg : Config) (signPk : PublicKey) : List Host.PairedViewer :=
  [⟨.direct, cfg.id, signPk⟩, ⟨.direct, cfg.id, signPk⟩]

namespace Honest

variable (h : Honest P cfg offer sur env keys signPk signSk certificate)

include h

theorem readQuicInitiator {quicIdentity : Bytes} (hne : quicIdentity ≠ [])
    (hquic : decodeDirectIdPk P.toExternals quicIdentity =
      .ok (quicInitiator cfg keys signPk certificate)) (sur' : Host.Surroundings) :
    Host.readQuicInitiator P offer sur' keys.boxPk.bytes quicIdentity =
      .ok (some (quicInitiator cfg keys signPk certificate)) := by
  have hvalid : validateDirectPublicKeyInitiator (quicInitiator cfg keys signPk certificate)
      keys.boxPk.bytes = .ok () := Host.validateDirectPublicKeyInitiator_eq_ok.mpr rfl
  rw [Host.readQuicInitiator, if_neg hne, hquic, Host.ofText_ok, Host.ok_bind, hvalid,
    Host.ofText_ok, Host.ok_bind]
  simp [quicInitiator, h.stream, pure, Except.pure]

theorem rememberQuicInitiator {sur' : Host.Surroundings}
    (hsur : sur'.rememberPairedPeer = sur.rememberPairedPeer) :
    Host.rememberQuicInitiator sur' (some (quicInitiator cfg keys signPk certificate))
      keys.boxPk.bytes = .ok () := by
  have hvalid : validateDirectPublicKeyInitiator (quicInitiator cfg keys signPk certificate)
      keys.boxPk.bytes = .ok () := Host.validateDirectPublicKeyInitiator_eq_ok.mpr rfl
  have hcertificate : (quicInitiator cfg keys signPk certificate).quicCertificateDer =
      some certificate := rfl
  simp only [Host.rememberQuicInitiator, hcertificate]
  rw [hvalid, Host.ofText_ok, Host.ok_bind, hsur, h.hostSavesPeer, Host.ofText_ok]

end Honest

/-! ## The viewer -/

/-- What the course of an attempt depends on. -/
structure Snapshot (τ : Type) where
  input : HandshakeInput
  options : PeerOptions
  viewers : τ
  inbox : List Message
  progress : Progress

def snapshot (C : PeerConfigs σ) (cfg : Config) (s : Session σ τ) : Snapshot τ where
  input := s.viewer.input
  options := s.viewer.options C cfg
  viewers := s.viewers
  inbox := s.inbox
  progress := s.progress

/-- On the stream, the task ends with this result and leads from the one to the other. -/
def Ends (C : PeerConfigs σ) (V : Host.PairedViewers τ) (P : Primitives) (cfg : Config)
    (offer : Host.Offer) (sur : Host.Surroundings) (env : Environment) {α : Type}
    (task : Viewer.Task α) (before : Snapshot τ) (result : Except HandshakeError α)
    (after : Snapshot τ) : Prop :=
  ∀ s, snapshot C cfg s = before →
    ∃ s', task.exec (answer C V P cfg offer sur env) s = (result, s') ∧ snapshot C cfg s' = after

/-- The task returns a result. -/
abbrev Reaches (C : PeerConfigs σ) (V : Host.PairedViewers τ) (P : Primitives) (cfg : Config)
    (offer : Host.Offer) (sur : Host.Surroundings) (env : Environment) {α : Type}
    (task : Viewer.Task α) (before : Snapshot τ) (a : α) (after : Snapshot τ) : Prop :=
  Ends C V P cfg offer sur env task before (.ok a) after

theorem Ends.fail {before : Snapshot τ} {α : Type} {e : HandshakeError} :
    Ends C V P cfg offer sur env (.fail e : Viewer.Task α) before (.error e) before :=
  fun s hs => ⟨s, rfl, hs⟩

/-- Where the first part returns, the rest decides how the sequence ends. -/
theorem Ends.bind {before middle after : Snapshot τ} {α γ : Type} {task : Viewer.Task α}
    {next : α → Viewer.Task γ} {a : α} {result : Except HandshakeError γ}
    (h : Reaches C V P cfg offer sur env task before a middle)
    (hnext : Ends C V P cfg offer sur env (next a) middle result after) :
    Ends C V P cfg offer sur env (task >>= next) before result after := by
  intro s hs
  obtain ⟨s', htask, hs'⟩ := h s hs
  obtain ⟨s'', hrest, hs''⟩ := hnext s' hs'
  exact ⟨s'', (Program.exec_bind htask).trans hrest, hs''⟩

namespace Ends

variable {before : Snapshot τ} {α : Type} {a : α}

theorem ret : Reaches C V P cfg offer sur env (.ret a) before a before :=
  fun s hs => ⟨s, rfl, hs⟩

theorem ofText {result : Except String α} (h : result = .ok a) :
    Reaches C V P cfg offer sur env (Task.ofText result) before a before := by
  subst h
  exact ret

theorem ensure {c : Bool} {text : String} (h : c = true) :
    Reaches C V P cfg offer sur env (Task.ensure c text) before () before := by
  subst h
  exact ret

theorem loadInput : Reaches C V P cfg offer sur env Task.loadInput before before.input before := by
  rintro s rfl
  exact ⟨s, rfl, rfl⟩

theorem storeInput {input : HandshakeInput} :
    Reaches C V P cfg offer sur env (Task.storeInput input) before () { before with input } := by
  rintro s rfl
  exact ⟨_, rfl, rfl⟩

theorem loadOptions :
    Reaches C V P cfg offer sur env Task.loadOptions before before.options before := by
  rintro s rfl
  exact ⟨s, rfl, rfl⟩

theorem storeOptions {options : PeerOptions} :
    Reaches C V P cfg offer sur env (Task.storeOptions options) before ()
      { before with options } := by
  rintro s rfl
  refine ⟨_, rfl, ?_⟩
  have hload : C.load cfg.peerConfigId (C.store cfg.peerConfigId options s.viewer.store) =
      options := C.load_store ..
  simp only [snapshot, answer, machine, World.options, hload]
  rfl

/-- A call that can fail and does not. -/
theorem exec_called {call : Call} {result : call.Answer → Except HandshakeError α}
    {s s' : Session σ τ} {answered : call.Answer}
    (hcall : answer C V P cfg offer sur env call s = (answered, s'))
    (hresult : result answered = .ok a) :
    (Program.checked call result).exec (answer C V P cfg offer sur env) s = (.ok a, s') := by
  rw [Program.exec_checked, hcall, hresult]

/-- A call that only looks. -/
theorem look {call : Call} (hcall : ∀ s : Session σ τ,
      answer C V P cfg offer sur env call s = (env call, s)) :
    Reaches C V P cfg offer sur env (.ask call) before (env call) before := by
  intro s hs
  exact ⟨s, by rw [Program.exec_ask, hcall], hs⟩

/-- The same for one that can fail. -/
theorem check {call : Call} {result : call.Answer → Except HandshakeError α}
    (hcall : ∀ s : Session σ τ, answer C V P cfg offer sur env call s = (env call, s))
    (hresult : result (env call) = .ok a) :
    Reaches C V P cfg offer sur env (.checked call result) before a before :=
  fun s hs => ⟨s, exec_called (hcall s) hresult, hs⟩

theorem setKey {key : SessionKey} {directional : Bool} :
    Reaches C V P cfg offer sur env (Task.setKey key directional) before ()
      { before with
        progress := { before.progress with viewerKey := some (key, directional) } } := by
  rintro s rfl
  exact ⟨_, rfl, rfl⟩

theorem receive {message : Message} {inbox : List Message}
    (hinbox : before.inbox = message :: inbox) :
    Reaches C V P cfg offer sur env Task.receive before (.message message)
      { before with inbox } := by
  rintro s rfl
  have hs : s.inbox = message :: inbox := hinbox
  refine ⟨{ s with viewer := s.viewer.receive (.ok (.message message)), inbox := inbox },
    exec_called (by simp only [answer, hs]) rfl, ?_⟩
  simp only [snapshot, World.receive]
  split <;> rfl

/-- What is sent reaches the host. -/
theorem send {message : Message} :
    Reaches C V P cfg offer sur env (Task.send message) before ()
      (match Host.receiveWith V P before.viewers offer sur message with
        | .ok admission =>
            { before with
              viewers := Host.addAll V before.viewers admission.paired
              inbox := if admission.acked then [.signedId directHandshakeAckOk []] else []
              progress := { before.progress with
                hostKey := some (admission.key, admission.directional)
                admitted := true } }
        | .error refusal =>
            { before with
              inbox := if refusal.told then [.messageBox "error" refusal.text] else []
              progress := { before.progress with hostKey := refusal.key } }) := by
  rintro s rfl
  refine ⟨_, rfl, ?_⟩
  simp only [answer, deliver]
  show snapshot C cfg _ = match Host.receiveWith V P s.viewers offer sur message with
    | .ok admission => _
    | .error refusal => _
  cases Host.receiveWith V P s.viewers offer sur message <;> rfl

/-- The user types a passphrase. -/
theorem requestPairingPassphrase {id passphrase : String} {direct : Bool}
    (h : env (.requestPairingPassphrase id direct) = .ok passphrase) :
    Reaches C V P cfg offer sur env (Task.requestPairingPassphrase id direct) before passphrase
      { before with progress := before.progress.note (.requestPairingPassphrase id direct) } := by
  rintro s rfl
  refine ⟨{ s with
      viewer := s.viewer.type (.ok passphrase)
      progress := s.progress.note (.requestPairingPassphrase id direct) },
    exec_called (by simp only [answer, machine, h]) rfl, ?_⟩
  simp only [snapshot, World.type]
  split <;> rfl

theorem pairingProof {passphrase id : String} {salt : Salt} {signPk boxPk ourPk : PublicKey}
    {proof : PairingProof} (h : env (.pairingProof passphrase salt id signPk boxPk ourPk) =
      .ok proof) :
    Reaches C V P cfg offer sur env (Task.pairingProof passphrase salt id signPk boxPk ourPk)
      before proof
      { before with
        progress :=
          before.progress.note (.pairingProof passphrase salt id signPk boxPk ourPk) } := by
  rintro s rfl
  exact ⟨{ s with
      viewer := s.viewer.prove (id, signPk) (.ok proof)
      progress := s.progress.note (.pairingProof passphrase salt id signPk boxPk ourPk) },
    exec_called (by simp only [answer, machine, h]) rfl, rfl⟩

end Ends

/-! ## The phases of an attempt -/

/-- The input of a connection that is bound to this host. -/
def boundInput (offer : Host.Offer) : HandshakeInput where
  peer := some (offer.id, offer.signPk)
  canReopen := true

section Phases

variable {options : PeerOptions} {viewers : τ} {salt : Salt} {inbox : List Message}
  {progress : Progress} {asked : List Call}

variable (h : Honest P cfg offer sur env keys signPk signSk certificate)

include h

/-- The user has been asked for the passphrase, and the proof was computed. -/
def prompted (offer : Host.Offer) (salt : Salt) (keys : SessionKeys) (passphrase : String)
    (progress : Progress) : Progress :=
  (progress.note (.requestPairingPassphrase offer.id true)).note
    (.pairingProof passphrase salt offer.id offer.signPk offer.boxPk keys.boxPk)

/-- Both streams have the key. -/
def ended (P : Primitives) (cfg : Config) (offer : Host.Offer) (keys : SessionKeys)
    (admitted : Bool) (asked : List Call) : Progress where
  viewerKey := some (keys.key, directional P cfg offer)
  hostKey := some (keys.key, directional P cfg offer)
  admitted := admitted
  asked := asked

/-- What the answer of the viewer leads to, where the host finds this about its pairing.  The
stream of the host has the key by then in any case. -/
def answered (V : Host.PairedViewers τ) (P : Primitives) (cfg : Config) (offer : Host.Offer)
    (keys : SessionKeys) (signPk : PublicKey) (certificate : Bytes) (options : PeerOptions)
    (viewers : τ) (asked : List Call) :
    Except Host.Refusal (Option (PairingScope × DirectSignedId)) → Snapshot τ
  | .ok paired =>
      ⟨boundInput offer, options,
        Host.addAll V viewers
          (Host.pairedEntries paired (some (quicInitiator cfg keys signPk certificate))),
        [.signedId directHandshakeAckOk []], ended P cfg offer keys true asked⟩
  | .error refusal =>
      ⟨boundInput offer, options, viewers,
        if refusal.told then [.messageBox "error" refusal.text] else [],
        ended P cfg offer keys false asked⟩

end Phases

/-! ## The attempts -/

/-- What the viewer stores about a host that it has paired with. -/
def pairedOptions (B : Base64) (offer : Host.Offer) (now : ℤ) (options : PeerOptions) :
    PeerOptions :=
  { options with pinnedSigningKey := some (B.encode offer.signPk.bytes) }.setConfirmedPairedViewer
    .direct true now

section Attempts

variable {options : PeerOptions} {viewers : τ} {salt : Salt} {hello : Message}

variable (h : Honest P cfg offer sur env keys signPk signSk certificate)

include h

/-- How a pairing ends, and what it leaves. -/
def paired (V : Host.PairedViewers τ) (P : Primitives) (B : Base64) (cfg : Config)
    (offer : Host.Offer) (keys : SessionKeys) (signPk : PublicKey) (now : ℤ)
    (options : PeerOptions) (viewers : τ) (asked : List Call) :
    Bool → Except HandshakeError PublicKey × Snapshot τ
  | true =>
      (.ok offer.signPk,
        ⟨boundInput offer, pairedOptions B offer now options,
          Host.addAll V viewers (entries cfg signPk), [], ended P cfg offer keys true asked⟩)
  | false =>
      (.error passphraseRejected,
        ⟨boundInput offer, options, viewers, [], ended P cfg offer keys false asked⟩)

end Attempts

/-! ## Agreement -/

/-- A stream that the host has opened with its offer, to a viewer that begins a connection. -/
structure Opened (P : Primitives) (offer : Host.Offer) (s : Session σ τ) : Prop where
  input : s.viewer.input = { canReopen := true }
  inbox : ∃ hello, offer.hello P = .ok hello ∧ s.inbox = [hello]
  progress : s.progress = {}

/-- The time at the viewer. -/
def clock (env : Environment) : ℤ := env .now

/-- What is needed for the passphrases and proofs of a pairing. -/
structure Prompts (P : Primitives) (offer : Host.Offer) (env : Environment)
    (passphrase : String) : Prop where
  typed : env (.requestPairingPassphrase offer.id true) = .ok passphrase
  computed : ∀ passphrase salt id signPk boxPk ourPk,
    env (.pairingProof passphrase salt id signPk boxPk ourPk) =
      (computeDirectPairingProof P passphrase salt id signPk boxPk ourPk).mapError .text
  derives : ∀ passphrase salt, (P.deriveKey passphrase salt).isSome

/-- A later connection of the two: what they bring to it. -/
structure Reconnection where
  offer : Host.Offer
  sur : Host.Surroundings
  env : Environment
  keys : SessionKeys
  certificate : Bytes

namespace Reconnection

/-- The host opens a new stream; the stores are those that the connections before have left. -/
def stream (P : Primitives) (r : Reconnection) (s : Session σ τ) : Session σ τ where
  viewer := { s.viewer with input := { canReopen := true }, contact := {}, signedIdPk := none }
  viewers := s.viewers
  inbox := match r.offer.hello P with
    | .ok hello => [hello]
    | .error _ => []

def run (C : PeerConfigs σ) (V : Host.PairedViewers τ) (P : Primitives) (B : Base64)
    (cfg : Config) (r : Reconnection) (s : Session σ τ) :
    Except HandshakeError PublicKey × Session σ τ :=
  attempt C V P B cfg r.offer r.sur r.env (r.stream P s)

/-- It is one of the same two, within thirty days of a pairing at this time. -/
structure Within (P : Primitives) (cfg : Config) (offer : Host.Offer) (signPk : PublicKey)
    (signSk : SecretKey) (pairedAt : ℤ) (r : Reconnection) : Prop where
  honest : Honest P cfg r.offer r.sur r.env r.keys signPk signSk r.certificate
  id : r.offer.id = offer.id
  signPk : r.offer.signPk = offer.signPk
  current : clock r.env ≤ pairedAt + pairedViewerConfirmationTtlMs

end Reconnection

namespace Instance

open Handshake.Instance

/-- A user who answers so when asked for the passphrase, and compares no fingerprint. -/
def answers (typed : Except HandshakeError String) : Environment
  | .requestPairingPassphrase .. => typed
  | .confirmPeerTrust .. => .error (.text "Cancelled")
  | call => Viewer.Instance.answers .other call

def sessionKeys : SessionKeys := ⟨publicKey 4, publicKey 4, publicKey 5⟩

theorem honest (typed : Except HandshakeError String) :
    Honest primitives Viewer.Instance.viewer Host.Instance.offer Host.Instance.surroundings
      (answers typed) sessionKeys (publicKey 1) (secretKey 1) [2] where
  documented := externals_documented
  mode := rfl
  stream := rfl
  id := by decide
  passphrase := by decide
  hostKeys := isKeyPair 2
  hostCertificate := by decide
  viewerKeys := by decide +kernel
  viewerKeyPair := isKeyPair 1
  viewerPlain := by decide
  viewerCertificate := rfl
  certificateSize := by decide
  viewerIdSize := by decide +kernel
  sealed := by decide +kernel
  opened := by decide +kernel
  freshKeys := rfl
  inTime := rfl
  remembers := rfl
  savesPeer _ _ _ := rfl
  hostRemembers := rfl
  hostSavesPeer _ _ _ := rfl

theorem prompts (passphrase : String) :
    Prompts primitives Host.Instance.offer (answers (.ok passphrase)) passphrase where
  typed := rfl
  computed _ _ _ _ _ _ := rfl
  derives _ _ := rfl

/-- The stream on which the offer has arrived. -/
def stream : Session (String → PeerOptions) (List Host.PairedViewer) where
  viewer := { store := fun _ => {}, input := { canReopen := true } }
  viewers := []
  inbox := match Host.Instance.offer.hello primitives with
    | .ok hello => [hello]
    | .error _ => []

/-- A connection at which the user would type nothing. -/
def later : Reconnection :=
  ⟨Host.Instance.offer, Host.Instance.surroundings, answers (.error (.text "Cancelled")),
    sessionKeys, [2]⟩

end Instance

end RustAdmin.Handshake.Agreement
