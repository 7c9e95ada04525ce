import Mathlib.Data.List.Destutter
import Mathlib.Data.List.Sort
import Mathlib.Data.String.Basic
import RustAdmin.Support.CrashProgram

/-!
# Changes to the security state of a peer

Removing a peer or its pairing takes several removals in two stores.  The removals are
written to a journal first; whoever comes next finds the journal and completes it, and a
journal that was completed is marked as committed before its file is deleted.
-/

namespace RustAdmin.Security

open RustAdmin.Support

/-! ## The journal -/

def journalVersion : ℕ := 1
def maxMutationIds : ℕ := 4096
def maxMutationIdBytes : ℕ := 1024

inductive PeerSecurityMutationKind
  | resetPairing
  | removePeer
  deriving DecidableEq, Repr

structure PeerSecurityMutationJournal where
  version : ℕ
  committed : Bool
  operation : PeerSecurityMutationKind
  peerConfigId : String
  configIds : List String
  quicPeerIds : List String
  deriving DecidableEq

/-- A record of the store of paired peers, as far as planning reads it. -/
structure TrustedPeerRecord where
  peerId : String
  identityKey : List UInt8
  certificatePin : List UInt8
  deriving DecidableEq

/-- `sort` and `dedup`. -/
def sortDedup (ids : List String) : List String :=
  (ids.insertionSort (· ≤ ·)).destutter (· ≠ ·)

def plannedQuicPeerIds (records : List TrustedPeerRecord) (peerId : String) : List String :=
  match records.find? fun record => record.peerId = peerId with
  | none => []
  | some target =>
      sortDedup ((records.filter fun record =>
        record.identityKey = target.identityKey ∧
          record.certificatePin = target.certificatePin).map (·.peerId))

def peerSecurityConfigIds (peerConfigId : String) (aliases : List String) : List String :=
  sortDedup (peerConfigId :: aliases)

def validId (id : String) : Bool :=
  decide (id ≠ "") && decide (id.utf8ByteSize ≤ maxMutationIdBytes) &&
    decide ('\x00' ∉ id.toList)

def validateIds (ids : List String) : Except String Unit :=
  if maxMutationIds < ids.length then .error "peer-security journal contains too many ids"
  else if ids.all validId && decide ids.Nodup then .ok ()
  else .error "peer-security journal contains an invalid id"

namespace PeerSecurityMutationJournal

variable (journal : PeerSecurityMutationJournal)

def validate : Except String Unit := do
  if journal.version ≠ journalVersion then throw "unsupported peer-security journal version"
  validateIds journal.configIds
  validateIds journal.quicPeerIds
  if !validId journal.peerConfigId || decide (journal.peerConfigId ∉ journal.configIds) then
    throw "invalid peer-security journal peer id"

/-- The journal that `prepare` makes, before it is validated. -/
def plan (records : List TrustedPeerRecord) (peerConfigId : String)
    (operation : PeerSecurityMutationKind) : PeerSecurityMutationJournal :=
  let quicPeerIds := plannedQuicPeerIds records peerConfigId
  { version := journalVersion
    committed := false
    operation
    peerConfigId
    configIds := peerSecurityConfigIds peerConfigId quicPeerIds
    quicPeerIds }

end PeerSecurityMutationJournal

/-! ## The stores -/

/-- The methods of `PeerSecurityMutationBackend`. -/
inductive BackendCall
  | removeQuicIds (ids : List String)
  | clearPairing (peerConfigId : String)
  | removePeerConfig (peerConfigId : String)

def BackendCall.Answer : BackendCall → Type
  | removeQuicIds _ => List String
  | clearPairing _ => Bool
  | removePeerConfig _ => Bool

/-- One removal from one store. -/
inductive Removal
  | quicId (id : String)
  | pairing (peerConfigId : String)
  | peerConfig (peerConfigId : String)
  deriving DecidableEq

def BackendCall.removals : BackendCall → List Removal
  | removeQuicIds ids => ids.map .quicId
  | clearPairing id => [.pairing id]
  | removePeerConfig id => [.peerConfig id]

/-- The removals a journal names. -/
def PeerSecurityMutationJournal.removals (journal : PeerSecurityMutationJournal) : List Removal :=
  journal.quicPeerIds.map .quicId ++ journal.configIds.map .pairing ++
    if journal.operation = .removePeer then [.peerConfig journal.peerConfigId] else []

/-- The two stores, with states `β`.  A fault `φ` decides how a call goes; a call that
fails may have done a part of its removals.  `Removed` says that a removal is done:
after a call that succeeds it is, and no call undoes it. -/
structure PeerSecurityMutationBackend (β φ : Type*) where
  pairedPeers : φ → β → Except String (List TrustedPeerRecord)
  act : (call : BackendCall) → φ → β → Except String call.Answer × β
  Removed : Removal → β → Prop
  removed_act {call : BackendCall} {fault : φ} {b : β} {answer : call.Answer} {r : Removal} :
    (act call fault b).1 = .ok answer → r ∈ call.removals → Removed r (act call fault b).2
  removed_mono {call : BackendCall} {fault : φ} {b : β} {r : Removal} :
    Removed r b → Removed r (act call fault b).2

/-- The `FakeBackend` of the tests: three sets of ids, as lists. -/
structure FakeStores where
  quicIds : List String
  pairedConfigs : List String
  peerConfigs : List String
  deriving DecidableEq

/-- The fault of the fake stores is the id that cannot be cleared. -/
def fakeAct : (call : BackendCall) → Option String → FakeStores →
    Except String call.Answer × FakeStores
  | .removeQuicIds ids, _, b =>
      (.ok (ids.filter (· ∈ b.quicIds)), { b with quicIds := b.quicIds.filter (· ∉ ids) })
  | .clearPairing id, fault, b =>
      if fault = some id then (.error "injected pairing persistence failure", b)
      else (.ok (decide (id ∈ b.pairedConfigs)),
        { b with pairedConfigs := b.pairedConfigs.filter (· ≠ id) })
  | .removePeerConfig id, _, b =>
      (.ok (decide (id ∈ b.peerConfigs)), { b with peerConfigs := b.peerConfigs.filter (· ≠ id) })

def FakeStores.Removed : Removal → FakeStores → Prop
  | .quicId id, b => id ∉ b.quicIds
  | .pairing id, b => id ∉ b.pairedConfigs
  | .peerConfig id, b => id ∉ b.peerConfigs

def fakeBackend : PeerSecurityMutationBackend FakeStores (Option String) where
  pairedPeers _ b := .ok (b.quicIds.map fun id => ⟨id, [], []⟩)
  act := fakeAct
  Removed := FakeStores.Removed
  removed_act := by
    intro call fault b answer r hok hr
    cases call with
    | removeQuicIds ids =>
        obtain ⟨id, hid, rfl⟩ := List.mem_map.mp hr
        simp [fakeAct, FakeStores.Removed, hid]
    | clearPairing id =>
        obtain rfl := List.mem_singleton.mp hr
        simp only [fakeAct] at hok ⊢
        split at hok
        · cases hok
        · rename_i hfault
          simp [FakeStores.Removed, hfault]
    | removePeerConfig id =>
        obtain rfl := List.mem_singleton.mp hr
        simp [fakeAct, FakeStores.Removed]
  removed_mono := by
    intro call fault b r hr
    cases call with
    | removeQuicIds ids =>
        cases r with
        | quicId id => exact fun hid => hr (List.mem_filter.mp hid).1
        | pairing id => exact hr
        | peerConfig id => exact hr
    | clearPairing cleared =>
        simp only [fakeAct]
        split
        · exact hr
        · cases r with
          | quicId id => exact hr
          | pairing id => exact fun hid => hr (List.mem_filter.mp hid).1
          | peerConfig id => exact hr
    | removePeerConfig removed =>
        cases r with
        | quicId id => exact hr
        | pairing id => exact hr
        | peerConfig id => exact fun hid => hr (List.mem_filter.mp hid).1

/-! ## The machine -/

/-- The calls of a mutation: those on the journal file and those on the stores. -/
inductive Call
  | loadJournal
  | persistJournal (journal : PeerSecurityMutationJournal)
  | cleanupJournal
  | pairedPeers
  | backend (call : BackendCall)

def Call.Answer : Call → Type
  | loadJournal => Except String (Option PeerSecurityMutationJournal)
  | persistJournal _ => Except String Unit
  | cleanupJournal => Unit
  | pairedPeers => Except String (List TrustedPeerRecord)
  | backend call => Except String call.Answer

/-- How one step goes: whether the file operation reports an error, whether it takes
effect nevertheless, and the fault of the stores. -/
structure Fault (φ : Type*) where
  error : Option String
  takesEffect : Bool
  backend : φ

/-- The journal file and the stores.  The last two fields are not in the code: the
number of mutations prepared so far, and the numbers of those that were committed. -/
structure Disk (β : Type*) where
  journal : Option PeerSecurityMutationJournal
  backend : β
  prepared : ℕ
  committed : List ℕ

variable {β φ : Type*}

namespace Disk

def write (d : Disk β) (journal : PeerSecurityMutationJournal) : Disk β :=
  if journal.committed then
    { d with journal := some journal, committed := d.prepared :: d.committed }
  else { d with journal := some journal, prepared := d.prepared + 1 }

/-- A file operation either takes effect or does nothing; one without an error does. -/
def attempt (d after : Disk β) (fault : Fault φ) : Disk β :=
  if fault.error.isNone || fault.takesEffect then after else d

end Disk

def answerOf {α : Type} (fault : Fault φ) (a : α) : Except String α :=
  match fault.error with
  | none => .ok a
  | some e => .error e

def machine (B : PeerSecurityMutationBackend β φ) :
    (call : Call) → Fault φ → Disk β → call.Answer × Disk β
  | .loadJournal, fault, d => (answerOf fault d.journal, d)
  | .persistJournal journal, fault, d => (answerOf fault (), d.attempt (d.write journal) fault)
  | .cleanupJournal, fault, d => ((), d.attempt { d with journal := none } fault)
  | .pairedPeers, fault, d => (B.pairedPeers fault.backend d.backend, d)
  | .backend call, fault, d =>
      let acted := B.act call fault.backend d.backend
      (acted.1, { d with backend := acted.2 })

/-! ## The programs -/

abbrev Task (α : Type) := Program Call Call.Answer String α

namespace Task

def persistJournal (journal : PeerSecurityMutationJournal) : Task Unit :=
  .call (.persistJournal journal) fun answer => .ofExcept answer

/-- A failed deletion is logged only. -/
def cleanupJournal : Task Unit := .call .cleanupJournal fun _ => pure ()

def pairedPeers : Task (List TrustedPeerRecord) :=
  .call .pairedPeers fun answer => .ofExcept answer

def backend (call : BackendCall) : Task call.Answer :=
  .call (.backend call) fun answer => .ofExcept answer

def loadJournal : Task (Option PeerSecurityMutationJournal) :=
  .call .loadJournal fun
    | .error e => .fail e
    | .ok none => pure none
    | .ok (some journal) => do
        let _ ← Program.ofExcept journal.validate
        pure (some journal)

end Task

structure PeerSecurityMutationResult where
  clearedPeerConfigIds : List String := []
  removedQuicPeerIds : List String := []
  removedPeerConfig : Bool := false

def applyJournal (journal : PeerSecurityMutationJournal) : Task PeerSecurityMutationResult := do
  let removedQuicPeerIds ← Task.backend (.removeQuicIds journal.quicPeerIds)
  let clearedPeerConfigIds ←
    Program.filterIn (fun id => Task.backend (.clearPairing id)) journal.configIds
  let removedPeerConfig ←
    (if journal.operation = .removePeer then
      Task.backend (.removePeerConfig journal.peerConfigId)
    else pure false)
  pure { clearedPeerConfigIds, removedQuicPeerIds, removedPeerConfig }

def completeJournal (journal : PeerSecurityMutationJournal) : Task PeerSecurityMutationResult :=
  if journal.committed then do
    Task.cleanupJournal
    pure {}
  else do
    let result ← applyJournal journal
    Task.persistJournal { journal with committed := true }
    Task.cleanupJournal
    pure result

def recoverPending : Task PeerSecurityMutationResult := do
  match ← Task.loadJournal with
  | some journal => completeJournal journal
  | none => pure {}

def prepare (peerConfigId : String) (operation : PeerSecurityMutationKind) :
    Task PeerSecurityMutationJournal := do
  let records ← Task.pairedPeers
  let journal := PeerSecurityMutationJournal.plan records peerConfigId operation
  let _ ← Program.ofExcept journal.validate
  pure journal

def mutate (peerConfigId : String) (operation : PeerSecurityMutationKind) :
    Task PeerSecurityMutationResult := do
  let _ ← recoverPending
  let journal ← prepare peerConfigId operation
  Task.persistJournal journal
  completeJournal journal

/-- What the repository is asked for, under its lock. -/
inductive Request
  | mutate (peerConfigId : String) (operation : PeerSecurityMutationKind)
  | recover

def Request.task : Request → Task PeerSecurityMutationResult
  | .mutate peerConfigId operation => Security.mutate peerConfigId operation
  | .recover => recoverPending

end RustAdmin.Security
