import RustAdmin.Support.CountMap

/-!
# Limits for connections that are not yet authenticated

`src/src/quic_transport/admission.rs`.  A connection is pending from its first
packet until its ticket is dropped.  Pending connections are limited globally
and per source, and an unproven source address is admitted only while there is
little load.
-/

namespace RustAdmin.Quic

open RustAdmin.Support

def maxQuicPending : ℕ := 32
def maxQuicPendingPerSource : ℕ := 4

/-- Above this many pending connections, peers must first prove their source
address. -/
def quicRetryThreshold : ℕ := 16

inductive IncomingDecision
  | accept
  | retry
  | refuse
deriving DecidableEq, Repr

def incomingDecision (pending pendingFromSource : ℕ) (addressValidated mayRetry : Bool) :
    IncomingDecision :=
  if maxQuicPending ≤ pending ∨ maxQuicPendingPerSource ≤ pendingFromSource then .refuse
  else if addressValidated = false ∧ (quicRetryThreshold ≤ pending ∨ 0 < pendingFromSource) then
    if mayRetry then .retry else .refuse
  else .accept

/-! ## Sources -/

structure Ipv4Addr where
  octets : Vector UInt8 4
deriving DecidableEq, Repr

structure Ipv6Addr where
  segments : Vector UInt16 8
deriving DecidableEq, Repr

inductive IpAddr
  | v4 (ip : Ipv4Addr)
  | v6 (ip : Ipv6Addr)
deriving DecidableEq, Repr

/-- `Ipv6Addr::to_ipv4_mapped`: the address behind `::ffff:0:0/96`. -/
def Ipv6Addr.toIpv4Mapped (ip : Ipv6Addr) : Option Ipv4Addr :=
  if ip.segments.toList.take 6 = [0, 0, 0, 0, 0, 0xffff] then
    let high := ip.segments[6]
    let low := ip.segments[7]
    some ⟨#v[(high >>> 8).toUInt8, high.toUInt8, (low >>> 8).toUInt8, low.toUInt8]⟩
  else none

/-- `IpAddr::to_canonical`. -/
def IpAddr.toCanonical : IpAddr → IpAddr
  | .v4 ip => .v4 ip
  | .v6 ip =>
      match ip.toIpv4Mapped with
      | some mapped => .v4 mapped
      | none => .v6 ip

/-- IPv4 addresses count individually, IPv6 addresses per /64. -/
def sourceKey (ip : IpAddr) : IpAddr :=
  match ip.toCanonical with
  | .v6 ip => .v6 ⟨ip.segments.mapIdx fun i segment => if i < 4 then segment else 0⟩
  | .v4 ip => .v4 ip

/-! ## Pending connections -/

structure PendingConnections where
  total : ℕ
  perSource : CountMap IpAddr

/-- `PendingTicket`, which counts one pending connection until dropped. -/
structure PendingTicket where
  source : IpAddr
deriving DecidableEq, Repr

inductive Admission
  | admitted (ticket : PendingTicket)
  | retry
  | refuse
deriving DecidableEq, Repr

/-- The state of `HandshakeAdmission::default()`. -/
def PendingConnections.empty : PendingConnections := ⟨0, ∅⟩

/-- `HandshakeAdmission::admit`. -/
def PendingConnections.tryAdmit (s : PendingConnections) (ip : IpAddr)
    (addressValidated mayRetry : Bool) : Admission × PendingConnections :=
  let source := sourceKey ip
  match incomingDecision s.total (s.perSource.get source) addressValidated mayRetry with
  | .accept => (.admitted ⟨source⟩, ⟨s.total + 1, s.perSource.increment source⟩)
  | .retry => (.retry, s)
  | .refuse => (.refuse, s)

/-- `PendingTicket::drop`; `none` where a counter would go below zero. -/
def PendingConnections.drop (s : PendingConnections) (ticket : PendingTicket) :
    Option PendingConnections :=
  (s.perSource.decrement ticket.source).map fun perSource => ⟨s.total - 1, perSource⟩

/-! ## Sharing a source -/

/-- Two addresses of one source: the same IPv4 address, mapped or not, or IPv6
addresses of one /64. -/
def SameSource (ip other : IpAddr) : Prop :=
  match ip.toCanonical, other.toCanonical with
  | .v4 ip, .v4 other => ip = other
  | .v6 ip, .v6 other => ∀ i : Fin 8, i.val < 4 → ip.segments[i] = other.segments[i]
  | _, _ => False

theorem sourceKey_eq_iff (ip other : IpAddr) :
    sourceKey ip = sourceKey other ↔ SameSource ip other := by
  unfold sourceKey SameSource
  cases ip.toCanonical with
  | v4 ip =>
      cases other.toCanonical with
      | v4 other => simp
      | v6 other => simp
  | v6 ip =>
      cases other.toCanonical with
      | v4 other => simp
      | v6 other =>
          simp only [IpAddr.v6.injEq, Ipv6Addr.mk.injEq, Vector.ext_iff, Vector.getElem_mapIdx]
          constructor
          · intro h i hi
            simpa [hi] using h i i.isLt
          · intro h i hi
            by_cases hfront : i < 4
            · simpa [hfront] using h ⟨i, hi⟩ hfront
            · simp [hfront]

instance (ip other : IpAddr) : Decidable (SameSource ip other) :=
  decidable_of_iff _ (sourceKey_eq_iff ip other)

end RustAdmin.Quic
