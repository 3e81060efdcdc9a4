import Loft.Data.Table

namespace Loft

open Loft.Data

/-! Connection admission: a global ceiling and a share for each source. -/

inductive IpAddr
  | v4 (bits : BitVec 32)
  | v6 (bits : BitVec 128)
  deriving DecidableEq, Repr

structure SocketAddr where
  ip : IpAddr
  port : UInt16
  deriving DecidableEq, Repr

/-- `Ipv6Addr::to_ipv4_mapped`: the `::ffff:0:0/96` block. -/
def toIpv4Mapped (bits : BitVec 128) : Option (BitVec 32) :=
  if bits >>> 32 = 0xFFFF then some (bits.setWidth 32) else none

/-- IPv4 counts by address, IPv6 by /64. -/
def bucket : IpAddr → IpAddr
  | .v4 bits => .v4 bits
  | .v6 bits =>
      match toIpv4Mapped bits with
      | some mapped => .v4 mapped
      | none => .v6 (bits &&& (BitVec.allOnes 128 <<< 64))

def maxConnectionsPerIp : Nat := 256

structure ConnPermit where
  ip : IpAddr
  deriving DecidableEq, Repr

structure ConnQuota where
  maxTotal : Nat
  maxPerIp : Nat
  total : Nat
  perIp : Table IpAddr Nat

namespace ConnQuota

def new (maxTotal maxPerIp : Nat) : ConnQuota where
  maxTotal := maxTotal
  maxPerIp := maxPerIp
  total := 0
  perIp := ∅

def isFull (q : ConnQuota) : Bool :=
  q.maxTotal ≤ q.total

def held (q : ConnQuota) (ip : IpAddr) : Nat :=
  (q.perIp.lookup ip).getD 0

def tryAcquire (q : ConnQuota) (ip : IpAddr) : Option (ConnPermit × ConnQuota) :=
  if q.maxTotal ≤ q.total then none
  else if q.maxPerIp ≤ q.held (bucket ip) then none
  else some (⟨bucket ip⟩, {
    q with
    perIp := q.perIp.insert (bucket ip) (q.held (bucket ip) + 1)
    total := q.total + 1 })

/-- `Drop` of a permit. -/
def release (q : ConnQuota) (permit : ConnPermit) : ConnQuota :=
  match q.perIp.lookup permit.ip with
  | none => { q with total := q.total - 1 }
  | some held =>
      { q with
        total := q.total - 1
        perIp :=
          if held - 1 = 0 then q.perIp.erase permit.ip
          else q.perIp.insert permit.ip (held - 1) }

end ConnQuota

end Loft
