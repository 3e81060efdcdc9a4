import Loft.Quota

namespace Loft

/-! A peer as the listeners key and count it. -/

/-- `IpAddr::to_canonical`. -/
def toCanonical : IpAddr → IpAddr
  | .v4 bits => .v4 bits
  | .v6 bits =>
      match toIpv4Mapped bits with
      | some mapped => .v4 mapped
      | none => .v6 bits

/-- An IPv4 source seen through a dual-stack socket is the IPv4 peer. -/
def canonicalPeer (peer : SocketAddr) : SocketAddr :=
  { peer with ip := toCanonical peer.ip }

/-- One host has one share, whichever family observed it. -/
theorem bucket_toCanonical (ip : IpAddr) :
    bucket (toCanonical ip) = bucket ip := by
  cases ip with
  | v4 bits => rfl
  | v6 bits =>
      cases hmapped : toIpv4Mapped bits with
      | none => simp only [toCanonical, hmapped]
      | some mapped => simp only [toCanonical, bucket, hmapped]

end Loft
