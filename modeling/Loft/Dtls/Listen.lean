import Loft.Dtls.Backing
import Loft.Dtls.DgramIo
import Loft.Listen

namespace Loft.Dtls

open Loft.Data

/-! The cookie exchange on the OpenSSL listener: one pending stream that every
unverified source is funneled through, and the two cookie callbacks. `mac` is
the HMAC under the key of the process. -/

def octets : Nat → Nat → Octets
  | 0, _ => []
  | n + 1, bits =>
      UInt8.ofNat (bits / 256 ^ n) :: octets n (bits % 256 ^ n)

/-- Address and port as the cookie covers them; the families differ in
length. -/
def cookieMaterial (peer : SocketAddr) : Octets :=
  (match peer.ip with
    | .v4 bits => octets 4 bits.toNat
    | .v6 bits => octets 16 bits.toNat) ++
  Octets.be16 peer.port.toNat

abbrev Mac := Octets → Option Octets

def generateCookie (mac : Mac) (peer : SocketAddr) : Option Octets :=
  mac (cookieMaterial peer)

def verifyCookie (mac : Mac) (peer : SocketAddr) (cookie : Octets) : Bool :=
  match generateCookie mac peer with
  | some expected => cookie == expected
  | none => false

/-- `peer` is where the stream sends, and `exPeer` what the callbacks see. -/
structure PendingListen where
  io : DgramIo
  peer : SocketAddr
  exPeer : Option SocketAddr
  deriving DecidableEq, Repr

namespace PendingListen

def new : PendingListen where
  io := { rx := [], deadline := none }
  peer := ⟨.v4 0, 0⟩
  exPeer := none

def stamp (pl : PendingListen) (peer : SocketAddr) : PendingListen :=
  { pl with peer := peer, exPeer := some peer }

def trySend (pl : PendingListen) (dgram : Octets) : Option PendingListen :=
  if pl.io.rx.length < connChannelDepth then
    some { pl with io := { pl.io with rx := pl.io.rx ++ [dgram] } }
  else none

/-- The generate callback, with room for `room` bytes. -/
def generate (mac : Mac) (pl : PendingListen) (room : Nat) : Option Octets :=
  (pl.exPeer.bind (generateCookie mac)).filter fun cookie =>
    decide (cookie.length ≤ room)

def verify (mac : Mac) (pl : PendingListen) (cookie : Octets) : Bool :=
  pl.exPeer.any fun peer => verifyCookie mac peer cookie

end PendingListen

/-! `DTLSv1_listen` is a parameter: what it may do next, from what has happened
in the call so far. -/

inductive ListenEvent
  | read (dgram : Option Octets)
  | generated (cookie : Option Octets)
  | verified (cookie : Octets) (ok : Bool)
  | wrote (dgram : Octets)
  deriving DecidableEq, Repr

inductive ListenMove
  | read (cap : Nat)
  | generate (room : Nat)
  | verify (cookie : Octets)
  | write (dgram : Octets)
  | answer (outcome : ListenOutcome)
  deriving DecidableEq, Repr

abbrev ListenLibrary := List ListenEvent → ListenMove → Bool

inductive ListenPhase
  -- Nothing under way but what the demux does by itself.
  | idle
  | unknown (peer : SocketAddr) (dgram : Octets)
  | listening (peer : SocketAddr) (events : List ListenEvent)
  deriving DecidableEq, Repr

/-- `sent` is what the listener thread has sent, and where to. -/
structure Exchange where
  demux : State
  pending : Option PendingListen
  phase : ListenPhase
  sent : List (SocketAddr × Octets)

namespace Exchange

inductive Action
  | recvFrom (source : SocketAddr) (dgram : Octets)
  -- Whether a pending stream could be set up, if there was none.
  | begin (created : Bool)
  | call (move : ListenMove)
  | demux (a : Dtls.Action)
  deriving DecidableEq, Repr

def init (quota : ConnQuota) : Exchange where
  demux := Dtls.init quota
  pending := none
  phase := .idle
  sent := []

/-- The demux goes on as `dtlsv1_listen` tells it. -/
def conclude (s : Exchange) (outcome : ListenOutcome) : Option Exchange :=
  (Dtls.step s.demux (.listen outcome)).map fun demux =>
    { s with demux := demux, phase := .idle }

def begin (s : Exchange) (peer : SocketAddr) (dgram : Octets)
    (created : Bool) : Option Exchange :=
  if s.demux.quota.isFull then s.conclude .retry
  else
    let fresh := if created then some PendingListen.new else none
    match s.pending.or fresh with
    | none => s.conclude .retry
    | some pl =>
        match (pl.stamp peer).trySend dgram with
        | none => { s with pending := none }.conclude .failed
        | some pl =>
            some { s with pending := some pl, phase := .listening peer [] }

def callback (mac : Mac) (s : Exchange) (peer : SocketAddr)
    (events : List ListenEvent) (pl : PendingListen) :
    ListenMove → Option Exchange
  | .read cap =>
      let (_, delivered, io) := pl.io.read 0 true cap
      some { s with
        pending := some { pl with io := io }
        phase := .listening peer (events ++ [.read delivered]) }
  | .generate room =>
      some { s with
        phase := .listening peer
          (events ++ [.generated (pl.generate mac room)]) }
  | .verify cookie =>
      some { s with
        phase := .listening peer
          (events ++ [.verified cookie (pl.verify mac cookie)]) }
  | .write dgram =>
      some { s with
        sent := s.sent ++ [(pl.peer, dgram)]
        phase := .listening peer (events ++ [.wrote dgram]) }
  | .answer .retry => s.conclude .retry
  -- The stream goes to the connection.
  | .answer .accepted => { s with pending := none }.conclude .accepted
  | .answer .failed => { s with pending := none }.conclude .failed

def step (lib : ListenLibrary) (mac : Mac) (s : Exchange) :
    Action → Option Exchange
  | .recvFrom source dgram =>
      match s.phase with
      | .idle =>
          let peer := canonicalPeer source
          (Dtls.step s.demux (.recvFrom peer dgram)).map fun demux =>
            { s with
              demux := demux
              phase :=
                if demux.listener = .unknown peer then .unknown peer dgram
                else .idle }
      | _ => none
  | .begin created =>
      match s.phase with
      | .unknown peer dgram => s.begin peer dgram created
      | _ => none
  | .call move =>
      match s.phase, s.pending with
      | .listening peer events, some pl =>
          if lib events move then s.callback mac peer events pl move else none
      | _, _ => none
  | .demux a =>
      match a with
      | .recvFrom _ _ | .listen _ => none
      | a => (Dtls.step s.demux a).map fun demux => { s with demux := demux }

end Exchange

/-! Different sources have different cookie material. -/

theorem length_octets (n bits : Nat) : (octets n bits).length = n := by
  induction n generalizing bits with
  | zero => rfl
  | succ n ih => rw [octets, List.length_cons, ih]

theorem octets_injective {n bits bits' : Nat} (hbits : bits < 256 ^ n)
    (hbits' : bits' < 256 ^ n) (h : octets n bits = octets n bits') :
    bits = bits' := by
  induction n generalizing bits bits' with
  | zero => omega
  | succ n ih =>
      rw [octets, octets, List.cons.injEq] at h
      have hpos : 0 < 256 ^ n := Nat.pow_pos (by decide)
      have hhigh : bits / 256 ^ n < 256 :=
        Nat.div_lt_of_lt_mul (by rwa [Nat.pow_succ] at hbits)
      have hhigh' : bits' / 256 ^ n < 256 :=
        Nat.div_lt_of_lt_mul (by rwa [Nat.pow_succ] at hbits')
      have hlow := ih (Nat.mod_lt _ hpos) (Nat.mod_lt _ hpos) h.2
      have htop : bits / 256 ^ n = bits' / 256 ^ n := by
        have hsame := congrArg UInt8.toNat h.1
        rwa [UInt8.toNat_ofNat_of_lt' hhigh, UInt8.toNat_ofNat_of_lt' hhigh']
          at hsame
      rw [← Nat.div_add_mod bits (256 ^ n), htop, hlow, Nat.div_add_mod]

theorem length_cookieMaterial (peer : SocketAddr) :
    (cookieMaterial peer).length =
      match peer.ip with
      | .v4 _ => 6
      | .v6 _ => 18 := by
  unfold cookieMaterial
  cases peer.ip <;> simp [length_octets]

theorem cookieMaterial_injective {a b : SocketAddr}
    (h : cookieMaterial a = cookieMaterial b) : a = b := by
  have hlength := congrArg List.length h
  obtain ⟨ip, port⟩ := a
  obtain ⟨ip', port'⟩ := b
  rw [length_cookieMaterial, length_cookieMaterial] at hlength
  cases ip with
  | v4 bits =>
      cases ip' with
      | v4 bits' =>
          obtain ⟨hip, hport⟩ := List.append_inj h (by simp [length_octets])
          have hbits := BitVec.eq_of_toNat_eq
            (octets_injective bits.isLt bits'.isLt hip)
          rw [hbits, UInt16.toNat_inj.mp (Octets.be16_injective
            port.toNat_lt port'.toNat_lt hport)]
      | v6 bits' => simp at hlength
  | v6 bits =>
      cases ip' with
      | v4 bits' => simp at hlength
      | v6 bits' =>
          obtain ⟨hip, hport⟩ := List.append_inj h (by simp [length_octets])
          have hbits := BitVec.eq_of_toNat_eq
            (octets_injective bits.isLt bits'.isLt hip)
          rw [hbits, UInt16.toNat_inj.mp (Octets.be16_injective
            port.toNat_lt port'.toNat_lt hport)]

end Loft.Dtls
