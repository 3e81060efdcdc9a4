import Loft.Data.Utf8
import Loft.Handler
import Loft.Psk

namespace Loft.TlsCommon

open Loft.Data
open Loft.Coap
open Loft.Psk (PskEntry PskResolver)

/-! From the identity that a peer names to the session it is served under. The
PSK callbacks of both TLS stacks ask one resolver, which any number of
handshakes share, and leave behind what it answered. -/

inductive Stack
  | openssl
  | mbedtls
  deriving DecidableEq, Repr

/-- Someone at the other end; what keys they hold is up to the world. -/
abbrev Peer := Nat

structure World where
  handler : Handler
  resolver : PskResolver
  knows : Peer → Octets → Bool
  -- The room OpenSSL has for a key.
  pskOutLen : Nat

/-- The (identity, bearer token) pair that a callback stashes. -/
structure Credentials where
  identity : String
  token : String
  deriving DecidableEq, Repr

inductive Phase
  | handshaking
  -- In the PSK callback, waiting for this call of `resolve`.
  | resolving (call : Nat)
  -- The peer's Finished has been verified under the key installed.
  | completed
  | serving (device : DeviceSession)
  | closed
  deriving DecidableEq, Repr

/-- `asked` are the calls of `resolve` that this handshake has made, each with
the identity that the peer sent for it. -/
structure Conn where
  stack : Stack
  peer : Peer
  key : Option Octets
  stash : Option Credentials
  asked : List (Nat × Option Octets)
  phase : Phase
  deriving DecidableEq, Repr

namespace Conn

def new (stack : Stack) (peer : Peer) : Conn where
  stack := stack
  peer := peer
  key := none
  stash := none
  asked := []
  phase := .handshaking

/-- What `Ok(0)` makes of an OpenSSL handshake. -/
def abort (conn : Conn) : Conn :=
  { conn with phase := .closed }

/-- The handshake of an mbedTLS session goes on under a key nobody has, or
under none at all where that could not be installed. -/
def rejectWithDecoyPsk (conn : Conn) (decoy : Option Octets) : Conn :=
  { conn with key := decoy, phase := .handshaking }

def reject (conn : Conn) (decoy : Option Octets) : Conn :=
  match conn.stack with
  | .openssl => conn.abort
  | .mbedtls => conn.rejectWithDecoyPsk decoy

def accept (conn : Conn) (identity : String) (entry : PskEntry) : Conn :=
  { conn with
    key := some (asBytes entry.psk)
    stash := some ⟨identity, entry.token⟩
    phase := .handshaking }

/-- The rest of `psk_callback`, once the identity is resolved. A key of no
length reads as a rejection. -/
def pskCallback (conn : Conn) (pskOutLen : Nat) (identity : String)
    (resolved : Option PskEntry) : Conn :=
  match resolved with
  | none => conn.abort
  | some entry =>
      if pskOutLen < (asBytes entry.psk).length then conn.abort
      else if (asBytes entry.psk).length = 0 then
        (conn.accept identity entry).abort
      else conn.accept identity entry

/-- The rest of `psk_tramp`; `setHsPsk` is whether the key could be
installed. -/
def pskTramp (conn : Conn) (setHsPsk : Bool) (decoy : Option Octets)
    (identity : String) (resolved : Option PskEntry) : Conn :=
  match resolved with
  | none => conn.rejectWithDecoyPsk decoy
  | some entry =>
      if setHsPsk then conn.accept identity entry
      else conn.rejectWithDecoyPsk decoy

def resolved (conn : Conn) (world : World) (setHsPsk : Bool)
    (decoy : Option Octets) (identity : String) (result : Option PskEntry) :
    Conn :=
  match conn.stack with
  | .openssl => conn.pskCallback world.pskOutLen identity result
  | .mbedtls => conn.pskTramp setHsPsk decoy identity result

/-- The identity as the callback reads it: absent, it is a rejection to one
stack and empty to the other. -/
def identity (conn : Conn) (sent : Option Octets) : Option String :=
  match conn.stack with
  | .openssl => sent.bind fromUtf8
  | .mbedtls => fromUtf8 (sent.getD [])

/-- `authenticated_session` or `take_credentials`, and what follows on it. -/
def establish (conn : Conn) (connId : ConnId) : Conn :=
  match conn.stash with
  | none => { conn with phase := .closed }
  | some credentials =>
      { conn with
        stash :=
          match conn.stack with
          | .openssl => conn.stash
          | .mbedtls => none
        phase := .serving {
          pigeonId := credentials.identity
          token := credentials.token
          connId := connId } }

end Conn

/-- `sent` are the requests made upstream, with the connection each is for. -/
structure State where
  resolver : Psk.State
  conns : List Conn
  table : Block1Table
  sent : List (Nat × DeviceRequest)

def init : State where
  resolver := Psk.init
  conns := []
  table := ∅
  sent := []

inductive Action
  | connect (stack : Stack) (peer : Peer)
  -- The pending mbedTLS session is used for another source.
  | reset (c : Nat) (peer : Peer)
  | pskAsked (c : Nat) (sent : Option Octets) (decoy : Option Octets)
  | resolver (action : Psk.Action)
  | resolved (c : Nat) (setHsPsk : Bool) (decoy : Option Octets)
  -- Caught at the boundary to mbedTLS.
  | resolvePanics (c : Nat) (decoy : Option Octets)
  | finished (c : Nat)
  | establish (c : Nat) (connId : ConnId)
  | handle (c : Nat) (now : Instant) (req : Message) (transport : Transport)
      (upstream : DeviceRequest → UpstreamResult)
  | close (c : Nat)

namespace State

def setConn (s : State) (c : Nat) (conn : Conn) : State :=
  { s with conns := s.conns.set c conn }

end State

/-- A decoy is drawn at random, so the peer does not happen to know it. -/
def Unknown (world : World) (peer : Peer) (decoy : Option Octets) : Prop :=
  ∀ key, decoy = some key → world.knows peer key = false

instance (world : World) (peer : Peer) (decoy : Option Octets) :
    Decidable (Unknown world peer decoy) :=
  match decoy with
  | none => isTrue nofun
  | some key => decidable_of_iff (world.knows peer key = false) (by
      simp [Unknown])

def stepConn (world : World) (s : State) (c : Nat) (conn : Conn) :
    Action → Option State
  | .reset _ peer =>
      if conn.stack = .mbedtls ∧ conn.phase = .handshaking then
        some (s.setConn c (.new .mbedtls peer))
      else none
  | .pskAsked _ sent decoy =>
      if conn.phase = .handshaking ∧ Unknown world conn.peer decoy then
        match conn.identity sent with
        | none => some (s.setConn c (conn.reject decoy))
        | some identity =>
            (Psk.step world.resolver s.resolver (.enter identity)).map
              fun resolver =>
                { s.setConn c { conn with
                    asked := conn.asked ++ [(s.resolver.calls.length, sent)]
                    phase := .resolving s.resolver.calls.length } with
                  resolver := resolver }
      else none
  | .resolved _ setHsPsk decoy =>
      match conn.phase with
      | .resolving k =>
          match s.resolver.calls[k]? with
          | some ⟨identity, _, .returned _ result⟩ =>
              if Unknown world conn.peer decoy then
                some (s.setConn c
                  (conn.resolved world setHsPsk decoy identity result))
              else none
          | _ => none
      | _ => none
  | .resolvePanics _ decoy =>
      match conn.phase with
      | .resolving _ =>
          if conn.stack = .mbedtls ∧ Unknown world conn.peer decoy then
            some (s.setConn c (conn.rejectWithDecoyPsk decoy))
          else none
      | _ => none
  | .finished _ =>
      -- no Finished verifies under a key that the peer does not hold
      if conn.phase = .handshaking ∧ conn.key.any (world.knows conn.peer) then
        some (s.setConn c { conn with phase := .completed })
      else none
  | .establish _ connId =>
      if conn.phase = .completed then
        some (s.setConn c (conn.establish connId))
      else none
  | .handle _ now req transport upstream =>
      match conn.phase with
      | .serving device =>
          let (requests, _, table) :=
            world.handler.handle upstream now req device transport s.table
          some { s with
            table := table
            sent := s.sent ++ requests.map fun request => (c, request) }
      | _ => none
  | .close _ => some (s.setConn c { conn with phase := .closed })
  | .connect _ _ | .resolver _ => none

def step (world : World) (s : State) (action : Action) : Option State :=
  match action with
  | .connect stack peer =>
      some { s with conns := s.conns ++ [.new stack peer] }
  | .resolver a =>
      (Psk.step world.resolver s.resolver a).map fun resolver =>
        { s with resolver := resolver }
  | .reset c _ | .pskAsked c _ _ | .resolved c _ _ | .resolvePanics c _
  | .finished c | .establish c _ | .handle c _ _ _ _ | .close c =>
      (s.conns[c]?).bind fun conn => stepConn world s c conn action

end Loft.TlsCommon
