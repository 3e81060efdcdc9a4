import Loft.Data.Octets
import Loft.Data.Transition
import Loft.Quota

namespace Loft.Dtls

open Loft.Data

/-! The demux of the OpenSSL listener. The listener thread and the connection
threads share the connection map and the quota; each action is one critical
section, or one step that shares nothing. -/

def connChannelDepth : Nat := 32

abbrev ConnId := Nat

/-- How far a connection thread has come. Its stream, and with it the receiver
of its channel, exists while it is `serving`. -/
inductive Phase
  | serving
  -- `connection_thread` has returned; the map is not locked yet.
  | returned
  -- Past the map removal, or unwinding past it; the permit is still held.
  | detached
  | finished
  deriving DecidableEq, Repr

structure Conn where
  peer : SocketAddr
  permit : ConnPermit
  phase : Phase
  queue : List Octets
  deriving DecidableEq, Repr

inductive ListenOutcome
  | retry
  | accepted
  | failed
  deriving DecidableEq, Repr

/-- Where the listener stands with the datagram at hand. -/
inductive Listener
  | receiving
  | unknown (peer : SocketAddr)
  | accepted (peer : SocketAddr)
  | admitted (peer : SocketAddr) (permit : ConnPermit)
  deriving DecidableEq, Repr

/-- `conns` holds for each address the connection at the other end of the
sender; connections are numbered as they are promoted. -/
structure State where
  listener : Listener
  conns : Table SocketAddr ConnId
  quota : ConnQuota
  threads : List Conn

def init (quota : ConnQuota) : State where
  listener := .receiving
  conns := ∅
  quota := quota
  threads := []

inductive Action
  | recvFrom (peer : SocketAddr) (dgram : Octets)
  | listen (outcome : ListenOutcome)
  | tryAcquire
  | promote (spawned : Bool)
  | read (c : ConnId)
  | returns (c : ConnId)
  | panics (c : ConnId)
  | remove (c : ConnId)
  | release (c : ConnId)
  deriving DecidableEq, Repr

namespace State

def setConn (s : State) (c : ConnId) (conn : Conn) : State :=
  { s with threads := s.threads.set c conn }

/-- The map section of `listen_loop`: queued, dropped on a full channel, or
an unknown source, which a dead channel's is again. -/
def route (s : State) (peer : SocketAddr) (dgram : Octets) : State :=
  match s.conns.lookup peer with
  | none => { s with listener := .unknown peer }
  | some c =>
      match s.threads[c]? with
      | none => { s with listener := .unknown peer }
      | some conn =>
          if conn.phase = .serving then
            if conn.queue.length < connChannelDepth then
              s.setConn c { conn with queue := conn.queue ++ [dgram] }
            else s
          else { s with
            listener := .unknown peer
            conns := s.conns.erase peer }

/-- `promote_connection` inserts and spawns under one lock. -/
def promote (s : State) (peer : SocketAddr) (permit : ConnPermit)
    (spawned : Bool) : State :=
  if spawned then
    { s with
      listener := .receiving
      conns := s.conns.insert peer s.threads.length
      threads := s.threads ++
        [{ peer := peer, permit := permit, phase := .serving, queue := [] }] }
  else
    { s with
      listener := .receiving
      conns := (s.conns.insert peer s.threads.length).erase peer
      quota := s.quota.release permit }

end State

def stepThread (s : State) (c : ConnId) (phase : Phase)
    (next : Conn → State) : Option State :=
  match s.threads[c]? with
  | none => none
  | some conn => if conn.phase = phase then some (next conn) else none

def step (s : State) : Action → Option State
  | .recvFrom peer dgram =>
      match s.listener with
      | .receiving => some (s.route peer dgram)
      | _ => none
  | .listen outcome =>
      match s.listener with
      | .unknown peer =>
          if s.quota.isFull = false ∧ outcome = .accepted then
            some { s with listener := .accepted peer }
          else some { s with listener := .receiving }
      | _ => none
  | .tryAcquire =>
      match s.listener with
      | .accepted peer =>
          match s.quota.tryAcquire peer.ip with
          | none => some { s with listener := .receiving }
          | some (permit, quota) =>
              some { s with listener := .admitted peer permit, quota := quota }
      | _ => none
  | .promote spawned =>
      match s.listener with
      | .admitted peer permit => some (s.promote peer permit spawned)
      | _ => none
  | .read c => stepThread s c .serving fun conn =>
      s.setConn c { conn with queue := conn.queue.tail }
  | .returns c => stepThread s c .serving fun conn =>
      s.setConn c { conn with phase := .returned, queue := [] }
  | .panics c => stepThread s c .serving fun conn =>
      s.setConn c { conn with phase := .detached, queue := [] }
  | .remove c => stepThread s c .returned fun conn =>
      { s.setConn c { conn with phase := .detached } with
        conns := s.conns.erase conn.peer }
  | .release c => stepThread s c .detached fun conn =>
      { s.setConn c { conn with phase := .finished } with
        quota := s.quota.release conn.permit }

end Loft.Dtls
