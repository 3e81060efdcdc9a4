import Loft.Data.Transition
import Loft.Handler
import Loft.MbedtlsShim

namespace Loft.DtlsMbed

open Loft.Data
open Loft.MbedtlsShim

/-! The mbedTLS listener: one listener thread that demultiplexes datagrams by
source address and by Connection ID, and one thread for each promoted session.
Every action is one critical section, one library callback, or one step that
shares nothing, so that any interleaving is a list of actions. -/

def connChannelDepth : Nat := 32
def idleDeadline : Nat := secs 300
def cidLen : Nat := 8

abbrev Cid := Vector UInt8 cidLen
abbrev Conn := Nat

def contentTypeCid : UInt8 := 25
def contentTypeHandshake : UInt8 := 22

/-- The server CID of a well-formed tls12_cid record. -/
def cidOf (dgram : Octets) : Option Cid :=
  if 21 ≤ dgram.length ∧ dgram[1]? = some 0xFE ∧ dgram[2]? = some 0xFD then
    some (Vector.ofFn fun i => dgram.getD (11 + i.val) 0)
  else none

/-- A plaintext (epoch-0) handshake record. -/
def isPlaintextHandshake (dgram : Octets) : Bool :=
  decide (5 ≤ dgram.length) && dgram[0]? == some contentTypeHandshake &&
    dgram[3]? == some 0 && dgram[4]? == some 0

structure Env where
  lib : Library
  cidIdle : Nat
  handshakeDeadline : Nat

/-! The transport of one session. -/

structure ConnState where
  queue : List Delivery
  committedPeer : SocketAddr
  stagedPeer : SocketAddr
  -- Fed directly while the session is the listener's pending one.
  pending : Option Delivery
  deadline : Option Instant
  deriving DecidableEq, Repr

namespace ConnState

def takeMigration (io : ConnState) : ConnState :=
  if io.stagedPeer ≠ io.committedPeer then
    { io with committedPeer := io.stagedPeer }
  else io

/-- Copies one datagram into a buffer of `cap` bytes, or drops it whole. -/
def deliver (io : ConnState) (cap : Nat) (delivery : Delivery) :
    RecvOutcome × Option Delivery × ConnState :=
  if cap < delivery.1.length then (.wantRead, none, io)
  else
    (.data delivery.1.length, some delivery,
      { io with stagedPeer := delivery.2 })

/-- `senders` tells whether any sender of the channel is left, and `expired`
what the timer says once the park budget has run out. -/
def recv (io : ConnState) (now : Instant) (senders : Bool) (cap : Nat)
    (expired : Bool) : RecvOutcome × Option Delivery × ConnState :=
  if io.deadline.any fun deadline => decide (deadline ≤ now) then
    (.failed, none, io)
  else
    match io.pending with
    | some fed => { io with pending := none }.deliver cap fed
    | none =>
        match io.queue with
        | delivery :: rest => { io with queue := rest }.deliver cap delivery
        | [] =>
            if senders then
              (if expired then .timerExpired else .wantRead, none, io)
            else (.closed, none, io)

end ConnState

/-! One promoted session and its thread. -/

inductive Pc
  -- In the maps, the thread not running yet.
  | unstarted
  | handshaking
  | inHandshake
  -- `handshake` has returned `Done`.
  | completed
  -- The `established` flag is set.
  | announced
  -- At the head of the serving loop.
  | serving
  | inRead
  -- In the `Data(n)` arm, with `last_activity` refreshed.
  | answered (n : Nat)
  -- `session_thread` is over and the receiver dropped.
  | returned
  | addrRemoved
  | cidRemoved
  | finished
  deriving DecidableEq, Repr

namespace Pc

def live : Pc → Bool
  | .returned | .addrRemoved | .cidRemoved | .finished => false
  | _ => true

def inCall : Pc → Bool
  | .inHandshake | .inRead => true
  | _ => false

end Pc

/-- `peer`, `cid` and the permit are what the session was promoted with. -/
structure Session where
  peer : SocketAddr
  cid : Cid
  permit : Option ConnPermit
  established : Bool
  cidActive : Bool
  addrRouted : Bool
  started : Instant
  lastActivity : Instant
  io : ConnState
  pc : Pc
  transcript : Transcript
  deriving DecidableEq, Repr

namespace Session

def idle (sess : Session) (env : Env) : Nat :=
  if sess.cidActive then env.cidIdle else idleDeadline

def drop (sess : Session) : Session :=
  { sess with pc := .returned, io := { sess.io with queue := [] } }

def log (sess : Session) (event : LibEvent) : Session :=
  { sess with transcript := sess.transcript ++ [event] }

end Session

/-- Steps of a session thread that touch nothing but the session. -/
inductive LocalAction
  | callHandshake
  | callRead
  | recv (cap : Nat) (expired : Bool)
  | answer (rc : Int)
  | establish (negotiated credentials : Bool)
  | conclude (written : Bool)
  | panics
  deriving DecidableEq, Repr

namespace Session

def handshakeReturns (env : Env) (now : Instant) (sess : Session) (rc : Int) :
    Session :=
  match handshakeStatus rc with
  | .done => { sess with
      pc := .completed, io := { sess.io with deadline := none } }
  | .wantRead | .wantWrite =>
      if env.handshakeDeadline < now.durationSince sess.started then sess.drop
      else { sess with pc := .handshaking }
  | .helloVerifyRequired | .failed _ => sess.drop

def readReturns (env : Env) (now : Instant) (sess : Session) (rc : Int) :
    Session :=
  match readStatus rc with
  | .data n => { sess with pc := .answered n, lastActivity := now }
  | .wantRead | .wantWrite =>
      if sess.idle env < now.durationSince sess.lastActivity then sess.drop
      else { sess with pc := .serving }
  | .peerClosed | .failed _ => sess.drop

/-- Only a session with a CID follows its peer. -/
def migrate (sess : Session) : Session :=
  if sess.cidActive then { sess with io := sess.io.takeMigration } else sess

/-- The rest of the `Data(n)` arm, once the address route is settled. A record
without a reply counts as `written`. -/
def conclude (sess : Session) (n : Nat) (written : Bool) : Session :=
  if n = 0 then { sess.migrate with pc := .serving }
  else if written then { sess.migrate.log (.replied true) with pc := .serving }
  else (sess.migrate.log (.replied false)).drop

def localStep (env : Env) (now : Instant) (senders : Bool) (sess : Session) :
    LocalAction → Option Session
  | .callHandshake =>
      if sess.pc = .handshaking then
        some { sess.log .handshakeCalled with pc := .inHandshake }
      else none
  | .callRead =>
      if sess.pc = .serving then
        some { sess.log .readCalled with pc := .inRead }
      else none
  | .recv cap expired =>
      if sess.pc.inCall ∧ env.lib sess.transcript .askTransport then
        let (outcome, delivered, io) := sess.io.recv now senders cap expired
        some ({ sess with io := io }.log
          (.received (recvTramp outcome) delivered))
      else none
  | .answer rc =>
      if env.lib sess.transcript (.answer rc) then
        match sess.pc with
        | .inHandshake =>
            some ((sess.log (.returned rc now)).handshakeReturns env now rc)
        | .inRead => some ((sess.log (.returned rc now)).readReturns env now rc)
        | _ => none
      else none
  | .establish negotiated credentials =>
      if sess.pc = .completed then
        some (if credentials then
          { sess with
            pc := .announced, established := true, cidActive := negotiated }
          else sess.drop)
      else none
  | .conclude written =>
      match sess.pc with
      | .answered n =>
          if sess.cidActive ∧ sess.addrRouted then none
          else some (sess.conclude n written)
      | _ => none
  | .panics =>
      if sess.pc.live ∧ sess.pc ≠ .unstarted then some sess.drop else none

end Session

/-! The whole listener. -/

/-- Where the listener stands with the datagram at hand. `own` records whether
a cookie check of the pending session has succeeded in this attempt. -/
inductive Listener
  | receiving
  | unrouted (peer : SocketAddr) (dgram : Octets)
  | minted (peer : SocketAddr) (dgram : Octets) (cid : Cid)
  | stepping (peer : SocketAddr) (dgram : Octets) (cid : Cid) (own : Bool)
  | stepped (peer : SocketAddr) (dgram : Octets) (cid : Cid) (own : Bool)
  | taken (peer : SocketAddr) (dgram : Octets) (cid : Cid) (own : Bool)
  | admitted (peer : SocketAddr) (dgram : Octets) (cid : Cid)
      (permit : ConnPermit)
  | spawning (c : Conn)
  -- The spawn failed; the listener takes the entries out itself.
  | despawning (c : Conn)
  deriving DecidableEq, Repr

/-- A call of `promote`, and whether the attempt it ends has verified a cookie
of its own. -/
structure Promotion where
  peer : SocketAddr
  own : Bool
  deriving DecidableEq, Repr

/-- A session handle is named by its `conn_id`: the two maps hold the handle of
one session, and with it a sender of that session's channel. -/
structure State where
  listener : Listener
  byAddr : Table SocketAddr Conn
  byCid : Table Cid Conn
  sessions : Table Conn Session
  nextConnId : Conn
  quota : ConnQuota
  cookie : CookieState
  now : Instant
  promotions : List Promotion

def init (quota : ConnQuota) : State where
  listener := .receiving
  byAddr := ∅
  byCid := ∅
  sessions := ∅
  nextConnId := 1
  quota := quota
  cookie := {}
  now := 0
  promotions := []

inductive ListenerAction
  | recvFrom (peer : SocketAddr) (dgram : Octets)
  -- The pending session is set up for this datagram, with a fresh CID.
  | begin (cid : Cid)
  -- A full table, or a set-up step that failed.
  | abandon
  | clearCookieVerified
  | cookieCheck (rc : Int)
  | handshakeReturns (rc : Int)
  | takeCookieVerified
  | tryAcquire
  | insertHandles
  | spawn (spawned : Bool)
  | despawned
  deriving DecidableEq, Repr

inductive SharedAction
  | cookieCheck (rc : Int)
  | startServing
  | releaseAddr
  | removeAddr
  | removeCid
  | dropPermit
  deriving DecidableEq, Repr

inductive Action
  | listener (a : ListenerAction)
  | thread (c : Conn) (a : LocalAction)
  | shared (c : Conn) (a : SharedAction)
  | tick (elapsed : Nat)
  -- Another listener of the process draws a connection id.
  | nextConnId
  deriving DecidableEq, Repr

namespace State

def session (s : State) (c : Conn) : Option Session :=
  s.sessions.lookup c

def setSession (s : State) (c : Conn) (sess : Session) : State :=
  { s with sessions := s.sessions.insert c sess }

def hasSender (s : State) (c : Conn) : Bool :=
  (s.byAddr.entries.any fun entry => entry.2 == c) ||
    s.byCid.entries.any fun entry => entry.2 == c

def removeByAddrIfMine (s : State) (peer : SocketAddr) (c : Conn) : State :=
  { s with
    byAddr :=
      if s.byAddr.lookup peer = some c then s.byAddr.erase peer
      else s.byAddr }

def removeByCidIfMine (s : State) (cid : Cid) (c : Conn) : State :=
  { s with
    byCid :=
      if s.byCid.lookup cid = some c then s.byCid.erase cid else s.byCid }

/-- A session without CID gives up its route by CID before it serves. -/
def withdrawCid (s : State) (sess : Session) (c : Conn) : State :=
  { s with
    byCid :=
      if sess.cidActive then s.byCid
      else (s.removeByCidIfMine sess.cid c).byCid }

/-- `try_send` on the channel of `c`; `none` where it is disconnected. -/
def trySend (s : State) (c : Conn) (delivery : Delivery) : Option State :=
  match s.session c with
  | none => none
  | some sess =>
      if sess.pc.live then
        if sess.io.queue.length < connChannelDepth then
          some (s.setSession c { sess with
            io := { sess.io with queue := sess.io.queue ++ [delivery] } })
        else some s
      else none

def established (s : State) (c : Conn) : Bool :=
  (s.session c).any Session.established

/-- Route 1: content type 25, by CID only. -/
def routeByCid (s : State) (peer : SocketAddr) (dgram : Octets) : State :=
  match cidOf dgram with
  | none => s
  | some cid =>
      match s.byCid.lookup cid with
      | none => s
      | some c =>
          match s.trySend c (dgram, peer) with
          | some s' => s'
          | none => { s with byCid := s.byCid.erase cid }

/-- Route 2: everything else, by source address. -/
def routeByAddr (s : State) (peer : SocketAddr) (dgram : Octets) : State :=
  match s.byAddr.lookup peer with
  | none => { s with listener := .unrouted peer dgram }
  | some c =>
      -- a reused source address has to earn a new session
      if isPlaintextHandshake dgram && s.established c then
        { s with listener := .unrouted peer dgram }
      else
        match s.trySend c (dgram, peer) with
        | some s' => s'
        | none => { s with
            listener := .unrouted peer dgram
            byAddr := s.byAddr.erase peer }

def route (s : State) (peer : SocketAddr) (dgram : Octets) : State :=
  if dgram[0]? = some contentTypeCid then s.routeByCid peer dgram
  else s.routeByAddr peer dgram

/-- The session as `promote` puts it together: `f_recv_timeout` has delivered
the ClientHello to it already. -/
def promoted (env : Env) (now : Instant) (peer : SocketAddr) (dgram : Octets)
    (cid : Cid) (permit : ConnPermit) : Session where
  peer := peer
  cid := cid
  permit := some permit
  established := false
  cidActive := false
  addrRouted := true
  started := now
  lastActivity := now
  io := {
    queue := []
    committedPeer := peer
    stagedPeer := peer
    pending := none
    deadline := some (now + env.handshakeDeadline) }
  pc := .unstarted
  transcript := [.handshakeCalled,
    .received (recvTramp (.data dgram.length)) (some (dgram, peer))]

def insertHandles (env : Env) (s : State) (peer : SocketAddr) (dgram : Octets)
    (cid : Cid) (permit : ConnPermit) : State :=
  { s with
    listener := .spawning s.nextConnId
    byAddr := s.byAddr.insert peer s.nextConnId
    byCid := s.byCid.insert cid s.nextConnId
    sessions := s.sessions.insert s.nextConnId
      (promoted env s.now peer dgram cid permit)
    nextConnId := s.nextConnId + 1 }

/-- The closure runs on its own thread, or is dropped with all it holds. -/
def spawn (s : State) (c : Conn) (sess : Session) (spawned : Bool) : State :=
  if spawned then
    { s.setSession c { sess with pc := .handshaking, started := s.now } with
      listener := .receiving }
  else
    { s.setSession c { sess.drop with permit := none } with
      listener := .despawning c
      quota :=
        match sess.permit with
        | some permit => s.quota.release permit
        | none => s.quota }

end State

def listenerStep (env : Env) (s : State) : ListenerAction → Option State
  | .recvFrom peer dgram =>
      match s.listener with
      | .receiving => some (s.route peer dgram)
      | _ => none
  | .begin cid =>
      match s.listener with
      | .unrouted peer dgram =>
          if s.quota.isFull = false ∧ cid ∉ s.byCid then
            some { s with listener := .minted peer dgram cid }
          else none
      | _ => none
  | .abandon =>
      match s.listener with
      | .unrouted _ _ | .minted _ _ _ => some { s with listener := .receiving }
      | _ => none
  | .clearCookieVerified =>
      match s.listener with
      | .minted peer dgram cid =>
          some { s with
            listener := .stepping peer dgram cid false
            cookie := s.cookie.clearCookieVerified }
      | _ => none
  | .cookieCheck rc =>
      match s.listener with
      | .stepping peer dgram cid own =>
          some { s with
            listener := .stepping peer dgram cid (own || rc == 0)
            cookie := s.cookie.cookieCheckTramp rc }
      | _ => none
  | .handshakeReturns rc =>
      match s.listener with
      | .stepping peer dgram cid own =>
          match handshakeStatus rc with
          | .wantRead | .wantWrite =>
              some { s with listener := .stepped peer dgram cid own }
          | _ => some { s with listener := .receiving }
      | _ => none
  | .takeCookieVerified =>
      match s.listener with
      | .stepped peer dgram cid own =>
          let (verified, cookie) := s.cookie.takeCookieVerified
          some { s with
            listener :=
              if verified then .taken peer dgram cid own
              else .receiving
            cookie := cookie }
      | _ => none
  | .tryAcquire =>
      match s.listener with
      | .taken peer dgram cid own =>
          match s.quota.tryAcquire peer.ip with
          | none => some { s with listener := .receiving }
          | some (permit, quota) =>
              some { s with
                listener := .admitted peer dgram cid permit
                quota := quota
                promotions := s.promotions ++ [⟨peer, own⟩] }
      | _ => none
  | .insertHandles =>
      match s.listener with
      | .admitted peer dgram cid permit =>
          some (s.insertHandles env peer dgram cid permit)
      | _ => none
  | .spawn spawned =>
      match s.listener with
      | .spawning c => (s.session c).map fun sess => s.spawn c sess spawned
      | _ => none
  | .despawned =>
      match s.listener with
      | .despawning c =>
          if (s.session c).any fun sess =>
              sess.pc = .cidRemoved || sess.pc = .finished then
            some { s with listener := .receiving }
          else none
      | _ => none

def sharedStep (s : State) (c : Conn) (sess : Session) :
    SharedAction → Option State
  | .cookieCheck rc =>
      if sess.pc.inCall then
        some { s with cookie := s.cookie.cookieCheckTramp rc }
      else none
  | .startServing =>
      if sess.pc = .announced then
        some ((s.withdrawCid sess c).setSession c
          { sess with pc := .serving, lastActivity := s.now })
      else none
  | .releaseAddr =>
      match sess.pc with
      | .answered _ =>
          if sess.cidActive ∧ sess.addrRouted then
            some ((s.removeByAddrIfMine sess.peer c).setSession c
              { sess with addrRouted := false })
          else none
      | _ => none
  | .removeAddr =>
      if sess.pc = .returned then
        some ((s.removeByAddrIfMine sess.peer c).setSession c
          { sess with pc := .addrRemoved })
      else none
  | .removeCid =>
      if sess.pc = .addrRemoved then
        some ((s.removeByCidIfMine sess.cid c).setSession c
          { sess with pc := .cidRemoved })
      else none
  | .dropPermit =>
      if sess.pc = .cidRemoved then
        some { s.setSession c { sess with pc := .finished, permit := none } with
          quota :=
            match sess.permit with
            | some permit => s.quota.release permit
            | none => s.quota }
      else none

def step (env : Env) (s : State) : Action → Option State
  | .listener a => listenerStep env s a
  | .thread c a =>
      (s.session c).bind fun sess =>
        (sess.localStep env s.now (s.hasSender c) a).map (s.setSession c)
  | .shared c a => (s.session c).bind fun sess => sharedStep s c sess a
  | .tick elapsed => some { s with now := s.now + elapsed }
  | .nextConnId => some { s with nextConnId := s.nextConnId + 1 }

/-! A client that comes and completes its handshake, for concrete runs. -/

def inHandshakeCall (t : Transcript) : Bool :=
  (t.reverse.find? fun event =>
    event == .handshakeCalled || event == .readCalled) == some .handshakeCalled

/-- Stands for the record protection: whether the last octet checks out. -/
def isSealed (dgram : Octets) : Bool :=
  dgram.getLast? == some 0xA5

/-- A library with nothing buffered: it asks the transport in each call, passes
over what is not sealed, and answers with what the transport says. In a
handshake any datagram is the last flight. -/
def directLibrary : Library := fun t move =>
  match t.getLast? with
  | some .handshakeCalled => move == .askTransport
  | some .readCalled => move == .askTransport
  | some (.received rc none) => decide (rc ≤ 0) && move == .answer rc
  | some (.received rc (some delivery)) =>
      if inHandshakeCall t || rc == 0 then move == .answer 0
      else if isSealed delivery.1 then move == .answer rc
      else move == .askTransport
  | _ => false

def directEnv : Env where
  lib := directLibrary
  cidIdle := secs 21600
  handshakeDeadline := secs 30

def limits : ConnQuota :=
  ConnQuota.new maxConnections 256

def clientA : SocketAddr where
  ip := .v4 0xC0000201
  port := 40000

def clientB : SocketAddr where
  ip := .v4 0xC6336402
  port := 50000

def cidOne : Cid := #v[1, 1, 1, 1, 1, 1, 1, 1]
def cidTwo : Cid := #v[2, 2, 2, 2, 2, 2, 2, 2]

def handshakeRecord (kind : UInt8) : Octets :=
  [22, 0xFE, 0xFD, 0, 0, 0, 0, 0, 0, 0, 0, 0, 1, kind]

def cidRecord (cid : Cid) : Octets :=
  [25, 0xFE, 0xFD, 0, 1, 0, 0, 0, 0, 0, 1] ++ cid.toList ++ [0, 0xA5]

def admission (peer : SocketAddr) (cid : Cid) : List Action :=
  [.listener (.recvFrom peer (handshakeRecord 1)), .listener (.begin cid),
    .listener .clearCookieVerified, .listener (.cookieCheck 0),
    .listener (.handshakeReturns Codes.errSslWantRead),
    .listener .takeCookieVerified, .listener .tryAcquire,
    .listener .insertHandles, .listener (.spawn true)]

def lastFlight (c : Conn) (peer : SocketAddr) : List Action :=
  [.listener (.recvFrom peer (handshakeRecord 16)), .thread c .callHandshake,
    .thread c (.recv 1500 false), .thread c (.answer 0)]

def startServing (c : Conn) (negotiated : Bool) : List Action :=
  [.thread c (.establish negotiated true), .shared c .startServing]

end Loft.DtlsMbed
