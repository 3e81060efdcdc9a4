import Loft.DtlsMbed.Steps

namespace Loft.DtlsMbed

open Loft.Data
open Loft.Data.Transition

/-! Retransmissions of the client's last flight. The address route is kept for
them until the first authenticated read, and what decides is the `established`
flag, which is set as soon as the server's side is done. -/

def handshakeTypeClientHello : UInt8 := 1

def isClientHello (dgram : Octets) : Bool :=
  dgram[13]? == some handshakeTypeClientHello

/-- A ClientHello goes to the pending path, anything else to the channel. -/
def Recovers (env : Env) (s : State) (peer : SocketAddr) (c : Conn)
    (dgram : Octets) : Prop :=
  ∀ s', step env s (.listener (.recvFrom peer dgram)) = some s' →
    if isClientHello dgram then
      s'.listener = .unrouted peer dgram ∧ s'.session = s.session
    else s'.listener = .receiving ∧ Sent s c (dgram, peer) s'

theorem step_recvFrom (env : Env) {s : State} (peer : SocketAddr)
    (dgram : Octets) (hlistener : s.listener = .receiving) :
    step env s (.listener (.recvFrom peer dgram)) =
      some (s.route peer dgram) := by
  simp only [step, listenerStep, hlistener]

theorem not_contentTypeCid {dgram : Octets}
    (h : isPlaintextHandshake dgram = true) :
    dgram[0]? ≠ some contentTypeCid := by
  intro hcid
  simp [isPlaintextHandshake, hcid, contentTypeCid, contentTypeHandshake] at h

/-- Past the flag, every plaintext handshake record is a stranger's. -/
theorem route_established {s : State} {peer : SocketAddr} {c : Conn}
    {dgram : Octets} (hentry : s.byAddr.lookup peer = some c)
    (hplain : isPlaintextHandshake dgram = true)
    (hflag : s.established c = true) :
    s.route peer dgram = { s with listener := .unrouted peer dgram } := by
  unfold State.route State.routeByAddr
  rw [if_neg (not_contentTypeCid hplain), hentry]
  simp [hplain, hflag]

theorem route_handshaking {s : State} {peer : SocketAddr} {c : Conn}
    {sess : Session} {dgram : Octets}
    (hentry : s.byAddr.lookup peer = some c)
    (hsess : s.session c = some sess) (hlive : sess.pc.live = true)
    (hplain : isPlaintextHandshake dgram = true)
    (hflag : s.established c = false) :
    Sent s c (dgram, peer) (s.route peer dgram) := by
  unfold State.route State.routeByAddr
  rw [if_neg (not_contentTypeCid hplain), hentry]
  simp only [hplain, hflag, Bool.and_false, Bool.false_eq_true, if_false]
  cases hsend : s.trySend c (dgram, peer) with
  | none =>
      have hdead := trySend_none hsend sess hsess
      rw [hlive] at hdead
      cases hdead
  | some s' => exact trySend_some hsend

/-- The route is the right one exactly where the flag tells a ClientHello from
the rest. -/
theorem recovers_iff (env : Env) (s : State) (peer : SocketAddr) (c : Conn)
    (sess : Session) (dgram : Octets) (hlistener : s.listener = .receiving)
    (hentry : s.byAddr.lookup peer = some c)
    (hsess : s.session c = some sess) (hlive : sess.pc.live = true)
    (hplain : isPlaintextHandshake dgram = true) :
    Recovers env s peer c dgram ↔ s.established c = isClientHello dgram := by
  unfold Recovers
  rw [step_recvFrom env peer dgram hlistener]
  simp only [Option.some.injEq, forall_eq']
  cases hflag : s.established c with
  | true =>
      rw [route_established hentry hplain hflag]
      cases hhello : isClientHello dgram with
      | true =>
          exact iff_of_true ⟨rfl, rfl⟩ rfl
      | false => simp
  | false =>
      have hsent := route_handshaking hentry hsess hlive hplain hflag
      have hstays := hsent.listener.trans hlistener
      cases hhello : isClientHello dgram with
      | true => simp [hstays]
      | false =>
          simp only [Bool.false_eq_true, if_false, iff_true]
          exact ⟨hstays, hsent⟩

/-- The server is done and the client has not seen its last flight. -/
def lastFlightLost : List Action :=
  admission clientA cidOne ++ lastFlight 1 clientA ++ startServing 1 true

theorem recovers_iff_lastFlightLost :
    ∃ s, run (step directEnv) (init limits) lastFlightLost = some s ∧
      (Recovers directEnv s clientA 1 (handshakeRecord 1) ↔
        s.established 1 = isClientHello (handshakeRecord 1)) := by
  have hend : (run (step directEnv) (init limits) lastFlightLost).any
      (fun s => decide (s.listener = .receiving ∧
        s.byAddr.lookup clientA = some 1 ∧
        (s.session 1).any fun sess => sess.pc.live)) = true := by
    decide +kernel
  obtain ⟨s, hrun, hs⟩ := (Option.any_eq_true _ _).mp hend
  obtain ⟨hlistener, hentry, hany⟩ := of_decide_eq_true hs
  obtain ⟨sess, hsess, hlive⟩ := (Option.any_eq_true _ _).mp hany
  exact ⟨s, hrun, recovers_iff directEnv s clientA 1 sess (handshakeRecord 1)
    hlistener hentry hsess hlive (by decide)⟩

/-- The handshake is over, and no read has returned a record yet. -/
def Session.awaitsFirstRead (sess : Session) : Bool :=
  match sess.pc with
  | .completed | .announced | .serving | .inRead =>
      sess.transcript.all fun event =>
        match event with
        | .returned rc _ => decide (rc ≤ 0)
        | _ => true
  | _ => false

theorem retransmission_unrouted :
    ∃ s sess, run (step directEnv) (init limits) lastFlightLost = some s ∧
      s.byAddr.lookup clientA = some 1 ∧ s.session 1 = some sess ∧
      sess.awaitsFirstRead = true ∧
      isPlaintextHandshake (handshakeRecord 16) = true ∧
      isClientHello (handshakeRecord 16) = false ∧
      ¬ Recovers directEnv s clientA 1 (handshakeRecord 16) := by
  have hend : (run (step directEnv) (init limits) lastFlightLost).any
      (fun s => decide (s.listener = .receiving ∧
        s.byAddr.lookup clientA = some 1 ∧ s.established 1 = true ∧
        (s.session 1).any Session.awaitsFirstRead)) = true := by
    decide +kernel
  obtain ⟨s, hrun, hs⟩ := (Option.any_eq_true _ _).mp hend
  obtain ⟨hlistener, hentry, hflag, hany⟩ := of_decide_eq_true hs
  obtain ⟨sess, hsess, hawaits⟩ := (Option.any_eq_true _ _).mp hany
  refine ⟨s, sess, hrun, hentry, hsess, hawaits, by decide, by decide, ?_⟩
  intro hrecovers
  have hsent := hrecovers _ (step_recvFrom directEnv clientA _ hlistener)
  rw [route_established hentry (by decide) hflag] at hsent
  exact absurd hsent.1 (by simp)

end Loft.DtlsMbed
