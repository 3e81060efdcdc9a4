import Loft.Data.Mailboxes
import Loft.DtlsMbed.Backing
import Loft.DtlsMbed.Closure

namespace Loft.DtlsMbed

open Loft.Data
open Loft.Data.Transition
open Loft.MbedtlsShim

/-! Which session a datagram comes to, over whole runs of the mbedTLS
listener. -/

/-- `taker` is the session whose channel the datagram was put into. -/
structure Arrival where
  source : SocketAddr
  dgram : Octets
  taker : Option Conn
  deriving DecidableEq, Repr

def Arrival.delivery (arrival : Arrival) : Delivery :=
  (arrival.dgram, arrival.source)

/-- The demux, with all that has arrived, all that has been taken off the
channels, and what had arrived last when each session was promoted. -/
structure Traffic where
  demux : State
  arrived : List Arrival
  read : List (Conn × Delivery)
  hellos : Table Conn Arrival

namespace State

/-- The session that the maps name. -/
def named (s : State) (peer : SocketAddr) (dgram : Octets) : Option Conn :=
  if dgram[0]? = some contentTypeCid then
    (cidOf dgram).bind fun cid => s.byCid.lookup cid
  else
    (s.byAddr.lookup peer).filter fun c =>
      !(isPlaintextHandshake dgram && s.established c)

def takes (s : State) (c : Conn) : Bool :=
  (s.session c).any fun sess =>
    sess.pc.live ∧ sess.io.queue.length < connChannelDepth

def taker (s : State) (peer : SocketAddr) (dgram : Octets) : Option Conn :=
  (s.named peer dgram).filter s.takes

/-- What the next `f_recv_timeout` of the session takes off its channel. -/
def popped (s : State) (c : Conn) : Option Delivery :=
  (s.session c).bind fun sess =>
    if sess.io.deadline.any fun deadline => decide (deadline ≤ s.now) then none
    else if sess.io.pending.isSome then none
    else sess.io.queue.head?

end State

namespace Traffic

def init (quota : ConnQuota) : Traffic where
  demux := DtlsMbed.init quota
  arrived := []
  read := []
  hellos := ∅

def arrivedAfter (t : Traffic) : Action → List Arrival
  | .listener (.recvFrom peer dgram) =>
      t.arrived ++ [⟨peer, dgram, t.demux.taker peer dgram⟩]
  | _ => t.arrived

def readAfter (t : Traffic) : Action → List (Conn × Delivery)
  | .thread c (.recv _ _) =>
      t.read ++ (t.demux.popped c).toList.map fun delivery => (c, delivery)
  | _ => t.read

def hellosAfter (t : Traffic) : Action → Table Conn Arrival
  | .listener .insertHandles =>
      match t.arrived.getLast? with
      | some hello => t.hellos.insert t.demux.nextConnId hello
      | none => t.hellos
  | _ => t.hellos

def step (env : Env) (t : Traffic) (a : Action) : Option Traffic :=
  (DtlsMbed.step env t.demux a).map fun demux =>
    { demux := demux, arrived := t.arrivedAfter a, read := t.readAfter a,
      hellos := t.hellosAfter a }

def takenBy (t : Traffic) (c : Conn) : List Arrival :=
  t.arrived.filter fun arrival => arrival.taker = some c

def readBy (t : Traffic) (c : Conn) : List Delivery :=
  (t.read.filter fun entry => entry.1 = c).map Prod.snd

end Traffic

/-! The channels as mailboxes. -/

def Session.box (sess : Session) : Mailboxes.Box Delivery where
  queue := sess.io.queue
  isOpen := sess.pc.live

def State.box (s : State) (c : Conn) : Option (Mailboxes.Box Delivery) :=
  (s.session c).map Session.box

def Traffic.view (t : Traffic) : Mailboxes.State Conn Delivery where
  box := t.demux.box
  arrived := t.arrived.map fun arrival => (arrival.delivery, arrival.taker)
  read := t.read

theorem box_of_session {s : State} {c : Conn} {sess : Session}
    (hsess : s.session c = some sess) : s.box c = some sess.box := by
  rw [State.box, hsess, Option.map_some]

theorem box_of_one {s s' : State} {c : Conn} {sess' : Session}
    (hself : s'.session c = some sess')
    (hother : ∀ c', c' ≠ c → s'.session c' = s.session c') :
    s'.box = Function.update s.box c (some sess'.box) := by
  funext c'
  rw [Function.update_apply]
  split_ifs with hsame
  · rw [hsame, box_of_session hself]
  · rw [State.box, hother c' hsame]
    rfl

theorem box_of_same {s s' : State} (hsame : s'.session = s.session) :
    s'.box = s.box := by
  funext c
  rw [State.box, hsame]
  rfl

theorem insertHandles_box (env : Env) (s : State) (peer : SocketAddr)
    (dgram : Octets) (cid : Cid) (permit : ConnPermit) :
    (s.insertHandles env peer dgram cid permit).box =
      Function.update s.box s.nextConnId (some ⟨[], true⟩) := by
  have hself : (s.insertHandles env peer dgram cid permit).session
      s.nextConnId = some (State.promoted env s.now peer dgram cid permit) :=
    session_insertHandles.mpr (.inl ⟨rfl, rfl⟩)
  exact box_of_one hself fun c' hne => AList.lookup_insert_ne hne

theorem takes_iff {s : State} {c : Conn} :
    s.takes c = true ↔ ∃ sess, s.session c = some sess ∧
      sess.pc.live = true ∧ sess.io.queue.length < connChannelDepth := by
  simp [State.takes, Option.any_eq_true]

theorem trySend_taken {s : State} {c : Conn} {delivery : Delivery}
    (htakes : s.takes c = true) :
    ∃ sess, s.session c = some sess ∧ sess.pc.live = true ∧
      sess.io.queue.length < connChannelDepth ∧
      s.trySend c delivery = some (s.setSession c { sess with
        io := { sess.io with queue := sess.io.queue ++ [delivery] } }) := by
  obtain ⟨sess, hsess, hlive, hroom⟩ := takes_iff.mp htakes
  refine ⟨sess, hsess, hlive, hroom, ?_⟩
  simp only [State.trySend, hsess, if_pos hlive, if_pos hroom]

/-- A channel that takes nothing is full or dead. -/
theorem trySend_lost {s : State} {c : Conn} (delivery : Delivery)
    (htakes : s.takes c = false) :
    s.trySend c delivery = some s ∨ s.trySend c delivery = none := by
  unfold State.trySend
  cases hsess : s.session c with
  | none => exact .inr rfl
  | some sess =>
      dsimp only
      split_ifs with hlive hroom
      · rw [takes_iff.mpr ⟨sess, hsess, hlive, hroom⟩] at htakes
        cases htakes
      · exact .inl rfl
      · exact .inr rfl

theorem route_taken {s : State} {peer : SocketAddr} {dgram : Octets}
    {c : Conn} (htaker : s.taker peer dgram = some c) :
    ∃ sess, s.session c = some sess ∧ sess.pc.live = true ∧
      sess.io.queue.length < connChannelDepth ∧
      s.route peer dgram = s.setSession c { sess with
        io := { sess.io with queue := sess.io.queue ++ [(dgram, peer)] } } := by
  obtain ⟨hnamed, htakes⟩ := Option.filter_eq_some_iff.mp htaker
  obtain ⟨sess, hsess, hlive, hroom, hsend⟩ :=
    @trySend_taken s c (dgram, peer) htakes
  refine ⟨sess, hsess, hlive, hroom, ?_⟩
  unfold State.named at hnamed
  unfold State.route
  split_ifs at hnamed ⊢ with htype
  · obtain ⟨cid, hcid, hentry⟩ := Option.bind_eq_some_iff.mp hnamed
    simp only [State.routeByCid, hcid, hentry, hsend]
  · obtain ⟨hentry, hfresh⟩ := Option.filter_eq_some_iff.mp hnamed
    have hroute := ne_true_of_eq_false ((Bool.not_eq_true' _).mp hfresh)
    simp only [State.routeByAddr, hentry, if_neg hroute, hsend]

theorem route_lost {s : State} {peer : SocketAddr} {dgram : Octets}
    (htaker : s.taker peer dgram = none) :
    (s.route peer dgram).session = s.session := by
  have hlost (c : Conn) (hnamed : s.named peer dgram = some c) :
      s.takes c = false := by
    rw [State.taker, hnamed] at htaker
    simpa using htaker
  unfold State.named at hlost
  unfold State.route
  split_ifs at hlost ⊢ with htype
  · unfold State.routeByCid
    cases hcid : cidOf dgram with
    | none => rfl
    | some cid =>
        dsimp only
        cases hentry : s.byCid.lookup cid with
        | none => rfl
        | some c =>
            dsimp only
            have htakes := hlost c (by rw [hcid]; exact hentry)
            rcases trySend_lost (dgram, peer) htakes with hsend | hsend
            · rw [hsend]
            · rw [hsend]
              rfl
  · unfold State.routeByAddr
    cases hentry : s.byAddr.lookup peer with
    | none => rfl
    | some c =>
        dsimp only
        split_ifs with hreused
        · rfl
        · have htakes := hlost c (Option.filter_eq_some_iff.mpr
            ⟨hentry, (Bool.not_eq_true' _).mpr (Bool.eq_false_iff.mpr hreused)⟩)
          rcases trySend_lost (dgram, peer) htakes with hsend | hsend
          · rw [hsend]
          · rw [hsend]
            rfl

/-! What else becomes of a channel. -/

section Threads

attribute [local simp] Session.box Session.log Session.drop Pc.live Pc.inCall

theorem Local.live {env : Env} {now : Instant} {senders : Bool}
    {sess sess' : Session} {a : LocalAction}
    (h : Local env now senders sess a sess') : sess.pc.live = true := by
  cases h with
  | recv hcall hlib hrecv =>
      cases hpc : sess.pc <;> simp_all
  | panicked hlive hpc => exact hlive
  | _ => simp [*]

/-- A session thread leaves its channel alone, but for reads, or drops it. -/
theorem Local.box {env : Env} {now : Instant} {senders : Bool}
    {sess sess' : Session} {a : LocalAction}
    (h : Local env now senders sess a sess')
    (hreads : ∀ cap expired, a ≠ .recv cap expired) :
    sess'.box = sess.box ∨ sess'.box = ⟨[], false⟩ := by
  have hlive := h.live
  cases h with
  | recv hcall hlib hrecv => exact absurd rfl (hreads _ _)
  | handshakeFails | readFails | anonymous | unwritten | panicked =>
      exact .inr rfl
  | _ =>
      refine .inl ?_
      simp [*]

end Threads

theorem Moved.box {env : Env} {s : State} {c : Conn} {sess sess' : Session}
    {a : Action} (hs : Owned s) (hsess : s.session c = some sess)
    (h : Moved env s c sess a sess')
    (harrives : ∀ peer dgram, a ≠ .listener (.recvFrom peer dgram))
    (hreads : ∀ cap expired, a ≠ .thread c (.recv cap expired)) :
    sess'.box = sess.box ∨ sess'.box = ⟨[], false⟩ := by
  cases h with
  | thread hlocal =>
      exact hlocal.box fun cap expired ha =>
        hreads cap expired (congrArg (Action.thread c) ha)
  | queued => exact absurd rfl (harrives _ _)
  | spawned hlistener =>
      refine .inl ?_
      simp [Session.box, hs.unstarted c hlistener sess hsess, Pc.live]
  | unspawned => exact .inr rfl
  | startServing hpc | removeAddr hpc | removeCid hpc | dropPermit hpc =>
      refine .inl ?_
      simp [Session.box, hpc, Pc.live]
  | releaseAddr => exact .inl rfl

@[simp] theorem deliver_queue (io : ConnState) (cap : Nat) (delivery : Delivery) :
    (io.deliver cap delivery).2.2.queue = io.queue := by
  unfold ConnState.deliver
  split_ifs <;> rfl

theorem recv_popped {s : State} {c : Conn} {sess : Session}
    (hsess : s.session c = some sess) (senders : Bool) (cap : Nat)
    (expired : Bool) :
    sess.io.queue = (s.popped c).toList ++
      (sess.io.recv s.now senders cap expired).2.2.queue := by
  have hpopped : s.popped c =
      if sess.io.deadline.any fun deadline => decide (deadline ≤ s.now) then none
      else if sess.io.pending.isSome then none
      else sess.io.queue.head? := by
    rw [State.popped, hsess]
    rfl
  rw [hpopped]
  unfold ConnState.recv
  by_cases hlate :
      (sess.io.deadline.any fun deadline => decide (deadline ≤ s.now)) = true
  · rw [if_pos hlate, if_pos hlate]
    rfl
  · rw [if_neg hlate, if_neg hlate]
    cases hpending : sess.io.pending with
    | some fed => simp
    | none =>
        cases hqueue : sess.io.queue with
        | cons delivery rest => simp
        | nil =>
            cases senders with
            | false => exact hqueue.symm
            | true => exact hqueue.symm

namespace Traffic

theorem arrivedAfter_of_ne (t : Traffic) {a : Action}
    (harrives : ¬ ∃ peer dgram, a = .listener (.recvFrom peer dgram)) :
    t.arrivedAfter a = t.arrived := by
  unfold arrivedAfter
  split
  · exact absurd ⟨_, _, rfl⟩ harrives
  · rfl

theorem readAfter_of_ne (t : Traffic) {a : Action}
    (hreads : ¬ ∃ c cap expired, a = .thread c (.recv cap expired)) :
    t.readAfter a = t.read := by
  unfold readAfter
  split
  · exact absurd ⟨_, _, _, rfl⟩ hreads
  · rfl

theorem recvFrom_follows {env : Env} {t t' : Traffic} {peer : SocketAddr}
    {dgram : Octets}
    (h : t.step env (.listener (.recvFrom peer dgram)) = some t') :
    Mailboxes.Follows connChannelDepth t.view t'.view := by
  obtain ⟨demux, hstep, rfl⟩ := Option.map_eq_some_iff.mp h
  simp only [DtlsMbed.step, listenerStep] at hstep
  split at hstep <;> cases hstep
  cases htaker : t.demux.taker peer dgram with
  | none =>
      refine .inr ⟨.lost (dgram, peer), ?_⟩
      have hlost : Mailboxes.Step connChannelDepth t.view
          (.lost (dgram, peer)) _ := .lost t.view (dgram, peer)
      simpa [view, arrivedAfter, readAfter, Arrival.delivery, htaker,
        box_of_same (route_lost htaker)] using hlost
  | some c =>
      obtain ⟨sess, hsess, hlive, hroom, hroute⟩ := route_taken htaker
      refine .inr ⟨.taken c (dgram, peer), ?_⟩
      have hbox : t.view.box c = some ⟨sess.io.queue, true⟩ := by
        simp [view, box_of_session hsess, Session.box, hlive]
      have htaken := Mailboxes.Step.taken (dgram, peer) hbox hroom
      have hafter := box_of_one (session_setSession_self t.demux c _)
        (fun _ hne => session_setSession_ne t.demux { sess with
          io := { sess.io with queue := sess.io.queue ++ [(dgram, peer)] } } hne)
      simpa [view, arrivedAfter, readAfter, Arrival.delivery, htaker, hroute,
        hafter, Session.box, hlive, Mailboxes.State.setBox] using htaken

theorem recv_follows {env : Env} {t t' : Traffic} {c : Conn} {cap : Nat}
    {expired : Bool}
    (h : t.step env (.thread c (.recv cap expired)) = some t') :
    Mailboxes.Follows connChannelDepth t.view t'.view := by
  obtain ⟨demux, hstep, rfl⟩ := Option.map_eq_some_iff.mp h
  obtain ⟨sess, hsess, hlocal⟩ := Option.bind_eq_some_iff.mp hstep
  obtain ⟨sess', hafter, rfl⟩ := Option.map_eq_some_iff.mp hlocal
  have hlive := (localStep_local hafter).live
  have hqueue := recv_popped hsess (t.demux.hasSender c) cap expired
  have hbox := box_of_one (session_setSession_self t.demux c sess')
    (fun _ hne => session_setSession_ne t.demux sess' hne)
  have hsame : sess'.box = ⟨(sess.io.recv t.demux.now (t.demux.hasSender c) cap
      expired).2.2.queue, true⟩ := by
    simp only [Session.localStep] at hafter
    split_ifs at hafter
    cases hafter
    simp [Session.box, Session.log, hlive]
  rw [hsame] at hbox
  generalize (sess.io.recv t.demux.now (t.demux.hasSender c) cap
    expired).2.2.queue = rest at hqueue hbox
  cases hpopped : t.demux.popped c with
  | none =>
      rw [hpopped, Option.toList_none, List.nil_append] at hqueue
      have hkept : (t.demux.setSession c sess').box = t.demux.box := by
        rw [hbox, ← hqueue, ← hlive]
        exact (Function.update_eq_self_iff.mpr (box_of_session hsess).symm)
      refine .inl ?_
      simp [view, arrivedAfter, readAfter, hpopped, hkept]
  | some delivery =>
      rw [hpopped] at hqueue
      refine .inr ⟨.read c delivery, ?_⟩
      have hbefore : t.view.box c = some ⟨delivery :: rest, true⟩ := by
        rw [← List.singleton_append, ← Option.toList_some, ← hqueue, ← hlive]
        exact box_of_session hsess
      have hread : Mailboxes.Step connChannelDepth t.view _ _ := .read hbefore
      simpa [view, arrivedAfter, readAfter, hpopped, hbox,
        Mailboxes.State.setBox] using hread

theorem step_follows {env : Env} {t t' : Traffic} {a : Action}
    (hs : Owned t.demux) (h : t.step env a = some t') :
    Mailboxes.Follows connChannelDepth t.view t'.view := by
  by_cases harrives : ∃ peer dgram, a = .listener (.recvFrom peer dgram)
  · obtain ⟨peer, dgram, rfl⟩ := harrives
    exact recvFrom_follows h
  by_cases hreads : ∃ c cap expired, a = .thread c (.recv cap expired)
  · obtain ⟨c, cap, expired, rfl⟩ := hreads
    exact recv_follows h
  obtain ⟨demux, hstep, rfl⟩ := Option.map_eq_some_iff.mp h
  rw [t.arrivedAfter_of_ne harrives, t.readAfter_of_ne hreads]
  cases (step_stepped hstep).touched with
  | none hsame =>
      refine .inl ?_
      simp only [view, box_of_same hsame]
  | @one c sess sess' hbefore hafter hother hmove =>
      have hbox := box_of_one hafter hother
      rcases hmove.box hs hbefore
        (fun peer dgram ha => harrives ⟨peer, dgram, ha⟩)
        (fun cap expired ha => hreads ⟨c, cap, expired, ha⟩) with
        hsame | hclosed
      · refine .inl ?_
        have hkept : demux.box = t.demux.box := by
          rw [hbox, hsame]
          exact Function.update_eq_self_iff.mpr (box_of_session hbefore).symm
        simp only [view, hkept]
      · refine .inr ⟨.closed c, ?_⟩
        rw [hclosed] at hbox
        have hstep : Mailboxes.Step connChannelDepth t.view _ _ :=
          .closed (box_of_session hbefore)
        simpa only [view, hbox, Mailboxes.State.setBox] using hstep
  | promoted ha hlistener hs' =>
      subst hs'
      refine .inr ⟨.opened t.demux.nextConnId, ?_⟩
      have hnone : t.view.box t.demux.nextConnId = none := by
        simp [view, State.box, hs.fresh _ (Nat.le_refl _)]
      have hstep : Mailboxes.Step connChannelDepth t.view _ _ := .opened hnone
      simpa only [view, insertHandles_box, Mailboxes.State.setBox] using hstep

end Traffic

/-! Whose datagrams they are. -/

/-- By its CID, or by the address that the session was promoted for. -/
def Arrival.Names (arrival : Arrival) (sess : Session) : Prop :=
  if arrival.dgram[0]? = some contentTypeCid then
    cidOf arrival.dgram = some sess.cid
  else arrival.source = sess.peer

def Sourced (t : Traffic) : Prop :=
  ∀ arrival ∈ t.arrived, ∀ c, arrival.taker = some c →
    ∃ sess, t.demux.session c = some sess ∧ arrival.Names sess

theorem Owned.named {s : State} (hs : Owned s) {peer : SocketAddr}
    {dgram : Octets} {c : Conn} (hnamed : s.named peer dgram = some c) :
    ∃ sess, s.session c = some sess ∧
      Arrival.Names ⟨peer, dgram, some c⟩ sess := by
  unfold State.named at hnamed
  unfold Arrival.Names
  dsimp only
  split_ifs at hnamed ⊢ with htype
  · obtain ⟨cid, hcid, hentry⟩ := Option.bind_eq_some_iff.mp hnamed
    obtain ⟨sess, hsess, rfl, -⟩ := hs.cid cid c hentry
    exact ⟨sess, hsess, hcid⟩
  · obtain ⟨hentry, -⟩ := Option.filter_eq_some_iff.mp hnamed
    obtain ⟨sess, hsess, hpeer, -⟩ := hs.addr peer c hentry
    exact ⟨sess, hsess, hpeer.symm⟩

theorem Sourced.step {env : Env} {t t' : Traffic} {a : Action} (ht : Sourced t)
    (hs : Owned t.demux) (h : t.step env a = some t') : Sourced t' := by
  obtain ⟨demux, hstep, rfl⟩ := Option.map_eq_some_iff.mp h
  intro arrival hmem c htaker
  have hbefore : ∃ sess, t.demux.session c = some sess ∧
      arrival.Names sess := by
    by_cases harrives : ∃ peer dgram, a = .listener (.recvFrom peer dgram)
    · obtain ⟨peer, dgram, rfl⟩ := harrives
      rcases List.mem_append.mp hmem with hold | hnew
      · exact ht arrival hold c htaker
      · rw [List.mem_singleton.mp hnew] at htaker ⊢
        obtain ⟨hnamed, -⟩ := Option.filter_eq_some_iff.mp htaker
        exact hs.named hnamed
    · dsimp only at hmem
      rw [t.arrivedAfter_of_ne harrives] at hmem
      exact ht arrival hmem c htaker
  obtain ⟨sess, hsess, hnames⟩ := hbefore
  obtain ⟨sess', hsess', hkept⟩ :=
    (hs.demuxStep (step_stepped hstep)).kept c sess hsess
  refine ⟨sess', hsess', ?_⟩
  unfold Arrival.Names at hnames ⊢
  rwa [hkept.cid, hkept.peer]

/-! What the library is handed. -/

def Session.handed (sess : Session) : List Delivery :=
  sess.transcript.filterMap fun
    | .received _ delivered => delivered
    | _ => none

theorem Local.handed {env : Env} {now : Instant} {senders : Bool}
    {sess sess' : Session} {a : LocalAction}
    (h : Local env now senders sess a sess')
    (hreads : ∀ cap expired, a ≠ .recv cap expired) :
    sess'.handed = sess.handed := by
  cases h with
  | recv => exact absurd rfl (hreads _ _)
  | _ => simp [Session.handed, Session.log, Session.drop]

theorem Moved.handed {env : Env} {s : State} {c : Conn} {sess sess' : Session}
    {a : Action} (h : Moved env s c sess a sess')
    (hreads : ∀ cap expired, a ≠ .thread c (.recv cap expired)) :
    sess'.handed = sess.handed := by
  cases h with
  | thread hlocal =>
      exact hlocal.handed fun cap expired ha =>
        hreads cap expired (congrArg (Action.thread c) ha)
  | _ => rfl

theorem localStep_recv_handed {env : Env} {now : Instant} {senders : Bool}
    {sess sess' : Session} {cap : Nat} {expired : Bool}
    (h : sess.localStep env now senders (.recv cap expired) = some sess') :
    sess'.handed =
      sess.handed ++ (sess.io.recv now senders cap expired).2.1.toList := by
  simp only [Session.localStep] at h
  split_ifs at h
  cases h
  unfold Session.handed Session.log
  rw [List.filterMap_append]
  cases (sess.io.recv now senders cap expired).2.1 <;> rfl

theorem recv_delivered {s : State} {c : Conn} {sess : Session}
    (hsess : s.session c = some sess) (hpending : sess.io.pending = none)
    (senders : Bool) (cap : Nat) (expired : Bool) :
    (sess.io.recv s.now senders cap expired).2.1.toList.Sublist
      (s.popped c).toList := by
  have hpopped : s.popped c =
      if sess.io.deadline.any fun deadline => decide (deadline ≤ s.now) then none
      else sess.io.queue.head? := by
    rw [State.popped, hsess, Option.bind_some, hpending]
    rfl
  rw [hpopped, ConnState.recv, hpending]
  by_cases hlate :
      (sess.io.deadline.any fun deadline => decide (deadline ≤ s.now)) = true
  · rw [if_pos hlate, if_pos hlate]
  · rw [if_neg hlate, if_neg hlate]
    cases hqueue : sess.io.queue with
    | cons delivery rest =>
        unfold ConnState.deliver
        dsimp only
        by_cases hlong : cap < delivery.1.length
        · rw [if_pos hlong]
          exact List.nil_sublist _
        · rw [if_neg hlong]
          exact List.Sublist.refl _
    | nil =>
        cases senders with
        | false => exact List.nil_sublist _
        | true => exact List.nil_sublist _

/-- The datagram that the listener is at, and where it came from. -/
def Listener.delivery : Listener → Option Delivery
  | .unrouted peer dgram => some (dgram, peer)
  | .minted peer dgram _ => some (dgram, peer)
  | .stepping peer dgram _ _ => some (dgram, peer)
  | .stepped peer dgram _ _ => some (dgram, peer)
  | .taken peer dgram _ _ => some (dgram, peer)
  | .admitted peer dgram _ _ => some (dgram, peer)
  | _ => none

/-- It is the last that arrived, and went to no session. -/
def Pending (t : Traffic) : Prop :=
  ∀ delivery, t.demux.listener.delivery = some delivery →
    t.arrived.getLast? = some ⟨delivery.2, delivery.1, none⟩

/-- The datagram that a session was promoted on: it arrived from the address of
the session, and the listener gave it to none. -/
def Traffic.HelloOf (t : Traffic) (c : Conn) (sess : Session) (hello : Arrival) :
    Prop :=
  t.hellos.lookup c = some hello ∧ hello ∈ t.arrived ∧ hello.taker = none ∧
    hello.source = sess.peer

/-- The datagram that it was promoted on apart, a session is handed what came
over its channel. -/
def Handed (t : Traffic) : Prop :=
  ∀ c sess, t.demux.session c = some sess →
    ∃ hello rest, t.HelloOf c sess hello ∧
      sess.handed = hello.delivery :: rest ∧ rest.Sublist (t.readBy c)

theorem readBy_sublist {env : Env} {t t' : Traffic} {a : Action}
    (h : t.step env a = some t') (c : Conn) :
    (t.readBy c).Sublist (t'.readBy c) := by
  obtain ⟨demux, hstep, rfl⟩ := Option.map_eq_some_iff.mp h
  apply List.Sublist.map
  apply List.Sublist.filter
  dsimp only
  unfold Traffic.readAfter
  split
  · exact List.sublist_append_left _ _
  · exact List.Sublist.refl _

theorem readBy_recv (t : Traffic) (demux : State) (arrived : List Arrival)
    (hellos : Table Conn Arrival) (c : Conn) (cap : Nat) (expired : Bool) :
    Traffic.readBy ⟨demux, arrived, t.readAfter (.thread c (.recv cap expired)),
      hellos⟩ c = t.readBy c ++ (t.demux.popped c).toList := by
  unfold Traffic.readBy Traffic.readAfter
  dsimp only
  rw [List.filter_append, List.map_append]
  cases t.demux.popped c with
  | none => rfl
  | some delivery => simp

/-- The listener is at a datagram from its arrival on. -/
theorem Listened.delivery {env : Env} {s s' : State} {a : ListenerAction}
    (h : Listened env s a s')
    (harrives : ∀ peer dgram, a ≠ .recvFrom peer dgram) {delivery : Delivery}
    (hat : s'.listener.delivery = some delivery) :
    s.listener.delivery = some delivery := by
  cases h with
  | recvFrom => exact absurd rfl (harrives _ _)
  | begin hlistener | clear hlistener | cookieCheck hlistener
  | stepped hlistener | taken hlistener | admitted hlistener =>
      rw [hlistener]
      exact hat
  | @spawn _ _ spawned hlistener hsess => cases spawned <;> cases hat
  | _ => cases hat

theorem Stepped.delivery {env : Env} {s s' : State} {a : Action}
    (h : Stepped env s a s')
    (harrives : ∀ peer dgram, a ≠ .listener (.recvFrom peer dgram))
    {delivery : Delivery} (hat : s'.listener.delivery = some delivery) :
    s.listener.delivery = some delivery := by
  cases h with
  | listener hlistened =>
      exact hlistened.delivery (fun peer dgram ha =>
        harrives peer dgram (congrArg Action.listener ha)) hat
  | shared hsess hshared => cases hshared <;> exact hat
  | _ => exact hat

/-- What a session takes does not occupy the listener. -/
theorem route_delivery {s : State} {peer : SocketAddr} {dgram : Octets}
    (hlistener : s.listener = .receiving) {delivery : Delivery}
    (hat : (s.route peer dgram).listener.delivery = some delivery) :
    delivery = (dgram, peer) ∧ s.taker peer dgram = none := by
  have hidle : s.listener.delivery = none := by rw [hlistener]; rfl
  constructor
  · generalize hs' : s.route peer dgram = s' at hat
    cases (hs' ▸ route_routed s peer dgram : Routed s peer dgram s') with
    | stranger | reused | reapedAddr => exact (Option.some.inj hat).symm
    | byCid _ _ _ hsent | byAddr _ _ _ hsent =>
        rw [hsent.listener, hidle] at hat
        cases hat
    | unroutable | reapedCid => cases hidle.symm.trans hat
  · cases htaker : s.taker peer dgram with
    | none => rfl
    | some c =>
        obtain ⟨sess, -, -, -, hroute⟩ := route_taken htaker
        rw [hroute] at hat
        cases hidle.symm.trans hat

theorem Pending.step {env : Env} {t t' : Traffic} {a : Action} (ht : Pending t)
    (h : t.step env a = some t') : Pending t' := by
  obtain ⟨demux, hstep, rfl⟩ := Option.map_eq_some_iff.mp h
  intro delivery hat
  by_cases harrives : ∃ peer dgram, a = .listener (.recvFrom peer dgram)
  · obtain ⟨peer, dgram, rfl⟩ := harrives
    simp only [DtlsMbed.step, listenerStep] at hstep
    split at hstep <;> cases hstep
    rename_i hlistener
    obtain ⟨rfl, htaker⟩ := route_delivery hlistener hat
    dsimp only [Traffic.arrivedAfter]
    rw [List.getLast?_concat, htaker]
  · dsimp only
    rw [t.arrivedAfter_of_ne harrives]
    exact ht delivery ((step_stepped hstep).delivery
      (fun peer dgram ha => harrives ⟨peer, dgram, ha⟩) hat)

theorem arrived_grows {env : Env} {t t' : Traffic} {a : Action}
    (h : t.step env a = some t') : t.arrived <+: t'.arrived := by
  obtain ⟨demux, hstep, rfl⟩ := Option.map_eq_some_iff.mp h
  dsimp only
  unfold Traffic.arrivedAfter
  split
  · exact List.prefix_append _ _
  · exact List.prefix_rfl

/-- The number of a session is not given again. -/
theorem hellos_kept {env : Env} {t t' : Traffic} {a : Action}
    (hs : Owned t.demux) (h : t.step env a = some t') {c : Conn}
    {sess : Session} (hsess : t.demux.session c = some sess) :
    t'.hellos.lookup c = t.hellos.lookup c := by
  obtain ⟨demux, hstep, rfl⟩ := Option.map_eq_some_iff.mp h
  have hne : c ≠ t.demux.nextConnId := by
    rintro rfl
    rw [hs.fresh _ (Nat.le_refl _)] at hsess
    cases hsess
  dsimp only
  unfold Traffic.hellosAfter
  split
  · split
    · exact AList.lookup_insert_ne hne
    · rfl
  · rfl

theorem Traffic.HelloOf.step {env : Env} {t t' : Traffic} {a : Action}
    {c : Conn} {sess sess' : Session} {hello : Arrival}
    (hhello : t.HelloOf c sess hello) (hs : Owned t.demux)
    (h : t.step env a = some t') (hsess : t.demux.session c = some sess)
    (hsess' : t'.demux.session c = some sess') : t'.HelloOf c sess' hello := by
  obtain ⟨hentry, hmem, htaker, hsource⟩ := hhello
  refine ⟨?_, (arrived_grows h).subset hmem, htaker, ?_⟩
  · rw [hellos_kept hs h hsess, hentry]
  · obtain ⟨demux, hstep, rfl⟩ := Option.map_eq_some_iff.mp h
    obtain ⟨same, hsame, hkept⟩ :=
      (hs.demuxStep (step_stepped hstep)).kept c sess hsess
    cases hsame.symm.trans hsess'
    rw [hsource, hkept.peer]

/-- The ClientHello of a new session is the datagram that the listener is
at. -/
theorem insertHandles_helloOf {env : Env} {t t' : Traffic} {peer : SocketAddr}
    {dgram : Octets} {cid : Cid} {permit : ConnPermit} (ht : Pending t)
    (h : t.step env (.listener .insertHandles) = some t')
    (hlistener : t.demux.listener = .admitted peer dgram cid permit) :
    t'.HelloOf t.demux.nextConnId
      (State.promoted env t.demux.now peer dgram cid permit)
      ⟨peer, dgram, none⟩ := by
  obtain ⟨demux, hstep, rfl⟩ := Option.map_eq_some_iff.mp h
  have hlast := ht (dgram, peer) (by rw [hlistener]; rfl)
  refine ⟨?_, List.mem_of_getLast? hlast, rfl, rfl⟩
  dsimp only [Traffic.hellosAfter]
  rw [hlast]
  exact AList.lookup_insert _

theorem Handed.step {env : Env} {t t' : Traffic} {a : Action} (ht : Handed t)
    (hs : Owned t.demux) (hpending : Pending t)
    (hdisarmed : EverySession Disarmed t.demux) (h : t.step env a = some t') :
    Handed t' := by
  have hkept {c : Conn} {sess sess' : Session}
      (hsess : t.demux.session c = some sess)
      (hsess' : t'.demux.session c = some sess')
      (hsame : sess'.handed = sess.handed) :
      ∃ hello rest, t'.HelloOf c sess' hello ∧
        sess'.handed = hello.delivery :: rest ∧ rest.Sublist (t'.readBy c) := by
    obtain ⟨hello, rest, hhello, hhanded, hrest⟩ := ht c sess hsess
    exact ⟨hello, rest, hhello.step hs h hsess hsess', hsame.trans hhanded,
      hrest.trans (readBy_sublist h c)⟩
  obtain ⟨demux, hstep, hdemux⟩ := Option.map_eq_some_iff.mp h
  intro c sess hsess'
  have hsess : demux.session c = some sess := by
    rw [← hdemux] at hsess'
    exact hsess'
  by_cases hreads : ∃ c' cap expired, a = .thread c' (.recv cap expired)
  · obtain ⟨c', cap, expired, rfl⟩ := hreads
    obtain ⟨old, hold, hlocal⟩ := Option.bind_eq_some_iff.mp hstep
    obtain ⟨new, hnew, rfl⟩ := Option.map_eq_some_iff.mp hlocal
    by_cases hc : c = c'
    · subst hc
      cases (session_setSession_self t.demux c new).symm.trans hsess
      obtain ⟨hello, rest, hhello, hhanded, hrest⟩ := ht c old hold
      have hdelivered := recv_delivered hold (hdisarmed c old hold).pending
        (t.demux.hasSender c) cap expired
      refine ⟨hello, rest ++ (old.io.recv t.demux.now (t.demux.hasSender c) cap
        expired).2.1.toList, hhello.step hs h hold hsess', ?_, ?_⟩
      · rw [localStep_recv_handed hnew, hhanded, List.cons_append]
      · rw [← hdemux, readBy_recv]
        exact hrest.append hdelivered
    · exact hkept ((session_setSession_ne t.demux new hc).symm.trans hsess)
        hsess' rfl
  · cases (step_stepped hstep).touched with
    | none hsame => exact hkept (hsame ▸ hsess) hsess' rfl
    | promoted ha hlistener hs' =>
        subst ha hs'
        rcases session_insertHandles.mp hsess with ⟨rfl, rfl⟩ | ⟨-, hbefore⟩
        · exact ⟨_, [], insertHandles_helloOf hpending h hlistener, rfl,
            List.nil_sublist _⟩
        · exact hkept hbefore hsess' rfl
    | @one c' old new hbefore hafter hother hmove =>
        by_cases hc : c = c'
        · subst hc
          cases hafter.symm.trans hsess
          exact hkept hbefore hsess' (hmove.handed fun cap expired ha =>
            hreads ⟨c, cap, expired, ha⟩)
        · exact hkept ((hother c hc) ▸ hsess) hsess' rfl

/-! How much waits. -/

/-- A session has its permit for as long as it is alive. -/
def PaidFor (sess : Session) : Prop :=
  sess.pc.live = true → sess.permit.isSome = true

theorem Moved.paidFor {env : Env} {s : State} {c : Conn} {sess sess' : Session}
    {a : Action} (hs : Owned s) (hsess : s.session c = some sess)
    (hpaid : PaidFor sess) (h : Moved env s c sess a sess') :
    PaidFor sess' := by
  intro hlive
  cases h with
  | thread hlocal =>
      rw [hlocal.permit]
      exact hpaid hlocal.live
  | queued hsender hlive' => exact hpaid hlive'
  | spawned hlistener =>
      apply hpaid
      rw [hs.unstarted c hlistener sess hsess]
      rfl
  | unspawned | removeAddr | removeCid | dropPermit => cases hlive
  | startServing hpc | releaseAddr hpc =>
      apply hpaid
      rw [hpc]
      rfl

theorem paidFor_step {env : Env} {s s' : State} {a : Action}
    (hpaid : EverySession PaidFor s) (hs : Owned s)
    (h : DtlsMbed.step env s a = some s') : EverySession PaidFor s' :=
  hpaid.step (fun _ _ _ _ _ _ => rfl)
    (fun _ _ _ hsess hmove hthis => hmove.paidFor hs hsess hthis)
    (step_stepped h)

theorem queued_le {entries : List ((_ : Conn) × Session)} {depth : Nat}
    (hdepth : ∀ entry ∈ entries, entry.2.io.queue.length ≤ depth)
    (hpaid : ∀ entry ∈ entries, entry.2.io.queue ≠ [] →
      entry.2.permit.isSome = true) :
    (entries.map fun entry => entry.2.io.queue.length).sum ≤
      depth * (entries.filterMap fun entry => entry.2.holder).length := by
  induction entries with
  | nil => exact Nat.zero_le _
  | cons entry entries ih =>
      have hrest := ih
        (fun other hmem => hdepth other (List.mem_cons_of_mem entry hmem))
        (fun other hmem => hpaid other (List.mem_cons_of_mem entry hmem))
      rw [List.map_cons, List.sum_cons, List.filterMap_cons, Session.holder]
      cases hpermit : entry.2.permit with
      | none =>
          have hempty : entry.2.io.queue = [] := by
            by_contra hwaits
            have hsome := hpaid entry List.mem_cons_self hwaits
            rw [hpermit] at hsome
            cases hsome
          rw [hempty]
          simpa using hrest
      | some permit =>
          rw [Option.map_some, List.length_cons, Nat.mul_succ, Nat.add_comm]
          exact Nat.add_le_add hrest (hdepth entry List.mem_cons_self)

structure Delivering (maxTotal maxPerIp : Nat) (t : Traffic) : Prop where
  owned : Owned t.demux
  disarmed : EverySession Disarmed t.demux
  paidFor : EverySession PaidFor t.demux
  books : Admission.Books maxTotal maxPerIp ⟨t.demux.quota, holders t.demux⟩
  conserved : Mailboxes.Conserved connChannelDepth t.view
  sourced : Sourced t
  pending : Pending t
  handed : Handed t

theorem init_delivering (maxTotal maxPerIp : Nat) :
    Delivering maxTotal maxPerIp
      (Traffic.init (ConnQuota.new maxTotal maxPerIp)) where
  owned := init_owned _
  disarmed := by simp [EverySession, Traffic.init, init, State.session]
  paidFor := by simp [EverySession, Traffic.init, init, State.session]
  books := Admission.init_books maxTotal maxPerIp
  conserved := Mailboxes.Conserved.empty
  sourced := by simp [Sourced, Traffic.init]
  pending := by simp [Pending, Traffic.init, init, Listener.delivery]
  handed := by simp [Handed, Traffic.init, init, State.session]

theorem Delivering.step {maxTotal maxPerIp : Nat} {env : Env} {t t' : Traffic}
    {a : Action} (ht : Delivering maxTotal maxPerIp t)
    (h : t.step env a = some t') : Delivering maxTotal maxPerIp t' := by
  have hconserved := ht.conserved.follows (Traffic.step_follows ht.owned h)
  have hsourced := ht.sourced.step ht.owned h
  have hpending := ht.pending.step h
  have hhanded := ht.handed.step ht.owned ht.pending ht.disarmed h
  obtain ⟨demux, hstep, rfl⟩ := Option.map_eq_some_iff.mp h
  refine ⟨ht.owned.step (step_stepped hstep), ?_,
    paidFor_step ht.paidFor ht.owned hstep,
    ht.books.drawn_alone (step_drawn ht.owned hstep), hconserved, hsourced,
    hpending, hhanded⟩
  exact ht.disarmed.step
    (fun _ _ _ _ _ => ⟨rfl, by simp [State.promoted, Pc.pastHandshake]⟩)
    (fun _ _ _ _ hmove hthis => hmove.disarmed hthis) (step_stepped hstep)

theorem takenBy_view (t : Traffic) (c : Conn) :
    t.view.takenBy c = (t.takenBy c).map Arrival.delivery := by
  simp [Mailboxes.State.takenBy, Traffic.view, Traffic.takenBy,
    List.filter_map, Function.comp_def]

theorem Delivering.live {maxTotal maxPerIp : Nat} {t : Traffic}
    (ht : Delivering maxTotal maxPerIp t) {c : Conn} {sess : Session}
    (hsess : t.demux.session c = some sess) (hlive : sess.pc.live = true) :
    (t.takenBy c).map Arrival.delivery = t.readBy c ++ sess.io.queue ∧
      sess.io.queue.length ≤ connChannelDepth := by
  rw [← takenBy_view]
  apply ht.conserved.kept c sess.io.queue
  simp [Traffic.view, box_of_session hsess, Session.box, hlive]

theorem Delivering.over {maxTotal maxPerIp : Nat} {t : Traffic}
    (ht : Delivering maxTotal maxPerIp t) {c : Conn} {sess : Session}
    (hsess : t.demux.session c = some sess) (hdead : sess.pc.live = false) :
    sess.io.queue = [] ∧ t.readBy c <+: (t.takenBy c).map Arrival.delivery := by
  rw [← takenBy_view]
  apply ht.conserved.shut c sess.io.queue
  simp [Traffic.view, box_of_session hsess, Session.box, hdead]

/-- Every datagram that waits does so on a permit that a session holds. -/
theorem Delivering.queued_le {maxTotal maxPerIp : Nat} {t : Traffic}
    (ht : Delivering maxTotal maxPerIp t) :
    (t.demux.sessions.entries.map fun entry =>
      entry.2.io.queue.length).sum ≤
        connChannelDepth * (held t.demux).length := by
  have hentry : ∀ entry ∈ t.demux.sessions.entries,
      t.demux.session entry.1 = some entry.2 := fun entry hmem =>
    (Table.mem_entries_iff_lookup t.demux.sessions entry).mp hmem
  apply DtlsMbed.queued_le
  · intro entry hmem
    cases hlive : entry.2.pc.live with
    | true => exact (ht.live (hentry entry hmem) hlive).2
    | false =>
        rw [(ht.over (hentry entry hmem) hlive).1]
        exact Nat.zero_le _
  · intro entry hmem hwaits
    apply ht.paidFor entry.1 entry.2 (hentry entry hmem)
    by_contra hdead
    exact hwaits (ht.over (hentry entry hmem) (by simpa using hdead)).1

end Loft.DtlsMbed
