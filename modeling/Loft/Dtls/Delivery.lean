import Loft.Data.Mailboxes
import Loft.Dtls.Backing

namespace Loft.Dtls

open Loft.Data
open Loft.Data.Transition

/-! Which connection thread a datagram comes to, over whole runs of the OpenSSL
listener. -/

/-- `taker` is the connection whose channel the datagram was put into. -/
structure Arrival where
  source : SocketAddr
  dgram : Octets
  taker : Option ConnId
  deriving DecidableEq, Repr

/-- The demux, with all that has arrived and all that the threads have read. -/
structure Traffic where
  demux : State
  arrived : List Arrival
  read : List (ConnId × Octets)

namespace State

def takes (s : State) (c : ConnId) : Bool :=
  (s.threads[c]?).any fun conn =>
    conn.phase = .serving ∧ conn.queue.length < connChannelDepth

def taker (s : State) (peer : SocketAddr) : Option ConnId :=
  (s.conns.lookup peer).filter s.takes

def waiting (s : State) (c : ConnId) : List Octets :=
  ((s.threads[c]?).map Conn.queue).getD []

end State

namespace Traffic

def init (quota : ConnQuota) : Traffic where
  demux := Dtls.init quota
  arrived := []
  read := []

def arrivedAfter (t : Traffic) : Action → List Arrival
  | .recvFrom peer dgram => t.arrived ++ [⟨peer, dgram, t.demux.taker peer⟩]
  | _ => t.arrived

def readAfter (t : Traffic) : Action → List (ConnId × Octets)
  | .read c =>
      t.read ++ (t.demux.waiting c).head?.toList.map fun dgram => (c, dgram)
  | _ => t.read

def step (t : Traffic) (a : Action) : Option Traffic :=
  (Dtls.step t.demux a).map fun demux =>
    { demux := demux, arrived := t.arrivedAfter a, read := t.readAfter a }

def takenBy (t : Traffic) (c : ConnId) : List Arrival :=
  t.arrived.filter fun arrival => arrival.taker = some c

def readBy (t : Traffic) (c : ConnId) : List Octets :=
  (t.read.filter fun entry => entry.1 = c).map Prod.snd

end Traffic

/-! The channels as mailboxes. -/

def Conn.box (conn : Conn) : Mailboxes.Box Octets where
  queue := conn.queue
  isOpen := decide (conn.phase = .serving)

def State.box (s : State) (c : ConnId) : Option (Mailboxes.Box Octets) :=
  (s.threads[c]?).map Conn.box

def Traffic.view (t : Traffic) : Mailboxes.State ConnId Octets where
  box := t.demux.box
  arrived := t.arrived.map fun arrival => (arrival.dgram, arrival.taker)
  read := t.read

theorem box_of_thread {s : State} {c : ConnId} {conn : Conn}
    (hconn : s.threads[c]? = some conn) : s.box c = some conn.box := by
  rw [State.box, hconn, Option.map_some]

theorem setConn_box {s : State} {c : ConnId} {old conn : Conn}
    (hold : s.threads[c]? = some old) :
    (s.setConn c conn).box = Function.update s.box c (some conn.box) := by
  funext c'
  rw [Function.update_apply]
  unfold State.box State.setConn
  dsimp only
  split_ifs with hsame
  · subst hsame
    obtain ⟨hlt, -⟩ := List.getElem?_eq_some_iff.mp hold
    rw [List.getElem?_set_self hlt, Option.map_some]
  · rw [List.getElem?_set_ne (Ne.symm hsame)]

theorem promote_box (s : State) (peer : SocketAddr) (permit : ConnPermit) :
    (s.promote peer permit true).box =
      Function.update s.box s.threads.length (some ⟨[], true⟩) := by
  funext c
  rw [Function.update_apply]
  simp only [State.box, State.promote, if_true]
  split_ifs with hsame
  · rw [hsame, List.getElem?_concat_length, Option.map_some]
    rfl
  · rcases Nat.lt_or_gt_of_ne hsame with hlt | hgt
    · rw [List.getElem?_append_left hlt]
    · rw [List.getElem?_eq_none (Nat.le_of_lt hgt), List.getElem?_eq_none]
      rw [List.length_append, List.length_singleton]
      exact Nat.succ_le_of_lt hgt

theorem takes_iff {s : State} {c : ConnId} :
    s.takes c = true ↔ ∃ conn, s.threads[c]? = some conn ∧
      conn.phase = .serving ∧ conn.queue.length < connChannelDepth := by
  simp [State.takes, Option.any_eq_true]

theorem route_taken {s : State} {peer : SocketAddr} {c : ConnId}
    (dgram : Octets) (htaker : s.taker peer = some c) :
    ∃ conn, s.threads[c]? = some conn ∧ conn.phase = .serving ∧
      conn.queue.length < connChannelDepth ∧
      s.route peer dgram =
        s.setConn c { conn with queue := conn.queue ++ [dgram] } := by
  obtain ⟨hentry, htakes⟩ := Option.filter_eq_some_iff.mp htaker
  obtain ⟨conn, hconn, hphase, hroom⟩ := takes_iff.mp htakes
  refine ⟨conn, hconn, hphase, hroom, ?_⟩
  simp only [State.route, hentry, hconn, if_pos hphase, if_pos hroom]

theorem route_lost {s : State} {peer : SocketAddr} (dgram : Octets)
    (htaker : s.taker peer = none) : (s.route peer dgram).box = s.box := by
  unfold State.route
  cases hentry : s.conns.lookup peer with
  | none => rfl
  | some c =>
      dsimp only
      cases hconn : s.threads[c]? with
      | none => rfl
      | some conn =>
          dsimp only
          split_ifs with hphase hroom
          · have htakes : s.takes c = true := takes_iff.mpr
              ⟨conn, hconn, hphase, hroom⟩
            simp [State.taker, hentry, htakes] at htaker
          · rfl
          · rfl

theorem setConn_box_self {s : State} {c : ConnId} {conn conn' : Conn}
    (hconn : s.threads[c]? = some conn) (hsame : conn'.box = conn.box) :
    (s.setConn c conn').box = s.box := by
  rw [setConn_box hconn, hsame, ← box_of_thread hconn, Function.update_eq_self]

/-- Steps in which nothing arrives and nothing is read. -/
theorem step_box {s s' : State} {a : Action} (h : step s a = some s')
    (harrives : ∀ peer dgram, a ≠ .recvFrom peer dgram)
    (hreads : ∀ c, a ≠ .read c) :
    s'.box = s.box ∨
      (∃ c, s.box c = none ∧
        s'.box = Function.update s.box c (some ⟨[], true⟩)) ∨
      ∃ c b, s.box c = some b ∧
        s'.box = Function.update s.box c (some ⟨[], false⟩) := by
  cases a with
  | recvFrom peer dgram => exact absurd rfl (harrives peer dgram)
  | read c => exact absurd rfl (hreads c)
  | listen outcome =>
      simp only [step] at h
      split at h
      · split_ifs at h <;> cases h
        · exact .inl rfl
        · exact .inl rfl
      · cases h
  | tryAcquire =>
      simp only [step] at h
      split at h
      · split at h <;> cases h
        · exact .inl rfl
        · exact .inl rfl
      · cases h
  | promote spawned =>
      simp only [step] at h
      split at h <;> cases h
      rename_i peer permit hlistener
      cases spawned with
      | false => exact .inl rfl
      | true =>
          refine .inr (.inl ⟨s.threads.length, ?_, promote_box s peer permit⟩)
          rw [State.box, List.getElem?_eq_none (Nat.le_refl _)]
          rfl
  | returns c | panics c =>
      obtain ⟨conn, hconn, -, rfl⟩ := stepThread_eq_some h
      exact .inr (.inr ⟨c, conn.box, box_of_thread hconn, setConn_box hconn⟩)
  | remove c | release c =>
      obtain ⟨conn, hconn, hphase, rfl⟩ := stepThread_eq_some h
      refine .inl (setConn_box_self hconn ?_)
      simp [Conn.box, hphase]

namespace Traffic

theorem recvFrom_follows {t t' : Traffic} {peer : SocketAddr} {dgram : Octets}
    (h : t.step (.recvFrom peer dgram) = some t') :
    Mailboxes.Follows connChannelDepth t.view t'.view := by
  obtain ⟨demux, hstep, rfl⟩ := Option.map_eq_some_iff.mp h
  simp only [Dtls.step] at hstep
  split at hstep <;> cases hstep
  cases htaker : t.demux.taker peer with
  | none =>
      refine .inr ⟨.lost dgram, ?_⟩
      have hlost : Mailboxes.Step connChannelDepth t.view (.lost dgram) _ :=
        .lost t.view dgram
      simpa [view, arrivedAfter, readAfter, htaker, route_lost dgram htaker]
        using hlost
  | some c =>
      obtain ⟨conn, hconn, hphase, hroom, hroute⟩ := route_taken dgram htaker
      refine .inr ⟨.taken c dgram, ?_⟩
      have hbox : t.view.box c = some ⟨conn.queue, true⟩ := by
        simp [view, State.box, hconn, Conn.box, hphase]
      have htaken := Mailboxes.Step.taken dgram hbox hroom
      simpa [view, arrivedAfter, readAfter, htaker, hroute, setConn_box hconn,
        Conn.box, hphase, Mailboxes.State.setBox] using htaken

theorem read_follows {t t' : Traffic} {c : ConnId}
    (h : t.step (.read c) = some t') :
    Mailboxes.Follows connChannelDepth t.view t'.view := by
  obtain ⟨demux, hstep, rfl⟩ := Option.map_eq_some_iff.mp h
  obtain ⟨conn, hconn, hphase, rfl⟩ := stepThread_eq_some hstep
  cases hqueue : conn.queue with
  | nil =>
      have hsame : (t.demux.setConn c { conn with queue := [] }).box =
          t.demux.box :=
        setConn_box_self hconn (by simp [Conn.box, hqueue])
      refine .inl ?_
      simp [view, arrivedAfter, readAfter, State.waiting, hconn, hqueue, hsame]
  | cons dgram rest =>
      have hbox : t.view.box c = some ⟨dgram :: rest, true⟩ := by
        simp [view, State.box, hconn, Conn.box, hphase, hqueue]
      refine .inr ⟨.read c dgram, ?_⟩
      have hread : Mailboxes.Step connChannelDepth t.view _ _ := .read hbox
      simpa [view, arrivedAfter, readAfter, State.waiting, hconn, hqueue,
        setConn_box hconn, Conn.box, hphase, Mailboxes.State.setBox] using hread

theorem step_follows {t t' : Traffic} {a : Action} (h : t.step a = some t') :
    Mailboxes.Follows connChannelDepth t.view t'.view := by
  by_cases harrives : ∃ peer dgram, a = .recvFrom peer dgram
  · obtain ⟨peer, dgram, rfl⟩ := harrives
    exact recvFrom_follows h
  by_cases hreads : ∃ c, a = .read c
  · obtain ⟨c, rfl⟩ := hreads
    exact read_follows h
  obtain ⟨demux, hstep, rfl⟩ := Option.map_eq_some_iff.mp h
  have harrived : t.arrivedAfter a = t.arrived := by
    unfold arrivedAfter
    split
    · exact absurd ⟨_, _, rfl⟩ harrives
    · rfl
  have hread : t.readAfter a = t.read := by
    unfold readAfter
    split
    · exact absurd ⟨_, rfl⟩ hreads
    · rfl
  rw [harrived, hread]
  rcases step_box hstep (by simpa using harrives) (by simpa using hreads) with
    hsame | ⟨c, hnone, hopened⟩ | ⟨c, b, hsome, hclosed⟩
  · refine .inl ?_
    simp only [view, hsame]
  · refine .inr ⟨.opened c, ?_⟩
    have hstep : Mailboxes.Step connChannelDepth t.view _ _ := .opened hnone
    simpa only [view, hopened, Mailboxes.State.setBox] using hstep
  · refine .inr ⟨.closed c, ?_⟩
    have hstep : Mailboxes.Step connChannelDepth t.view _ _ := .closed hsome
    simpa only [view, hclosed, Mailboxes.State.setBox] using hstep

end Traffic

/-! Whose datagrams they are. -/

/-- A connection keeps its number and its address. -/
theorem Effect.keeps_peer {s s' : State} {a : Action} (h : Effect s s' a)
    {c : ConnId} {peer : SocketAddr}
    (hstatus : ∃ phase, s.status c = some (peer, phase)) :
    ∃ phase, s'.status c = some (peer, phase) := by
  cases h with
  | quiet _ hsame _ | unknown _ _ hsame _ | unspawned _ _ hsame _ =>
      rw [hsame]
      exact hstatus
  | promoted _ hfresh _ hmoved _ =>
      obtain ⟨phase, hphase⟩ := hstatus
      refine ⟨phase, ?_⟩
      rw [hmoved, moved, if_neg, hphase]
      intro hsame
      rw [hsame, hfresh] at hphase
      cases hphase
  | ended hwas _ _ _ hmoved _ | removed hwas _ hmoved _ =>
      rw [hmoved]
      exact moved_entered hwas hstatus

/-- Nobody takes what was sent by another. -/
def Sourced (t : Traffic) : Prop :=
  ∀ arrival ∈ t.arrived, ∀ c, arrival.taker = some c →
    ∃ phase, t.demux.status c = some (arrival.source, phase)

theorem Sourced.step {t t' : Traffic} {a : Action} (ht : Sourced t)
    (hentered : Entered t.demux) (h : t.step a = some t') : Sourced t' := by
  obtain ⟨demux, hstep, rfl⟩ := Option.map_eq_some_iff.mp h
  have heffect := step_effect hstep
  intro arrival hmem c htaker
  apply heffect.keeps_peer
  cases a with
  | recvFrom peer dgram =>
      rcases List.mem_append.mp hmem with hbefore | hnew
      · exact ht arrival hbefore c htaker
      · rw [List.mem_singleton.mp hnew] at htaker ⊢
        exact hentered peer c (Option.filter_eq_some_iff.mp htaker).1
  | _ => exact ht arrival hmem c htaker

/-! How much waits. -/

theorem queued_le {threads : List Conn} {depth : Nat}
    (hdepth : ∀ conn ∈ threads, conn.queue.length ≤ depth)
    (hfinished : ∀ conn ∈ threads, conn.phase = .finished → conn.queue = []) :
    (threads.map fun conn => conn.queue.length).sum ≤
      depth * (threads.filterMap Conn.holder).length := by
  induction threads with
  | nil => exact Nat.zero_le _
  | cons conn threads ih =>
      have hrest := ih
        (fun other hmem => hdepth other (List.mem_cons_of_mem conn hmem))
        (fun other hmem => hfinished other (List.mem_cons_of_mem conn hmem))
      rw [List.map_cons, List.sum_cons, List.filterMap_cons, Conn.holder]
      by_cases hphase : conn.phase = .finished
      · rw [if_pos hphase, hfinished conn List.mem_cons_self hphase]
        simpa using hrest
      · rw [if_neg hphase, List.length_cons, Nat.mul_succ, Nat.add_comm]
        exact Nat.add_le_add hrest (hdepth conn List.mem_cons_self)

structure Delivering (maxTotal maxPerIp : Nat) (t : Traffic) : Prop where
  accounted : Accounted maxTotal maxPerIp t.demux
  conserved : Mailboxes.Conserved connChannelDepth t.view
  sourced : Sourced t

theorem init_delivering (maxTotal maxPerIp : Nat) :
    Delivering maxTotal maxPerIp
      (Traffic.init (ConnQuota.new maxTotal maxPerIp)) where
  accounted := init_accounted maxTotal maxPerIp
  conserved := Mailboxes.Conserved.empty
  sourced := by simp [Sourced, Traffic.init]

theorem Delivering.step {maxTotal maxPerIp : Nat} {t t' : Traffic} {a : Action}
    (ht : Delivering maxTotal maxPerIp t) (h : t.step a = some t') :
    Delivering maxTotal maxPerIp t' := by
  obtain ⟨demux, hstep, hdemux⟩ := Option.map_eq_some_iff.mp h
  refine ⟨?_, ht.conserved.follows (Traffic.step_follows h),
    ht.sourced.step ht.accounted.entered h⟩
  rw [← hdemux]
  exact ht.accounted.step hstep

theorem takenBy_view (t : Traffic) (c : ConnId) :
    t.view.takenBy c = (t.takenBy c).map Arrival.dgram := by
  simp [Mailboxes.State.takenBy, Traffic.view, Traffic.takenBy,
    List.filter_map, Function.comp_def]

theorem Delivering.serving {maxTotal maxPerIp : Nat} {t : Traffic}
    (ht : Delivering maxTotal maxPerIp t) {c : ConnId} {conn : Conn}
    (hconn : t.demux.threads[c]? = some conn) (hphase : conn.phase = .serving) :
    (t.takenBy c).map Arrival.dgram = t.readBy c ++ conn.queue ∧
      conn.queue.length ≤ connChannelDepth := by
  rw [← takenBy_view]
  apply ht.conserved.kept c conn.queue
  simp [Traffic.view, box_of_thread hconn, Conn.box, hphase]

theorem Delivering.over {maxTotal maxPerIp : Nat} {t : Traffic}
    (ht : Delivering maxTotal maxPerIp t) {c : ConnId} {conn : Conn}
    (hconn : t.demux.threads[c]? = some conn) (hphase : conn.phase ≠ .serving) :
    conn.queue = [] ∧ t.readBy c <+: (t.takenBy c).map Arrival.dgram := by
  rw [← takenBy_view]
  apply ht.conserved.shut c conn.queue
  simp [Traffic.view, box_of_thread hconn, Conn.box, hphase]

theorem Delivering.source {maxTotal maxPerIp : Nat} {t : Traffic}
    (ht : Delivering maxTotal maxPerIp t) {c : ConnId} {conn : Conn}
    (hconn : t.demux.threads[c]? = some conn) :
    ∀ arrival ∈ t.takenBy c, arrival.source = conn.peer := by
  intro arrival hmem
  obtain ⟨harrived, htaker⟩ := List.mem_filter.mp hmem
  obtain ⟨phase, hstatus⟩ :=
    ht.sourced arrival harrived c (of_decide_eq_true htaker)
  rw [status_of_thread hconn] at hstatus
  exact (congrArg Prod.fst (Option.some.inj hstatus)).symm

/-- Every datagram that waits does so on a permit that a thread holds. -/
theorem Delivering.queued_le {maxTotal maxPerIp : Nat} {t : Traffic}
    (ht : Delivering maxTotal maxPerIp t) :
    (t.demux.threads.map fun conn => conn.queue.length).sum ≤
      connChannelDepth * (t.demux.threads.filterMap Conn.holder).length := by
  apply Dtls.queued_le
  · intro conn hmem
    obtain ⟨c, hconn⟩ := List.mem_iff_getElem?.mp hmem
    by_cases hphase : conn.phase = .serving
    · exact (ht.serving hconn hphase).2
    · rw [(ht.over hconn hphase).1]
      exact Nat.zero_le _
  · intro conn hmem hphase
    obtain ⟨c, hconn⟩ := List.mem_iff_getElem?.mp hmem
    exact (ht.over hconn (by simp [hphase])).1

theorem Delivering.holders_le {maxTotal maxPerIp : Nat} {t : Traffic}
    (ht : Delivering maxTotal maxPerIp t) :
    (t.demux.threads.filterMap Conn.holder).length ≤ t.demux.quota.total ∧
      t.demux.quota.total ≤ maxTotal := by
  have htotal := ht.accounted.books.total
  dsimp only at htotal
  rw [holders, List.length_append] at htotal
  exact ⟨by omega, ht.accounted.books.total_le⟩

theorem traffic_demuxed {quota : ConnQuota} {actions : List Action}
    {t : Traffic}
    (hguard : Along Traffic.step (fun t => PromotedAlone t.demux)
      (Traffic.init quota) actions)
    (hrun : run Traffic.step (Traffic.init quota) actions = some t) :
    Demuxed t.demux := by
  apply @run_invariant_along _ _ Traffic.step (fun t => Demuxed t.demux) _
    _ _ _ _ (init_demuxed quota) hguard hrun
  intro t a t' ht hguard h
  obtain ⟨demux, hstep, hdemux⟩ := Option.map_eq_some_iff.mp h
  rw [← hdemux]
  exact ht.step hguard (step_effect hstep)

/-- A thread reads what came from its own address, in order and once; as long
as it serves, nothing that its channel took is lost. The last part needs that
nobody is promoted between the return of an earlier connection of its address
and the removal of that one's entry. -/
theorem delivered_in_order {maxTotal maxPerIp : Nat} {actions : List Action}
    {t : Traffic}
    (hrun : run Traffic.step (Traffic.init (ConnQuota.new maxTotal maxPerIp))
      actions = some t) :
    (∀ c conn, t.demux.threads[c]? = some conn →
      (∀ arrival ∈ t.takenBy c, arrival.source = conn.peer) ∧
      t.readBy c ++ conn.queue <+: (t.takenBy c).map Arrival.dgram ∧
      (conn.phase = .serving →
        t.readBy c ++ conn.queue = (t.takenBy c).map Arrival.dgram)) ∧
    (t.demux.threads.map fun conn => conn.queue.length).sum ≤
      connChannelDepth * (t.demux.threads.filterMap Conn.holder).length ∧
    (t.demux.threads.filterMap Conn.holder).length ≤ t.demux.quota.total ∧
    t.demux.quota.total ≤ maxTotal ∧
    (Along Traffic.step (fun t => PromotedAlone t.demux)
        (Traffic.init (ConnQuota.new maxTotal maxPerIp)) actions →
      ∀ c conn, t.demux.threads[c]? = some conn → conn.phase = .serving →
        conn.queue.length < connChannelDepth →
        t.demux.taker conn.peer = some c) := by
  have ht : Delivering maxTotal maxPerIp t :=
    run_invariant Traffic.step (fun _ _ _ ht h => ht.step h)
      (init_delivering maxTotal maxPerIp) hrun
  refine ⟨?_, ht.queued_le, ht.holders_le.1, ht.holders_le.2, ?_⟩
  · intro c conn hconn
    refine ⟨ht.source hconn, ?_, ?_⟩
    · by_cases hphase : conn.phase = .serving
      · refine ⟨[], ?_⟩
        rw [List.append_nil, (ht.serving hconn hphase).1]
      · rw [(ht.over hconn hphase).1, List.append_nil]
        exact (ht.over hconn hphase).2
    · intro hphase
      exact (ht.serving hconn hphase).1.symm
  · intro hguard c conn hconn hphase hroom
    have hentry := (traffic_demuxed hguard hrun).entries c conn.peer
      (by rw [status_of_thread hconn, hphase])
    refine Option.filter_eq_some_iff.mpr ⟨hentry, takes_iff.mpr ?_⟩
    exact ⟨conn, hconn, hphase, hroom⟩

def served : List Action :=
  cookieExchange ++ [.promote true, .recvFrom client [23, 1],
    .recvFrom client [23, 2], .read 0]

theorem delivered_in_order_served :
    ∃ t, run Traffic.step (Traffic.init (ConnQuota.new 4096 256)) served =
        some t ∧
      t.readBy 0 = [[23, 1]] ∧ t.demux.waiting 0 = [[23, 2]] ∧
      (∀ c conn, t.demux.threads[c]? = some conn →
        ∀ arrival ∈ t.takenBy c, arrival.source = conn.peer) ∧
      (t.demux.threads.map fun conn => conn.queue.length).sum ≤
        32 * (t.demux.threads.filterMap Conn.holder).length := by
  have hread : (run Traffic.step (Traffic.init (ConnQuota.new 4096 256))
      served).map (fun t => (t.readBy 0, t.demux.waiting 0)) =
        some ([[23, 1]], [[23, 2]]) := by
    decide +kernel
  obtain ⟨t, hrun, hboth⟩ := Option.map_eq_some_iff.mp hread
  obtain ⟨hown, hwaiting, -⟩ := delivered_in_order hrun
  exact ⟨t, hrun, congrArg Prod.fst hboth, congrArg Prod.snd hboth,
    fun c conn hconn => (hown c conn hconn).1, hwaiting⟩

end Loft.Dtls
