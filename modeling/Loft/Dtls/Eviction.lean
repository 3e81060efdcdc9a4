import Loft.Dtls

namespace Loft.Dtls

open Loft.Data
open Loft.Data.Transition

/-! Which connections keep their map entry. The removal on exit is by address
alone, so it is harmless exactly as long as nobody has been promoted from that
address since the exiting thread gave up its receiver. -/

def State.status (s : State) (c : ConnId) : Option (SocketAddr × Phase) :=
  (s.threads[c]?).map fun conn => (conn.peer, conn.phase)

/-- Every connection with a live receiver has the entry of its address. -/
def KeepsEntry (s : State) : Prop :=
  ∀ c peer, s.status c = some (peer, .serving) → s.conns.lookup peer = some c

def Listener.source : Listener → Option SocketAddr
  | .receiving => none
  | .unknown peer => some peer
  | .accepted peer => some peer
  | .admitted peer _ => some peer

/-- A promotion finds no connection of the same address between dropping its
receiver and locking the map. -/
def PromotedAlone (s : State) : Action → Prop
  | .promote true =>
      ∀ peer, s.listener.source = some peer →
        ∀ c, s.status c ≠ some (peer, .returned)
  | _ => True

/-! What an action does to the map, the statuses and the listener. -/

def moved (status : ConnId → Option (SocketAddr × Phase)) (c : ConnId)
    (peer : SocketAddr) (phase : Phase) (c' : ConnId) :
    Option (SocketAddr × Phase) :=
  if c' = c then some (peer, phase) else status c'

inductive Effect (s s' : State) : Action → Prop
  | quiet {action : Action} :
      s'.conns = s.conns → s'.status = s.status →
      (s'.listener.source = s.listener.source ∨ s'.listener.source = none) →
      Effect s s' action
  | unknown {peer : SocketAddr} {dgram : Octets} :
      (∀ c, s.conns.lookup peer = some c →
        s.status c ≠ some (peer, .serving)) →
      (s'.conns = s.conns ∨
        (∃ c, s.conns.lookup peer = some c ∧
          ∀ peer', s.status c ≠ some (peer', .serving)) ∧
          s'.conns = s.conns.erase peer) →
      s'.status = s.status → s'.listener.source = some peer →
      Effect s s' (.recvFrom peer dgram)
  | promoted {peer : SocketAddr} {c : ConnId} :
      s.listener.source = some peer → s.status c = none →
      s'.conns = s.conns.insert peer c →
      s'.status = moved s.status c peer .serving →
      s'.listener.source = none → Effect s s' (.promote true)
  | unspawned {peer : SocketAddr} {c : ConnId} :
      s.listener.source = some peer →
      s'.conns = (s.conns.insert peer c).erase peer →
      s'.status = s.status → s'.listener.source = none →
      Effect s s' (.promote false)
  | ended {action : Action} {c : ConnId} {peer : SocketAddr}
      {phase phase' : Phase} :
      s.status c = some (peer, phase) → phase' ≠ .serving →
      (phase' = .returned → phase = .serving) →
      s'.conns = s.conns → s'.status = moved s.status c peer phase' →
      s'.listener = s.listener → Effect s s' action
  | removed {c : ConnId} {peer : SocketAddr} :
      s.status c = some (peer, .returned) →
      s'.conns = s.conns.erase peer →
      s'.status = moved s.status c peer .detached →
      s'.listener = s.listener → Effect s s' (.remove c)

theorem stepThread_eq_some {s s' : State} {c : ConnId} {phase : Phase}
    {next : Conn → State} (h : stepThread s c phase next = some s') :
    ∃ conn, s.threads[c]? = some conn ∧ conn.phase = phase ∧
      s' = next conn := by
  unfold stepThread at h
  cases hconn : s.threads[c]? with
  | none => simp [hconn] at h
  | some conn =>
      rw [hconn] at h
      dsimp only at h
      split_ifs at h with hphase
      exact ⟨conn, rfl, hphase, (Option.some.inj h).symm⟩

theorem status_of_thread {s : State} {c : ConnId} {conn : Conn}
    (hconn : s.threads[c]? = some conn) :
    s.status c = some (conn.peer, conn.phase) := by
  rw [State.status, hconn, Option.map_some]

theorem setConn_status {s : State} {c : ConnId} {old conn : Conn}
    (hold : s.threads[c]? = some old) :
    (s.setConn c conn).status = moved s.status c conn.peer conn.phase := by
  funext c'
  unfold State.status State.setConn moved
  dsimp only
  split_ifs with hsame
  · subst hsame
    obtain ⟨hlt, -⟩ := List.getElem?_eq_some_iff.mp hold
    rw [List.getElem?_set_self hlt, Option.map_some]
  · rw [List.getElem?_set_ne (Ne.symm hsame)]

theorem moved_self {s : State} {c : ConnId} {peer : SocketAddr} {phase : Phase}
    (h : s.status c = some (peer, phase)) :
    moved s.status c peer phase = s.status := by
  funext c'
  unfold moved
  split_ifs with hsame
  · rw [hsame, h]
  · rfl

theorem promote_status (s : State) (peer : SocketAddr) (permit : ConnPermit) :
    (s.promote peer permit true).status =
      moved s.status s.threads.length peer .serving := by
  funext c
  simp only [State.status, State.promote, moved, if_true]
  split_ifs with hsame
  · rw [hsame, List.getElem?_concat_length, Option.map_some]
  · rcases Nat.lt_or_gt_of_ne hsame with hlt | hgt
    · rw [List.getElem?_append_left hlt]
    · rw [List.getElem?_eq_none (Nat.le_of_lt hgt), List.getElem?_eq_none]
      rw [List.length_append, List.length_singleton]
      exact Nat.succ_le_of_lt hgt

theorem route_effect (s : State) (peer : SocketAddr) (dgram : Octets) :
    Effect s (s.route peer dgram) (.recvFrom peer dgram) := by
  unfold State.route
  cases hentry : s.conns.lookup peer with
  | none =>
      exact .unknown (fun c hc => by simp [hentry] at hc) (.inl rfl) rfl rfl
  | some c =>
      have hthis {c' : ConnId} (hc' : s.conns.lookup peer = some c') :
          c = c' :=
        Option.some.inj (hentry.symm.trans hc')
      dsimp only
      cases hconn : s.threads[c]? with
      | none =>
          refine .unknown ?_ (.inl rfl) rfl rfl
          intro c' hc' hserving
          rw [← hthis hc', State.status, hconn] at hserving
          cases hserving
      | some conn =>
          have hstatus := status_of_thread hconn
          dsimp only
          split_ifs with hserving hroom
          · refine .quiet rfl ?_ (.inl rfl)
            rw [setConn_status hconn]
            exact moved_self hstatus
          · exact .quiet rfl rfl (.inl rfl)
          · have hdead (peer' : SocketAddr) :
                s.status c ≠ some (peer', .serving) := by
              rw [hstatus]
              intro h
              exact hserving (congrArg Prod.snd (Option.some.inj h))
            refine .unknown ?_ (.inr ⟨⟨c, hentry, hdead⟩, rfl⟩) rfl rfl
            intro c' hc'
            rw [← hthis hc']
            exact hdead peer

theorem step_effect {s s' : State} {action : Action}
    (h : step s action = some s') : Effect s s' action := by
  cases action with
  | recvFrom peer dgram =>
      cases hlistener : s.listener with
      | receiving =>
          simp only [step, hlistener, Option.some.injEq] at h
          subst h
          exact route_effect s peer dgram
      | _ => simp [step, hlistener] at h
  | listen outcome =>
      cases hlistener : s.listener with
      | unknown peer =>
          simp only [step, hlistener] at h
          split_ifs at h <;> cases h
          · exact .quiet rfl rfl (.inl (by rw [hlistener]; rfl))
          · exact .quiet rfl rfl (.inr rfl)
      | _ => simp [step, hlistener] at h
  | tryAcquire =>
      cases hlistener : s.listener with
      | accepted peer =>
          simp only [step, hlistener] at h
          split at h <;> cases h
          · exact .quiet rfl rfl (.inr rfl)
          · exact .quiet rfl rfl (.inl (by rw [hlistener]; rfl))
      | _ => simp [step, hlistener] at h
  | promote spawned =>
      cases hlistener : s.listener with
      | admitted peer permit =>
          simp only [step, hlistener, Option.some.injEq] at h
          subst h
          have hsource : s.listener.source = some peer := by
            rw [hlistener]; rfl
          cases spawned with
          | false => exact .unspawned hsource rfl rfl rfl
          | true =>
              refine .promoted hsource ?_ rfl (promote_status s peer permit) rfl
              rw [State.status, List.getElem?_eq_none (Nat.le_refl _)]
              rfl
      | _ => simp [step, hlistener] at h
  | read c =>
      obtain ⟨conn, hconn, -, rfl⟩ := stepThread_eq_some h
      have hstatus := status_of_thread hconn
      refine .quiet rfl ?_ (.inl rfl)
      rw [setConn_status hconn]
      exact moved_self hstatus
  | returns c =>
      obtain ⟨conn, hconn, hphase, rfl⟩ := stepThread_eq_some h
      exact .ended (status_of_thread hconn) (by simp) (fun _ => hphase) rfl
        (setConn_status hconn) rfl
  | panics c =>
      obtain ⟨conn, hconn, -, rfl⟩ := stepThread_eq_some h
      exact .ended (status_of_thread hconn) (by simp) (by simp) rfl
        (setConn_status hconn) rfl
  | remove c =>
      obtain ⟨conn, hconn, hphase, rfl⟩ := stepThread_eq_some h
      have hstatus := status_of_thread hconn
      rw [hphase] at hstatus
      exact .removed hstatus rfl (setConn_status hconn) rfl
  | release c =>
      obtain ⟨conn, hconn, -, rfl⟩ := stepThread_eq_some h
      exact .ended (status_of_thread hconn) (by simp) (by simp) rfl
        (setConn_status hconn) rfl

/-! The invariant. -/

structure Demuxed (s : State) : Prop where
  entries : KeepsEntry s
  -- The address the listener is busy with has no serving connection.
  stranger : ∀ peer, s.listener.source = some peer →
    ∀ c, s.status c ≠ some (peer, .serving)
  -- A thread about to remove its entry is the last one of its address.
  alone : ∀ c c' peer, s.status c = some (peer, .returned) →
    s.status c' ≠ some (peer, .serving)

theorem init_demuxed (quota : ConnQuota) : Demuxed (init quota) where
  entries := by simp [KeepsEntry, State.status, init]
  stranger := by simp [State.status, init]
  alone := by simp [State.status, init]

theorem Demuxed.unique {s : State} (hs : Demuxed s) {c c' : ConnId}
    {peer : SocketAddr} (hc : s.status c = some (peer, .serving))
    (hc' : s.status c' = some (peer, .serving)) : c = c' :=
  Option.some.inj ((hs.entries c peer hc).symm.trans (hs.entries c' peer hc'))

/-- Whoever is serving after one thread has moved on was serving before. -/
private theorem moved_serving {status : ConnId → Option (SocketAddr × Phase)}
    {c c' : ConnId} {peer peer' : SocketAddr} {phase : Phase}
    (hphase : phase ≠ .serving)
    (h : moved status c peer phase c' = some (peer', .serving)) :
    c' ≠ c ∧ status c' = some (peer', .serving) := by
  unfold moved at h
  split_ifs at h with hsame
  · exact absurd (congrArg Prod.snd (Option.some.inj h)) hphase
  · exact ⟨hsame, h⟩

theorem Demuxed.step {s s' : State} {action : Action} (hs : Demuxed s)
    (hguard : PromotedAlone s action) (hstep : Effect s s' action) :
    Demuxed s' := by
  cases hstep with
  | quiet hconns hstatus hsource =>
      refine ⟨?_, ?_, ?_⟩
      · intro c peer hserving
        rw [hstatus] at hserving
        rw [hconns]
        exact hs.entries c peer hserving
      · intro peer hpeer
        rw [hstatus]
        rcases hsource with hsame | hnone
        · exact hs.stranger peer (hsame ▸ hpeer)
        · rw [hnone] at hpeer
          cases hpeer
      · rw [hstatus]
        exact hs.alone
  | @unknown peer dgram hdead hconns hstatus hsource =>
      have hnone (c : ConnId) : s.status c ≠ some (peer, .serving) :=
        fun hserving => hdead c (hs.entries c peer hserving) hserving
      refine ⟨?_, ?_, ?_⟩
      · intro c peer' hserving
        rw [hstatus] at hserving
        rcases hconns with hsame | ⟨-, herased⟩
        · rw [hsame]
          exact hs.entries c peer' hserving
        · have hne : peer' ≠ peer := by
            intro hsame
            subst hsame
            exact hnone c hserving
          rw [herased, AList.lookup_erase_ne hne]
          exact hs.entries c peer' hserving
      · intro peer' hpeer
        rw [hsource, Option.some.injEq] at hpeer
        rw [hstatus, ← hpeer]
        exact hnone
      · rw [hstatus]
        exact hs.alone
  | @promoted peer c hsource hfresh hconns hstatus hsource' =>
      have hnone := hs.stranger peer hsource
      refine ⟨?_, ?_, ?_⟩
      · intro c' peer' hserving
        rw [hstatus, moved] at hserving
        rw [hconns]
        split_ifs at hserving with hsame
        · cases hserving
          rw [hsame, AList.lookup_insert]
        · have hne : peer' ≠ peer := by
            intro hsame
            subst hsame
            exact hnone c' hserving
          rw [AList.lookup_insert_ne hne]
          exact hs.entries c' peer' hserving
      · simp [hsource']
      · intro c' c'' peer' hreturned hserving
        rw [hstatus, moved] at hreturned hserving
        split_ifs at hreturned with hsame
        · cases hreturned
        · split_ifs at hserving with hsame'
          · cases hserving
            exact hguard peer hsource c' hreturned
          · exact hs.alone c' c'' peer' hreturned hserving
  | @unspawned peer c hsource hconns hstatus hsource' =>
      have hnone := hs.stranger peer hsource
      refine ⟨?_, ?_, ?_⟩
      · intro c' peer' hserving
        rw [hstatus] at hserving
        have hne : peer' ≠ peer := by
          intro hsame
          subst hsame
          exact hnone c' hserving
        rw [hconns, AList.lookup_erase_ne hne, AList.lookup_insert_ne hne]
        exact hs.entries c' peer' hserving
      · simp [hsource']
      · rw [hstatus]
        exact hs.alone
  | @ended _ c peer phase phase' hold hphase hreturned hconns hstatus hlistener =>
      refine ⟨?_, ?_, ?_⟩
      · intro c' peer' hserving
        rw [hstatus] at hserving
        rw [hconns]
        exact hs.entries c' peer' (moved_serving hphase hserving).2
      · intro peer' hpeer c' hserving
        rw [hlistener] at hpeer
        rw [hstatus] at hserving
        exact hs.stranger peer' hpeer c' (moved_serving hphase hserving).2
      · intro c' c'' peer' hreturned' hserving
        rw [hstatus] at hreturned' hserving
        obtain ⟨hne, hbefore⟩ := moved_serving hphase hserving
        unfold moved at hreturned'
        split_ifs at hreturned' with hsame
        · cases hreturned'
          rw [hreturned rfl] at hold
          exact hne (hs.unique hbefore hold)
        · exact hs.alone c' c'' peer' hreturned' hbefore
  | @removed c peer hold hconns hstatus hlistener =>
      have hphase : Phase.detached ≠ .serving := by decide
      refine ⟨?_, ?_, ?_⟩
      · intro c' peer' hserving
        rw [hstatus] at hserving
        have hbefore := (moved_serving hphase hserving).2
        have hne : peer' ≠ peer := by
          intro hsame
          subst hsame
          exact hs.alone c c' peer' hold hbefore
        rw [hconns, AList.lookup_erase_ne hne]
        exact hs.entries c' peer' hbefore
      · intro peer' hpeer c' hserving
        rw [hlistener] at hpeer
        rw [hstatus] at hserving
        exact hs.stranger peer' hpeer c' (moved_serving hphase hserving).2
      · intro c' c'' peer' hreturned' hserving
        rw [hstatus] at hreturned' hserving
        have hbefore := (moved_serving hphase hserving).2
        unfold moved at hreturned'
        split_ifs at hreturned' with hsame
        · cases hreturned'
        · exact hs.alone c' c'' peer' hreturned' hbefore

theorem demuxed_run {quota : ConnQuota} {actions : List Action} {s : State}
    (hguard : Along Dtls.step PromotedAlone (init quota) actions)
    (hrun : run Dtls.step (init quota) actions = some s) : Demuxed s :=
  run_invariant_along Dtls.step
    (fun _ _ _ hs hhere hstep => hs.step hhere (step_effect hstep))
    (init_demuxed quota) hguard hrun

theorem remove_of_returned {s : State} {c : ConnId} {peer : SocketAddr}
    (hreturned : s.status c = some (peer, .returned)) :
    ∃ s', step s (.remove c) = some s' ∧ s'.conns = s.conns.erase peer ∧
      s'.status = moved s.status c peer .detached := by
  obtain ⟨conn, hconn, hpair⟩ := Option.map_eq_some_iff.mp hreturned
  obtain ⟨rfl, hphase⟩ := Prod.mk.inj hpair
  refine ⟨{ s.setConn c { conn with phase := .detached } with
    conns := s.conns.erase conn.peer }, ?_, rfl, setConn_status hconn⟩
  rw [step, stepThread, hconn]
  exact if_pos hphase

/-- Promoted into the window, a connection is cut off by the removal. -/
theorem promoted_then_removed {s s' : State} {peer : SocketAddr} {c : ConnId}
    (hsource : s.listener.source = some peer)
    (hreturned : s.status c = some (peer, .returned))
    (hstep : step s (.promote true) = some s') :
    ∃ s'', step s' (.remove c) = some s'' ∧ ¬ KeepsEntry s'' := by
  cases hlistener : s.listener with
  | admitted peer' permit =>
      obtain rfl : peer' = peer := by
        rw [hlistener] at hsource
        exact Option.some.inj hsource
      simp only [step, hlistener, Option.some.injEq] at hstep
      subst hstep
      have hother : c ≠ s.threads.length := by
        intro hsame
        subst hsame
        rw [State.status, List.getElem?_eq_none (Nat.le_refl _)] at hreturned
        cases hreturned
      have hreturned' : (s.promote peer' permit true).status c =
          some (peer', .returned) := by
        rw [promote_status, moved, if_neg hother, hreturned]
      obtain ⟨s'', hremove, hconns, hstatus⟩ := remove_of_returned hreturned'
      refine ⟨s'', hremove, fun hkeeps => ?_⟩
      have hentry := hkeeps s.threads.length peer' (by
        rw [hstatus, moved, if_neg (Ne.symm hother), promote_status, moved,
          if_pos rfl])
      rw [hconns, AList.lookup_erase] at hentry
      cases hentry
  | _ => simp [step, hlistener] at hstep

theorem live_entry_kept (quota : ConnQuota) (actions : List Action)
    (s : State) (hrun : run step (init quota) actions = some s) :
    (Along step PromotedAlone (init quota) actions →
      KeepsEntry s ∧
        ∀ c s', step s (.remove c) = some s' → KeepsEntry s') ∧
    ∀ s', step s (.promote true) = some s' → ¬ PromotedAlone s (.promote true) →
      ∃ c s'', step s' (.remove c) = some s'' ∧ ¬ KeepsEntry s'' := by
  refine ⟨fun hguard => ?_, fun s' hstep hwindow => ?_⟩
  · have hs := demuxed_run hguard hrun
    refine ⟨hs.entries, fun c s' hstep => ?_⟩
    have hguard' : PromotedAlone s (.remove c) := trivial
    exact (hs.step hguard' (step_effect hstep)).entries
  · simp only [PromotedAlone, not_forall, not_not] at hwindow
    obtain ⟨peer, hsource, c, hreturned⟩ := hwindow
    exact ⟨c, promoted_then_removed hsource hreturned hstep⟩

def client : SocketAddr where
  ip := .v4 0xC0000201
  port := 40000

def cookieExchange : List Action :=
  [.recvFrom client [0x16], .listen .retry, .recvFrom client [0x16],
    .listen .accepted, .tryAcquire]

def reconnect : List Action :=
  cookieExchange ++ .promote true :: .returns 0 :: cookieExchange

def limits : ConnQuota :=
  ConnQuota.new 4096 256

theorem live_entry_kept_reconnect :
    ∃ s, run step (init limits) reconnect = some s ∧
      (Along step PromotedAlone (init limits) reconnect →
        KeepsEntry s ∧
          ∀ c s', step s (.remove c) = some s' → KeepsEntry s') ∧
      ∀ s', step s (.promote true) = some s' →
        ¬ PromotedAlone s (.promote true) →
          ∃ c s'', step s' (.remove c) = some s'' ∧ ¬ KeepsEntry s'' := by
  have hsome : (run step (init limits) reconnect).isSome = true := by decide
  obtain ⟨s, hrun⟩ := Option.isSome_iff_exists.mp hsome
  exact ⟨s, hrun, live_entry_kept limits reconnect s hrun⟩

/-- The second connection is alive and has lost its entry to the first one's
removal. -/
theorem successor_evicted :
    ∃ s, run step (init limits)
        (reconnect ++ [.promote true, .remove 0]) = some s ∧
      s.status 1 = some (client, .serving) ∧
      s.conns.lookup client = none ∧ ¬ KeepsEntry s := by
  have hend : (run step (init limits)
      (reconnect ++ [.promote true, .remove 0])).map
        (fun s => (s.status 1, s.conns.lookup client)) =
        some (some (client, .serving), none) := by decide
  obtain ⟨s, hrun, hpair⟩ := Option.map_eq_some_iff.mp hend
  obtain ⟨hstatus, hentry⟩ := Prod.mk.inj hpair
  refine ⟨s, hrun, hstatus, hentry, fun hkeeps => ?_⟩
  rw [hkeeps 1 client hstatus] at hentry
  cases hentry

end Loft.Dtls
