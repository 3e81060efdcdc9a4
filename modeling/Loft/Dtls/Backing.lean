import Loft.Dtls.Eviction
import Loft.Quota.Drawn

namespace Loft.Dtls

open Loft.Data
open Loft.Data.Transition
open Loft.Admission (Holder Drawn)

/-! Every map entry of the OpenSSL listener is backed by a permit, but for
those of threads that panicked past the removal. -/

def Conn.holder (conn : Conn) : Option Holder :=
  if conn.phase = .finished then none else some ⟨conn.peer.ip, conn.permit⟩

def Listener.holder : Listener → Option Holder
  | .admitted peer permit => some ⟨peer.ip, permit⟩
  | _ => none

/-- The permits that the listener and its connection threads hold. -/
def holders (s : State) : List Holder :=
  s.listener.holder.toList ++ s.threads.filterMap Conn.holder

def routes (s : State) : List IpAddr :=
  s.conns.entries.map fun entry => entry.1.ip

/-- The thread of this connection ends, or has ended, without the removal. -/
def Abandoned (s : State) (c : ConnId) : Prop :=
  ∃ conn, s.threads[c]? = some conn ∧
    (conn.phase = .detached ∨ conn.phase = .finished)

instance (s : State) (c : ConnId) : Decidable (Abandoned s c) :=
  match h : s.threads[c]? with
  | none => isFalse (by simp [Abandoned, h])
  | some conn =>
      decidable_of_iff (conn.phase = .detached ∨ conn.phase = .finished)
        (by simp [Abandoned, h])

/-- Entries without a thread to remove them. -/
def stale (s : State) : List IpAddr :=
  (s.conns.entries.filter fun entry => Abandoned s entry.2).map
    fun entry => entry.1.ip

/-! What the steps do to the permits. -/

theorem holders_setConn {s : State} {c : ConnId} {conn conn' : Conn}
    (hconn : s.threads[c]? = some conn) (hsame : conn'.holder = conn.holder) :
    (holders (s.setConn c conn')).Perm (holders s) :=
  (Admission.filterMap_set_same hconn hsame).append_left _

theorem holders_route (s : State) (peer : SocketAddr) (dgram : Octets)
    (hlistener : s.listener = .receiving) :
    (holders (s.route peer dgram)).Perm (holders s) := by
  unfold State.route
  cases hentry : s.conns.lookup peer with
  | none => simp [holders, hlistener, Listener.holder]
  | some c =>
      dsimp only
      cases hconn : s.threads[c]? with
      | none => simp [holders, hlistener, Listener.holder]
      | some conn =>
          dsimp only
          split_ifs with hserving hroom
          · exact holders_setConn hconn rfl
          · exact List.Perm.refl _
          · simp [holders, hlistener, Listener.holder]

theorem status_route (s : State) (peer : SocketAddr) (dgram : Octets)
    (c : ConnId) : (s.route peer dgram).status c = s.status c := by
  unfold State.route
  cases s.conns.lookup peer with
  | none => rfl
  | some c' =>
      dsimp only
      cases hconn : s.threads[c']? with
      | none => rfl
      | some conn =>
          dsimp only
          split_ifs
          · rw [setConn_status hconn, moved_self (status_of_thread hconn)]
          · rfl
          · rfl

theorem quota_route (s : State) (peer : SocketAddr) (dgram : Octets) :
    (s.route peer dgram).quota = s.quota := by
  unfold State.route
  cases s.conns.lookup peer with
  | none => rfl
  | some c =>
      dsimp only
      cases s.threads[c]? with
      | none => rfl
      | some conn =>
          dsimp only
          split_ifs <;> rfl

theorem step_drawn {s s' : State} {action : Action}
    (h : step s action = some s') :
    Drawn s.quota (holders s) s'.quota (holders s') := by
  cases action with
  | recvFrom peer dgram =>
      cases hlistener : s.listener with
      | receiving =>
          simp only [step, hlistener, Option.some.injEq] at h
          subst h
          rw [quota_route]
          exact .kept (holders_route s peer dgram hlistener)
      | _ => simp [step, hlistener] at h
  | listen outcome =>
      cases hlistener : s.listener with
      | unknown peer =>
          simp only [step, hlistener] at h
          split_ifs at h <;> cases h
          · exact .kept (by simp [holders, hlistener, Listener.holder])
          · exact .kept (by simp [holders, hlistener, Listener.holder])
      | _ => simp [step, hlistener] at h
  | tryAcquire =>
      cases hlistener : s.listener with
      | accepted peer =>
          simp only [step, hlistener] at h
          split at h <;> cases h
          · exact .kept (by simp [holders, hlistener, Listener.holder])
          · rename_i permit quota hacquire
            refine .acquired hacquire ?_
            simp [holders, hlistener, Listener.holder]
      | _ => simp [step, hlistener] at h
  | promote spawned =>
      cases hlistener : s.listener with
      | admitted peer permit =>
          simp only [step, hlistener, Option.some.injEq] at h
          subst h
          cases spawned with
          | false =>
              have hperm : (holders s).Perm (⟨peer.ip, permit⟩ ::
                  holders (s.promote peer permit false)) := by
                simp [holders, hlistener, Listener.holder, State.promote]
              exact .released hperm
          | true =>
              refine .kept ?_
              simp [holders, hlistener, Listener.holder, State.promote,
                Conn.holder]
      | _ => simp [step, hlistener] at h
  | read c =>
      obtain ⟨conn, hconn, hphase, rfl⟩ := stepThread_eq_some h
      exact .kept (holders_setConn hconn rfl)
  | returns c =>
      obtain ⟨conn, hconn, hphase, rfl⟩ := stepThread_eq_some h
      exact .kept (holders_setConn hconn (by simp [Conn.holder, hphase]))
  | panics c =>
      obtain ⟨conn, hconn, hphase, rfl⟩ := stepThread_eq_some h
      exact .kept (holders_setConn hconn (by simp [Conn.holder, hphase]))
  | remove c =>
      obtain ⟨conn, hconn, hphase, rfl⟩ := stepThread_eq_some h
      exact .kept (holders_setConn hconn (by simp [Conn.holder, hphase]))
  | release c =>
      obtain ⟨conn, hconn, hphase, rfl⟩ := stepThread_eq_some h
      have hholder : conn.holder = some ⟨conn.peer.ip, conn.permit⟩ := by
        simp [Conn.holder, hphase]
      have hperm : (holders s).Perm (⟨conn.peer.ip, conn.permit⟩ ::
          holders (s.setConn c { conn with phase := .finished })) := by
        refine List.Perm.trans (List.Perm.append_left _ ?_) List.perm_middle
        exact Admission.filterMap_set_none hconn hholder rfl
      exact .released hperm

/-! What backs an entry. -/

/-- Every entry is that of a connection promoted from its address. -/
def Entered (s : State) : Prop :=
  ∀ a c, s.conns.lookup a = some c → ∃ phase, s.status c = some (a, phase)

theorem moved_entered {s : State} {a peer : SocketAddr} {c c' : ConnId}
    {phase phase' : Phase} (hstatus : s.status c = some (peer, phase))
    (hentry : ∃ phase, s.status c' = some (a, phase)) :
    ∃ phase, moved s.status c peer phase' c' = some (a, phase) := by
  unfold moved
  split_ifs with hsame
  · obtain ⟨phase'', hentry⟩ := hentry
    rw [hsame, hstatus] at hentry
    cases hentry
    exact ⟨phase', rfl⟩
  · exact hentry

theorem Entered.step {s s' : State} {action : Action} (hs : Entered s)
    (h : Effect s s' action) : Entered s' := by
  intro a c hentry
  cases h with
  | quiet hconns hstatus hsource =>
      rw [hconns] at hentry
      rw [hstatus]
      exact hs a c hentry
  | unknown hdead hconns hstatus hsource =>
      rw [hstatus]
      rcases hconns with hsame | ⟨-, herased⟩
      · exact hs a c (hsame ▸ hentry)
      · rw [herased] at hentry
        exact hs a c (Table.lookup_erase_eq_some.mp hentry).2
  | promoted hsource hfresh hconns hstatus hsource' =>
      rw [hconns] at hentry
      rw [hstatus, moved]
      rcases Table.lookup_insert_eq_some.mp hentry with
        ⟨rfl, rfl⟩ | ⟨-, hbefore⟩
      · exact ⟨.serving, if_pos rfl⟩
      · obtain ⟨phase, hphase⟩ := hs a c hbefore
        refine ⟨phase, ?_⟩
        rw [if_neg, hphase]
        intro hsame
        rw [hsame, hfresh] at hphase
        cases hphase
  | unspawned hsource hconns hstatus hsource' =>
      rw [hconns] at hentry
      rw [hstatus]
      obtain ⟨hne, hinserted⟩ := Table.lookup_erase_eq_some.mp hentry
      rcases Table.lookup_insert_eq_some.mp hinserted with ⟨hsame, -⟩ | hbefore
      · exact absurd hsame hne
      · exact hs a c hbefore.2
  | ended hstatus hphase hreturned hconns hstatus' hlistener =>
      rw [hconns] at hentry
      rw [hstatus']
      exact moved_entered hstatus (hs a c hentry)
  | removed hstatus hconns hstatus' hlistener =>
      rw [hconns] at hentry
      rw [hstatus']
      exact moved_entered hstatus
        (hs a c (Table.lookup_erase_eq_some.mp hentry).2)

theorem source_holders (threads : List Conn) :
    (threads.filterMap Conn.holder).map Holder.source =
      (threads.filter fun conn => conn.phase ≠ .finished).map
        fun conn => conn.peer.ip := by
  induction threads with
  | nil => rfl
  | cons conn threads ih =>
      rw [List.filterMap_cons, List.filter_cons, Conn.holder]
      by_cases hphase : conn.phase = .finished
      · simpa [hphase] using ih
      · simpa [hphase] using ih

/-- Each route has a permit of its own, or is stale. -/
theorem Entered.backed {s : State} (hs : Entered s) :
    (routes s).Subperm ((holders s).map Holder.source ++ stale s) := by
  let addresses := s.conns.entries.map fun entry => entry.1
  let running := (s.threads.filter fun conn => conn.phase ≠ .finished).map
    Conn.peer
  let left := (s.conns.entries.filter fun entry => Abandoned s entry.2).map
    fun entry => entry.1
  have hnodup : addresses.Nodup := s.conns.nodupKeys
  have hsubset : addresses ⊆ running ++ left := by
    intro a hmem
    obtain ⟨⟨_, c⟩, hentry, rfl⟩ := List.mem_map.mp hmem
    obtain ⟨phase, hstatus⟩ :=
      hs _ c ((Table.mem_entries_iff_lookup s.conns _).mp hentry)
    obtain ⟨conn, hconn, hpair⟩ := Option.map_eq_some_iff.mp hstatus
    cases hpair
    by_cases hfinished : conn.phase = .finished
    · apply List.mem_append_right
      apply List.mem_map.mpr
      refine ⟨_, List.mem_filter.mpr ⟨hentry, ?_⟩, rfl⟩
      exact decide_eq_true ⟨conn, hconn, .inr hfinished⟩
    · apply List.mem_append_left
      apply List.mem_map.mpr
      refine ⟨conn, List.mem_filter.mpr ⟨?_, decide_eq_true hfinished⟩, rfl⟩
      exact List.mem_of_getElem? hconn
  have hsubperm :=
    Admission.map_subperm_of_subset SocketAddr.ip hnodup hsubset
  have hroutes : addresses.map SocketAddr.ip = routes s :=
    List.map_map
  have hrunning : running.map SocketAddr.ip =
      (s.threads.filterMap Conn.holder).map Holder.source := by
    rw [source_holders]
    exact List.map_map
  have hstale : left.map SocketAddr.ip = stale s :=
    List.map_map
  rw [hroutes, List.map_append, hrunning, hstale] at hsubperm
  refine hsubperm.trans (List.Subperm.append ?_ (List.Subperm.refl _))
  rw [holders, List.map_append]
  exact (List.sublist_append_right _ _).subperm

theorem status_of_abandoned {s : State} {c : ConnId} :
    Abandoned s c ↔ ∃ peer, s.status c = some (peer, .detached) ∨
      s.status c = some (peer, .finished) := by
  constructor
  · intro habandoned
    obtain ⟨conn, hconn, hphase⟩ := habandoned
    refine ⟨conn.peer, ?_⟩
    rw [status_of_thread hconn]
    rcases hphase with hphase | hphase
    · exact .inl (by rw [hphase])
    · exact .inr (by rw [hphase])
  · intro hboth
    obtain ⟨peer, hstatus | hstatus⟩ := hboth
    · obtain ⟨conn, hconn, hpair⟩ := Option.map_eq_some_iff.mp hstatus
      exact ⟨conn, hconn, .inl (congrArg Prod.snd hpair)⟩
    · obtain ⟨conn, hconn, hpair⟩ := Option.map_eq_some_iff.mp hstatus
      exact ⟨conn, hconn, .inr (congrArg Prod.snd hpair)⟩

/-! As long as no thread panics, every entry has a thread to remove it. -/

def Tended (s : State) : Prop :=
  ∀ a c, s.conns.lookup a = some c → ¬ Abandoned s c

theorem abandoned_of_status {s s' : State} {c : ConnId}
    (hstatus : s'.status c = s.status c) (h : Abandoned s' c) :
    Abandoned s c := by
  rw [status_of_abandoned, hstatus, ← status_of_abandoned] at h
  exact h

/-- A thread comes to be abandoned by panicking, or once it has locked the map
and removed the entry of its address. -/
inductive Abandons (s s' : State) (action : Action) (c : ConnId) : Prop
  | before : Abandoned s c → Abandons s s' action c
  | panicked : action = .panics c → Abandons s s' action c
  | removed {peer : SocketAddr} :
      s.status c = some (peer, .returned) → s'.conns = s.conns.erase peer →
      Abandons s s' action c

theorem abandons_of_ne {s s' : State} {action : Action} {c c' : ConnId}
    {peer : SocketAddr} {phase : Phase} (hne : c' ≠ c)
    (hstatus : s'.status = moved s.status c peer phase)
    (h : Abandoned s' c') : Abandons s s' action c' := by
  apply Abandons.before
  apply abandoned_of_status _ h
  rw [hstatus, moved, if_neg hne]

theorem abandoned_self {s s' : State} {c : ConnId} {peer : SocketAddr}
    {phase : Phase} (hstatus : s'.status = moved s.status c peer phase)
    (h : Abandoned s' c) : phase = .detached ∨ phase = .finished := by
  obtain ⟨peer', hphase⟩ := status_of_abandoned.mp h
  rw [hstatus, moved, if_pos rfl] at hphase
  rcases hphase with hphase | hphase
  · exact .inl (congrArg Prod.snd (Option.some.inj hphase))
  · exact .inr (congrArg Prod.snd (Option.some.inj hphase))

theorem step_abandons {s s' : State} {action : Action} {c : ConnId}
    (hstep : step s action = some s') (h : Abandoned s' c) :
    Abandons s s' action c := by
  cases action with
  | read c' =>
      obtain ⟨conn, hconn, hphase, rfl⟩ := stepThread_eq_some hstep
      have hstatus := status_of_thread hconn
      apply Abandons.before
      apply abandoned_of_status _ h
      rw [setConn_status hconn, moved_self hstatus]
  | returns c' =>
      obtain ⟨conn, hconn, hphase, rfl⟩ := stepThread_eq_some hstep
      by_cases hsame : c = c'
      · subst hsame
        have hcases := abandoned_self (setConn_status hconn) h
        simp at hcases
      · exact abandons_of_ne hsame (setConn_status hconn) h
  | panics c' =>
      obtain ⟨conn, hconn, hphase, rfl⟩ := stepThread_eq_some hstep
      by_cases hsame : c = c'
      · exact .panicked (congrArg Action.panics hsame.symm)
      · exact abandons_of_ne hsame (setConn_status hconn) h
  | remove c' =>
      obtain ⟨conn, hconn, hphase, rfl⟩ := stepThread_eq_some hstep
      by_cases hsame : c = c'
      · have hstatus := status_of_thread hconn
        rw [hphase, ← hsame] at hstatus
        exact .removed hstatus rfl
      · exact abandons_of_ne hsame (setConn_status hconn) h
  | release c' =>
      obtain ⟨conn, hconn, hphase, rfl⟩ := stepThread_eq_some hstep
      by_cases hsame : c = c'
      · subst hsame
        exact .before ⟨conn, hconn, .inl hphase⟩
      · exact abandons_of_ne hsame (setConn_status hconn) h
  | recvFrom peer dgram =>
      simp only [step] at hstep
      split at hstep <;> cases hstep
      exact .before (abandoned_of_status (status_route s peer dgram c) h)
  | listen outcome =>
      simp only [step] at hstep
      split at hstep
      · split_ifs at hstep <;> cases hstep
        · exact .before h
        · exact .before h
      · cases hstep
  | tryAcquire =>
      simp only [step] at hstep
      split at hstep
      · split at hstep <;> cases hstep
        · exact .before h
        · exact .before h
      · cases hstep
  | promote spawned =>
      simp only [step] at hstep
      split at hstep <;> cases hstep
      rename_i peer permit hlistener
      cases spawned with
      | false => exact .before h
      | true =>
          by_cases hsame : c = s.threads.length
          · subst hsame
            have hcases := abandoned_self (promote_status s peer permit) h
            simp at hcases
          · exact abandons_of_ne hsame (promote_status s peer permit) h

/-- An entry is an old one, or that of a connection new to the map. -/
theorem Effect.conns_before {s s' : State} {action : Action}
    (h : Effect s s' action) {a : SocketAddr} {c : ConnId}
    (hentry : s'.conns.lookup a = some c) :
    s.conns.lookup a = some c ∨ s.status c = none := by
  cases h with
  | quiet hconns hstatus hsource => exact .inl (hconns ▸ hentry)
  | unknown hdead hconns hstatus hsource =>
      rcases hconns with hsame | ⟨-, herased⟩
      · exact .inl (hsame ▸ hentry)
      · rw [herased] at hentry
        exact .inl (Table.lookup_erase_eq_some.mp hentry).2
  | promoted hsource hfresh hconns hstatus hsource' =>
      rw [hconns] at hentry
      rcases Table.lookup_insert_eq_some.mp hentry with
        ⟨-, rfl⟩ | ⟨-, hbefore⟩
      · exact .inr hfresh
      · exact .inl hbefore
  | unspawned hsource hconns hstatus hsource' =>
      rw [hconns] at hentry
      obtain ⟨hne, hinserted⟩ := Table.lookup_erase_eq_some.mp hentry
      rcases Table.lookup_insert_eq_some.mp hinserted with ⟨hsame, -⟩ | hbefore
      · exact absurd hsame hne
      · exact .inl hbefore.2
  | ended hstatus hphase hreturned hconns hstatus' hlistener =>
      exact .inl (hconns ▸ hentry)
  | removed hstatus hconns hstatus' hlistener =>
      rw [hconns] at hentry
      exact .inl (Table.lookup_erase_eq_some.mp hentry).2

theorem Tended.step {s s' : State} {action : Action} (hs : Tended s)
    (hentered : Entered s) (hcalm : ∀ c, action ≠ .panics c)
    (h : Dtls.step s action = some s') : Tended s' := by
  intro a c hentry habandoned
  have hbefore := (step_effect h).conns_before hentry
  cases step_abandons h habandoned with
  | before habandoned =>
      rcases hbefore with hold | hfresh
      · exact hs a c hold habandoned
      · obtain ⟨conn, hconn, -⟩ := habandoned
        rw [status_of_thread hconn] at hfresh
        cases hfresh
  | panicked haction => exact hcalm c haction
  | @removed peer hstatus hconns =>
      rcases hbefore with hold | hfresh
      · obtain ⟨phase, hpeer⟩ := hentered a c hold
        rw [hstatus] at hpeer
        cases hpeer
        rw [hconns, AList.lookup_erase] at hentry
        cases hentry
      · rw [hfresh] at hstatus
        cases hstatus

theorem Tended.stale {s : State} (hs : Tended s) : stale s = [] := by
  rw [Dtls.stale, List.map_eq_nil_iff, List.filter_eq_nil_iff]
  intro entry hmem habandoned
  exact hs entry.1 entry.2 ((Table.mem_entries_iff_lookup s.conns entry).mp hmem)
    (of_decide_eq_true habandoned)

/-! The listener on books of its own. -/

structure Accounted (maxTotal maxPerIp : Nat) (s : State) : Prop where
  entered : Entered s
  books : Admission.Books maxTotal maxPerIp ⟨s.quota, holders s⟩

theorem init_accounted (maxTotal maxPerIp : Nat) :
    Accounted maxTotal maxPerIp (init (ConnQuota.new maxTotal maxPerIp)) where
  entered a c hentry := by cases hentry
  books := Admission.init_books maxTotal maxPerIp

theorem Accounted.step {maxTotal maxPerIp : Nat} {s s' : State}
    {action : Action} (hs : Accounted maxTotal maxPerIp s)
    (h : Dtls.step s action = some s') : Accounted maxTotal maxPerIp s' where
  entered := hs.entered.step (step_effect h)
  books := hs.books.drawn_alone (step_drawn h)

end Loft.Dtls
