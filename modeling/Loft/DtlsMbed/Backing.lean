import Loft.DtlsMbed.Demux
import Loft.Quota.Drawn

namespace Loft.DtlsMbed

open Loft.Data
open Loft.Data.Transition
open Loft.MbedtlsShim
open Loft.Admission (Holder Drawn)

/-! Every entry of the two demux maps is backed by the permit of its session,
but while the listener is taking the entries of an unspawned one out. -/

def Session.holder (sess : Session) : Option Holder :=
  sess.permit.map fun permit => ⟨sess.peer.ip, permit⟩

def Listener.holder : Listener → Option Holder
  | .admitted peer _ _ permit => some ⟨peer.ip, permit⟩
  | _ => none

def held (s : State) : List Holder :=
  s.sessions.entries.filterMap fun entry => entry.2.holder

/-- The permits that the listener and its sessions hold. -/
def holders (s : State) : List Holder :=
  s.listener.holder.toList ++ held s

/-- The source of a session, as it was admitted. -/
def source (s : State) (c : Conn) : IpAddr :=
  ((s.session c).map fun sess => sess.peer.ip).getD (.v4 0)

def addrRoutes (s : State) : List IpAddr :=
  s.byAddr.entries.map fun entry => entry.1.ip

def cidRoutes (s : State) : List IpAddr :=
  s.byCid.entries.map fun entry => source s entry.2

/-- The session whose thread could not be spawned. -/
def Listener.undoing : Listener → List Conn
  | .despawning c => [c]
  | _ => []

def unspawned (s : State) : List IpAddr :=
  s.listener.undoing.map (source s)

/-! What the steps do to the permits. -/

/-- One session apart, the others hold what they hold. -/
theorem held_split {s : State} {c : Conn} {sess : Session}
    (hsess : s.session c = some sess) :
    ∃ rest : List Holder, (held s).Perm (sess.holder.toList ++ rest) ∧
      ∀ sess', (held (s.setSession c sess')).Perm
        (sess'.holder.toList ++ rest) := by
  refine ⟨(s.sessions.erase c).entries.filterMap fun entry => entry.2.holder,
    ?_, ?_⟩
  · refine ((Table.perm_entries hsess).filterMap _).trans ?_
    rw [List.filterMap_cons]
    cases sess.holder <;> exact List.Perm.refl _
  · intro sess'
    have hentries : held (s.setSession c sess') =
        List.filterMap (fun entry => entry.2.holder)
          (⟨c, sess'⟩ :: (s.sessions.erase c).entries) := rfl
    rw [hentries, List.filterMap_cons]
    cases sess'.holder <;> exact List.Perm.refl _

theorem held_setSession {s : State} {c : Conn} {sess sess' : Session}
    (hsess : s.session c = some sess) (hsame : sess'.holder = sess.holder) :
    (held (s.setSession c sess')).Perm (held s) := by
  obtain ⟨rest, hbefore, hafter⟩ := held_split hsess
  have hperm := hafter sess'
  rw [hsame] at hperm
  exact hperm.trans hbefore.symm

/-- A session gives up its permit, if it has one. -/
theorem held_dropped {s : State} {c : Conn} {sess sess' : Session}
    (hsess : s.session c = some sess) (hnone : sess'.permit = none)
    (quota : ConnQuota)
    (hquota : quota = match sess.permit with
      | some permit => s.quota.release permit
      | none => s.quota) :
    Drawn s.quota (held s) quota (held (s.setSession c sess')) := by
  obtain ⟨rest, hbefore, hafter⟩ := held_split hsess
  have hgone : sess'.holder = none := by
    rw [Session.holder, hnone]
    rfl
  have hperm := hafter sess'
  rw [hgone] at hperm
  cases hpermit : sess.permit with
  | none =>
      have hholder : sess.holder = none := by
        rw [Session.holder, hpermit]
        rfl
      rw [hholder] at hbefore
      rw [hpermit] at hquota
      subst hquota
      exact .kept (hperm.trans hbefore.symm)
  | some permit =>
      have hholder : sess.holder = some ⟨sess.peer.ip, permit⟩ := by
        rw [Session.holder, hpermit]
        rfl
      rw [hholder] at hbefore
      rw [hpermit] at hquota
      subst hquota
      exact .released (hbefore.trans (hperm.symm.cons _))

theorem holders_of_none {s : State} (h : s.listener.holder = none) :
    holders s = held s := by
  rw [holders, h]
  rfl

theorem Sent.held {s s' : State} {c : Conn} {delivery : Delivery}
    (h : Sent s c delivery s') : (held s').Perm (held s) := by
  cases h with
  | queued hsess hlive => exact held_setSession hsess rfl
  | full => exact List.Perm.refl _

theorem Routed.held {s s' : State} {peer : SocketAddr} {dgram : Octets}
    (h : Routed s peer dgram s') : (held s').Perm (held s) := by
  cases h with
  | byCid _ _ _ hsent => exact hsent.held
  | byAddr _ _ _ hsent => exact hsent.held
  | _ => exact List.Perm.refl _

theorem Sent.quota {s s' : State} {c : Conn} {delivery : Delivery}
    (h : Sent s c delivery s') : s'.quota = s.quota := by
  cases h <;> rfl

theorem Routed.quota {s s' : State} {peer : SocketAddr} {dgram : Octets}
    (h : Routed s peer dgram s') : s'.quota = s.quota := by
  cases h with
  | byCid _ _ _ hsent => exact hsent.quota
  | byAddr _ _ _ hsent => exact hsent.quota
  | _ => rfl

theorem Routed.holder {s s' : State} {peer : SocketAddr} {dgram : Octets}
    (hlistener : s.listener = .receiving) (h : Routed s peer dgram s') :
    s'.listener.holder = none := by
  have hnone : s.listener.holder = none := by
    rw [hlistener]
    rfl
  cases h with
  | unroutable => exact hnone
  | byCid _ _ _ hsent => exact hsent.listener ▸ hnone
  | reapedCid => exact hnone
  | byAddr _ _ _ hsent => exact hsent.listener ▸ hnone
  | stranger => rfl
  | reused => rfl
  | reapedAddr => rfl

/-- With a permit in hand the listener goes on to insert the handles. -/
theorem listenerStep_admitted {env : Env} {s s' : State} {a : ListenerAction}
    {holder : Holder} (hholder : s.listener.holder = some holder)
    (h : listenerStep env s a = some s') :
    ∃ peer dgram cid permit,
      s.listener = .admitted peer dgram cid permit ∧
        holder = ⟨peer.ip, permit⟩ ∧
        s' = s.insertHandles env peer dgram cid permit := by
  cases hlistener : s.listener with
  | admitted peer dgram cid permit =>
      rw [hlistener] at hholder
      refine ⟨peer, dgram, cid, permit, rfl, (Option.some.inj hholder).symm, ?_⟩
      cases a with
      | insertHandles =>
          simp only [listenerStep, hlistener, Option.some.injEq] at h
          exact h.symm
      | _ => simp [listenerStep, hlistener] at h
  | _ =>
      rw [hlistener] at hholder
      cases hholder

theorem held_insertHandles {env : Env} {s : State} {peer : SocketAddr}
    {dgram : Octets} {cid : Cid} {permit : ConnPermit} (hs : Owned s) :
    (held (s.insertHandles env peer dgram cid permit)).Perm
      (⟨peer.ip, permit⟩ :: held s) := by
  have hfresh : s.nextConnId ∉ s.sessions :=
    AList.lookup_eq_none.mp (hs.fresh _ le_rfl)
  have hentries : (s.insertHandles env peer dgram cid permit).sessions.entries =
      ⟨s.nextConnId, State.promoted env s.now peer dgram cid permit⟩ ::
        s.sessions.entries :=
    AList.entries_insert_of_notMem hfresh
  rw [held, hentries]
  exact List.Perm.refl _

theorem listenerStep_drawn {env : Env} {s s' : State} {a : ListenerAction}
    (hs : Owned s) (h : listenerStep env s a = some s') :
    Drawn s.quota (holders s) s'.quota (holders s') := by
  cases hholder : s.listener.holder with
  | some holder =>
      obtain ⟨peer, dgram, cid, permit, hlistener, rfl, rfl⟩ :=
        listenerStep_admitted hholder h
      refine .kept ((held_insertHandles hs).trans ?_)
      rw [holders, hholder]
      exact List.Perm.refl _
  | none =>
      rw [holders_of_none hholder]
      cases listenerStep_listened h with
      | recvFrom hlistener hrouted =>
          rw [hrouted.quota, holders_of_none (hrouted.holder hlistener)]
          exact .kept hrouted.held
      | admitted hlistener hacquire =>
          exact .acquired hacquire (List.Perm.refl _)
      | inserted hlistener =>
          rw [hlistener] at hholder
          cases hholder
      | @spawn c sess spawned hlistener hsess =>
          cases spawned with
          | true => exact .kept (held_setSession hsess rfl)
          | false =>
              exact @held_dropped s c sess { sess.drop with permit := none }
                hsess rfl _ rfl
      | _ => exact .kept (List.Perm.refl _)

theorem migrate_permit (sess : Session) :
    sess.migrate.permit = sess.permit := by
  unfold Session.migrate
  split_ifs <;> rfl

section Threads

attribute [local simp] Session.log Session.drop

theorem Local.permit {env : Env} {now : Instant} {senders : Bool}
    {sess sess' : Session} {a : LocalAction}
    (h : Local env now senders sess a sess') : sess'.permit = sess.permit := by
  cases h with
  | empty => exact migrate_permit sess
  | replied => exact migrate_permit sess
  | unwritten => exact migrate_permit sess
  | _ => simp

end Threads

theorem Local.holder {env : Env} {now : Instant} {senders : Bool}
    {sess sess' : Session} {a : LocalAction}
    (h : Local env now senders sess a sess') : sess'.holder = sess.holder := by
  rw [Session.holder, Session.holder, h.permit, h.kept.1]

theorem sharedStep_drawn {s s' : State} {c : Conn} {sess : Session}
    {a : SharedAction} (hsess : s.session c = some sess)
    (h : sharedStep s c sess a = some s') :
    Drawn s.quota (holders s) s'.quota (holders s') := by
  cases a with
  | dropPermit =>
      simp only [sharedStep] at h
      split_ifs at h with hpc
      cases h
      exact (held_dropped hsess rfl _ rfl).frame s.listener.holder.toList
  | cookieCheck rc =>
      cases sharedStep_shared h
      exact .kept (List.Perm.refl _)
  | _ =>
      cases sharedStep_shared h
      exact .kept ((held_setSession hsess rfl).append_left _)

/-- One step of the listener or of a session is one step of the admission, or
none. -/
theorem step_drawn {env : Env} {s s' : State} {a : Action} (hs : Owned s)
    (h : step env s a = some s') :
    Drawn s.quota (holders s) s'.quota (holders s') := by
  cases a with
  | listener a => exact listenerStep_drawn hs h
  | thread c a =>
      obtain ⟨sess, hsess, hlocal⟩ := Option.bind_eq_some_iff.mp h
      obtain ⟨sess', hstep, rfl⟩ := Option.map_eq_some_iff.mp hlocal
      have hholder := (localStep_local hstep).holder
      exact .kept ((held_setSession hsess hholder).append_left _)
  | shared c a =>
      obtain ⟨sess, hsess, hshared⟩ := Option.bind_eq_some_iff.mp h
      exact sharedStep_drawn hsess hshared
  | tick elapsed =>
      cases h
      exact .kept (List.Perm.refl _)
  | nextConnId =>
      cases h
      exact .kept (List.Perm.refl _)

/-! Which sessions have a permit. -/

structure Permitted (s : State) : Prop where
  held : ∀ c sess, s.session c = some sess → sess.pc.keepsCid = true →
    sess.permit.isSome = true ∨ s.listener = .despawning c
  spent : EverySession (fun sess => sess.pc = .finished → sess.permit = none) s

section Threads

attribute [local simp] Pc.live Pc.inCall Pc.keepsCid

theorem Local.keepsCid {env : Env} {now : Instant} {senders : Bool}
    {sess sess' : Session} {a : LocalAction}
    (h : Local env now senders sess a sess') : sess.pc.keepsCid = true := by
  cases h with
  | recv hcall hlib hrecv =>
      cases hpc : sess.pc <;> simp_all
  | panicked hlive hpc =>
      cases hpc : sess.pc <;> simp_all
  | _ => simp [*]

end Threads

/-- A session keeps its permit until it is through with the maps, unless its
thread could not be spawned. -/
theorem Moved.permit {env : Env} {s : State} {c : Conn} {sess sess' : Session}
    {a : Action} (hs : Owned s) (hsess : s.session c = some sess)
    (h : Moved env s c sess a sess') (hkeeps : sess'.pc.keepsCid = true) :
    sess.pc.keepsCid = true ∧ sess'.permit = sess.permit ∨
      a = .listener (.spawn false) ∧ s.listener = .spawning c := by
  cases h with
  | thread hlocal => exact .inl ⟨hlocal.keepsCid, hlocal.permit⟩
  | queued hsender hlive => exact .inl ⟨hkeeps, rfl⟩
  | spawned hlistener =>
      exact .inl ⟨by rw [hs.unstarted c hlistener sess hsess]; rfl, rfl⟩
  | unspawned hlistener => exact .inr ⟨rfl, hlistener⟩
  | startServing hpc => exact .inl ⟨by rw [hpc]; rfl, rfl⟩
  | releaseAddr hpc => exact .inl ⟨hkeeps, rfl⟩
  | removeAddr hpc => exact .inl ⟨by rw [hpc]; rfl, rfl⟩
  | removeCid hpc => cases hkeeps
  | dropPermit hpc => cases hkeeps

/-- The listener takes out the entries of an unspawned session until both are
gone. -/
theorem step_despawning {env : Env} {s s' : State} {a : Action} {c : Conn}
    (hlistener : s.listener = .despawning c) (h : step env s a = some s') :
    s'.listener = .despawning c ∨
      ∀ sess, s'.session c = some sess → sess.pc.keepsCid = false := by
  cases a with
  | listener a =>
      cases a with
      | despawned =>
          simp only [step, listenerStep, hlistener] at h
          split_ifs at h with hgone
          cases h
          refine .inr fun sess hsess => ?_
          have hsame : s.session c = some sess := hsess
          rw [hsame] at hgone
          cases hpc : sess.pc <;> simp_all [Pc.keepsCid]
      | _ => simp [step, listenerStep, hlistener] at h
  | thread c' a =>
      obtain ⟨sess, hsess, hlocal⟩ := Option.bind_eq_some_iff.mp h
      obtain ⟨sess', hstep, rfl⟩ := Option.map_eq_some_iff.mp hlocal
      exact .inl hlistener
  | shared c' a =>
      obtain ⟨sess, hsess, hshared⟩ := Option.bind_eq_some_iff.mp h
      refine .inl ?_
      cases sharedStep_shared hshared <;> exact hlistener
  | tick elapsed =>
      cases h
      exact .inl hlistener
  | nextConnId =>
      cases h
      exact .inl hlistener

theorem Permitted.step {env : Env} {s s' : State} {a : Action}
    (hs : Permitted s) (howned : Owned s) (h : step env s a = some s') :
    Permitted s' := by
  have hstepped := step_stepped h
  refine ⟨?_, ?_⟩
  · intro c sess hsess hkeeps
    have hlater (hthen : s.listener = .despawning c) :
        sess.permit.isSome = true ∨ s'.listener = .despawning c := by
      rcases step_despawning hthen h with hstill | hgone
      · exact .inr hstill
      · rw [hgone sess hsess] at hkeeps
        cases hkeeps
    cases hstepped.touched with
    | none hsame => exact (hs.held c sess (hsame ▸ hsess) hkeeps).elim .inl hlater
    | @one c' old new hbefore hafter hother hmove =>
        by_cases hc : c = c'
        · subst hc
          rw [hafter, Option.some.injEq] at hsess
          subst hsess
          rcases hmove.permit howned hbefore hkeeps with
            ⟨hkept, hsame⟩ | ⟨rfl, hspawning⟩
          · rw [hsame] at hlater ⊢
            exact (hs.held c old hbefore hkept).elim .inl hlater
          · refine .inr ?_
            simp only [DtlsMbed.step, listenerStep, hspawning, hbefore,
              Option.map_some, Option.some.injEq] at h
            rw [← h]
            rfl
        · exact (hs.held c sess ((hother c hc) ▸ hsess) hkeeps).elim .inl hlater
    | promoted ha hlistener hs' =>
        subst hs'
        rcases session_insertHandles.mp hsess with ⟨-, rfl⟩ | ⟨-, hbefore⟩
        · exact .inl rfl
        · rcases hs.held c sess hbefore hkeeps with hheld | hthen
          · exact .inl hheld
          · rw [hlistener] at hthen
            cases hthen
  · refine hs.spent.step ?_ ?_ hstepped
    · intro now peer dgram cid permit hpc
      cases hpc
    · intro c sess sess' hsess hmove hspent hpc
      cases hmove with
      | thread hlocal =>
          have hkept := hlocal.kept.2.2.2.1
          rw [hpc] at hkept
          cases hkept
      | queued hsender hlive => exact hspent hpc
      | releaseAddr hanswered hactive hrouted => exact hspent hpc
      | unspawned hlistener => rfl
      | dropPermit hgone => rfl
      | _ => cases hpc

theorem init_permitted (quota : ConnQuota) : Permitted (init quota) where
  held := by simp [init, State.session]
  spent := by simp [EverySession, init, State.session]

/-! What backs an entry. -/

theorem sources_held {s : State} {entries : List ((_ : Conn) × Session)}
    (hentries : ∀ entry ∈ entries, s.session entry.1 = some entry.2) :
    ((entries.filter fun entry => entry.2.permit.isSome).map
        fun entry => source s entry.1) =
      (entries.filterMap fun entry => entry.2.holder).map Holder.source := by
  induction entries with
  | nil => rfl
  | cons entry entries ih =>
      have hsource : source s entry.1 = entry.2.peer.ip := by
        rw [source, hentries entry List.mem_cons_self]
        rfl
      have hrest := ih fun other hmem =>
        hentries other (List.mem_cons_of_mem _ hmem)
      rw [List.filter_cons, List.filterMap_cons, Session.holder]
      cases entry.2.permit with
      | none => exact hrest
      | some permit =>
          simp only [Option.isSome_some, if_true, List.map_cons, Option.map_some]
          rw [hsource, hrest]

/-- The sessions that different keys of a map lead to have a permit each, or
are being taken out of it. -/
theorem Permitted.backed {κ : Type} [DecidableEq κ] {s : State}
    (hs : Permitted s) {t : Table κ Conn}
    (hentry : ∀ key c, t.lookup key = some c →
      ∃ sess, s.session c = some sess ∧ sess.pc.keepsCid = true)
    (hinjective : ∀ key key' c, t.lookup key = some c →
      t.lookup key' = some c → key = key') :
    (t.entries.map fun entry => source s entry.2).Subperm
      ((holders s).map Holder.source ++ unspawned s) := by
  let permitted := (s.sessions.entries.filter fun entry =>
    entry.2.permit.isSome).map Sigma.fst
  have hsubset : t.entries.map Sigma.snd ⊆ permitted ++ s.listener.undoing := by
    intro c hc
    obtain ⟨entry, hmem, rfl⟩ := List.mem_map.mp hc
    obtain ⟨sess, hsess, hkeeps⟩ := hentry entry.1 entry.2
      ((Table.mem_entries_iff_lookup t entry).mp hmem)
    rcases hs.held _ sess hsess hkeeps with hpermit | hundoing
    · apply List.mem_append_left
      apply List.mem_map.mpr
      refine ⟨⟨_, sess⟩, List.mem_filter.mpr ⟨?_, hpermit⟩, rfl⟩
      exact (Table.mem_entries_iff_lookup s.sessions _).mpr hsess
    · apply List.mem_append_right
      rw [hundoing]
      exact List.mem_singleton_self _
  have hsubperm := Admission.map_subperm_of_subset (source s)
    (Table.nodup_values hinjective) hsubset
  have hheld : permitted.map (source s) =
      (DtlsMbed.held s).map Holder.source := by
    rw [List.map_map]
    exact sources_held fun entry hmem =>
      (Table.mem_entries_iff_lookup s.sessions entry).mp hmem
  rw [List.map_map, List.map_append, hheld] at hsubperm
  refine hsubperm.trans (List.Subperm.append ?_ (List.Subperm.refl _))
  rw [holders, List.map_append]
  exact (List.sublist_append_right _ _).subperm

theorem Pc.keepsCid_of_keepsAddr {pc : Pc} (h : pc.keepsAddr = true) :
    pc.keepsCid = true := by
  cases pc <;> first | rfl | cases h

theorem Owned.addr_backed {s : State} (hs : Owned s)
    (hpermitted : Permitted s) :
    (addrRoutes s).Subperm ((holders s).map Holder.source ++ unspawned s) := by
  have hroutes : addrRoutes s =
      s.byAddr.entries.map fun entry => source s entry.2 := by
    apply List.map_congr_left
    intro entry hmem
    obtain ⟨sess, hsess, hpeer, -⟩ := hs.addr entry.1 entry.2
      ((Table.mem_entries_iff_lookup s.byAddr entry).mp hmem)
    rw [source, hsess, Option.map_some, Option.getD_some, hpeer]
  rw [hroutes]
  apply hpermitted.backed
  · intro a c hentry
    obtain ⟨sess, hsess, -, hpc⟩ := hs.addr a c hentry
    exact ⟨sess, hsess, Pc.keepsCid_of_keepsAddr hpc⟩
  · intro a a' c hentry hentry'
    obtain ⟨sess, hsess, hpeer, -⟩ := hs.addr a c hentry
    rw [(hs.ofAddr hsess hentry').1, hpeer]

theorem Owned.cid_backed {s : State} (hs : Owned s)
    (hpermitted : Permitted s) :
    (cidRoutes s).Subperm ((holders s).map Holder.source ++ unspawned s) := by
  apply hpermitted.backed
  · intro k c hentry
    obtain ⟨sess, hsess, -, hpc⟩ := hs.cid k c hentry
    exact ⟨sess, hsess, hpc⟩
  · intro k k' c hentry hentry'
    obtain ⟨sess, hsess, hcid, -⟩ := hs.cid k c hentry
    rw [(hs.ofCid hsess hentry').1, hcid]

end Loft.DtlsMbed
