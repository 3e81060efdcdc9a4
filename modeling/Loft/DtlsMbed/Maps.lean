import Loft.DtlsMbed.Sessions

namespace Loft.DtlsMbed

open Loft.Data
open Loft.Data.Transition
open Loft.MbedtlsShim

/-! The two demux maps always name the right session. -/

namespace Pc

/-- The thread has not been through `remove_by_addr_if_mine` on its way out. -/
def keepsAddr : Pc → Bool
  | .addrRemoved | .cidRemoved | .finished => false
  | _ => true

def keepsCid : Pc → Bool
  | .cidRemoved | .finished => false
  | _ => true

def inServingLoop : Pc → Bool
  | .serving | .inRead | .answered _ => true
  | _ => false

end Pc

/-- Alive, and its route by CID not withdrawn. -/
def Session.cidRouted (sess : Session) : Bool :=
  sess.pc.live && (sess.cidActive || !sess.pc.inServingLoop)

def Listener.mintedCid : Listener → Option Cid
  | .minted _ _ cid => some cid
  | .stepping _ _ cid _ => some cid
  | .stepped _ _ cid _ => some cid
  | .taken _ _ cid _ => some cid
  | .admitted _ _ cid _ => some cid
  | _ => none

structure Owned (s : State) : Prop where
  addr : ∀ a c, s.byAddr.lookup a = some c →
    ∃ sess, s.session c = some sess ∧ sess.peer = a ∧
      sess.pc.keepsAddr = true
  cid : ∀ k c, s.byCid.lookup k = some c →
    ∃ sess, s.session c = some sess ∧ sess.cid = k ∧ sess.pc.keepsCid = true
  routed : ∀ c sess, s.session c = some sess → sess.cidRouted = true →
    s.byCid.lookup sess.cid = some c
  fresh : ∀ c, s.nextConnId ≤ c → s.session c = none
  minted : ∀ k, s.listener.mintedCid = some k → s.byCid.lookup k = none
  unstarted : ∀ c, s.listener = .spawning c → ∀ sess,
    s.session c = some sess → sess.pc = .unstarted

theorem init_owned (quota : ConnQuota) : Owned (init quota) where
  addr := by simp [init]
  cid := by simp [init]
  routed := by simp [init, State.session]
  fresh := by simp [init, State.session]
  minted := by simp [init, Listener.mintedCid]
  unstarted := by simp [init]

theorem Owned.ofAddr {s : State} {a : SocketAddr} {c : Conn} {sess : Session}
    (hs : Owned s) (hsess : s.session c = some sess)
    (hentry : s.byAddr.lookup a = some c) :
    a = sess.peer ∧ sess.pc.keepsAddr = true := by
  obtain ⟨owner, howner, hpeer, hpc⟩ := hs.addr a c hentry
  rw [hsess, Option.some.injEq] at howner
  subst howner
  exact ⟨hpeer.symm, hpc⟩

theorem Owned.ofCid {s : State} {k : Cid} {c : Conn} {sess : Session}
    (hs : Owned s) (hsess : s.session c = some sess)
    (hentry : s.byCid.lookup k = some c) :
    k = sess.cid ∧ sess.pc.keepsCid = true := by
  obtain ⟨owner, howner, hcid, hpc⟩ := hs.cid k c hentry
  rw [hsess, Option.some.injEq] at howner
  subst howner
  exact ⟨hcid.symm, hpc⟩

theorem Owned.addr_ne {s : State} {a : SocketAddr} {c c' : Conn}
    {sess : Session} (hs : Owned s) (hsess : s.session c = some sess)
    (hpc : sess.pc.keepsAddr = false) (hentry : s.byAddr.lookup a = some c') :
    c' ≠ c := by
  intro hsame
  subst hsame
  have hkeeps := (hs.ofAddr hsess hentry).2
  rw [hpc] at hkeeps
  cases hkeeps

theorem Owned.cid_ne {s : State} {k : Cid} {c c' : Conn} {sess : Session}
    (hs : Owned s) (hsess : s.session c = some sess)
    (hpc : sess.pc.keepsCid = false) (hentry : s.byCid.lookup k = some c') :
    c' ≠ c := by
  intro hsame
  subst hsame
  have hkeeps := (hs.ofCid hsess hentry).2
  rw [hpc] at hkeeps
  cases hkeeps

/-! One session moves on, and gives up none but its own entries. -/

theorem Owned.update {s s' : State} {c : Conn} {sess sess' : Session}
    (hs : Owned s) (hsess : s.session c = some sess)
    (hself : s'.session c = some sess')
    (hother : ∀ c', c' ≠ c → s'.session c' = s.session c')
    (hpeer : sess'.peer = sess.peer) (hcid : sess'.cid = sess.cid)
    (hrouted : sess'.cidRouted = true → sess.cidRouted = true)
    (haddrs : ∀ a c', s'.byAddr.lookup a = some c' →
      s.byAddr.lookup a = some c' ∧ (c' = c → sess'.pc.keepsAddr = true))
    (hcids : ∀ k c', s'.byCid.lookup k = some c' →
      s.byCid.lookup k = some c' ∧ (c' = c → sess'.pc.keepsCid = true))
    (hkept : ∀ k c', s.byCid.lookup k = some c' →
      c' ≠ c ∨ sess'.cidRouted = true → s'.byCid.lookup k = some c')
    (hnext : s'.nextConnId = s.nextConnId)
    (hminted : ∀ k, s'.listener.mintedCid = some k →
      s.listener.mintedCid = some k)
    (hspawning : ∀ c', s'.listener = .spawning c' →
      s.listener = .spawning c' ∧ sess.pc ≠ .unstarted) : Owned s' where
  addr a c' hentry := by
    obtain ⟨hbefore, hkeeps⟩ := haddrs a c' hentry
    obtain ⟨old, hold, hpeer', hpc⟩ := hs.addr a c' hbefore
    by_cases hsame : c' = c
    · subst hsame
      rw [hsess, Option.some.injEq] at hold
      subst hold
      exact ⟨sess', hself, hpeer.trans hpeer', hkeeps rfl⟩
    · exact ⟨old, (hother c' hsame).trans hold, hpeer', hpc⟩
  cid k c' hentry := by
    obtain ⟨hbefore, hkeeps⟩ := hcids k c' hentry
    obtain ⟨old, hold, hcid', hpc⟩ := hs.cid k c' hbefore
    by_cases hsame : c' = c
    · subst hsame
      rw [hsess, Option.some.injEq] at hold
      subst hold
      exact ⟨sess', hself, hcid.trans hcid', hkeeps rfl⟩
    · exact ⟨old, (hother c' hsame).trans hold, hcid', hpc⟩
  routed c' other hother' hlive := by
    by_cases hsame : c' = c
    · subst hsame
      rw [hself, Option.some.injEq] at hother'
      subst hother'
      rw [hcid]
      exact hkept _ _ (hs.routed c' sess hsess (hrouted hlive)) (.inr hlive)
    · rw [hother c' hsame] at hother'
      exact hkept _ _ (hs.routed c' other hother' hlive) (.inl hsame)
  fresh c' hle := by
    rw [hnext] at hle
    have hnone := hs.fresh c' hle
    by_cases hsame : c' = c
    · subst hsame
      rw [hsess] at hnone
      cases hnone
    · rw [hother c' hsame, hnone]
  minted k hk := by
    have hnone := hs.minted k (hminted k hk)
    cases hentry : s'.byCid.lookup k with
    | none => rfl
    | some c' =>
        rw [(hcids k c' hentry).1] at hnone
        cases hnone
  unstarted c' hlistener other hother' := by
    obtain ⟨hbefore, hstarted⟩ := hspawning c' hlistener
    by_cases hsame : c' = c
    · subst hsame
      exact absurd (hs.unstarted c' hbefore sess hsess) hstarted
    · exact hs.unstarted c' hbefore other ((hother c' hsame) ▸ hother')

theorem Owned.setSession {s : State} {c : Conn} {sess sess' : Session}
    (hs : Owned s) (hsess : s.session c = some sess)
    (hpeer : sess'.peer = sess.peer) (hcid : sess'.cid = sess.cid)
    (hrouted : sess'.cidRouted = true → sess.cidRouted = true)
    (haddr : sess'.pc.keepsAddr = true) (hkeeps : sess'.pc.keepsCid = true)
    (hspawning : ∀ c', s.listener = .spawning c' → sess.pc ≠ .unstarted) :
    Owned (s.setSession c sess') :=
  hs.update hsess (session_setSession_self s c sess')
    (fun _ hne => session_setSession_ne s sess' hne) hpeer hcid hrouted
    (fun _ _ h => ⟨h, fun _ => haddr⟩) (fun _ _ h => ⟨h, fun _ => hkeeps⟩)
    (fun _ _ h _ => h) rfl (fun _ h => h) fun c' h => ⟨h, hspawning c' h⟩

section Threads

attribute [local simp] Session.log Session.drop Session.cidRouted Pc.live
  Pc.inCall Pc.keepsAddr Pc.keepsCid Pc.inServingLoop

theorem Pc.keeps_of_live {pc : Pc} (h : pc.live = true) :
    pc.keepsAddr = true ∧ pc.keepsCid = true := by
  cases pc <;> simp_all

theorem Local.kept {env : Env} {now : Instant} {senders : Bool}
    {sess sess' : Session} {a : LocalAction}
    (h : Local env now senders sess a sess') :
    sess'.peer = sess.peer ∧ sess'.cid = sess.cid ∧
      sess'.pc.keepsAddr = true ∧ sess'.pc.keepsCid = true ∧
      (sess'.cidRouted = true → sess.cidRouted = true) ∧
      sess.pc ≠ .unstarted := by
  cases h with
  | recv hcall hlib hrecv =>
      cases hpc : sess.pc <;> simp_all
  | _ => simp [*]

end Threads

theorem Session.live_of_cidRouted {sess : Session}
    (h : sess.cidRouted = true) : sess.pc.live = true :=
  (Bool.and_eq_true_iff.mp h).1

/-! One step of the whole listener. -/

theorem Owned.sent {s s' : State} {c : Conn} {delivery : Delivery}
    (hs : Owned s) (hlistener : s.listener = .receiving)
    (hsent : Sent s c delivery s') : Owned s' := by
  cases hsent with
  | queued hsess hlive =>
      obtain ⟨haddr, hcid⟩ := Pc.keeps_of_live hlive
      exact hs.setSession hsess rfl rfl id haddr hcid
        (by simp [hlistener])
  | full => exact hs

/-- The listener turns to something else; of the entries, those of dead
channels may go. -/
theorem Owned.turn {s s' : State} (hs : Owned s)
    (hsessions : s'.session = s.session)
    (haddr : ∀ a c, s'.byAddr.lookup a = some c → s.byAddr.lookup a = some c)
    (hcid : ∀ k c, s'.byCid.lookup k = some c → s.byCid.lookup k = some c)
    (hkept : ∀ k c, s.byCid.lookup k = some c → ¬ s.Dead c →
      s'.byCid.lookup k = some c)
    (hnext : s.nextConnId ≤ s'.nextConnId)
    (hminted : ∀ k, s'.listener.mintedCid = some k →
      s.byCid.lookup k = none)
    (hspawning : ∀ c, s'.listener = .spawning c → s.listener = .spawning c) :
    Owned s' where
  addr a c hentry := by
    rw [hsessions]
    exact hs.addr a c (haddr a c hentry)
  cid k c hentry := by
    rw [hsessions]
    exact hs.cid k c (hcid k c hentry)
  routed c sess hsess hrouted := by
    rw [hsessions] at hsess
    apply hkept _ _ (hs.routed c sess hsess hrouted)
    intro hdead
    have hlive := Session.live_of_cidRouted hrouted
    rw [hdead sess hsess] at hlive
    cases hlive
  fresh c hle := by
    rw [hsessions]
    exact hs.fresh c (hnext.trans hle)
  minted k hk := by
    have hnone := hminted k hk
    cases hentry : s'.byCid.lookup k with
    | none => rfl
    | some c =>
        rw [hcid k c hentry] at hnone
        cases hnone
  unstarted c hlistener sess hsess := by
    rw [hsessions] at hsess
    exact hs.unstarted c (hspawning c hlistener) sess hsess

theorem Owned.relisten {s s' : State} (hs : Owned s)
    (hsessions : s'.session = s.session) (haddr : s'.byAddr = s.byAddr)
    (hcid : s'.byCid = s.byCid) (hnext : s.nextConnId ≤ s'.nextConnId)
    (hminted : ∀ k, s'.listener.mintedCid = some k → s.byCid.lookup k = none)
    (hspawning : ∀ c, s'.listener = .spawning c → s.listener = .spawning c) :
    Owned s' :=
  hs.turn hsessions (fun _ _ h => haddr ▸ h) (fun _ _ h => hcid ▸ h)
    (fun _ _ h _ => hcid ▸ h) hnext hminted hspawning

theorem Owned.routeStep {s s' : State} {peer : SocketAddr} {dgram : Octets}
    (hs : Owned s) (hlistener : s.listener = .receiving)
    (hrouted : Routed s peer dgram s') : Owned s' := by
  cases hrouted with
  | unroutable => exact hs
  | byCid _ _ _ hsent => exact hs.sent hlistener hsent
  | byAddr _ _ _ hsent => exact hs.sent hlistener hsent
  | stranger => exact hs.relisten rfl rfl rfl le_rfl nofun nofun
  | reused => exact hs.relisten rfl rfl rfl le_rfl nofun nofun
  | @reapedCid cid c _ _ hentry hdead =>
      refine hs.turn rfl (fun _ _ h => h) ?_ ?_ le_rfl
        (by simp [hlistener, Listener.mintedCid]) (fun _ h => h)
      · exact fun k c' h => (Table.lookup_erase_eq_some.mp h).2
      · intro k c' h hlive
        apply Table.lookup_erase_eq_some.mpr
        refine ⟨?_, h⟩
        intro hsame
        subst hsame
        rw [hentry, Option.some.injEq] at h
        exact hlive (h ▸ hdead)
  | reapedAddr _ hentry hdead =>
      refine hs.turn rfl ?_ (fun _ _ h => h) (fun _ _ h _ => h) le_rfl
        nofun nofun
      exact fun a c' h => (Table.lookup_erase_eq_some.mp h).2

theorem Owned.inserted {env : Env} {s : State} {peer : SocketAddr}
    {dgram : Octets} {cid : Cid} {permit : ConnPermit} (hs : Owned s)
    (hlistener : s.listener = .admitted peer dgram cid permit) :
    Owned (s.insertHandles env peer dgram cid permit) := by
  have hfree : s.byCid.lookup cid = none :=
    hs.minted cid (by rw [hlistener]; rfl)
  have hold : ∀ c sess, s.session c = some sess → c ≠ s.nextConnId := by
    intro c sess hsess hsame
    subst hsame
    rw [hs.fresh _ le_rfl] at hsess
    cases hsess
  constructor
  · intro a c hentry
    rcases Table.lookup_insert_eq_some.mp hentry with ⟨rfl, rfl⟩ | ⟨-, hentry⟩
    · exact ⟨_, session_insertHandles.mpr (.inl ⟨rfl, rfl⟩), rfl, rfl⟩
    · obtain ⟨sess, hsess, hpeer, hpc⟩ := hs.addr a c hentry
      exact ⟨sess,
        session_insertHandles.mpr (.inr ⟨hold c sess hsess, hsess⟩), hpeer, hpc⟩
  · intro k c hentry
    rcases Table.lookup_insert_eq_some.mp hentry with ⟨rfl, rfl⟩ | ⟨-, hentry⟩
    · exact ⟨_, session_insertHandles.mpr (.inl ⟨rfl, rfl⟩), rfl, rfl⟩
    · obtain ⟨sess, hsess, hcid, hpc⟩ := hs.cid k c hentry
      exact ⟨sess,
        session_insertHandles.mpr (.inr ⟨hold c sess hsess, hsess⟩), hcid, hpc⟩
  · intro c sess hsess hrouted
    apply Table.lookup_insert_eq_some.mpr
    rcases session_insertHandles.mp hsess with ⟨rfl, rfl⟩ | ⟨-, hsess⟩
    · exact .inl ⟨rfl, rfl⟩
    · have hentry := hs.routed c sess hsess hrouted
      refine .inr ⟨?_, hentry⟩
      intro hsame
      rw [hsame, hfree] at hentry
      cases hentry
  · intro c hle
    apply Option.eq_none_iff_forall_ne_some.mpr
    intro sess hsess
    have hlt : s.nextConnId < c := hle
    rcases session_insertHandles.mp hsess with ⟨rfl, -⟩ | ⟨-, hsess⟩
    · exact absurd hlt (lt_irrefl _)
    · rw [hs.fresh c hlt.le] at hsess
      cases hsess
  · intro k hk
    cases hk
  · intro c hspawning sess hsess
    cases hspawning
    rcases session_insertHandles.mp hsess with ⟨-, rfl⟩ | ⟨hne, -⟩
    · rfl
    · exact absurd rfl hne

theorem Owned.listened {env : Env} {s s' : State} {a : ListenerAction}
    (hs : Owned s) (h : Listened env s a s') : Owned s' := by
  have hminted := hs.minted
  cases h with
  | recvFrom hlistener hrouted => exact hs.routeStep hlistener hrouted
  | inserted hlistener => exact hs.inserted hlistener
  | spawn hlistener hsess =>
      rename_i c sess spawned
      have hpc := hs.unstarted c hlistener sess hsess
      have hrouted : sess.cidRouted = true := by
        simp [Session.cidRouted, hpc, Pc.live, Pc.inServingLoop]
      cases spawned with
      | false =>
          exact hs.update hsess (session_setSession_self s c _)
            (fun _ hne => session_setSession_ne s _ hne) rfl rfl
            (fun _ => hrouted) (fun _ _ h => ⟨h, fun _ => rfl⟩)
            (fun _ _ h => ⟨h, fun _ => rfl⟩) (fun _ _ h _ => h) rfl nofun nofun
      | true =>
          exact hs.update hsess (session_setSession_self s c _)
            (fun _ hne => session_setSession_ne s _ hne) rfl rfl
            (fun _ => hrouted) (fun _ _ h => ⟨h, fun _ => rfl⟩)
            (fun _ _ h => ⟨h, fun _ => rfl⟩) (fun _ _ h _ => h) rfl nofun nofun
  | begin hlistener hfresh =>
      refine hs.relisten rfl rfl rfl le_rfl ?_ nofun
      intro k hk
      cases hk
      exact hfresh
  | clear hlistener =>
      rw [hlistener] at hminted
      exact hs.relisten rfl rfl rfl le_rfl hminted nofun
  | cookieCheck hlistener =>
      rw [hlistener] at hminted
      exact hs.relisten rfl rfl rfl le_rfl hminted nofun
  | stepped hlistener =>
      rw [hlistener] at hminted
      exact hs.relisten rfl rfl rfl le_rfl hminted nofun
  | taken hlistener hverified =>
      rw [hlistener] at hminted
      exact hs.relisten rfl rfl rfl le_rfl hminted nofun
  | admitted hlistener hquota =>
      rw [hlistener] at hminted
      exact hs.relisten rfl rfl rfl le_rfl hminted nofun
  | _ => exact hs.relisten rfl rfl rfl le_rfl nofun nofun

theorem Owned.shared {s s' : State} {c : Conn} {sess : Session}
    {a : SharedAction} (hs : Owned s) (hsess : s.session c = some sess)
    (h : Shared s c sess a s') : Owned s' := by
  cases h with
  | cookieCheck hpc =>
      exact hs.relisten rfl rfl rfl le_rfl hs.minted fun _ h => h
  | startServing hpc =>
      refine hs.update hsess (session_setSession_self _ c _)
        (fun _ hne => session_setSession_ne _ _ hne) rfl rfl ?_
        (fun _ _ h => ⟨h, fun _ => rfl⟩)
        (fun _ _ h => ⟨(lookup_withdrawCid.mp h).1, fun _ => rfl⟩) ?_ rfl
        (fun _ h => h) fun _ h => ⟨h, by simp [hpc]⟩
      · simp [Session.cidRouted, hpc, Pc.live, Pc.inServingLoop]
      · intro k c' hentry hkept
        apply lookup_withdrawCid.mpr
        refine ⟨hentry, fun hinactive _ => ?_⟩
        simpa [Session.cidRouted, Pc.live, Pc.inServingLoop, hinactive]
          using hkept
  | releaseAddr hpc hactive hrouted =>
      refine hs.update hsess (session_setSession_self _ c _)
        (fun _ hne => session_setSession_ne _ _ hne) rfl rfl (fun h => h)
        (fun a c' h => ⟨(lookup_removeByAddrIfMine.mp h).1, ?_⟩)
        (fun _ _ h => ⟨h, ?_⟩) (fun _ _ h _ => h) rfl (fun _ h => h)
        fun _ h => ⟨h, by simp [hpc]⟩
      · simp [hpc, Pc.keepsAddr]
      · simp [hpc, Pc.keepsCid]
  | removeAddr hpc =>
      refine hs.update hsess (session_setSession_self _ c _)
        (fun _ hne => session_setSession_ne _ _ hne) rfl rfl
        (by simp [Session.cidRouted, Pc.live]) ?_
        (fun _ _ h => ⟨h, fun _ => rfl⟩) (fun _ _ h _ => h) rfl (fun _ h => h)
        fun _ h => ⟨h, by simp [hpc]⟩
      intro a c' hentry
      obtain ⟨hbefore, hothers⟩ := lookup_removeByAddrIfMine.mp hentry
      refine ⟨hbefore, ?_⟩
      intro hsame
      subst hsame
      exact absurd rfl (hothers (hs.ofAddr hsess hbefore).1)
  | removeCid hpc =>
      refine hs.update hsess (session_setSession_self _ c _)
        (fun _ hne => session_setSession_ne _ _ hne) rfl rfl
        (by simp [Session.cidRouted, Pc.live]) ?_ ?_ ?_ rfl (fun _ h => h)
        fun _ h => ⟨h, by simp [hpc]⟩
      · intro a c' hentry
        have hne := hs.addr_ne hsess (by rw [hpc]; rfl) hentry
        exact ⟨hentry, fun hsame => absurd hsame hne⟩
      · intro k c' hentry
        obtain ⟨hbefore, hothers⟩ := lookup_removeByCidIfMine.mp hentry
        refine ⟨hbefore, ?_⟩
        intro hsame
        subst hsame
        exact absurd rfl (hothers (hs.ofCid hsess hbefore).1)
      · intro k c' hentry hkept
        apply lookup_removeByCidIfMine.mpr
        refine ⟨hentry, fun _ => ?_⟩
        simpa [Session.cidRouted, Pc.live] using hkept
  | dropPermit hpc =>
      refine hs.update hsess (session_setSession_self _ c _)
        (fun _ hne => session_setSession_ne _ _ hne) rfl rfl
        (by simp [Session.cidRouted, Pc.live]) ?_ ?_ (fun _ _ h _ => h) rfl
        (fun _ h => h) fun _ h => ⟨h, by simp [hpc]⟩
      · intro a c' hentry
        have hne := hs.addr_ne hsess (by rw [hpc]; rfl) hentry
        exact ⟨hentry, fun hsame => absurd hsame hne⟩
      · intro k c' hentry
        have hne := hs.cid_ne hsess (by rw [hpc]; rfl) hentry
        exact ⟨hentry, fun hsame => absurd hsame hne⟩

theorem Owned.step {env : Env} {s s' : State} {a : Action} (hs : Owned s)
    (h : Stepped env s a s') : Owned s' := by
  cases h with
  | listener hlistened => exact hs.listened hlistened
  | thread hsess hlocal =>
      obtain ⟨hpeer, hcid, haddr, hkeeps, hrouted, hstarted⟩ := hlocal.kept
      exact hs.setSession hsess hpeer hcid hrouted haddr hkeeps
        fun _ _ => hstarted
  | shared hsess hshared => exact hs.shared hsess hshared
  | tick => exact hs.relisten rfl rfl rfl le_rfl hs.minted fun _ h => h
  | nextConnId =>
      exact hs.relisten rfl rfl rfl (Nat.le_succ _) hs.minted fun _ h => h

theorem owned_run {env : Env} {quota : ConnQuota} {actions : List Action}
    {s : State} (hrun : run (step env) (init quota) actions = some s) :
    Owned s :=
  run_invariant (step env) (fun _ _ _ hs h => hs.step (step_stepped h))
    (init_owned quota) hrun

/-- A session stays, and is as it was or has moved by itself. -/
theorem Owned.session_step {env : Env} {s s' : State} {a : Action}
    (hs : Owned s) (h : Stepped env s a s') {c : Conn} {sess : Session}
    (hsess : s.session c = some sess) :
    ∃ sess', s'.session c = some sess' ∧
      (sess' = sess ∨ Moved env s c sess a sess') := by
  cases h.touched with
  | none hsame => exact ⟨sess, hsame ▸ hsess, .inl rfl⟩
  | @one c' old sess' hbefore hafter hother hmove =>
      by_cases hc : c = c'
      · subst hc
        rw [hsess, Option.some.injEq] at hbefore
        subst hbefore
        exact ⟨sess', hafter, .inr hmove⟩
      · exact ⟨sess, (hother c hc).trans hsess, .inl rfl⟩
  | promoted ha hlistener hs' =>
      subst hs'
      refine ⟨sess, session_insertHandles.mpr (.inr ⟨?_, hsess⟩), .inl rfl⟩
      intro hsame
      subst hsame
      rw [hs.fresh _ le_rfl] at hsess
      cases hsess

end Loft.DtlsMbed
