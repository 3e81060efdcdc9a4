import Loft.DtlsMbed.Steps

namespace Loft.DtlsMbed

open Loft.Data
open Loft.Data.Transition
open Loft.MbedtlsShim

/-! What an action makes of one session, whoever takes it. -/

inductive Moved (env : Env) (s : State) (c : Conn) (sess : Session) :
    Action → Session → Prop
  | thread {a : LocalAction} {sess' : Session} :
      Local env s.now (s.hasSender c) sess a sess' →
      Moved env s c sess (.thread c a) sess'
  | queued {peer : SocketAddr} {dgram : Octets} :
      s.hasSender c = true → sess.pc.live = true →
      Moved env s c sess (.listener (.recvFrom peer dgram)) { sess with
        io := { sess.io with queue := sess.io.queue ++ [(dgram, peer)] } }
  | spawned :
      s.listener = .spawning c →
      Moved env s c sess (.listener (.spawn true))
        { sess with pc := .handshaking, started := s.now }
  | unspawned :
      s.listener = .spawning c →
      Moved env s c sess (.listener (.spawn false))
        { sess.drop with permit := none }
  | startServing :
      sess.pc = .announced →
      Moved env s c sess (.shared c .startServing)
        { sess with pc := .serving, lastActivity := s.now }
  | releaseAddr {n : Nat} :
      sess.pc = .answered n → sess.cidActive = true → sess.addrRouted = true →
      Moved env s c sess (.shared c .releaseAddr)
        { sess with addrRouted := false }
  | removeAddr :
      sess.pc = .returned →
      Moved env s c sess (.shared c .removeAddr)
        { sess with pc := .addrRemoved }
  | removeCid :
      sess.pc = .addrRemoved →
      Moved env s c sess (.shared c .removeCid) { sess with pc := .cidRemoved }
  | dropPermit :
      sess.pc = .cidRemoved →
      Moved env s c sess (.shared c .dropPermit)
        { sess with pc := .finished, permit := none }

/-- An action touches one session at most, or brings a new one in. -/
inductive Touched (env : Env) (s : State) (a : Action) (s' : State) : Prop
  | none : s'.session = s.session → Touched env s a s'
  | one {c : Conn} {sess sess' : Session} :
      s.session c = some sess → s'.session c = some sess' →
      (∀ c', c' ≠ c → s'.session c' = s.session c') →
      Moved env s c sess a sess' → Touched env s a s'
  | promoted {peer : SocketAddr} {dgram : Octets} {cid : Cid}
      {permit : ConnPermit} :
      a = .listener .insertHandles →
      s.listener = .admitted peer dgram cid permit →
      s' = s.insertHandles env peer dgram cid permit → Touched env s a s'

theorem session_insertHandles {env : Env} {s : State} {peer : SocketAddr}
    {dgram : Octets} {cid : Cid} {permit : ConnPermit} {c : Conn}
    {sess : Session} :
    (s.insertHandles env peer dgram cid permit).session c = some sess ↔
      c = s.nextConnId ∧
          State.promoted env s.now peer dgram cid permit = sess ∨
        c ≠ s.nextConnId ∧ s.session c = some sess :=
  Table.lookup_insert_eq_some

theorem hasSender_iff {s : State} {c : Conn} :
    s.hasSender c = true ↔
      (∃ a, s.byAddr.lookup a = some c) ∨ ∃ k, s.byCid.lookup k = some c := by
  rw [State.hasSender, Bool.or_eq_true, Table.any_entries_iff,
    Table.any_entries_iff]

theorem Sent.touched {env : Env} {s s' : State} {peer : SocketAddr}
    {dgram : Octets} {c : Conn} (hsender : s.hasSender c = true)
    (h : Sent s c (dgram, peer) s') :
    Touched env s (.listener (.recvFrom peer dgram)) s' := by
  cases h with
  | queued hsess hlive =>
      exact .one hsess (session_setSession_self s c _)
        (fun _ hne => session_setSession_ne s _ hne) (.queued hsender hlive)
  | full => exact .none rfl

theorem Listened.touched {env : Env} {s s' : State} {a : ListenerAction}
    (h : Listened env s a s') : Touched env s (.listener a) s' := by
  cases h with
  | recvFrom hlistener hrouted =>
      cases hrouted with
      | byCid _ _ hentry hsent =>
          exact hsent.touched (hasSender_iff.mpr (.inr ⟨_, hentry⟩))
      | byAddr _ hentry _ hsent =>
          exact hsent.touched (hasSender_iff.mpr (.inl ⟨_, hentry⟩))
      | _ => exact .none rfl
  | inserted hlistener => exact .promoted rfl hlistener rfl
  | spawn hlistener hsess =>
      rename_i c sess spawned
      cases spawned with
      | false =>
          exact .one hsess (session_setSession_self s c _)
            (fun _ hne => session_setSession_ne s _ hne) (.unspawned hlistener)
      | true =>
          exact .one hsess (session_setSession_self s c _)
            (fun _ hne => session_setSession_ne s _ hne) (.spawned hlistener)
  | _ => exact .none rfl

theorem Shared.touched {env : Env} {s s' : State} {c : Conn} {sess : Session}
    {a : SharedAction} (hsess : s.session c = some sess)
    (h : Shared s c sess a s') : Touched env s (.shared c a) s' := by
  cases h with
  | cookieCheck hpc => exact .none rfl
  | startServing hpc =>
      exact .one hsess (session_setSession_self _ c _)
        (fun _ hne => session_setSession_ne _ _ hne) (.startServing hpc)
  | releaseAddr hpc hactive hrouted =>
      exact .one hsess (session_setSession_self _ c _)
        (fun _ hne => session_setSession_ne _ _ hne)
        (.releaseAddr hpc hactive hrouted)
  | removeAddr hpc =>
      exact .one hsess (session_setSession_self _ c _)
        (fun _ hne => session_setSession_ne _ _ hne) (.removeAddr hpc)
  | removeCid hpc =>
      exact .one hsess (session_setSession_self _ c _)
        (fun _ hne => session_setSession_ne _ _ hne) (.removeCid hpc)
  | dropPermit hpc =>
      exact .one hsess (session_setSession_self _ c _)
        (fun _ hne => session_setSession_ne _ _ hne) (.dropPermit hpc)

theorem Stepped.touched {env : Env} {s s' : State} {a : Action}
    (h : Stepped env s a s') : Touched env s a s' := by
  cases h with
  | listener hlistened => exact hlistened.touched
  | thread hsess hlocal =>
      exact .one hsess (session_setSession_self s _ _)
        (fun _ hne => session_setSession_ne s _ hne) (.thread hlocal)
  | shared hsess hshared => exact hshared.touched hsess
  | tick => exact .none rfl
  | nextConnId => exact .none rfl

/-! Where the entries of the two maps come from. -/

theorem Stepped.byAddr_before {env : Env} {s s' : State} {a : Action}
    (h : Stepped env s a s') {x : SocketAddr} {c : Conn}
    (hentry : s'.byAddr.lookup x = some c) :
    s.byAddr.lookup x = some c ∨ c = s.nextConnId := by
  cases h with
  | thread hsess hlocal => exact .inl hentry
  | tick => exact .inl hentry
  | nextConnId => exact .inl hentry
  | shared hsess hshared =>
      cases hshared with
      | releaseAddr => exact .inl (lookup_removeByAddrIfMine.mp hentry).1
      | removeAddr => exact .inl (lookup_removeByAddrIfMine.mp hentry).1
      | _ => exact .inl hentry
  | listener hlistened =>
      cases hlistened with
      | recvFrom hlistener hrouted =>
          cases hrouted with
          | byCid _ _ _ hsent => exact .inl (hsent.byAddr ▸ hentry)
          | byAddr _ _ _ hsent => exact .inl (hsent.byAddr ▸ hentry)
          | reapedAddr => exact .inl (Table.lookup_erase_eq_some.mp hentry).2
          | _ => exact .inl hentry
      | inserted hlistener =>
          rcases Table.lookup_insert_eq_some.mp hentry with
            ⟨-, rfl⟩ | ⟨-, hbefore⟩
          · exact .inr rfl
          · exact .inl hbefore
      | spawn hlistener hsess =>
          rename_i spawned
          cases spawned <;> exact .inl hentry
      | _ => exact .inl hentry

theorem Stepped.byCid_before {env : Env} {s s' : State} {a : Action}
    (h : Stepped env s a s') {k : Cid} {c : Conn}
    (hentry : s'.byCid.lookup k = some c) :
    s.byCid.lookup k = some c ∨
      c = s.nextConnId ∧ ∃ peer dgram permit,
        s.listener = .admitted peer dgram k permit := by
  cases h with
  | thread hsess hlocal => exact .inl hentry
  | tick => exact .inl hentry
  | nextConnId => exact .inl hentry
  | shared hsess hshared =>
      cases hshared with
      | startServing hpc => exact .inl (lookup_withdrawCid.mp hentry).1
      | removeCid hpc => exact .inl (lookup_removeByCidIfMine.mp hentry).1
      | _ => exact .inl hentry
  | listener hlistened =>
      cases hlistened with
      | recvFrom hlistener hrouted =>
          cases hrouted with
          | byCid _ _ _ hsent => exact .inl (hsent.byCid ▸ hentry)
          | byAddr _ _ _ hsent => exact .inl (hsent.byCid ▸ hentry)
          | reapedCid => exact .inl (Table.lookup_erase_eq_some.mp hentry).2
          | _ => exact .inl hentry
      | inserted hlistener =>
          rcases Table.lookup_insert_eq_some.mp hentry with
            ⟨rfl, rfl⟩ | ⟨-, hbefore⟩
          · exact .inr ⟨rfl, _, _, _, hlistener⟩
          · exact .inl hbefore
      | spawn hlistener hsess =>
          rename_i spawned
          cases spawned <;> exact .inl hentry
      | _ => exact .inl hentry

/-- A session that has lost all its senders gets none back. -/
theorem Stepped.hasSender_before {env : Env} {s s' : State} {a : Action}
    (h : Stepped env s a s') {c : Conn} (hne : c ≠ s.nextConnId)
    (hsender : s'.hasSender c = true) : s.hasSender c = true := by
  apply hasSender_iff.mpr
  rcases hasSender_iff.mp hsender with ⟨x, hentry⟩ | ⟨k, hentry⟩
  · exact .inl ⟨x, (h.byAddr_before hentry).resolve_right hne⟩
  · exact .inr ⟨k, (h.byCid_before hentry).resolve_right fun h => hne h.1⟩

/-! Invariants that speak of one session at a time. -/

def EverySession (P : Session → Prop) (s : State) : Prop :=
  ∀ c sess, s.session c = some sess → P sess

theorem EverySession.step {P : Session → Prop} {env : Env} {s s' : State}
    {a : Action} (hs : EverySession P s)
    (hpromoted : ∀ now peer dgram cid permit,
      P (State.promoted env now peer dgram cid permit))
    (hmoved : ∀ c sess sess', s.session c = some sess →
      Moved env s c sess a sess' → P sess → P sess')
    (h : Stepped env s a s') : EverySession P s' := by
  intro c sess hsess
  cases h.touched with
  | none hsame => exact hs c sess (hsame ▸ hsess)
  | @one c' old new hbefore hafter hother hmove =>
      by_cases hc : c = c'
      · subst hc
        rw [hafter, Option.some.injEq] at hsess
        subst hsess
        exact hmoved c old new hbefore hmove (hs c old hbefore)
      · exact hs c sess ((hother c hc) ▸ hsess)
  | promoted ha hlistener hs' =>
      subst hs'
      rcases session_insertHandles.mp hsess with ⟨-, rfl⟩ | ⟨-, hbefore⟩
      · exact hpromoted _ _ _ _ _
      · exact hs c sess hbefore

theorem everySession_run {P : Session → Prop} {env : Env}
    (hpromoted : ∀ now peer dgram cid permit,
      P (State.promoted env now peer dgram cid permit))
    (hmoved : ∀ s c sess a sess',
      Moved env s c sess a sess' → P sess → P sess')
    {quota : ConnQuota} {actions : List Action} {s : State}
    (hrun : run (step env) (init quota) actions = some s) :
    EverySession P s :=
  run_invariant (step env)
    (fun s a _ hs h => hs.step hpromoted
      (fun c sess sess' _ => hmoved s c sess a sess') (step_stepped h))
    (fun _ _ h => by simp [init, State.session] at h) hrun

end Loft.DtlsMbed
