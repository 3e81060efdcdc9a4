import Loft.DtlsMbed.Maps

namespace Loft.DtlsMbed

open Loft.Data
open Loft.Data.Transition
open Loft.MbedtlsShim

/-! What a step makes of the sessions themselves. -/

/-- Peer and CID stay, the route by CID stays unless it is withdrawn, and
nothing comes into the channel but what the listener has just received. -/
structure Kept (a : Action) (c : Conn) (sess sess' : Session) : Prop where
  peer : sess'.peer = sess.peer
  cid : sess'.cid = sess.cid
  routed : sess.cidRouted = true → sess'.pc.live = true →
    sess'.cidRouted = true ∨
      a = .shared c .startServing ∧ sess.cidActive = false
  queue : sess'.io.queue <:+ sess.io.queue ∨
    ∃ peer dgram, a = .listener (.recvFrom peer dgram) ∧
      sess'.io.queue = sess.io.queue ++ [(dgram, peer)]

theorem Local.queue {env : Env} {now : Instant} {senders : Bool}
    {sess sess' : Session} {a : LocalAction}
    (h : Local env now senders sess a sess') :
    sess'.io.queue <:+ sess.io.queue := by
  cases h with
  | recv hcall hlib hreceived => exact hreceived.queue
  | handshakeFails => exact List.nil_suffix
  | readFails => exact List.nil_suffix
  | anonymous => exact List.nil_suffix
  | unwritten => exact List.nil_suffix
  | panicked => exact List.nil_suffix
  | empty => exact (migrate_queue sess).symm ▸ List.suffix_rfl
  | replied => exact (migrate_queue sess).symm ▸ List.suffix_rfl
  | _ => exact List.suffix_rfl

section Threads

attribute [local simp] Session.log Session.drop Session.cidRouted Pc.live
  Pc.inCall Pc.inServingLoop

/-- A thread does not withdraw its route by CID by itself. -/
theorem Local.routed {env : Env} {now : Instant} {senders : Bool}
    {sess sess' : Session} {a : LocalAction}
    (h : Local env now senders sess a sess') (hrouted : sess.cidRouted = true)
    (hlive : sess'.pc.live = true) : sess'.cidRouted = true := by
  cases h with
  | recv hcall hlib hreceived => exact hrouted
  | _ => simp_all

end Threads

theorem Moved.kept {env : Env} {s : State} {c : Conn} {sess sess' : Session}
    {a : Action} (h : Moved env s c sess a sess') : Kept a c sess sess' := by
  have hdead : ∀ {sess : Session} {P : Prop}, sess.pc.live = false →
      sess.pc.live = true → P := by
    intro sess P hdead hlive
    rw [hdead] at hlive
    cases hlive
  cases h with
  | thread hlocal =>
      exact ⟨hlocal.kept.1, hlocal.kept.2.1,
        fun hrouted hlive => .inl (hlocal.routed hrouted hlive),
        .inl hlocal.queue⟩
  | queued hsender hlive =>
      exact ⟨rfl, rfl, fun hrouted _ => .inl hrouted, .inr ⟨_, _, rfl, rfl⟩⟩
  | spawned hlistener =>
      exact ⟨rfl, rfl, fun _ _ => .inl (by
        simp [Session.cidRouted, Pc.live, Pc.inServingLoop]),
        .inl List.suffix_rfl⟩
  | unspawned hlistener =>
      exact ⟨rfl, rfl, fun _ hlive => hdead rfl hlive, .inl List.nil_suffix⟩
  | startServing hpc =>
      refine ⟨rfl, rfl, fun _ _ => ?_, .inl List.suffix_rfl⟩
      cases hactive : sess.cidActive with
      | false => exact .inr ⟨rfl, rfl⟩
      | true => exact .inl (by simp [Session.cidRouted, Pc.live])
  | releaseAddr hpc hactive hrouted =>
      exact ⟨rfl, rfl, fun hrouted _ => .inl hrouted, .inl List.suffix_rfl⟩
  | removeAddr hpc =>
      exact ⟨rfl, rfl, fun _ hlive => hdead rfl hlive, .inl List.suffix_rfl⟩
  | removeCid hpc =>
      exact ⟨rfl, rfl, fun _ hlive => hdead rfl hlive, .inl List.suffix_rfl⟩
  | dropPermit hpc =>
      exact ⟨rfl, rfl, fun _ hlive => hdead rfl hlive, .inl List.suffix_rfl⟩

/-! What the maps say in every reachable state, and across every step. -/

structure Demuxed (s : State) : Prop where
  byAddr : ∀ a c, s.byAddr.lookup a = some c →
    ∃ sess, s.session c = some sess ∧ sess.peer = a
  byCid : ∀ k c, s.byCid.lookup k = some c →
    ∃ sess, s.session c = some sess ∧ sess.cid = k
  reachable : ∀ c sess, s.session c = some sess → sess.cidRouted = true →
    s.byCid.lookup sess.cid = some c
  finished : ∀ c sess, s.session c = some sess →
    sess.pc = .cidRemoved ∨ sess.pc = .finished →
      (∀ a, s.byAddr.lookup a ≠ some c) ∧ ∀ k, s.byCid.lookup k ≠ some c

structure DemuxStep (s : State) (a : Action) (s' : State) : Prop where
  kept : ∀ c sess, s.session c = some sess →
    ∃ sess', s'.session c = some sess' ∧ Kept a c sess sess'
  promoted : ∀ c sess, s.session c = none → s'.session c = some sess →
    a = .listener .insertHandles ∧ ∃ dgram permit,
      s.listener = .admitted sess.peer dgram sess.cid permit
  -- No entry by CID is ever overwritten.
  inserted : ∀ k c, s.byCid.lookup k = some c → s'.byCid.lookup k ≠ some c →
    s'.byCid.lookup k = none
  -- An address goes to its own session, or to a newer one of that address.
  lost : ∀ x c sess, s.byAddr.lookup x = some c → s.session c = some sess →
    sess.pc.live = true → s'.byAddr.lookup x ≠ some c →
      a = .shared c .releaseAddr ∨
      a = .listener .insertHandles ∧ ∃ c' sess', c < c' ∧
        s'.byAddr.lookup x = some c' ∧ s'.session c' = some sess' ∧
        sess'.peer = x
  -- One channel at most, and by CID only where the type says so.
  offered : ∀ peer dgram, a = .listener (.recvFrom peer dgram) →
    s'.session = s.session ∧
      (dgram[0]? = some contentTypeCid → s'.listener = .receiving) ∨
    ∃ c sess, s.session c = some sess ∧ Sent s c (dgram, peer) s' ∧
      s'.listener = .receiving ∧
      (dgram[0]? = some contentTypeCid → cidOf dgram = some sess.cid)

theorem Owned.demuxed {s : State} (hs : Owned s) : Demuxed s where
  byAddr a c hentry := by
    obtain ⟨sess, hsess, hpeer, -⟩ := hs.addr a c hentry
    exact ⟨sess, hsess, hpeer⟩
  byCid k c hentry := by
    obtain ⟨sess, hsess, hcid, -⟩ := hs.cid k c hentry
    exact ⟨sess, hsess, hcid⟩
  reachable := hs.routed
  finished c sess hsess hpc := by
    have hkeeps : sess.pc.keepsAddr = false ∧ sess.pc.keepsCid = false := by
      rcases hpc with hpc | hpc
      · rw [hpc]
        exact ⟨rfl, rfl⟩
      · rw [hpc]
        exact ⟨rfl, rfl⟩
    exact ⟨fun _ hentry => hs.addr_ne hsess hkeeps.1 hentry rfl,
      fun _ hentry => hs.cid_ne hsess hkeeps.2 hentry rfl⟩

theorem Owned.entry_lost {env : Env} {s s' : State} {a : Action}
    (hs : Owned s) (h : Stepped env s a s') {x : SocketAddr} {c : Conn}
    {sess : Session} (hentry : s.byAddr.lookup x = some c)
    (hsess : s.session c = some sess) (hlive : sess.pc.live = true) :
    s'.byAddr.lookup x = some c ∨ a = .shared c .releaseAddr ∨
      a = .listener .insertHandles ∧ ∃ c' sess', c < c' ∧
        s'.byAddr.lookup x = some c' ∧ s'.session c' = some sess' ∧
        sess'.peer = x := by
  cases h with
  | thread hsess hlocal => exact .inl hentry
  | tick => exact .inl hentry
  | nextConnId => exact .inl hentry
  | @shared c' _ _ _ hsess' hshared =>
      by_cases hsame : c = c'
      · subst hsame
        rw [hsess, Option.some.injEq] at hsess'
        subst hsess'
        cases hshared with
        | releaseAddr => exact .inr (.inl rfl)
        | removeAddr hpc => simp [hpc, Pc.live] at hlive
        | _ => exact .inl hentry
      · left
        cases hshared with
        | releaseAddr =>
            exact lookup_removeByAddrIfMine.mpr ⟨hentry, fun _ => hsame⟩
        | removeAddr hpc =>
            exact lookup_removeByAddrIfMine.mpr ⟨hentry, fun _ => hsame⟩
        | _ => exact hentry
  | listener hlistened =>
      cases hlistened with
      | recvFrom hlistener hrouted =>
          left
          cases hrouted with
          | byCid _ _ _ hsent => exact hsent.byAddr ▸ hentry
          | byAddr _ _ _ hsent => exact hsent.byAddr ▸ hentry
          | reapedAddr _ hmine hdead =>
              apply Table.lookup_erase_eq_some.mpr
              refine ⟨?_, hentry⟩
              intro hsame
              subst hsame
              rw [hentry, Option.some.injEq] at hmine
              subst hmine
              simp [hdead sess hsess] at hlive
          | _ => exact hentry
      | @inserted peer dgram cid permit hlistener =>
          by_cases hx : x = peer
          · subst hx
            refine .inr (.inr ⟨rfl, s.nextConnId, _, ?_,
              Table.lookup_insert_eq_some.mpr (.inl ⟨rfl, rfl⟩),
              session_insertHandles.mpr (.inl ⟨rfl, rfl⟩), rfl⟩)
            apply Nat.lt_of_not_le
            intro hle
            rw [hs.fresh c hle] at hsess
            cases hsess
          · exact .inl (Table.lookup_insert_eq_some.mpr (.inr ⟨hx, hentry⟩))
      | spawn hlistener hsess =>
          rename_i spawned
          cases spawned <;> exact .inl hentry
      | _ => exact .inl hentry

theorem Owned.routed_once {s s' : State} {peer : SocketAddr} {dgram : Octets}
    (hs : Owned s) (hlistener : s.listener = .receiving)
    (h : Routed s peer dgram s') :
    s'.session = s.session ∧
        (dgram[0]? = some contentTypeCid → s'.listener = .receiving) ∨
      ∃ c sess, s.session c = some sess ∧ Sent s c (dgram, peer) s' ∧
        s'.listener = .receiving ∧
        (dgram[0]? = some contentTypeCid → cidOf dgram = some sess.cid) := by
  cases h with
  | unroutable => exact .inl ⟨rfl, fun _ => hlistener⟩
  | reapedCid => exact .inl ⟨rfl, fun _ => hlistener⟩
  | stranger hcid => exact .inl ⟨rfl, fun h => absurd h hcid⟩
  | reused hcid => exact .inl ⟨rfl, fun h => absurd h hcid⟩
  | reapedAddr hcid => exact .inl ⟨rfl, fun h => absurd h hcid⟩
  | byCid _ hof hentry hsent =>
      obtain ⟨sess, hsess, hcid, -⟩ := hs.cid _ _ hentry
      exact .inr ⟨_, sess, hsess, hsent, hsent.listener.trans hlistener,
        fun _ => hcid ▸ hof⟩
  | byAddr hcid hentry _ hsent =>
      obtain ⟨sess, hsess, -⟩ := hs.addr _ _ hentry
      exact .inr ⟨_, sess, hsess, hsent, hsent.listener.trans hlistener,
        fun h => absurd h hcid⟩

theorem Kept.refl (a : Action) (c : Conn) (sess : Session) :
    Kept a c sess sess :=
  ⟨rfl, rfl, fun hrouted _ => .inl hrouted, .inl List.suffix_rfl⟩

theorem Owned.demuxStep {env : Env} {s s' : State} {a : Action}
    (hs : Owned s) (h : Stepped env s a s') : DemuxStep s a s' where
  kept c sess hsess := by
    obtain ⟨sess', hsess', rfl | hmove⟩ := hs.session_step h hsess
    · exact ⟨sess', hsess', .refl a c sess'⟩
    · exact ⟨sess', hsess', hmove.kept⟩
  promoted c sess hnone hsess := by
    cases h.touched with
    | none hsame =>
        rw [hsame, hnone] at hsess
        cases hsess
    | @one c' old _ hbefore hafter hother hmove =>
        by_cases hc : c = c'
        · rw [hc, hbefore] at hnone
          cases hnone
        · rw [hother c hc, hnone] at hsess
          cases hsess
    | promoted ha hlistener hs' =>
        subst hs'
        rcases session_insertHandles.mp hsess with ⟨rfl, rfl⟩ | ⟨-, hbefore⟩
        · exact ⟨ha, _, _, hlistener⟩
        · rw [hnone] at hbefore
          cases hbefore
  inserted k c hentry hlost := by
    cases hafter : s'.byCid.lookup k with
    | none => rfl
    | some c' =>
        rcases h.byCid_before hafter with hbefore | ⟨-, _, _, _, hlistener⟩
        · rw [hentry] at hbefore
          exact absurd (hafter.trans hbefore.symm) hlost
        · have hfree := hs.minted k (by rw [hlistener]; rfl)
          rw [hentry] at hfree
          cases hfree
  lost x c sess hentry hsess hlive hlost :=
    (hs.entry_lost h hentry hsess hlive).resolve_left hlost
  offered peer dgram ha := by
    subst ha
    cases h with
    | listener hlistened =>
        cases hlistened with
        | recvFrom hlistener hrouted => exact hs.routed_once hlistener hrouted

/-- In every run, whatever the order of its steps. -/
theorem maps_name_sessions (env : Env) (quota : ConnQuota)
    (actions : List Action) (s : State)
    (hrun : run (step env) (init quota) actions = some s) :
    Demuxed s ∧ ∀ a s', step env s a = some s' → DemuxStep s a s' :=
  ⟨(owned_run hrun).demuxed,
    fun _ _ h => (owned_run hrun).demuxStep (step_stepped h)⟩

/-- A session moves off `clientA` and releases it, a second one is promoted from
there, and then the first one's thread panics. -/
def addressTakenOver : List Action :=
  admission clientA cidOne ++ lastFlight 1 clientA ++ startServing 1 true ++
    [.listener (.recvFrom clientB (cidRecord cidOne)),
      .thread 1 .callRead, .thread 1 (.recv 1500 false),
      .thread 1 (.answer 21), .shared 1 .releaseAddr,
      .thread 1 (.conclude true)] ++
    admission clientA cidTwo ++ [.thread 1 .panics]

theorem maps_name_sessions_addressTakenOver :
    ∃ s, run (step directEnv) (init limits) addressTakenOver = some s ∧
      Demuxed s ∧ ∀ a s', step directEnv s a = some s' → DemuxStep s a s' := by
  have hsome : (run (step directEnv) (init limits)
      addressTakenOver).isSome = true := by decide +kernel
  obtain ⟨s, hrun⟩ := Option.isSome_iff_exists.mp hsome
  exact ⟨s, hrun, maps_name_sessions directEnv limits addressTakenOver s hrun⟩

end Loft.DtlsMbed
