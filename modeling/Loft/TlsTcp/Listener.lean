import Loft.Handler
import Loft.Listen
import Loft.Quota.Drawn

namespace Loft.TlsTcp.Listener

open Loft.Data
open Loft.Data.Transition
open Loft.Admission (Holder Drawn Books)

/-! The accept loop of the TLS listener and its connection threads, on an
admission table of their own. -/

inductive Phase
  | running
  -- `connection_thread` is over; the permit is still held.
  | ended
  | finished
  deriving DecidableEq, Repr

structure Thread where
  ip : IpAddr
  permit : ConnPermit
  phase : Phase
  deriving DecidableEq, Repr

/-- `admitted` is the stream that a thread is being spawned for. -/
structure State where
  quota : ConnQuota
  admitted : Option (IpAddr × ConnPermit)
  threads : List Thread

def init : State where
  quota := ConnQuota.new maxConnections maxConnectionsPerIp
  admitted := none
  threads := []

inductive Action
  -- A stream that may fail to name its peer, or no stream at all.
  | incoming (peer : Option SocketAddr)
  | spawn (spawned : Bool)
  -- By returning or by panicking.
  | ends (c : Nat)
  | release (c : Nat)
  deriving DecidableEq, Repr

def stepThread (s : State) (c : Nat) (phase : Phase)
    (next : Thread → State) : Option State :=
  match s.threads[c]? with
  | none => none
  | some thread => if thread.phase = phase then some (next thread) else none

def State.setThread (s : State) (c : Nat) (thread : Thread) : State :=
  { s with threads := s.threads.set c thread }

def step (s : State) : Action → Option State
  | .incoming peer =>
      match s.admitted with
      | some _ => none
      | none =>
          match peer with
          | none => some s
          | some peer =>
              let peerIp := (canonicalPeer peer).ip
              match s.quota.tryAcquire peerIp with
              | none => some s
              | some (permit, quota) =>
                  some { s with
                    quota := quota, admitted := some (peerIp, permit) }
  | .spawn spawned =>
      match s.admitted with
      | none => none
      | some (ip, permit) =>
          if spawned then
            some { s with
              admitted := none
              threads := s.threads ++ [⟨ip, permit, .running⟩] }
          else
            some { s with
              admitted := none, quota := s.quota.release permit }
  | .ends c => stepThread s c .running fun thread =>
      s.setThread c { thread with phase := .ended }
  | .release c => stepThread s c .ended fun thread =>
      { s.setThread c { thread with phase := .finished } with
        quota := s.quota.release thread.permit }

/-! The permits that are out. -/

def Thread.holder (thread : Thread) : Option Holder :=
  if thread.phase = .finished then none else some ⟨thread.ip, thread.permit⟩

def State.holders (s : State) : List Holder :=
  (s.admitted.map fun stream => ⟨stream.1, stream.2⟩).toList ++
    s.threads.filterMap Thread.holder

theorem stepThread_eq_some {s s' : State} {c : Nat} {phase : Phase}
    {next : Thread → State} (h : stepThread s c phase next = some s') :
    ∃ thread, s.threads[c]? = some thread ∧ thread.phase = phase ∧
      s' = next thread := by
  unfold stepThread at h
  split at h
  · cases h
  · rename_i thread hthread
    split_ifs at h with hphase
    exact ⟨thread, hthread, hphase, (Option.some.inj h).symm⟩

theorem step_drawn {s s' : State} {a : Action} (h : step s a = some s') :
    Drawn s.quota s.holders s'.quota s'.holders := by
  cases a with
  | incoming peer =>
      simp only [step] at h
      split at h
      · cases h
      · rename_i hadmitted
        split at h
        · cases h
          exact .kept (List.Perm.refl _)
        · split at h <;> cases h
          · exact .kept (List.Perm.refl _)
          · rename_i hacquire
            refine .acquired hacquire ?_
            simp [State.holders, hadmitted]
  | spawn spawned =>
      simp only [step] at h
      split at h
      · cases h
      · rename_i ip permit hadmitted
        split_ifs at h <;> cases h
        · refine .kept ?_
          simp [State.holders, hadmitted, Thread.holder]
        · have hperm : s.holders.Perm (⟨ip, permit⟩ ::
              State.holders { s with
                admitted := none, quota := s.quota.release permit }) := by
            simp [State.holders, hadmitted]
          exact .released hperm
  | ends c =>
      obtain ⟨thread, hthread, hphase, rfl⟩ := stepThread_eq_some h
      refine .kept (List.Perm.append_left _ ?_)
      exact Admission.filterMap_set_same hthread
        (by simp [Thread.holder, hphase])
  | release c =>
      obtain ⟨thread, hthread, hphase, rfl⟩ := stepThread_eq_some h
      have hholder : thread.holder = some ⟨thread.ip, thread.permit⟩ := by
        simp [Thread.holder, hphase]
      have hperm : s.holders.Perm (⟨thread.ip, thread.permit⟩ ::
          (s.setThread c { thread with phase := .finished }).holders) := by
        refine List.Perm.trans (List.Perm.append_left _ ?_) List.perm_middle
        exact Admission.filterMap_set_none hthread hholder rfl
      exact .released hperm

theorem run_books {actions : List Action} {s : State}
    (hrun : run step init actions = some s) :
    Books maxConnections maxConnectionsPerIp ⟨s.quota, s.holders⟩ := by
  apply @run_invariant _ _ step (fun s =>
    Books maxConnections maxConnectionsPerIp ⟨s.quota, s.holders⟩) _ _ _ _ _ hrun
  · intro s a s' hs h
    exact hs.drawn_alone (step_drawn h)
  · exact Admission.init_books maxConnections maxConnectionsPerIp

theorem tryAcquire_eq_none (quota : ConnQuota) (ip : IpAddr) :
    quota.tryAcquire ip = none ↔
      quota.maxTotal ≤ quota.total ∨
        quota.maxPerIp ≤ quota.held (bucket ip) := by
  unfold ConnQuota.tryAcquire
  split_ifs with htotal hshare
  · simp [htotal]
  · simp [hshare]
  · simp [htotal, hshare]

theorem step_incoming_refused {s : State} {peer : SocketAddr}
    (hadmitted : s.admitted = none) :
    step s (.incoming (some peer)) = some s ↔
      s.quota.tryAcquire (canonicalPeer peer).ip = none := by
  simp only [step, hadmitted]
  constructor
  · intro h
    split at h
    · assumption
    · rename_i permit quota hacquire
      have hthen := congrArg State.admitted (Option.some.inj h)
      rw [hadmitted] at hthen
      cases hthen
  · intro hrefused
    rw [hrefused]

/-- Where the streams come from that have a permit. -/
def State.sources (s : State) : List IpAddr :=
  s.holders.map Holder.source

/-- A stream is refused if and only if as many are open as the whole process,
or its share, may have; when all threads are through nothing is left out. -/
theorem refused_iff_full {actions : List Action} {s : State}
    (hrun : run step init actions = some s) :
    s.sources.length ≤ maxConnections ∧
      (∀ ip, s.sources.countP (bucket · = bucket ip) ≤ maxConnectionsPerIp) ∧
      (s.admitted = none → ∀ peer,
        step s (.incoming (some peer)) = some s ↔
          maxConnections ≤ s.sources.length ∨
            maxConnectionsPerIp ≤
              s.sources.countP (bucket · = bucket peer.ip)) ∧
      (s.admitted = none → (∀ thread ∈ s.threads, thread.phase = .finished) →
        s.quota.total = 0 ∧ ∀ ip, s.quota.held ip = 0) := by
  have hs := run_books hrun
  have hlength : s.sources.length = s.quota.total := by
    rw [State.sources, List.length_map]
    exact hs.total.symm
  have hshare (ip : IpAddr) :
      s.sources.countP (bucket · = bucket ip) = s.quota.held (bucket ip) := by
    rw [hs.held, State.sources, List.countP_map]
    rfl
  refine ⟨?_, ?_, ?_, ?_⟩
  · rw [hlength]
    exact hs.total_le
  · intro ip
    rw [hshare, hs.held]
    exact hs.heldBy_le _
  · intro hadmitted peer
    rw [step_incoming_refused hadmitted, tryAcquire_eq_none, hs.limits.1,
      hs.limits.2, canonicalPeer, bucket_toCanonical, hlength, hshare]
  · intro hadmitted hfinished
    have hnone : s.holders = [] := by
      rw [State.holders, hadmitted, Option.map_none, Option.toList_none,
        List.nil_append, List.filterMap_eq_nil_iff]
      intro thread hmem
      exact if_pos (hfinished thread hmem)
    refine ⟨?_, ?_⟩
    · rw [hs.total, hnone]
      rfl
    · intro ip
      rw [hs.held, hnone]
      rfl

/-- Two streams of one host by either family, and one whose thread cannot be
spawned. -/
def dualStack : List Action :=
  [.incoming (some ⟨.v4 0xC0000201, 1⟩), .spawn true,
    .incoming (some ⟨.v6 0xFFFFC0000201, 2⟩), .spawn true, .incoming none,
    .incoming (some ⟨.v4 0xC0000201, 3⟩), .spawn false, .ends 0, .release 0]

theorem refused_iff_full_dualStack :
    ∃ s, run step init dualStack = some s ∧
      s.sources = [.v4 0xC0000201] ∧ s.sources.length ≤ 4096 ∧
      ¬ step s (.incoming (some ⟨.v4 0xC0000201, 4⟩)) = some s := by
  have hsources : (run step init dualStack).map
      (fun s => (s.admitted, s.sources)) = some (none, [.v4 0xC0000201]) := by
    decide +kernel
  obtain ⟨s, hrun, hpair⟩ := Option.map_eq_some_iff.mp hsources
  have hadmitted : s.admitted = none := congrArg Prod.fst hpair
  have hone : s.sources = [.v4 0xC0000201] := congrArg Prod.snd hpair
  obtain ⟨htotal, -, hrefused, -⟩ := refused_iff_full hrun
  refine ⟨s, hrun, hone, htotal, ?_⟩
  rw [hrefused hadmitted, hone]
  decide

end Loft.TlsTcp.Listener
