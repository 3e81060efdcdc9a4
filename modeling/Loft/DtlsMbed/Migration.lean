import Loft.DtlsMbed.Maps

namespace Loft.DtlsMbed

open Loft.Data
open Loft.Data.Transition
open Loft.MbedtlsShim

/-! What moves a session. The source of every delivered datagram is staged, and
a read that returns data commits it; zero counts as data. -/

section Authentic

-- After `t`, the datagram holds a record that passes the record protection and
-- the replay window.
variable (authentic : Transcript → Octets → Prop)

/-- A read returns data only from an authentic record of the datagram delivered
last. -/
def ReadsAuthentic (lib : Library) : Prop :=
  ∀ t (n : Nat), inHandshakeCall t = false → 0 < n →
    lib t (.answer n) = true →
      ∃ delivery, lastDelivered t = some delivery ∧ authentic t delivery.1

/-- A read returns 0 only when the transport has just told it 0. -/
def ZeroOnlyWhenTold (lib : Library) : Prop :=
  ∀ t, inHandshakeCall t = false → lib t (.answer 0) = true →
    ∃ delivered, t.getLast? = some (.received 0 delivered)

/-- The last thing to have happened is that a read returned an authentic record
out of a datagram from `src`. -/
def AuthenticRead (t : Transcript) (src : SocketAddr) : Prop :=
  ∃ before dgram, ∃ n : Nat, ∃ at_, 0 < n ∧
    t = before ++ [.returned n at_] ∧
    lastDelivered before = some (dgram, src) ∧ authentic before dgram

/-- The committed peer moves to the source of an authentic record, and the
address is released and the activity refreshed only after one. -/
structure MovesAuthentic (s : State) (a : Action) (s' : State) : Prop where
  committed : ∀ c sess sess', s.session c = some sess →
    s'.session c = some sess' →
    sess'.io.committedPeer ≠ sess.io.committedPeer →
      AuthenticRead authentic sess.transcript sess'.io.committedPeer
  released : ∀ c sess, s.session c = some sess → a = .shared c .releaseAddr →
    ∃ src, AuthenticRead authentic sess.transcript src
  refreshed : ∀ c sess sess', s.session c = some sess →
    s'.session c = some sess' → sess.pc.inServingLoop = true →
    sess'.lastActivity ≠ sess.lastActivity →
      ∃ src, AuthenticRead authentic sess'.transcript src

end Authentic

/-- No read of the serving loop takes up a datagram without octets, or finds
its channel closed. -/
def takesUpOctets (s : State) : Action → Bool
  | .thread c (.recv _ _) =>
      (s.session c).all fun sess =>
        sess.pc != .inRead ||
          match sess.io.queue with
          | delivery :: _ => delivery.1 != []
          | [] => s.hasSender c
  | _ => true

/-- What the transcript says of a session, as long as its reads take up
octets. -/
structure Traced (authentic : Transcript → Octets → Prop) (sess : Session) :
    Prop where
  pending : sess.io.pending = none
  staged : ∀ delivery, lastDelivered sess.transcript = some delivery →
    sess.io.stagedPeer = delivery.2
  reading : sess.pc = .inRead → inHandshakeCall sess.transcript = false ∧
    ∀ delivered, sess.transcript.getLast? ≠ some (.received 0 delivered)
  read : ∀ n, sess.pc = .answered n →
    ∃ src, AuthenticRead authentic sess.transcript src

theorem traced_promoted (authentic : Transcript → Octets → Prop) (env : Env)
    (now : Instant) (peer : SocketAddr) (dgram : Octets) (cid : Cid)
    (permit : ConnPermit) :
    Traced authentic (State.promoted env now peer dgram cid permit) where
  pending := rfl
  staged delivery h := by
    cases h
    rfl
  reading := nofun
  read := nofun

theorem inHandshakeCall_concat (t : Transcript) (event : LibEvent) :
    inHandshakeCall (t ++ [event]) =
      if event = .handshakeCalled then true
      else if event = .readCalled then false
      else inHandshakeCall t := by
  cases event <;> simp [inHandshakeCall]

theorem Received.not_zero {io io' : ConnState} {now : Instant}
    {senders : Bool} {outcome : RecvOutcome} {delivered : Option Delivery}
    (h : Received io now senders outcome delivered io')
    (hpending : io.pending = none)
    (hoctets : match io.queue with
      | delivery :: _ => delivery.1 ≠ []
      | [] => senders = true) : recvTramp outcome ≠ 0 := by
  intro hzero
  cases h with
  | overdue => simp [recvTramp_eq_zero] at hzero
  | oversized => simp [recvTramp_eq_zero] at hzero
  | waiting _ _ _ houtcome =>
      rcases houtcome with rfl | rfl <;> simp [recvTramp_eq_zero] at hzero
  | closed _ hqueue hsenders =>
      rw [hqueue, hsenders] at hoctets
      cases hoctets
  | @delivered delivery io' htaken =>
      have hempty : delivery.1 = [] := by
        simpa [recvTramp_eq_zero] using hzero
      cases htaken with
      | fed hfed =>
          rw [hpending] at hfed
          cases hfed
      | queued _ hqueue =>
          rw [hqueue] at hoctets
          exact hoctets hempty

/-- Under the two assumptions a read that returns data has an authentic record
to return it from. -/
theorem readData_authentic {authentic : Transcript → Octets → Prop}
    {lib : Library} {t : Transcript} {n : Nat} {now : Instant}
    (hreads : ReadsAuthentic authentic lib) (hzero : ZeroOnlyWhenTold lib)
    (hreading : inHandshakeCall t = false ∧
      ∀ delivered, t.getLast? ≠ some (.received 0 delivered))
    (hlib : lib t (.answer n) = true) :
    ∃ src, AuthenticRead authentic (t ++ [.returned n now]) src := by
  obtain ⟨hcall, hnot⟩ := hreading
  have hpos : 0 < n := by
    apply Nat.pos_of_ne_zero
    intro hsame
    subst hsame
    obtain ⟨delivered, hlast⟩ := hzero t hcall hlib
    exact hnot delivered hlast
  obtain ⟨⟨dgram, src⟩, hlast, hauthentic⟩ := hreads t n hcall hpos hlib
  exact ⟨src, t, dgram, n, now, hpos, rfl, hlast, hauthentic⟩

theorem Local.traced {authentic : Transcript → Octets → Prop} {env : Env}
    {now : Instant} {senders : Bool} {sess sess' : Session} {a : LocalAction}
    (hreads : ReadsAuthentic authentic env.lib)
    (hzero : ZeroOnlyWhenTold env.lib) (hsess : Traced authentic sess)
    (hoctets : ∀ cap expired, a = .recv cap expired → sess.pc = .inRead →
      match sess.io.queue with
      | delivery :: _ => delivery.1 ≠ []
      | [] => senders = true)
    (h : Local env now senders sess a sess') : Traced authentic sess' := by
  obtain ⟨hpending, hstaged, hreading, hread⟩ := hsess
  cases h with
  | callHandshake hpc =>
      exact ⟨hpending, by simpa [Session.log] using hstaged, nofun, nofun⟩
  | callRead hpc =>
      exact ⟨hpending, by simpa [Session.log] using hstaged,
        fun _ => by simp [Session.log, inHandshakeCall_concat], nofun⟩
  | @recv cap expired outcome delivered io hcall hlib hreceived =>
      refine ⟨hreceived.kept.2 hpending, ?_, fun hpc => ⟨?_, ?_⟩, ?_⟩
      · intro delivery hlast
        have hstaged' := hreceived.staged
        cases delivered with
        | none =>
            apply hstaged'.trans
            apply hstaged delivery
            simpa [Session.log] using hlast
        | some delivery' =>
            obtain rfl : delivery' = delivery := by
              simpa [Session.log] using hlast
            exact hstaged'
      · simpa [Session.log, inHandshakeCall_concat] using (hreading hpc).1
      · intro delivered' hlast
        apply hreceived.not_zero hpending (hoctets cap expired rfl hpc)
        simp only [Session.log, List.getLast?_concat, Option.some.injEq,
          LibEvent.received.injEq] at hlast
        exact hlast.1
      · intro n hpc
        have hpc : sess.pc = .answered n := hpc
        rw [hpc] at hcall
        cases hcall
  | handshakeDone =>
      exact ⟨hpending, by simpa [Session.log] using hstaged, nofun, nofun⟩
  | handshakeWaits =>
      exact ⟨hpending, by simpa [Session.log] using hstaged, nofun, nofun⟩
  | handshakeFails =>
      exact ⟨hpending, by simpa [Session.log, Session.drop] using hstaged,
        nofun, nofun⟩
  | @readData n hpc hlib =>
      refine ⟨hpending, by simpa [Session.log] using hstaged, nofun, ?_⟩
      intro n' _
      exact readData_authentic hreads hzero (hreading hpc) hlib
  | readWaits =>
      exact ⟨hpending, by simpa [Session.log] using hstaged, nofun, nofun⟩
  | readFails =>
      exact ⟨hpending, by simpa [Session.log, Session.drop] using hstaged,
        nofun, nofun⟩
  | established => exact ⟨hpending, hstaged, nofun, nofun⟩
  | anonymous => exact ⟨hpending, hstaged, nofun, nofun⟩
  | empty =>
      exact ⟨by simpa using hpending, by simpa using hstaged, nofun, nofun⟩
  | replied =>
      exact ⟨by simpa [Session.log] using hpending,
        by simpa [Session.log] using hstaged, nofun, nofun⟩
  | unwritten =>
      exact ⟨by simpa [Session.log, Session.drop] using hpending,
        by simpa [Session.log, Session.drop] using hstaged, nofun, nofun⟩
  | panicked => exact ⟨hpending, hstaged, nofun, nofun⟩

theorem Moved.traced {authentic : Transcript → Octets → Prop} {env : Env}
    {s : State} {c : Conn} {sess sess' : Session} {a : Action}
    (hreads : ReadsAuthentic authentic env.lib)
    (hzero : ZeroOnlyWhenTold env.lib) (hguard : takesUpOctets s a = true)
    (hcur : s.session c = some sess) (h : Moved env s c sess a sess')
    (hsess : Traced authentic sess) : Traced authentic sess' := by
  cases h with
  | thread hlocal =>
      apply hlocal.traced hreads hzero hsess
      intro cap expired hsame hpc
      subst hsame
      simp only [takesUpOctets, hcur, Option.all_some, hpc, bne_self_eq_false,
        Bool.false_or] at hguard
      split at hguard
      · simpa using hguard
      · exact hguard
  | queued => exact ⟨hsess.pending, hsess.staged, hsess.reading, hsess.read⟩
  | releaseAddr =>
      exact ⟨hsess.pending, hsess.staged, hsess.reading, hsess.read⟩
  | _ => exact ⟨hsess.pending, hsess.staged, nofun, nofun⟩

/-- The committed peer follows the staged one and nothing else. -/
theorem Moved.committed {env : Env} {s : State} {c : Conn}
    {sess sess' : Session} {a : Action} (h : Moved env s c sess a sess')
    (hmoves : sess'.io.committedPeer ≠ sess.io.committedPeer) :
    (∃ n, sess.pc = .answered n) ∧
      sess'.io.committedPeer = sess.io.stagedPeer := by
  cases h with
  | thread hlocal =>
      cases hlocal with
      | recv _ _ hreceived => exact absurd hreceived.committed hmoves
      | empty hpc => exact ⟨⟨_, hpc⟩, migrate_committedPeer sess hmoves⟩
      | replied hpc => exact ⟨⟨_, hpc⟩, migrate_committedPeer sess hmoves⟩
      | unwritten hpc => exact ⟨⟨_, hpc⟩, migrate_committedPeer sess hmoves⟩
      | _ => exact absurd rfl hmoves
  | _ => exact absurd rfl hmoves

/-- In the loop only a read that returns data refreshes the activity. -/
theorem Moved.refreshed {env : Env} {s : State} {c : Conn}
    {sess sess' : Session} {a : Action} (h : Moved env s c sess a sess')
    (hloop : sess.pc.inServingLoop = true)
    (hmoves : sess'.lastActivity ≠ sess.lastActivity) :
    sess.pc = .inRead ∧ ∃ n : Nat, env.lib sess.transcript (.answer n) = true ∧
      sess'.transcript = sess.transcript ++ [.returned n s.now] := by
  cases h with
  | thread hlocal =>
      cases hlocal with
      | readData hpc hlib => exact ⟨hpc, _, hlib, rfl⟩
      | empty => exact absurd (migrate_lastActivity sess) hmoves
      | replied => exact absurd (migrate_lastActivity sess) hmoves
      | unwritten => exact absurd (migrate_lastActivity sess) hmoves
      | _ => exact absurd rfl hmoves
  | startServing hpc =>
      rw [hpc] at hloop
      cases hloop
  | _ => exact absurd rfl hmoves

/-- After a read of authentic data, the staged peer is where it came from. -/
theorem Traced.read_staged {authentic : Transcript → Octets → Prop}
    {sess : Session} {n : Nat} (hsess : Traced authentic sess)
    (hpc : sess.pc = .answered n) :
    AuthenticRead authentic sess.transcript sess.io.stagedPeer := by
  obtain ⟨src, before, dgram, n, at_, hpos, htranscript, hlast, hauthentic⟩ :=
    hsess.read n hpc
  have hstaged := hsess.staged (dgram, src)
    (by rw [htranscript, lastDelivered_concat]; exact hlast)
  rw [hstaged]
  exact ⟨before, dgram, n, at_, hpos, htranscript, hlast, hauthentic⟩

theorem movesAuthentic_step {authentic : Transcript → Octets → Prop}
    {env : Env} {s s' : State} {a : Action}
    (hreads : ReadsAuthentic authentic env.lib)
    (hzero : ZeroOnlyWhenTold env.lib) (howned : Owned s)
    (hs : EverySession (Traced authentic) s) (h : Stepped env s a s') :
    MovesAuthentic authentic s a s' where
  committed c sess sess' hsess hsess' hmoves := by
    obtain ⟨next, hnext, hcases⟩ := howned.session_step h hsess
    rw [hsess', Option.some.injEq] at hnext
    subst hnext
    rcases hcases with rfl | hmove
    · exact absurd rfl hmoves
    · obtain ⟨⟨n, hpc⟩, hcommitted⟩ := hmove.committed hmoves
      rw [hcommitted]
      exact (hs c sess hsess).read_staged hpc
  released c sess hsess ha := by
    subst ha
    cases h with
    | shared hbefore hshared =>
        cases hshared with
        | releaseAddr hpc =>
            rw [hsess, Option.some.injEq] at hbefore
            subst hbefore
            exact (hs c sess hsess).read _ hpc
  refreshed c sess sess' hsess hsess' hloop hmoves := by
    obtain ⟨next, hnext, hcases⟩ := howned.session_step h hsess
    rw [hsess', Option.some.injEq] at hnext
    subst hnext
    rcases hcases with rfl | hmove
    · exact absurd rfl hmoves
    · obtain ⟨hpc, n, hlib, htranscript⟩ := hmove.refreshed hloop hmoves
      rw [htranscript]
      exact readData_authentic hreads hzero ((hs c sess hsess).reading hpc) hlib

/-- In every run whose reads take up octets, whatever is queued in whatever
order, each step moves a session after an authentic record only. -/
theorem moves_only_authentic (authentic : Transcript → Octets → Prop)
    (env : Env) (quota : ConnQuota) (actions : List Action)
    (hreads : ReadsAuthentic authentic env.lib)
    (hzero : ZeroOnlyWhenTold env.lib)
    (hguard : Along (step env) (fun s a => takesUpOctets s a = true)
      (init quota) actions) :
    Along (step env) (fun s a => ∀ s', step env s a = some s' →
      MovesAuthentic authentic s a s') (init quota) actions := by
  have hkept : ∀ s a s', Owned s ∧ EverySession (Traced authentic) s →
      takesUpOctets s a = true → step env s a = some s' →
        Owned s' ∧ EverySession (Traced authentic) s' := by
    intro s a s' hboth hoctets hstep
    obtain ⟨howned, hs⟩ := hboth
    have hstepped := step_stepped hstep
    exact ⟨howned.step hstepped, hs.step (traced_promoted authentic env)
      (fun _ _ _ hcur hmove => hmove.traced hreads hzero hoctets hcur)
      hstepped⟩
  refine Along.mono (step env) hkept ?_ ⟨init_owned quota, ?_⟩ hguard
  · intro s a hboth _ s' hstep
    obtain ⟨howned, hs⟩ := hboth
    exact movesAuthentic_step hreads hzero howned hs (step_stepped hstep)
  · intro c sess hsess
    simp [init, State.session] at hsess

theorem readsAuthentic_directLibrary :
    ReadsAuthentic (fun _ dgram => isSealed dgram = true) directLibrary := by
  intro t n hcall hpos hlib
  induction t using List.reverseRecOn with
  | nil => cases hlib
  | append_singleton t event =>
      unfold directLibrary at hlib
      rw [List.getLast?_concat, hcall] at hlib
      cases event with
      | received rc delivered =>
          cases delivered with
          | none =>
              simp at hlib
              omega
          | some delivery =>
              refine ⟨delivery, lastDelivered_concat _ _, ?_⟩
              by_contra hnot
              simp [hnot] at hlib
              omega
      | _ => simp at hlib

theorem zeroOnlyWhenTold_directLibrary : ZeroOnlyWhenTold directLibrary := by
  intro t hcall hlib
  induction t using List.reverseRecOn with
  | nil => cases hlib
  | append_singleton t event =>
      unfold directLibrary at hlib
      rw [List.getLast?_concat, hcall] at hlib
      rw [List.getLast?_concat]
      cases event with
      | received rc delivered =>
          cases delivered with
          | none =>
              simp at hlib
              exact ⟨none, by simp [hlib]⟩
          | some delivery =>
              refine ⟨some delivery, ?_⟩
              by_contra hnot
              have hne : rc ≠ 0 := by
                intro hsame
                subst hsame
                exact hnot rfl
              cases hsealed : isSealed delivery.1 with
              | false => simp [hne, hsealed] at hlib
              | true => simp [hne, hsealed, Ne.symm hne] at hlib
      | _ => simp at hlib

/-- The first authentic record comes from `clientB`, and an empty datagram from
`clientA` is queued behind it. -/
def recordThenEmpty : List Action :=
  admission clientA cidOne ++ lastFlight 1 clientA ++ startServing 1 true ++
    [.listener (.recvFrom clientB (cidRecord cidOne)),
      .listener (.recvFrom clientA []), .thread 1 .callRead,
      .thread 1 (.recv 1500 false), .thread 1 (.answer 21),
      .shared 1 .releaseAddr, .thread 1 (.conclude true)]

theorem moves_only_authentic_recordThenEmpty :
    Along (step directEnv) (fun s a => ∀ s', step directEnv s a = some s' →
      MovesAuthentic (fun _ dgram => isSealed dgram = true) s a s')
      (init limits) recordThenEmpty :=
  moves_only_authentic _ directEnv limits recordThenEmpty
    readsAuthentic_directLibrary zeroOnlyWhenTold_directLibrary
    (by decide +kernel)

def emptyRead : List Action :=
  recordThenEmpty ++ [.thread 1 .callRead, .thread 1 (.recv 1500 false),
    .thread 1 (.answer 0)]

theorem AuthenticRead.positive {authentic : Transcript → Octets → Prop}
    {t : Transcript} {src : SocketAddr} (h : AuthenticRead authentic t src) :
    ∃ n : Nat, ∃ at_, 0 < n ∧ t.getLast? = some (.returned n at_) := by
  obtain ⟨before, dgram, n, at_, hpos, rfl, -⟩ := h
  exact ⟨n, at_, hpos, List.getLast?_concat⟩

theorem empty_datagram_moves :
    ∃ s s', run (step directEnv) (init limits) emptyRead = some s ∧
      step directEnv s (.thread 1 (.conclude true)) = some s' ∧
      ReadsAuthentic (fun _ dgram => isSealed dgram = true) directEnv.lib ∧
      ZeroOnlyWhenTold directEnv.lib ∧
      ¬ MovesAuthentic (fun _ dgram => isSealed dgram = true) s
        (.thread 1 (.conclude true)) s' := by
  have hend : (run (step directEnv) (init limits) emptyRead).any (fun s =>
      (step directEnv s (.thread 1 (.conclude true))).any fun s' =>
        (s.session 1).any fun sess => (s'.session 1).any fun sess' =>
          decide (sess.io.committedPeer = clientB ∧
            sess'.io.committedPeer = clientA ∧
            sess.transcript.getLast? = some (.returned 0 0))) = true := by
    decide +kernel
  simp only [Option.any_eq_true, decide_eq_true_eq] at hend
  obtain ⟨s, hrun, s', hstep, sess, hsess, sess', hsess', hbefore, hafter,
    hlast⟩ := hend
  refine ⟨s, s', hrun, hstep, readsAuthentic_directLibrary,
    zeroOnlyWhenTold_directLibrary, fun hmoves => ?_⟩
  have hread := hmoves.committed 1 sess sess' hsess hsess'
    (by rw [hbefore, hafter]; decide)
  obtain ⟨n, at_, hpos, hpositive⟩ := hread.positive
  rw [hlast] at hpositive
  simp at hpositive
  omega

end Loft.DtlsMbed
