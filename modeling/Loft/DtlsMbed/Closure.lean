import Loft.DtlsMbed.Demux

namespace Loft.DtlsMbed

open Loft.Data
open Loft.Data.Transition
open Loft.MbedtlsShim

/-! A session whose channel is closed. The transport tells the library 0, the
library returns it, and the wrapper takes it for zero bytes of data. -/

/-- All senders are gone and the queue is drained. -/
def Orphaned (s : State) (c : Conn) : Prop :=
  s.hasSender c = false ∧
    ∃ sess, s.session c = some sess ∧ sess.io.queue = []

/-- Told 0 by the transport, a read returns 0. -/
def ZeroMeansClosed (lib : Library) : Prop :=
  ∀ t delivered move, inHandshakeCall t = false →
    lib (t ++ [.received 0 delivered]) move = true → move = .answer 0

namespace Pc

/-- The handshake is over and the loop has not been left. -/
def pastHandshake : Pc → Bool
  | .completed | .announced | .serving | .inRead | .answered _ => true
  | _ => false

/-- Between the call of `read` and the next head of the loop. -/
def midIteration : Pc → Bool
  | .inRead | .answered _ => true
  | _ => false

end Pc

/-! Past the handshake the transport knows neither a deadline nor a datagram
fed by the listener. -/

structure Disarmed (sess : Session) : Prop where
  pending : sess.io.pending = none
  deadline : sess.pc.pastHandshake = true → sess.io.deadline = none

theorem Local.disarmed {env : Env} {now : Instant} {senders : Bool}
    {sess sess' : Session} {a : LocalAction}
    (h : Local env now senders sess a sess') (hsess : Disarmed sess) :
    Disarmed sess' := by
  obtain ⟨hpending, hdeadline⟩ := hsess
  cases h with
  | callHandshake hpc => exact ⟨hpending, nofun⟩
  | callRead hpc => exact ⟨hpending, fun _ => hdeadline (by rw [hpc]; rfl)⟩
  | recv hcall hlib hreceived =>
      exact ⟨hreceived.kept.2 hpending,
        fun hpast => hreceived.kept.1.trans (hdeadline hpast)⟩
  | handshakeDone hpc hlib => exact ⟨hpending, fun _ => rfl⟩
  | readData hpc => exact ⟨hpending, fun _ => hdeadline (by rw [hpc]; rfl)⟩
  | readWaits hpc => exact ⟨hpending, fun _ => hdeadline (by rw [hpc]; rfl)⟩
  | established hpc => exact ⟨hpending, fun _ => hdeadline (by rw [hpc]; rfl)⟩
  | empty hpc =>
      exact ⟨(migrate_pending sess).trans hpending, fun _ =>
        (migrate_deadline sess).trans (hdeadline (by rw [hpc]; rfl))⟩
  | replied hpc =>
      exact ⟨(migrate_pending sess).trans hpending, fun _ =>
        (migrate_deadline sess).trans (hdeadline (by rw [hpc]; rfl))⟩
  | unwritten hpc => exact ⟨(migrate_pending sess).trans hpending, nofun⟩
  | _ => exact ⟨hpending, nofun⟩

theorem Moved.disarmed {env : Env} {s : State} {c : Conn}
    {sess sess' : Session} {a : Action} (h : Moved env s c sess a sess')
    (hsess : Disarmed sess) : Disarmed sess' := by
  cases h with
  | thread hlocal => exact hlocal.disarmed hsess
  | queued hsender hlive => exact ⟨hsess.pending, hsess.deadline⟩
  | startServing hpc =>
      exact ⟨hsess.pending, fun _ => hsess.deadline (by rw [hpc]; rfl)⟩
  | releaseAddr hpc => exact ⟨hsess.pending, hsess.deadline⟩
  | _ => exact ⟨hsess.pending, nofun⟩

/-! Once closed, a channel stays closed. -/

theorem Moved.queue_of_closed {env : Env} {s : State} {c : Conn}
    {sess sess' : Session} {a : Action} (h : Moved env s c sess a sess')
    (hclosed : s.hasSender c = false) (hqueue : sess.io.queue = []) :
    sess'.io.queue = [] := by
  cases h with
  | thread hlocal =>
      have hsuffix := hlocal.queue
      rw [hqueue] at hsuffix
      exact List.suffix_nil.mp hsuffix
  | queued hsender =>
      rw [hclosed] at hsender
      cases hsender
  | unspawned => rfl
  | _ => exact hqueue

theorem Orphaned.step {env : Env} {s s' : State} {a : Action} {c : Conn}
    (hc : Orphaned s c) (hs : Owned s) (h : Stepped env s a s') :
    Orphaned s' c := by
  obtain ⟨hclosed, sess, hsess, hqueue⟩ := hc
  have hold : c ≠ s.nextConnId := by
    intro hsame
    subst hsame
    rw [hs.fresh _ le_rfl] at hsess
    cases hsess
  refine ⟨Bool.eq_false_iff.mpr fun hsender => ?_, ?_⟩
  · rw [h.hasSender_before hold hsender] at hclosed
    cases hclosed
  · obtain ⟨sess', hsess', rfl | hmove⟩ := hs.session_step h hsess
    · exact ⟨sess', hsess', hqueue⟩
    · exact ⟨sess', hsess', hmove.queue_of_closed hclosed hqueue⟩

/-! What passes between the library and such a session in one iteration. -/

/-- A read that has not asked the transport, one that has and was told 0, and
the two ways on from there to the `Data(n)` arm. -/
inductive Midway (before : Instant) : Pc → Instant → List LibEvent → Prop
  | unasked : Midway before .inRead before [.readCalled]
  | asked : Midway before .inRead before [.readCalled, .received 0 none]
  | answered {n : Nat} {at_ : Instant} :
      Midway before (.answered n) at_ [.readCalled, .returned n at_]
  | closed {at_ : Instant} :
      Midway before (.answered 0) at_
        [.readCalled, .received 0 none, .returned 0 at_]

/-- What the library did in the iteration makes the loop end: it answered from
what it held already, with anything but data or a wait within the idle bound,
or with a record whose reply could not be written. -/
def endsLoop (env : Env) (sess : Session) : List LibEvent → Bool
  | [.readCalled, .returned rc at_] => sess.readEnds env at_ rc
  | [.readCalled, .returned _ _, .replied written] => !written
  | _ => false

inductive Ended (env : Env) (sess : Session) : Session → List LibEvent → Prop
  | spun {at_ : Instant} {sess' : Session} :
      sess'.pc = .serving → sess'.lastActivity = at_ →
      Ended env sess sess' [.readCalled, .received 0 none, .returned 0 at_]
  | resumed {sess' : Session} {events : List LibEvent} :
      (∀ rc delivered, LibEvent.received rc delivered ∉ events) →
      sess'.pc = .serving → endsLoop env sess events = false →
      Ended env sess sess' events
  | left {sess' : Session} {events : List LibEvent} :
      (∀ rc delivered, LibEvent.received rc delivered ∉ events) →
      sess'.pc = .returned → endsLoop env sess events = true →
      Ended env sess sess' events

/-- The session at the head of the loop, and later in the same iteration. -/
structure Iterating (sess sess' : Session) (events : List LibEvent) :
    Prop where
  transcript : sess'.transcript = sess.transcript ++ events
  cidActive : sess'.cidActive = sess.cidActive
  midway : Midway sess.lastActivity sess'.pc sess'.lastActivity events

theorem inHandshakeCall_readCalled (t : Transcript) :
    inHandshakeCall (t ++ [.readCalled]) = false := by
  simp [inHandshakeCall]

theorem Received.of_closed {io io' : ConnState} {now : Instant}
    {outcome : RecvOutcome} {delivered : Option Delivery}
    (h : Received io now false outcome delivered io')
    (hpending : io.pending = none) (hdeadline : io.deadline = none)
    (hqueue : io.queue = []) :
    outcome = .closed ∧ delivered = none ∧ io' = io := by
  have hempty : ∀ {delivery : Delivery} {io' : ConnState},
      ¬ Taken io delivery io' := by
    intro delivery io' htaken
    cases htaken with
    | fed hfed =>
        rw [hpending] at hfed
        cases hfed
    | queued _ hcons =>
        rw [hqueue] at hcons
        cases hcons
  cases h with
  | overdue hsome hle =>
      rw [hdeadline] at hsome
      cases hsome
  | oversized htaken => exact absurd htaken hempty
  | delivered htaken => exact absurd htaken hempty
  | waiting _ _ hsenders => cases hsenders
  | closed => exact ⟨rfl, rfl, rfl⟩

theorem Local.iterates {env : Env} {now : Instant} {sess cur next : Session}
    {events : List LibEvent} {a : LocalAction}
    (hzero : ZeroMeansClosed env.lib) (hmid : Iterating sess cur events)
    (hdisarmed : Disarmed cur) (hqueue : cur.io.queue = [])
    (h : Local env now false cur a next) :
    (∃ events', Iterating sess next events') ∨
      (∃ events', next.transcript = sess.transcript ++ events' ∧
        Ended env sess next events') ∨
      a = .panics ∧ next = cur.drop := by
  obtain ⟨htranscript, hactive, hmidway⟩ := hmid
  generalize hpc : cur.pc = pc at hmidway
  generalize hlast : cur.lastActivity = last at hmidway
  have hlog (event : LibEvent) : cur.transcript ++ [event] =
      sess.transcript ++ (events ++ [event]) := by
    rw [htranscript, List.append_assoc]
  cases hmidway with
  | unasked =>
      have hends (rc : Int) :
          cur.readEnds env now rc = sess.readEnds env now rc := by
        unfold Session.readEnds Session.idle
        rw [hactive, hlast]
      cases h with
      | recv hcall hlib hreceived =>
          obtain ⟨rfl, rfl, rfl⟩ := hreceived.of_closed hdisarmed.pending
            (hdisarmed.deadline (by rw [hpc]; rfl)) hqueue
          exact .inl ⟨_, hlog _, hactive, hpc ▸ hlast ▸ .asked⟩
      | readData => exact .inl ⟨_, hlog _, hactive, .answered⟩
      | readWaits _ _ _ hstays =>
          exact .inr (.inl ⟨_, hlog _,
            .resumed (by simp) rfl ((hends _).symm.trans hstays)⟩)
      | readFails _ _ hleaves =>
          exact .inr (.inl ⟨_, hlog _,
            .left (by simp) rfl ((hends _).symm.trans hleaves)⟩)
      | panicked => exact .inr (.inr ⟨rfl, rfl⟩)
      | _ => simp_all
  | asked =>
      have htold : ∀ move, env.lib cur.transcript move = true →
          move = .answer 0 := by
        intro move hlib
        apply hzero (sess.transcript ++ [.readCalled]) none move
          (inHandshakeCall_readCalled _)
        simpa [htranscript] using hlib
      cases h with
      | recv hcall hlib hreceived => cases htold _ hlib
      | @readData n _ hlib =>
          have hn : (n : Int) = 0 := LibMove.answer.inj (htold _ hlib)
          obtain rfl : n = 0 := Int.natCast_eq_zero.mp hn
          exact .inl ⟨_, hlog _, hactive, .closed⟩
      | readWaits _ hlib hneg =>
          cases htold _ hlib
          exact absurd hneg (lt_irrefl 0)
      | readFails _ hlib hleaves =>
          cases htold _ hlib
          cases hleaves
      | panicked => exact .inr (.inr ⟨rfl, rfl⟩)
      | _ => simp_all
  | @answered n last =>
      have hmigrated (event : LibEvent) : cur.migrate.transcript ++ [event] =
          sess.transcript ++
            ([.readCalled, .returned n last] ++ [event]) := by
        rw [migrate_transcript, hlog]
      cases h with
      | empty hpc' =>
          rw [hpc] at hpc'
          cases hpc'
          exact .inr (.inl ⟨_, (migrate_transcript cur).trans htranscript,
            .resumed (by simp) rfl rfl⟩)
      | replied =>
          exact .inr (.inl
            ⟨[.readCalled, .returned n last, .replied true],
              hmigrated (.replied true), .resumed (by simp) rfl rfl⟩)
      | unwritten =>
          exact .inr (.inl
            ⟨[.readCalled, .returned n last, .replied false],
              hmigrated (.replied false), .left (by simp) rfl rfl⟩)
      | panicked => exact .inr (.inr ⟨rfl, rfl⟩)
      | recv hcall =>
          rw [hpc] at hcall
          cases hcall
      | _ => simp_all
  | closed =>
      cases h with
      | empty =>
          exact .inr (.inl ⟨_, (migrate_transcript cur).trans htranscript,
            .spun rfl ((migrate_lastActivity cur).trans hlast)⟩)
      | panicked => exact .inr (.inr ⟨rfl, rfl⟩)
      | recv hcall =>
          rw [hpc] at hcall
          cases hcall
      | _ => simp_all

theorem Iterating.midIteration {sess cur : Session} {events : List LibEvent}
    (h : Iterating sess cur events) : cur.pc.midIteration = true := by
  have hmidway := h.midway
  generalize cur.pc = pc at hmidway
  generalize cur.lastActivity = last at hmidway
  cases hmidway <;> rfl

theorem Ended.not_mid {env : Env} {sess next : Session} {events : List LibEvent}
    (h : Ended env sess next events) : next.pc.midIteration = false := by
  cases h with
  | spun hpc => rw [hpc]; rfl
  | resumed _ hpc => rw [hpc]; rfl
  | left _ hpc => rw [hpc]; rfl

theorem Ended.returned_iff {env : Env} {sess next : Session}
    {events : List LibEvent} (h : Ended env sess next events) :
    next.pc = .returned ↔ endsLoop env sess events = true := by
  cases h with
  | spun hpc => simp [hpc, endsLoop]
  | resumed _ hpc hends => simp [hpc, hends]
  | left _ hpc hends => simp [hpc, hends]

theorem Ended.spins {env : Env} {sess next : Session}
    {events : List LibEvent} {rc : Int} {delivered : Option Delivery}
    (h : Ended env sess next events)
    (hreceived : .received rc delivered ∈ events) :
    next.pc = .serving ∧
      events.getLast? = some (.returned 0 next.lastActivity) := by
  cases h with
  | spun hpc hlast => exact ⟨hpc, by simp [hlast]⟩
  | resumed hnot => exact absurd hreceived (hnot rc delivered)
  | left hnot => exact absurd hreceived (hnot rc delivered)

/-! One iteration among the steps of everything else. -/

structure Closing (s : State) (c : Conn) : Prop where
  owned : Owned s
  disarmed : EverySession Disarmed s
  orphaned : Orphaned s c

theorem Closing.step {env : Env} {s s' : State} {a : Action} {c : Conn}
    (hc : Closing s c) (h : Stepped env s a s') : Closing s' c where
  owned := hc.owned.step h
  disarmed := hc.disarmed.step (fun _ _ _ _ _ => ⟨rfl, nofun⟩)
    (fun _ _ _ _ hmove => hmove.disarmed) h
  orphaned := hc.orphaned.step hc.owned h

theorem Moved.iterates {env : Env} {s : State} {c : Conn} {a : Action}
    {sess cur next : Session} {events : List LibEvent}
    (hzero : ZeroMeansClosed env.lib) (hc : Closing s c)
    (hcur : s.session c = some cur) (hmid : Iterating sess cur events)
    (h : Moved env s c cur a next) :
    (∃ events', Iterating sess next events') ∨
      (∃ events', next.transcript = sess.transcript ++ events' ∧
        Ended env sess next events') ∨
      a = .thread c .panics ∧ next = cur.drop := by
  obtain ⟨hclosed, old, hold, hqueue⟩ := hc.orphaned
  rw [hcur, Option.some.injEq] at hold
  subst hold
  have hpc := hmid.midIteration
  cases h with
  | thread hlocal =>
      rw [hclosed] at hlocal
      rcases hlocal.iterates hzero hmid (hc.disarmed c cur hcur) hqueue with
        hnext | hended | ⟨rfl, hdrop⟩
      · exact .inl hnext
      · exact .inr (.inl hended)
      · exact .inr (.inr ⟨rfl, hdrop⟩)
  | queued hsender =>
      rw [hclosed] at hsender
      cases hsender
  | spawned hlistener =>
      rw [hc.owned.unstarted c hlistener cur hcur] at hpc
      cases hpc
  | unspawned hlistener =>
      rw [hc.owned.unstarted c hlistener cur hcur] at hpc
      cases hpc
  | releaseAddr =>
      exact .inl ⟨events, hmid.transcript, hmid.cidActive, hmid.midway⟩
  | startServing hpc' => rw [hpc'] at hpc; cases hpc
  | removeAddr hpc' => rw [hpc'] at hpc; cases hpc
  | removeCid hpc' => rw [hpc'] at hpc; cases hpc
  | dropPermit hpc' => rw [hpc'] at hpc; cases hpc

theorem Stepped.iterates {env : Env} {s s' : State} {c : Conn} {a : Action}
    {sess cur : Session} {events : List LibEvent}
    (hzero : ZeroMeansClosed env.lib) (hc : Closing s c)
    (hcur : s.session c = some cur) (hmid : Iterating sess cur events)
    (h : Stepped env s a s') :
    ∃ next, s'.session c = some next ∧
      ((∃ events', Iterating sess next events') ∨
        (∃ events', next.transcript = sess.transcript ++ events' ∧
          Ended env sess next events') ∨
        a = .thread c .panics ∧ next = cur.drop) := by
  obtain ⟨next, hnext, rfl | hmove⟩ := hc.owned.session_step h hcur
  · exact ⟨next, hnext, .inl ⟨events, hmid⟩⟩
  · exact ⟨next, hnext, hmove.iterates hzero hc hcur hmid⟩

/-- The thread of `c` is in an iteration of its loop. -/
def MidIteration (c : Conn) (s : State) : Prop :=
  ∃ sess, s.session c = some sess ∧ sess.pc.midIteration = true

instance (c : Conn) (s : State) : Decidable (MidIteration c s) :=
  decidable_of_iff
    ((s.session c).any fun sess => sess.pc.midIteration) <| by
      simp [MidIteration, Option.any_eq_true]

/-- From the call of `read` at the head of the loop to the next head, or out of
the loop, with whatever the rest of the system does meanwhile. -/
structure Iterates (env : Env) (c : Conn) (s : State) (actions : List Action)
    (s' : State) : Prop where
  run : run (step env) s (.thread c .callRead :: actions) = some s'
  mid : ∀ called, step env s (.thread c .callRead) = some called →
    Along (step env) (fun s _ => MidIteration c s) called actions
  ended : ¬ MidIteration c s'

theorem panics_returned {env : Env} {c : Conn} {s s' : State} {sess : Session}
    (h : Stepped env s (.thread c .panics) s')
    (hsess : s'.session c = some sess) : sess.pc = .returned := by
  cases h with
  | thread hbefore hlocal =>
      cases hlocal with
      | panicked =>
          rw [session_setSession_self, Option.some.injEq] at hsess
          subst hsess
          rfl

/-- As long as the iteration is on, the thread has not panicked, and what has
passed between it and the library is one of four things. -/
theorem iterating_of_mid {env : Env} {c : Conn} {s called t : State}
    {actions : List Action} {sess : Session}
    (hzero : ZeroMeansClosed env.lib) (hc : Closing s c)
    (hsess : s.session c = some sess)
    (hcalled : step env s (.thread c .callRead) = some called)
    (halong : Along (step env) (fun s _ => MidIteration c s) called actions)
    (hrun : run (step env) called actions = some t) (hmid : MidIteration c t) :
    Closing t c ∧ .thread c .panics ∉ actions ∧
      ∃ cur events, t.session c = some cur ∧ Iterating sess cur events := by
  induction actions using List.reverseRecOn generalizing t with
  | nil =>
      cases hrun
      refine ⟨hc.step (step_stepped hcalled), List.not_mem_nil, ?_⟩
      cases step_stepped hcalled with
      | thread hbefore hlocal =>
          rw [hsess, Option.some.injEq] at hbefore
          subst hbefore
          cases hlocal with
          | callRead hpc =>
              exact ⟨_, _, session_setSession_self s c _, rfl, rfl, .unasked⟩
  | append_singleton front a ih =>
      obtain ⟨before, hfront, hlast⟩ := (run_concat_eq_some (step env)).mp hrun
      obtain ⟨halong', hguard⟩ := (along_concat (step env)).mp halong
      obtain ⟨hclosing, hcalm, cur, events, hcur, hiterating⟩ :=
        ih halong' hfront (hguard before hfront)
      have hstepped := step_stepped hlast
      obtain ⟨sess', hsess', hpc⟩ := hmid
      have hcalm' : .thread c .panics ≠ a := by
        intro hsame
        subst hsame
        rw [panics_returned hstepped hsess'] at hpc
        cases hpc
      obtain ⟨next, hnext, hcases⟩ :=
        hstepped.iterates hzero hclosing hcur hiterating
      rw [hsess', Option.some.injEq] at hnext
      subst hnext
      rcases hcases with ⟨events', hnext⟩ | ⟨_, _, hended⟩ | ⟨rfl, -⟩
      · exact ⟨hclosing.step hstepped, by simp [hcalm, hcalm'], sess', events',
          hsess', hnext⟩
      · rw [hended.not_mid] at hpc
        cases hpc
      · exact absurd rfl hcalm'

theorem closing_run {env : Env} {quota : ConnQuota} {actions : List Action}
    {s : State} {c : Conn}
    (hrun : run (step env) (init quota) actions = some s)
    (horphaned : Orphaned s c) : Closing s c where
  owned := owned_run hrun
  disarmed := everySession_run (fun _ _ _ _ _ => ⟨rfl, nofun⟩)
    (fun _ _ _ _ _ hmove => hmove.disarmed) hrun
  orphaned := horphaned

/-- An iteration on a closed channel leaves the loop exactly if the library
ends it from what it holds already, or the thread panics. Once the transport is
asked, the iteration is counted as activity and the loop goes on. -/
theorem closed_iteration_leaves_iff (env : Env) (quota : ConnQuota)
    (history actions : List Action) (c : Conn) (s s' : State) (sess : Session)
    (hzero : ZeroMeansClosed env.lib)
    (hrun : run (step env) (init quota) history = some s)
    (hsess : s.session c = some sess) (horphaned : Orphaned s c)
    (hiterates : Iterates env c s actions s') :
    ∃ sess' events, s'.session c = some sess' ∧
      sess'.transcript = sess.transcript ++ events ∧
      (sess'.pc = .returned ↔
        .thread c .panics ∈ actions ∨ endsLoop env sess events = true) ∧
      ((∃ rc delivered, LibEvent.received rc delivered ∈ events) →
        .thread c .panics ∉ actions → sess'.pc = .serving ∧
          events.getLast? = some (.returned 0 sess'.lastActivity)) := by
  have hclosing := closing_run hrun horphaned
  obtain ⟨hiterated, halong, hover⟩ := hiterates
  obtain ⟨called, hcalled, hrest⟩ := (run_cons_eq_some (step env)).mp hiterated
  have halong := halong called hcalled
  cases actions using List.reverseRecOn with
  | nil =>
      cases hrest
      apply absurd _ hover
      cases step_stepped hcalled with
      | thread hbefore hlocal =>
          cases hlocal with
          | callRead => exact ⟨_, session_setSession_self s c _, rfl⟩
  | append_singleton front a =>
      obtain ⟨before, hfront, hlast⟩ := (run_concat_eq_some (step env)).mp hrest
      obtain ⟨halong', hguard⟩ := (along_concat (step env)).mp halong
      obtain ⟨hmidway, hcalm, cur, events, hcur, hiterating⟩ :=
        iterating_of_mid hzero hclosing hsess hcalled halong' hfront
          (hguard before hfront)
      obtain ⟨next, hnext, hcases⟩ :=
        (step_stepped hlast).iterates hzero hmidway hcur hiterating
      rcases hcases with
        ⟨events', hmid⟩ | ⟨events', htranscript, hended⟩ | ⟨rfl, rfl⟩
      · exact absurd ⟨next, hnext, hmid.midIteration⟩ hover
      · refine ⟨next, events', hnext, htranscript, ?_, ?_⟩
        · by_cases ha : a = .thread c .panics
          · subst ha
            simp [panics_returned (step_stepped hlast) hnext]
          · rw [hended.returned_iff]
            simp [hcalm, Ne.symm ha]
        · intro hboth _
          obtain ⟨rc, delivered, hreceived⟩ := hboth
          exact hended.spins hreceived
      · refine ⟨cur.drop, events, hnext, hiterating.transcript, ?_, ?_⟩
        · simp [Session.drop]
        · simp

/-- A session without CID, and a second one from the same address. -/
def superseded : List Action :=
  admission clientA cidOne ++ lastFlight 1 clientA ++ startServing 1 false ++
    admission clientA cidTwo ++ [.tick (secs 200)]

def spin : List Action :=
  [.thread 1 (.recv 1500 false), .thread 1 (.answer 0),
    .thread 1 (.conclude true)]

theorem zeroMeansClosed_directLibrary : ZeroMeansClosed directLibrary := by
  intro t delivered move hcall hmove
  cases delivered with
  | none => simpa [directLibrary] using hmove
  | some delivery => simpa [directLibrary] using hmove

theorem superseded_iterates :
    ∃ s s' sess sess',
      run (step directEnv) (init limits) superseded = some s ∧
      s.session 1 = some sess ∧ Orphaned s 1 ∧
      Iterates directEnv 1 s spin s' ∧ s'.session 1 = some sess' ∧
      sess'.pc = .serving ∧ sess'.permit.isSome = true ∧
      sess.lastActivity < sess'.lastActivity := by
  have hend : (run (step directEnv) (init limits) superseded).any (fun s =>
      !s.hasSender 1 && (s.session 1).any fun sess =>
        decide (sess.io.queue = []) &&
        (step directEnv s (.thread 1 .callRead)).any fun called =>
          decide (Along (step directEnv) (fun s _ => MidIteration 1 s)
            called spin) &&
          (run (step directEnv) called spin).any fun s' =>
            !decide (MidIteration 1 s') && (s'.session 1).any fun sess' =>
              decide (sess'.pc = .serving ∧ sess'.permit.isSome = true ∧
                sess.lastActivity < sess'.lastActivity)) = true := by
    decide +kernel
  simp only [Option.any_eq_true, Bool.and_eq_true, Bool.not_eq_true',
    decide_eq_true_eq, decide_eq_false_iff_not] at hend
  obtain ⟨s, hrun, hclosed, sess, hsess, hqueue, called, hcalled, halong,
    s', hrest, hover, sess', hsess', hpc, hpermit, hlast⟩ := hend
  refine ⟨s, s', sess, sess', hrun, hsess, ⟨hclosed, sess, hsess, hqueue⟩,
    ⟨(run_cons_eq_some _).mpr ⟨called, hcalled, hrest⟩, ?_, hover⟩, hsess',
    hpc, hpermit, hlast⟩
  intro called' hcalled'
  rw [hcalled, Option.some.injEq] at hcalled'
  rwa [← hcalled']

theorem closed_iteration_leaves_iff_superseded :
    ∃ s s' sess, Iterates directEnv 1 s spin s' ∧
      ∃ sess' events, s'.session 1 = some sess' ∧
        sess'.transcript = sess.transcript ++ events ∧
        (sess'.pc = .returned ↔ .thread 1 .panics ∈ spin ∨
          endsLoop directEnv sess events = true) ∧
        ((∃ rc delivered, LibEvent.received rc delivered ∈ events) →
          .thread 1 .panics ∉ spin → sess'.pc = .serving ∧
            events.getLast? = some (.returned 0 sess'.lastActivity)) := by
  obtain ⟨s, s', sess, sess', hrun, hsess, horphaned, hiterates, -⟩ :=
    superseded_iterates
  exact ⟨s, s', sess, hiterates, closed_iteration_leaves_iff directEnv limits
    superseded spin 1 s s' sess zeroMeansClosed_directLibrary hrun hsess
    horphaned hiterates⟩

/-- The loop goes on over a closed channel, and takes that for activity. -/
theorem superseded_session_spins :
    ∃ s s' sess sess',
      run (step directEnv) (init limits) superseded = some s ∧
      ZeroMeansClosed directEnv.lib ∧
      s.session 1 = some sess ∧ Orphaned s 1 ∧
      Iterates directEnv 1 s spin s' ∧ s'.session 1 = some sess' ∧
      sess'.pc ≠ .returned ∧ sess'.permit.isSome = true ∧
      sess.lastActivity < sess'.lastActivity := by
  obtain ⟨s, s', sess, sess', hrun, hsess, horphaned, hiterates, hsess', hpc,
    hpermit, hlast⟩ := superseded_iterates
  exact ⟨s, s', sess, sess', hrun, zeroMeansClosed_directLibrary, hsess,
    horphaned, hiterates, hsess', by simp [hpc], hpermit, hlast⟩

end Loft.DtlsMbed
