import Loft.DtlsMbed

namespace Loft.DtlsMbed

open Loft.Data
open Loft.MbedtlsShim

/-! Everything an action can do, once and for all: one inversion for each kind
of action, from which the invariants of the listener are derived. -/

@[simp] theorem session_setSession_self (s : State) (c : Conn)
    (sess : Session) : (s.setSession c sess).session c = some sess :=
  AList.lookup_insert _

theorem session_setSession_ne (s : State) {c c' : Conn} (sess : Session)
    (hne : c' ≠ c) : (s.setSession c sess).session c' = s.session c' :=
  AList.lookup_insert_ne hne

theorem lookup_removeByAddrIfMine {s : State} {peer a : SocketAddr}
    {c c' : Conn} :
    (s.removeByAddrIfMine peer c).byAddr.lookup a = some c' ↔
      s.byAddr.lookup a = some c' ∧ (a = peer → c' ≠ c) :=
  Table.lookup_eraseIf_eq_some

theorem lookup_removeByCidIfMine {s : State} {cid k : Cid} {c c' : Conn} :
    (s.removeByCidIfMine cid c).byCid.lookup k = some c' ↔
      s.byCid.lookup k = some c' ∧ (k = cid → c' ≠ c) :=
  Table.lookup_eraseIf_eq_some

/-- A session whose CID is not in use withdraws it, and only its own. -/
theorem lookup_withdrawCid {s : State} {sess : Session} {k : Cid}
    {c c' : Conn} :
    (s.withdrawCid sess c).byCid.lookup k = some c' ↔
      s.byCid.lookup k = some c' ∧
        (sess.cidActive = false → k = sess.cid → c' ≠ c) := by
  unfold State.withdrawCid
  split_ifs with hactive
  · simp [hactive]
  · simp [hactive, lookup_removeByCidIfMine]

/-- The channel of `c` has no receiver. -/
def State.Dead (s : State) (c : Conn) : Prop :=
  ∀ sess, s.session c = some sess → sess.pc.live = false

/-- `try_send` into a live channel: queued, or dropped where it is full. -/
inductive Sent (s : State) (c : Conn) (delivery : Delivery) : State → Prop
  | queued {sess : Session} :
      s.session c = some sess → sess.pc.live = true →
      Sent s c delivery (s.setSession c { sess with
        io := { sess.io with queue := sess.io.queue ++ [delivery] } })
  | full {sess : Session} :
      s.session c = some sess → sess.pc.live = true → Sent s c delivery s

theorem trySend_some {s s' : State} {c : Conn} {delivery : Delivery}
    (h : s.trySend c delivery = some s') : Sent s c delivery s' := by
  unfold State.trySend at h
  cases hsess : s.session c with
  | none => simp [hsess] at h
  | some sess =>
      simp only [hsess] at h
      split_ifs at h with hlive hroom
      · cases h
        exact .queued hsess hlive
      · cases h
        exact .full hsess hlive

theorem trySend_none {s : State} {c : Conn} {delivery : Delivery}
    (h : s.trySend c delivery = none) : s.Dead c := by
  intro sess hsess
  unfold State.trySend at h
  simp only [hsess] at h
  split_ifs at h with hlive
  simpa using hlive

theorem Sent.byAddr {s s' : State} {c : Conn} {delivery : Delivery}
    (h : Sent s c delivery s') : s'.byAddr = s.byAddr := by
  cases h <;> rfl

theorem Sent.byCid {s s' : State} {c : Conn} {delivery : Delivery}
    (h : Sent s c delivery s') : s'.byCid = s.byCid := by
  cases h <;> rfl

theorem Sent.listener {s s' : State} {c : Conn} {delivery : Delivery}
    (h : Sent s c delivery s') : s'.listener = s.listener := by
  cases h <;> rfl

inductive Routed (s : State) (peer : SocketAddr) (dgram : Octets) :
    State → Prop
  | unroutable :
      dgram[0]? = some contentTypeCid →
      (∀ cid, cidOf dgram = some cid → s.byCid.lookup cid = none) →
      Routed s peer dgram s
  | byCid {cid : Cid} {c : Conn} {s' : State} :
      dgram[0]? = some contentTypeCid → cidOf dgram = some cid →
      s.byCid.lookup cid = some c → Sent s c (dgram, peer) s' →
      Routed s peer dgram s'
  | reapedCid {cid : Cid} {c : Conn} :
      dgram[0]? = some contentTypeCid → cidOf dgram = some cid →
      s.byCid.lookup cid = some c → s.Dead c →
      Routed s peer dgram { s with byCid := s.byCid.erase cid }
  | byAddr {c : Conn} {s' : State} :
      dgram[0]? ≠ some contentTypeCid → s.byAddr.lookup peer = some c →
      (isPlaintextHandshake dgram && s.established c) = false →
      Sent s c (dgram, peer) s' → Routed s peer dgram s'
  | stranger :
      dgram[0]? ≠ some contentTypeCid → s.byAddr.lookup peer = none →
      Routed s peer dgram { s with listener := .unrouted peer dgram }
  | reused {c : Conn} :
      dgram[0]? ≠ some contentTypeCid → s.byAddr.lookup peer = some c →
      (isPlaintextHandshake dgram && s.established c) = true →
      Routed s peer dgram { s with listener := .unrouted peer dgram }
  | reapedAddr {c : Conn} :
      dgram[0]? ≠ some contentTypeCid → s.byAddr.lookup peer = some c →
      s.Dead c →
      Routed s peer dgram { s with
        listener := .unrouted peer dgram
        byAddr := s.byAddr.erase peer }

theorem route_routed (s : State) (peer : SocketAddr) (dgram : Octets) :
    Routed s peer dgram (s.route peer dgram) := by
  unfold State.route
  split_ifs with htype
  · unfold State.routeByCid
    cases hcid : cidOf dgram with
    | none => exact .unroutable htype (by simp [hcid])
    | some cid =>
        dsimp only
        cases hentry : s.byCid.lookup cid with
        | none =>
            refine .unroutable htype fun cid' hcid' => ?_
            rw [hcid, Option.some.injEq] at hcid'
            rwa [← hcid']
        | some c =>
            dsimp only
            cases hsend : s.trySend c (dgram, peer) with
            | none => exact .reapedCid htype hcid hentry (trySend_none hsend)
            | some s' => exact .byCid htype hcid hentry (trySend_some hsend)
  · unfold State.routeByAddr
    cases hentry : s.byAddr.lookup peer with
    | none => exact .stranger htype hentry
    | some c =>
        dsimp only
        split_ifs with hreused
        · exact .reused htype hentry hreused
        · cases hsend : s.trySend c (dgram, peer) with
          | none => exact .reapedAddr htype hentry (trySend_none hsend)
          | some s' =>
              exact .byAddr htype hentry (Bool.eq_false_iff.mpr hreused)
                (trySend_some hsend)

/-! The listener between two datagrams. -/

inductive Listened (env : Env) (s : State) : ListenerAction → State → Prop
  | recvFrom {peer : SocketAddr} {dgram : Octets} {s' : State} :
      s.listener = .receiving → Routed s peer dgram s' →
      Listened env s (.recvFrom peer dgram) s'
  | begin {peer : SocketAddr} {dgram : Octets} {cid : Cid} :
      s.listener = .unrouted peer dgram → s.byCid.lookup cid = none →
      Listened env s (.begin cid) { s with listener := .minted peer dgram cid }
  | abandon : Listened env s .abandon { s with listener := .receiving }
  | clear {peer : SocketAddr} {dgram : Octets} {cid : Cid} :
      s.listener = .minted peer dgram cid →
      Listened env s .clearCookieVerified { s with
        listener := .stepping peer dgram cid false
        cookie := s.cookie.clearCookieVerified }
  | cookieCheck {rc : Int} {peer : SocketAddr} {dgram : Octets} {cid : Cid}
      {own : Bool} :
      s.listener = .stepping peer dgram cid own →
      Listened env s (.cookieCheck rc) { s with
        listener := .stepping peer dgram cid (own || rc == 0)
        cookie := s.cookie.cookieCheckTramp rc }
  | stepped {rc : Int} {peer : SocketAddr} {dgram : Octets} {cid : Cid}
      {own : Bool} :
      s.listener = .stepping peer dgram cid own →
      Listened env s (.handshakeReturns rc)
        { s with listener := .stepped peer dgram cid own }
  | failed {rc : Int} :
      Listened env s (.handshakeReturns rc) { s with listener := .receiving }
  | taken {peer : SocketAddr} {dgram : Octets} {cid : Cid}
      {own : Bool} :
      s.listener = .stepped peer dgram cid own →
      s.cookie.verified = true →
      Listened env s .takeCookieVerified { s with
        listener := .taken peer dgram cid own
        cookie := { verified := false } }
  | unverified :
      s.cookie.verified = false →
      Listened env s .takeCookieVerified { s with
        listener := .receiving
        cookie := { verified := false } }
  | refused {peer : SocketAddr} {dgram : Octets} {cid : Cid}
      {own : Bool} :
      s.listener = .taken peer dgram cid own →
      s.quota.tryAcquire peer.ip = none →
      Listened env s .tryAcquire { s with listener := .receiving }
  | admitted {peer : SocketAddr} {dgram : Octets} {cid : Cid}
      {own : Bool} {permit : ConnPermit} {quota : ConnQuota} :
      s.listener = .taken peer dgram cid own →
      s.quota.tryAcquire peer.ip = some (permit, quota) →
      Listened env s .tryAcquire { s with
        listener := .admitted peer dgram cid permit
        quota := quota
        promotions := s.promotions ++ [⟨peer, own⟩] }
  | inserted {peer : SocketAddr} {dgram : Octets} {cid : Cid}
      {permit : ConnPermit} :
      s.listener = .admitted peer dgram cid permit →
      Listened env s .insertHandles (s.insertHandles env peer dgram cid permit)
  | spawn {c : Conn} {sess : Session} {spawned : Bool} :
      s.listener = .spawning c → s.session c = some sess →
      Listened env s (.spawn spawned) (s.spawn c sess spawned)
  | despawned : Listened env s .despawned { s with listener := .receiving }

theorem listenerStep_listened {env : Env} {s s' : State} {a : ListenerAction}
    (h : listenerStep env s a = some s') : Listened env s a s' := by
  cases a with
  | recvFrom peer dgram =>
      simp only [listenerStep] at h
      split at h <;> cases h
      exact .recvFrom (by assumption) (route_routed s peer dgram)
  | begin cid =>
      simp only [listenerStep] at h
      split at h
      · split_ifs at h with hfresh
        cases h
        exact .begin (by assumption) (AList.lookup_eq_none.mpr hfresh.2)
      · cases h
  | abandon =>
      simp only [listenerStep] at h
      split at h <;> cases h
      · exact .abandon
      · exact .abandon
  | clearCookieVerified =>
      simp only [listenerStep] at h
      split at h <;> cases h
      exact .clear (by assumption)
  | cookieCheck rc =>
      simp only [listenerStep] at h
      split at h <;> cases h
      exact .cookieCheck (by assumption)
  | handshakeReturns rc =>
      simp only [listenerStep] at h
      split at h
      · split at h <;> cases h
        · exact .stepped (by assumption)
        · exact .stepped (by assumption)
        · exact .failed
      · cases h
  | takeCookieVerified =>
      simp only [listenerStep] at h
      split at h
      · cases h
        rename_i peer dgram cid own hlistener
        cases hverified : s.cookie.verified with
        | false =>
            simp only [CookieState.takeCookieVerified, hverified,
              Bool.false_eq_true, if_false]
            exact .unverified hverified
        | true =>
            simp only [CookieState.takeCookieVerified, hverified, if_true]
            exact .taken hlistener hverified
      · cases h
  | tryAcquire =>
      simp only [listenerStep] at h
      split at h
      · split at h <;> cases h
        · exact .refused (by assumption) (by assumption)
        · exact .admitted (by assumption) (by assumption)
      · cases h
  | insertHandles =>
      simp only [listenerStep] at h
      split at h <;> cases h
      exact .inserted (by assumption)
  | spawn spawned =>
      simp only [listenerStep] at h
      split at h
      · obtain ⟨sess, hsess, rfl⟩ := Option.map_eq_some_iff.mp h
        exact .spawn (by assumption) hsess
      · cases h
  | despawned =>
      simp only [listenerStep] at h
      split at h
      · split_ifs at h
        cases h
        exact .despawned
      · cases h

/-! The session threads. -/

/-- The datagram a callback takes up: the fed one first, then the queue. -/
inductive Taken (io : ConnState) : Delivery → ConnState → Prop
  | fed {delivery : Delivery} :
      io.pending = some delivery → Taken io delivery { io with pending := none }
  | queued {delivery : Delivery} {rest : List Delivery} :
      io.pending = none → io.queue = delivery :: rest →
      Taken io delivery { io with queue := rest }

inductive Received (io : ConnState) (now : Instant) (senders : Bool) :
    RecvOutcome → Option Delivery → ConnState → Prop
  | overdue {deadline : Instant} :
      io.deadline = some deadline → deadline ≤ now →
      Received io now senders .failed none io
  | oversized {delivery : Delivery} {io' : ConnState} :
      Taken io delivery io' → Received io now senders .wantRead none io'
  | delivered {delivery : Delivery} {io' : ConnState} :
      Taken io delivery io' →
      Received io now senders (.data delivery.1.length) (some delivery)
        { io' with stagedPeer := delivery.2 }
  | waiting {outcome : RecvOutcome} :
      io.pending = none → io.queue = [] → senders = true →
      outcome = .wantRead ∨ outcome = .timerExpired →
      Received io now senders outcome none io
  | closed :
      io.pending = none → io.queue = [] → senders = false →
      Received io now senders .closed none io

theorem Taken.received {io io' : ConnState} {delivery : Delivery}
    (htaken : Taken io delivery io') (now : Instant) (senders : Bool)
    (cap : Nat) :
    Received io now senders (io'.deliver cap delivery).1
      (io'.deliver cap delivery).2.1 (io'.deliver cap delivery).2.2 := by
  unfold ConnState.deliver
  split_ifs with hcap
  · exact .oversized htaken
  · exact .delivered htaken

theorem recv_received (io : ConnState) (now : Instant) (senders : Bool)
    (cap : Nat) (expired : Bool) :
    Received io now senders (io.recv now senders cap expired).1
      (io.recv now senders cap expired).2.1
      (io.recv now senders cap expired).2.2 := by
  unfold ConnState.recv
  obtain ⟨queue, committedPeer, stagedPeer, pending, deadline⟩ := io
  by_cases hdeadline :
      (deadline.any fun deadline => decide (deadline ≤ now)) = true
  · rw [if_pos hdeadline]
    obtain ⟨overdue, hsome, hle⟩ := (Option.any_eq_true _ _).mp hdeadline
    exact .overdue hsome (of_decide_eq_true hle)
  · rw [if_neg hdeadline]
    cases pending with
    | some fed => exact (Taken.fed rfl).received now senders cap
    | none =>
        cases queue with
        | cons delivery rest =>
            exact (Taken.queued rfl rfl).received now senders cap
        | nil =>
            cases senders with
            | false => exact .closed rfl rfl rfl
            | true =>
                refine .waiting rfl rfl rfl ?_
                cases expired with
                | false => exact .inl rfl
                | true => exact .inr rfl

theorem Taken.queue {io io' : ConnState} {delivery : Delivery}
    (h : Taken io delivery io') : io'.queue <:+ io.queue := by
  cases h with
  | fed => exact List.suffix_rfl
  | queued hpending hqueue =>
      rw [hqueue]
      exact List.suffix_cons _ _

theorem Received.queue {io io' : ConnState} {now : Instant} {senders : Bool}
    {outcome : RecvOutcome} {delivered : Option Delivery}
    (h : Received io now senders outcome delivered io') :
    io'.queue <:+ io.queue := by
  cases h with
  | oversized htaken => exact htaken.queue
  | delivered htaken => exact htaken.queue
  | _ => exact List.suffix_rfl

theorem Taken.kept {io io' : ConnState} {delivery : Delivery}
    (h : Taken io delivery io') :
    io'.deadline = io.deadline ∧ io'.pending = none := by
  cases h with
  | fed hpending => exact ⟨rfl, rfl⟩
  | queued hpending hqueue => exact ⟨rfl, hpending⟩

theorem Received.kept {io io' : ConnState} {now : Instant} {senders : Bool}
    {outcome : RecvOutcome} {delivered : Option Delivery}
    (h : Received io now senders outcome delivered io') :
    io'.deadline = io.deadline ∧ (io.pending = none → io'.pending = none) := by
  cases h with
  | oversized htaken => exact ⟨htaken.kept.1, fun _ => htaken.kept.2⟩
  | delivered htaken => exact ⟨htaken.kept.1, fun _ => htaken.kept.2⟩
  | _ => exact ⟨rfl, id⟩

theorem Taken.committed {io io' : ConnState} {delivery : Delivery}
    (h : Taken io delivery io') : io'.committedPeer = io.committedPeer := by
  cases h <;> rfl

theorem Received.committed {io io' : ConnState} {now : Instant}
    {senders : Bool} {outcome : RecvOutcome} {delivered : Option Delivery}
    (h : Received io now senders outcome delivered io') :
    io'.committedPeer = io.committedPeer := by
  cases h with
  | oversized htaken => exact htaken.committed
  | delivered htaken => exact htaken.committed
  | _ => rfl

theorem Taken.staged {io io' : ConnState} {delivery : Delivery}
    (h : Taken io delivery io') : io'.stagedPeer = io.stagedPeer := by
  cases h <;> rfl

theorem Received.staged {io io' : ConnState} {now : Instant} {senders : Bool}
    {outcome : RecvOutcome} {delivered : Option Delivery}
    (h : Received io now senders outcome delivered io') :
    io'.stagedPeer = match delivered with
      | some delivery => delivery.2
      | none => io.stagedPeer := by
  cases h with
  | oversized htaken => exact htaken.staged
  | _ => rfl

theorem handshakeReturns_cases (env : Env) (now : Instant) (sess : Session)
    (rc : Int) :
    sess.handshakeReturns env now rc = { sess with
        pc := .completed, io := { sess.io with deadline := none } } ∨
      sess.handshakeReturns env now rc = { sess with pc := .handshaking } ∨
      sess.handshakeReturns env now rc = sess.drop := by
  unfold Session.handshakeReturns
  split
  · exact .inl rfl
  · split_ifs
    · exact .inr (.inr rfl)
    · exact .inr (.inl rfl)
  · split_ifs
    · exact .inr (.inr rfl)
    · exact .inr (.inl rfl)
  · exact .inr (.inr rfl)
  · exact .inr (.inr rfl)

/-- The results of a read that make the loop end at once. -/
def Session.readEnds (env : Env) (now : Instant) (sess : Session) (rc : Int) :
    Bool :=
  match readStatus rc with
  | .data _ => false
  | .wantRead | .wantWrite =>
      decide (sess.idle env < now.durationSince sess.lastActivity)
  | .peerClosed | .failed _ => true

theorem readReturns_cases (env : Env) (now : Instant) (sess : Session)
    (rc : Int) :
    (∃ n : Nat, rc = n ∧ sess.readReturns env now rc =
        { sess with pc := .answered n, lastActivity := now }) ∨
      (rc < 0 ∧ sess.readEnds env now rc = false) ∧
        sess.readReturns env now rc = { sess with pc := .serving } ∨
      sess.readEnds env now rc = true ∧
        sess.readReturns env now rc = sess.drop := by
  have hneg (hstatus : ∀ n, readStatus rc ≠ .data n) : rc < 0 :=
    Int.not_le.mp fun hpos => hstatus _ (readStatus_of_nonneg hpos)
  unfold Session.readReturns Session.readEnds
  cases hstatus : readStatus rc with
  | data n => exact .inl ⟨n, readStatus_data hstatus, rfl⟩
  | wantRead =>
      dsimp only
      split_ifs with hidle
      · exact .inr (.inr ⟨decide_eq_true hidle, rfl⟩)
      · exact .inr (.inl
          ⟨⟨hneg (by simp [hstatus]), decide_eq_false hidle⟩, rfl⟩)
  | wantWrite =>
      dsimp only
      split_ifs with hidle
      · exact .inr (.inr ⟨decide_eq_true hidle, rfl⟩)
      · exact .inr (.inl
          ⟨⟨hneg (by simp [hstatus]), decide_eq_false hidle⟩, rfl⟩)
  | peerClosed => exact .inr (.inr ⟨rfl, rfl⟩)
  | failed rc' => exact .inr (.inr ⟨rfl, rfl⟩)

section Migrate

variable (sess : Session)

@[simp] theorem migrate_peer : sess.migrate.peer = sess.peer := by
  unfold Session.migrate
  split_ifs <;> rfl

@[simp] theorem migrate_cid : sess.migrate.cid = sess.cid := by
  unfold Session.migrate
  split_ifs <;> rfl

@[simp] theorem migrate_cidActive :
    sess.migrate.cidActive = sess.cidActive := by
  unfold Session.migrate
  split_ifs <;> rfl

@[simp] theorem migrate_lastActivity :
    sess.migrate.lastActivity = sess.lastActivity := by
  unfold Session.migrate
  split_ifs <;> rfl

@[simp] theorem migrate_transcript :
    sess.migrate.transcript = sess.transcript := by
  unfold Session.migrate
  split_ifs <;> rfl

@[simp] theorem migrate_queue : sess.migrate.io.queue = sess.io.queue := by
  unfold Session.migrate ConnState.takeMigration
  split_ifs <;> rfl

@[simp] theorem migrate_pending :
    sess.migrate.io.pending = sess.io.pending := by
  unfold Session.migrate ConnState.takeMigration
  split_ifs <;> rfl

@[simp] theorem migrate_deadline :
    sess.migrate.io.deadline = sess.io.deadline := by
  unfold Session.migrate ConnState.takeMigration
  split_ifs <;> rfl

@[simp] theorem migrate_stagedPeer :
    sess.migrate.io.stagedPeer = sess.io.stagedPeer := by
  unfold Session.migrate ConnState.takeMigration
  split_ifs <;> rfl

theorem migrate_committedPeer
    (h : sess.migrate.io.committedPeer ≠ sess.io.committedPeer) :
    sess.migrate.io.committedPeer = sess.io.stagedPeer := by
  revert h
  unfold Session.migrate ConnState.takeMigration
  split_ifs
  · exact fun _ => rfl
  · exact fun h => absurd rfl h
  · exact fun h => absurd rfl h

end Migrate

inductive Local (env : Env) (now : Instant) (senders : Bool)
    (sess : Session) : LocalAction → Session → Prop
  | callHandshake :
      sess.pc = .handshaking →
      Local env now senders sess .callHandshake
        { sess.log .handshakeCalled with pc := .inHandshake }
  | callRead :
      sess.pc = .serving →
      Local env now senders sess .callRead
        { sess.log .readCalled with pc := .inRead }
  | recv {cap : Nat} {expired : Bool} {outcome : RecvOutcome}
      {delivered : Option Delivery} {io : ConnState} :
      sess.pc.inCall = true → env.lib sess.transcript .askTransport = true →
      Received sess.io now senders outcome delivered io →
      Local env now senders sess (.recv cap expired)
        ({ sess with io := io }.log (.received (recvTramp outcome) delivered))
  | handshakeDone {rc : Int} :
      sess.pc = .inHandshake → env.lib sess.transcript (.answer rc) = true →
      Local env now senders sess (.answer rc)
        { sess.log (.returned rc now) with
          pc := .completed, io := { sess.io with deadline := none } }
  | handshakeWaits {rc : Int} :
      sess.pc = .inHandshake → env.lib sess.transcript (.answer rc) = true →
      Local env now senders sess (.answer rc)
        { sess.log (.returned rc now) with pc := .handshaking }
  | handshakeFails {rc : Int} :
      sess.pc = .inHandshake → env.lib sess.transcript (.answer rc) = true →
      Local env now senders sess (.answer rc) (sess.log (.returned rc now)).drop
  | readData {n : Nat} :
      sess.pc = .inRead → env.lib sess.transcript (.answer n) = true →
      Local env now senders sess (.answer n)
        { sess.log (.returned n now) with
          pc := .answered n, lastActivity := now }
  | readWaits {rc : Int} :
      sess.pc = .inRead → env.lib sess.transcript (.answer rc) = true →
      rc < 0 → sess.readEnds env now rc = false →
      Local env now senders sess (.answer rc)
        { sess.log (.returned rc now) with pc := .serving }
  | readFails {rc : Int} :
      sess.pc = .inRead → env.lib sess.transcript (.answer rc) = true →
      sess.readEnds env now rc = true →
      Local env now senders sess (.answer rc) (sess.log (.returned rc now)).drop
  | established {negotiated : Bool} :
      sess.pc = .completed →
      Local env now senders sess (.establish negotiated true) { sess with
        pc := .announced, established := true, cidActive := negotiated }
  | anonymous {negotiated : Bool} :
      sess.pc = .completed →
      Local env now senders sess (.establish negotiated false) sess.drop
  | empty {written : Bool} :
      sess.pc = .answered 0 → ¬ (sess.cidActive ∧ sess.addrRouted) →
      Local env now senders sess (.conclude written)
        { sess.migrate with pc := .serving }
  | replied {n : Nat} :
      sess.pc = .answered n → ¬ (sess.cidActive ∧ sess.addrRouted) → n ≠ 0 →
      Local env now senders sess (.conclude true)
        { sess.migrate.log (.replied true) with pc := .serving }
  | unwritten {n : Nat} :
      sess.pc = .answered n → ¬ (sess.cidActive ∧ sess.addrRouted) → n ≠ 0 →
      Local env now senders sess (.conclude false)
        (sess.migrate.log (.replied false)).drop
  | panicked :
      sess.pc.live = true → sess.pc ≠ .unstarted →
      Local env now senders sess .panics sess.drop

theorem localStep_local {env : Env} {now : Instant} {senders : Bool}
    {sess sess' : Session} {a : LocalAction}
    (h : sess.localStep env now senders a = some sess') :
    Local env now senders sess a sess' := by
  cases a with
  | callHandshake =>
      simp only [Session.localStep] at h
      split_ifs at h with hpc
      cases h
      exact .callHandshake hpc
  | callRead =>
      simp only [Session.localStep] at h
      split_ifs at h with hpc
      cases h
      exact .callRead hpc
  | recv cap expired =>
      simp only [Session.localStep] at h
      split_ifs at h with hcall
      cases h
      exact .recv hcall.1 hcall.2 (recv_received _ _ _ _ _)
  | answer rc =>
      simp only [Session.localStep] at h
      split_ifs at h with hlib
      split at h <;> cases h
      · rename_i hpc
        rcases handshakeReturns_cases env now (sess.log (.returned rc now)) rc
          with heq | heq | heq
        · rw [heq]
          exact .handshakeDone hpc hlib
        · rw [heq]
          exact .handshakeWaits hpc hlib
        · rw [heq]
          exact .handshakeFails hpc hlib
      · rename_i hpc
        rcases readReturns_cases env now (sess.log (.returned rc now)) rc with
          ⟨n, rfl, heq⟩ | ⟨⟨hneg, hends⟩, heq⟩ | ⟨hends, heq⟩
        · rw [heq]
          exact .readData hpc hlib
        · rw [heq]
          exact .readWaits hpc hlib hneg hends
        · rw [heq]
          exact .readFails hpc hlib hends
  | establish negotiated credentials =>
      simp only [Session.localStep] at h
      split_ifs at h with hpc hcredentials <;> cases h
      · rw [hcredentials]
        exact .established hpc
      · rw [Bool.eq_false_iff.mpr hcredentials]
        exact .anonymous hpc
  | conclude written =>
      simp only [Session.localStep] at h
      split at h
      · rename_i n hpc
        split_ifs at h with hrouted
        cases h
        unfold Session.conclude
        split_ifs with hzero hwritten
        · subst hzero
          exact .empty hpc hrouted
        · rw [hwritten]
          exact .replied hpc hrouted hzero
        · rw [Bool.eq_false_iff.mpr hwritten]
          exact .unwritten hpc hrouted hzero
      · cases h
  | panics =>
      simp only [Session.localStep] at h
      split_ifs at h with hlive
      cases h
      exact .panicked hlive.1 hlive.2

inductive Shared (s : State) (c : Conn) (sess : Session) :
    SharedAction → State → Prop
  | cookieCheck {rc : Int} :
      sess.pc.inCall = true →
      Shared s c sess (.cookieCheck rc)
        { s with cookie := s.cookie.cookieCheckTramp rc }
  | startServing :
      sess.pc = .announced →
      Shared s c sess .startServing ((s.withdrawCid sess c).setSession c
        { sess with pc := .serving, lastActivity := s.now })
  | releaseAddr {n : Nat} :
      sess.pc = .answered n → sess.cidActive = true → sess.addrRouted = true →
      Shared s c sess .releaseAddr
        ((s.removeByAddrIfMine sess.peer c).setSession c
          { sess with addrRouted := false })
  | removeAddr :
      sess.pc = .returned →
      Shared s c sess .removeAddr
        ((s.removeByAddrIfMine sess.peer c).setSession c
          { sess with pc := .addrRemoved })
  | removeCid :
      sess.pc = .addrRemoved →
      Shared s c sess .removeCid
        ((s.removeByCidIfMine sess.cid c).setSession c
          { sess with pc := .cidRemoved })
  | dropPermit {quota : ConnQuota} :
      sess.pc = .cidRemoved →
      Shared s c sess .dropPermit { s.setSession c
        { sess with pc := .finished, permit := none } with quota := quota }

theorem sharedStep_shared {s s' : State} {c : Conn} {sess : Session}
    {a : SharedAction} (h : sharedStep s c sess a = some s') :
    Shared s c sess a s' := by
  cases a with
  | cookieCheck rc =>
      simp only [sharedStep] at h
      split_ifs at h with hpc
      cases h
      exact .cookieCheck hpc
  | startServing =>
      simp only [sharedStep] at h
      split_ifs at h with hpc
      cases h
      exact .startServing hpc
  | releaseAddr =>
      simp only [sharedStep] at h
      split at h
      · split_ifs at h with hrouted
        cases h
        exact .releaseAddr (by assumption) hrouted.1 hrouted.2
      · cases h
  | removeAddr =>
      simp only [sharedStep] at h
      split_ifs at h with hpc
      cases h
      exact .removeAddr hpc
  | removeCid =>
      simp only [sharedStep] at h
      split_ifs at h with hpc
      cases h
      exact .removeCid hpc
  | dropPermit =>
      simp only [sharedStep] at h
      split_ifs at h with hpc
      cases h
      exact .dropPermit hpc

inductive Stepped (env : Env) (s : State) : Action → State → Prop
  | listener {a : ListenerAction} {s' : State} :
      Listened env s a s' → Stepped env s (.listener a) s'
  | thread {c : Conn} {a : LocalAction} {sess sess' : Session} :
      s.session c = some sess →
      Local env s.now (s.hasSender c) sess a sess' →
      Stepped env s (.thread c a) (s.setSession c sess')
  | shared {c : Conn} {a : SharedAction} {sess : Session} {s' : State} :
      s.session c = some sess → Shared s c sess a s' →
      Stepped env s (.shared c a) s'
  | tick {elapsed : Nat} :
      Stepped env s (.tick elapsed) { s with now := s.now + elapsed }
  | nextConnId :
      Stepped env s .nextConnId { s with nextConnId := s.nextConnId + 1 }

theorem step_stepped {env : Env} {s s' : State} {a : Action}
    (h : step env s a = some s') : Stepped env s a s' := by
  cases a with
  | listener a => exact .listener (listenerStep_listened h)
  | thread c a =>
      obtain ⟨sess, hsess, hlocal⟩ := Option.bind_eq_some_iff.mp h
      obtain ⟨sess', hstep, rfl⟩ := Option.map_eq_some_iff.mp hlocal
      exact .thread hsess (localStep_local hstep)
  | shared c a =>
      obtain ⟨sess, hsess, hshared⟩ := Option.bind_eq_some_iff.mp h
      exact .shared hsess (sharedStep_shared hshared)
  | tick elapsed =>
      cases h
      exact .tick
  | nextConnId =>
      cases h
      exact .nextConnId

end Loft.DtlsMbed
