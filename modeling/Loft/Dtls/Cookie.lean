import Loft.Dtls.Backing
import Loft.Dtls.Listen

namespace Loft.Dtls

open Loft.Data
open Loft.Data.Transition

/-! Only addresses that receive what is sent to them come past the cookie
exchange, whatever is sent under other names. -/

/-- What `DTLSv1_listen` is documented to do; `cookieOf` reads the cookie of a
ClientHello or of a HelloVerifyRequest. -/
structure ListenLibrary.Documented (lib : ListenLibrary)
    (cookieOf : Octets → Option Octets) : Prop where
  accepts : ∀ events, lib events (.answer .accepted) →
    ∃ cookie, .verified cookie true ∈ events
  presents : ∀ events cookie, lib events (.verify cookie) →
    ∃ dgram, .read (some dgram) ∈ events ∧ cookieOf dgram = some cookie
  writes : ∀ events dgram cookie, lib events (.write dgram) →
    cookieOf dgram = some cookie → .generated (some cookie) ∈ events

/-- No two addresses have one tag. -/
def CollisionFree (mac : Mac) : Prop :=
  ∀ material material' tag, material.length ≤ 18 → material'.length ≤ 18 →
    mac material = some tag → mac material' = some tag → material = material'

theorem CollisionFree.cookie {mac : Mac} (hmac : CollisionFree mac)
    {a b : SocketAddr} {cookie : Octets}
    (ha : generateCookie mac a = some cookie)
    (hb : generateCookie mac b = some cookie) : a = b := by
  have hlength (peer : SocketAddr) : (cookieMaterial peer).length ≤ 18 := by
    rw [length_cookieMaterial]
    split <;> omega
  exact cookieMaterial_injective
    (hmac _ _ cookie (hlength a) (hlength b) ha hb)

theorem verifyCookie_iff (mac : Mac) (peer : SocketAddr) (cookie : Octets) :
    verifyCookie mac peer cookie = true ↔
      generateCookie mac peer = some cookie := by
  unfold verifyCookie
  cases generateCookie mac peer with
  | none => simp
  | some expected =>
      simp only [beq_iff_eq, Option.some.injEq]
      exact eq_comm

section Exchanging

variable (mac : Mac) (cookieOf : Octets → Option Octets)
  (Hears : SocketAddr → Prop)

/-- Nobody forges a cookie: one that arrives has been read off what was sent
to an address somebody hears. -/
def Unforged (s : Exchange) : Exchange.Action → Prop
  | .recvFrom _ dgram =>
      ∀ peer cookie, cookieOf dgram = some cookie →
        generateCookie mac peer = some cookie →
        ∃ entry ∈ s.sent, cookieOf entry.2 = some cookie ∧ Hears entry.1
  | _ => True

/-- Whose cookie the datagram has can be heard of. -/
def Shown (dgram : Octets) : Prop :=
  ∀ peer cookie, cookieOf dgram = some cookie →
    generateCookie mac peer = some cookie → Hears peer

/-! The demux. -/

def Listener.verified : Listener → Option SocketAddr
  | .accepted peer => some peer
  | .admitted peer _ => some peer
  | _ => none

structure Admits (d : State) : Prop where
  listener : ∀ peer, d.listener.verified = some peer → Hears peer
  threads : ∀ conn ∈ d.threads, Hears conn.peer

variable {mac cookieOf Hears}

theorem Admits.relisten {d : State} {listener : Listener}
    (hd : Admits Hears d)
    (hverified : ∀ peer, listener.verified = some peer → Hears peer) :
    Admits Hears { d with listener := listener } where
  listener := hverified
  threads := hd.threads

theorem Admits.setConn {d : State} {c : ConnId} {conn conn' : Conn}
    (hd : Admits Hears d) (hconn : d.threads[c]? = some conn)
    (hpeer : conn'.peer = conn.peer) : Admits Hears (d.setConn c conn') where
  listener := hd.listener
  threads other hmem := by
    rcases List.mem_or_eq_of_mem_set hmem with hbefore | rfl
    · exact hd.threads other hbefore
    · rw [hpeer]
      exact hd.threads conn (List.mem_of_getElem? hconn)

theorem Admits.route {d : State} (hd : Admits Hears d) (peer : SocketAddr)
    (dgram : Octets) : Admits Hears (d.route peer dgram) := by
  have hunknown : Admits Hears { d with listener := .unknown peer } :=
    hd.relisten (by simp [Listener.verified])
  unfold State.route
  cases d.conns.lookup peer with
  | none => exact hunknown
  | some c =>
      dsimp only
      cases hconn : d.threads[c]? with
      | none => exact hunknown
      | some conn =>
          dsimp only
          split_ifs
          · exact hd.setConn hconn rfl
          · exact hd
          · exact ⟨hunknown.listener, hunknown.threads⟩

theorem Admits.step {d d' : State} {action : Action} (hd : Admits Hears d)
    (h : Dtls.step d action = some d')
    (haccepted : ∀ peer, action = .listen .accepted →
      d.listener = .unknown peer → Hears peer) : Admits Hears d' := by
  cases action with
  | recvFrom peer dgram =>
      simp only [Dtls.step] at h
      split at h <;> cases h
      exact hd.route peer dgram
  | listen outcome =>
      simp only [Dtls.step] at h
      split at h
      · rename_i peer hlistener
        split_ifs at h with hgranted <;> cases h
        · apply hd.relisten
          intro peer' hpeer
          cases hpeer
          exact haccepted peer (by rw [hgranted.2]) hlistener
        · exact hd.relisten (by simp [Listener.verified])
      · cases h
  | tryAcquire =>
      simp only [Dtls.step] at h
      split at h
      · rename_i peer hlistener
        have hpeer := hd.listener peer (by rw [hlistener]; rfl)
        split at h <;> cases h
        · exact hd.relisten (by simp [Listener.verified])
        · refine ⟨?_, hd.threads⟩
          intro peer' hverified
          cases hverified
          exact hpeer
      · cases h
  | promote spawned =>
      simp only [Dtls.step] at h
      split at h <;> cases h
      rename_i peer permit hlistener
      have hpeer := hd.listener peer (by rw [hlistener]; rfl)
      cases spawned with
      | false => exact ⟨by simp [State.promote, Listener.verified], hd.threads⟩
      | true =>
          refine ⟨by simp [State.promote, Listener.verified], ?_⟩
          intro conn hmem
          rcases List.mem_append.mp hmem with hbefore | hnew
          · exact hd.threads conn hbefore
          · rw [List.mem_singleton.mp hnew]
            exact hpeer
  | read c | returns c | panics c =>
      obtain ⟨conn, hconn, -, rfl⟩ := stepThread_eq_some h
      exact hd.setConn hconn rfl
  | remove c | release c =>
      obtain ⟨conn, hconn, hphase, rfl⟩ := stepThread_eq_some h
      have hset (phase : Phase) :
          Admits Hears (d.setConn c { conn with phase := phase }) :=
        hd.setConn hconn rfl
      exact ⟨hd.listener, (hset _).threads⟩

theorem unknown_kept {d d' : State} {action : Action} {peer : SocketAddr}
    (h : Dtls.step d action = some d')
    (hlisten : ∀ outcome, action ≠ .listen outcome)
    (hlistener : d.listener = .unknown peer) :
    d'.listener = .unknown peer := by
  cases action with
  | listen outcome => exact absurd rfl (hlisten outcome)
  | recvFrom _ _ | tryAcquire | promote _ => simp [Dtls.step, hlistener] at h
  | read c | returns c | panics c | remove c | release c =>
      obtain ⟨conn, -, -, rfl⟩ := stepThread_eq_some h
      exact hlistener

/-! The exchange. -/

namespace Exchange

/-- What has happened in a call that is about the datagram of `peer`. -/
def EventSound (mac : Mac) (cookieOf : Octets → Option Octets)
    (Hears : SocketAddr → Prop) (peer : SocketAddr) : ListenEvent → Prop
  | .read delivered =>
      ∀ dgram, delivered = some dgram → Shown mac cookieOf Hears dgram
  | .generated given =>
      ∀ cookie, given = some cookie → generateCookie mac peer = some cookie
  | .verified _ ok => ok = true → Hears peer
  | .wrote _ => True

/-- The stream sends to the source of the datagram at hand, and the callbacks
see no other. -/
structure Attends (mac : Mac) (cookieOf : Octets → Option Octets)
    (Hears : SocketAddr → Prop) (pending : Option PendingListen)
    (peer : SocketAddr) (events : List ListenEvent) : Prop where
  stamped : ∀ pl, pending = some pl → pl.peer = peer ∧ pl.exPeer = some peer
  events : ∀ event ∈ events, EventSound mac cookieOf Hears peer event

def PhaseSound (mac : Mac) (cookieOf : Octets → Option Octets)
    (Hears : SocketAddr → Prop) (s : Exchange) : Prop :=
  match s.phase with
  | .idle => True
  | .unknown peer dgram =>
      s.demux.listener = .unknown peer ∧ Shown mac cookieOf Hears dgram
  | .listening peer events =>
      s.demux.listener = .unknown peer ∧
        Attends mac cookieOf Hears s.pending peer events

structure Sound (mac : Mac) (cookieOf : Octets → Option Octets)
    (Hears : SocketAddr → Prop) (s : Exchange) : Prop where
  admits : Admits Hears s.demux
  waiting : ∀ pl, s.pending = some pl →
    ∀ dgram ∈ pl.io.rx, Shown mac cookieOf Hears dgram
  sent : ∀ entry ∈ s.sent, ∀ cookie, cookieOf entry.2 = some cookie →
    generateCookie mac entry.1 = some cookie
  phase : s.PhaseSound mac cookieOf Hears

theorem Sound.conclude {s s' : Exchange} {outcome : ListenOutcome}
    (hs : s.Sound mac cookieOf Hears) (h : s.conclude outcome = some s')
    (haccepted : ∀ peer, outcome = .accepted →
      s.demux.listener = .unknown peer → Hears peer) :
    s'.Sound mac cookieOf Hears := by
  obtain ⟨demux, hstep, rfl⟩ := Option.map_eq_some_iff.mp h
  have hadmits : Admits Hears demux := by
    apply hs.admits.step hstep
    intro peer houtcome
    exact haccepted peer (Action.listen.inj houtcome)
  exact ⟨hadmits, hs.waiting, hs.sent, trivial⟩

theorem Sound.drop {s : Exchange} (hs : s.Sound mac cookieOf Hears) :
    Sound mac cookieOf Hears { s with pending := none, phase := .idle } :=
  ⟨hs.admits, by simp, hs.sent, trivial⟩

theorem Sound.begin {s s' : Exchange} {peer : SocketAddr} {dgram : Octets}
    {created : Bool} (hs : s.Sound mac cookieOf Hears)
    (hphase : s.phase = .unknown peer dgram)
    (h : s.begin peer dgram created = some s') :
    s'.Sound mac cookieOf Hears := by
  have hunknown := hs.phase
  rw [PhaseSound, hphase] at hunknown
  obtain ⟨hlistener, hdgram⟩ := hunknown
  unfold Exchange.begin at h
  by_cases hfull : s.demux.quota.isFull = true
  · rw [if_pos hfull] at h
    exact hs.conclude h (by simp)
  · rw [if_neg hfull] at h
    dsimp only at h
    cases hpending :
        s.pending.or (if created then some PendingListen.new else none) with
    | none =>
        rw [hpending] at h
        exact hs.conclude h (by simp)
    | some pl =>
        rw [hpending] at h
        have hwaiting : ∀ dgram ∈ pl.io.rx,
            Shown mac cookieOf Hears dgram := by
          rcases Option.or_eq_some_iff.mp hpending with hkept | ⟨-, hfresh⟩
          · exact hs.waiting pl hkept
          · obtain ⟨-, hnew⟩ := Option.ite_none_right_eq_some.mp hfresh
            cases hnew
            simp [PendingListen.new]
        dsimp only at h
        unfold PendingListen.trySend at h
        by_cases hroom : (pl.stamp peer).io.rx.length < connChannelDepth
        · rw [if_pos hroom] at h
          cases h
          refine ⟨hs.admits, ?_, hs.sent, hlistener, ?_⟩
          · intro pl' hpl' other hmem
            cases hpl'
            rcases List.mem_append.mp hmem with hbefore | hnew
            · exact hwaiting other hbefore
            · rw [List.mem_singleton.mp hnew]
              exact hdgram
          · refine ⟨?_, by simp⟩
            intro pl' hpl'
            cases hpl'
            exact ⟨rfl, rfl⟩
        · rw [if_neg hroom] at h
          exact hs.drop.conclude h (by simp)

/-- The call goes on, with one event more. -/
theorem Sound.event {s : Exchange} {peer : SocketAddr}
    {events : List ListenEvent} {event : ListenEvent}
    {pending : Option PendingListen} {sent : List (SocketAddr × Octets)}
    (hs : s.Sound mac cookieOf Hears)
    (hphase : s.phase = .listening peer events)
    (hstamped : ∀ pl, pending = some pl →
      pl.peer = peer ∧ pl.exPeer = some peer)
    (hwaiting : ∀ pl, pending = some pl →
      ∀ dgram ∈ pl.io.rx, Shown mac cookieOf Hears dgram)
    (hsent : ∀ entry ∈ sent, ∀ cookie, cookieOf entry.2 = some cookie →
      generateCookie mac entry.1 = some cookie)
    (hevent : EventSound mac cookieOf Hears peer event) :
    Sound mac cookieOf Hears { s with
      pending := pending
      phase := .listening peer (events ++ [event])
      sent := sent } := by
  have hcall := hs.phase
  rw [PhaseSound, hphase] at hcall
  obtain ⟨hlistener, hattends⟩ := hcall
  refine ⟨hs.admits, hwaiting, hsent, hlistener, hstamped, ?_⟩
  intro other hmem
  rcases List.mem_append.mp hmem with hbefore | hnew
  · exact hattends.events other hbefore
  · rw [List.mem_singleton.mp hnew]
    exact hevent

theorem Sound.callback {lib : ListenLibrary} (hlib : lib.Documented cookieOf)
    {s s' : Exchange} {peer : SocketAddr} {events : List ListenEvent}
    {pl : PendingListen} {move : ListenMove}
    (hs : s.Sound mac cookieOf Hears) (hphase : s.phase = .listening peer events)
    (hpending : s.pending = some pl) (hmay : lib events move = true)
    (h : s.callback mac peer events pl move = some s') :
    s'.Sound mac cookieOf Hears := by
  have hcall := hs.phase
  rw [PhaseSound, hphase] at hcall
  obtain ⟨hlistener, hattends⟩ := hcall
  obtain ⟨hpeer, hexPeer⟩ := hattends.stamped pl hpending
  cases move with
  | read cap =>
      have hreading := DgramIo.lawful.reading pl.io true ⟨0, cap⟩
      have hread : DgramIo.transport.read pl.io true ⟨0, cap⟩ =
          pl.io.read 0 true cap := rfl
      rw [hread] at hreading
      simp only [Exchange.callback] at h
      rcases pl.io.read 0 true cap with ⟨result, delivered, io⟩
      obtain ⟨hdelivered, hleft⟩ := hreading.mem
      cases h
      apply hs.event hphase
      · intro pl' hpl'
        cases hpl'
        exact ⟨hpeer, hexPeer⟩
      · intro pl' hpl'
        cases hpl'
        intro dgram hmem
        exact hs.waiting pl hpending dgram (hleft hmem)
      · exact hs.sent
      · intro dgram hdgram
        exact hs.waiting pl hpending dgram (hdelivered dgram hdgram)
  | generate room =>
      cases h
      apply hs.event hphase hattends.stamped hs.waiting hs.sent
      intro cookie hgiven
      obtain ⟨hcookie, -⟩ := Option.filter_eq_some_iff.mp hgiven
      rwa [hexPeer] at hcookie
  | verify cookie =>
      cases h
      apply hs.event hphase hattends.stamped hs.waiting hs.sent
      intro hok
      rw [PendingListen.verify, hexPeer] at hok
      -- The cookie is that of `peer`, and came in with a datagram.
      obtain ⟨dgram, hmem, hcookie⟩ := hlib.presents events cookie hmay
      exact hattends.events _ hmem dgram rfl peer cookie hcookie
        ((verifyCookie_iff mac peer cookie).mp hok)
  | write dgram =>
      cases h
      apply hs.event hphase hattends.stamped hs.waiting
      · intro entry hmem cookie hcookie
        rcases List.mem_append.mp hmem with hbefore | hnew
        · exact hs.sent entry hbefore cookie hcookie
        · rw [List.mem_singleton.mp hnew] at hcookie ⊢
          have hmem := hlib.writes events dgram cookie hmay hcookie
          rw [hpeer]
          exact hattends.events _ hmem cookie rfl
      · trivial
  | answer outcome =>
      cases outcome with
      | retry => exact hs.conclude h (by simp)
      | failed => exact hs.drop.conclude h (by simp)
      | accepted =>
          obtain ⟨cookie, hmem⟩ := hlib.accepts events hmay
          apply hs.drop.conclude h
          intro peer' _ hpeer'
          cases hlistener.symm.trans hpeer'
          exact hattends.events _ hmem rfl

theorem Sound.step {lib : ListenLibrary} (hlib : lib.Documented cookieOf)
    (hmac : CollisionFree mac) {s s' : Exchange} {action : Exchange.Action}
    (hs : s.Sound mac cookieOf Hears)
    (hunforged : Unforged mac cookieOf Hears s action)
    (h : s.step lib mac action = some s') : s'.Sound mac cookieOf Hears := by
  cases action with
  | recvFrom peer dgram =>
      simp only [Exchange.step] at h
      split at h
      · obtain ⟨demux, hstep, rfl⟩ := Option.map_eq_some_iff.mp h
        have hadmits := hs.admits.step hstep (by simp)
        refine ⟨hadmits, hs.waiting, hs.sent, ?_⟩
        unfold PhaseSound
        dsimp only
        split_ifs with hunknown
        · refine ⟨hunknown, ?_⟩
          intro source cookie hcookie hgenuine
          obtain ⟨entry, hmem, hcarried, hheard⟩ :=
            hunforged source cookie hcookie hgenuine
          have hown := hs.sent entry hmem cookie hcarried
          rwa [hmac.cookie hown hgenuine] at hheard
        · trivial
      · cases h
  | begin created =>
      simp only [Exchange.step] at h
      split at h
      · exact hs.begin ‹_› h
      · cases h
  | call move =>
      simp only [Exchange.step] at h
      split at h
      · rename_i hphase hpending
        split_ifs at h with hmay
        exact hs.callback hlib hphase hpending hmay h
      · cases h
  | demux a =>
      simp only [Exchange.step] at h
      split at h
      · cases h
      · cases h
      · rename_i hrecvFrom hlisten
        obtain ⟨demux, hstep, rfl⟩ := Option.map_eq_some_iff.mp h
        have hadmits := hs.admits.step hstep fun peer haction _ =>
          absurd haction (hlisten .accepted)
        refine ⟨hadmits, hs.waiting, hs.sent, ?_⟩
        have hphase := hs.phase
        unfold PhaseSound at hphase ⊢
        dsimp only
        split
        · trivial
        · rename_i hcall
          rw [hcall] at hphase
          exact ⟨unknown_kept hstep hlisten hphase.1, hphase.2⟩
        · rename_i hcall
          rw [hcall] at hphase
          exact ⟨unknown_kept hstep hlisten hphase.1, hphase.2⟩

/-! The exchange adds nothing to what the demux does. -/

theorem conclude_refines {s s' : Exchange} {outcome : ListenOutcome}
    (h : s.conclude outcome = some s') :
    Dtls.step s.demux (.listen outcome) = some s'.demux := by
  obtain ⟨demux, hstep, rfl⟩ := Option.map_eq_some_iff.mp h
  exact hstep

theorem begin_refines {s s' : Exchange} {peer : SocketAddr} {dgram : Octets}
    {created : Bool} (h : s.begin peer dgram created = some s') :
    s'.demux = s.demux ∨ ∃ a, Dtls.step s.demux a = some s'.demux := by
  unfold Exchange.begin at h
  split at h
  · have hstep := conclude_refines h
    exact .inr ⟨_, hstep⟩
  · dsimp only at h
    split at h
    · have hstep := conclude_refines h
      exact .inr ⟨_, hstep⟩
    · split at h
      · have hstep := conclude_refines h
        exact .inr ⟨_, hstep⟩
      · cases h
        exact .inl rfl

theorem callback_refines {s s' : Exchange} {peer : SocketAddr}
    {events : List ListenEvent} {pl : PendingListen} {move : ListenMove}
    (h : s.callback mac peer events pl move = some s') :
    s'.demux = s.demux ∨ ∃ a, Dtls.step s.demux a = some s'.demux := by
  cases move with
  | answer outcome =>
      cases outcome with
      | retry | accepted | failed =>
          have hstep := conclude_refines h
          exact .inr ⟨_, hstep⟩
  | _ =>
      cases h
      exact .inl rfl

theorem step_refines {lib : ListenLibrary} {s s' : Exchange}
    {action : Exchange.Action} (h : s.step lib mac action = some s') :
    s'.demux = s.demux ∨ ∃ a, Dtls.step s.demux a = some s'.demux := by
  cases action with
  | recvFrom peer dgram =>
      simp only [Exchange.step] at h
      split at h
      · obtain ⟨demux, hstep, rfl⟩ := Option.map_eq_some_iff.mp h
        exact .inr ⟨_, hstep⟩
      · cases h
  | begin created =>
      simp only [Exchange.step] at h
      split at h
      · exact begin_refines h
      · cases h
  | call move =>
      simp only [Exchange.step] at h
      split at h
      · split_ifs at h
        exact callback_refines h
      · cases h
  | demux a =>
      simp only [Exchange.step] at h
      split at h
      · cases h
      · cases h
      · obtain ⟨demux, hstep, rfl⟩ := Option.map_eq_some_iff.mp h
        exact .inr ⟨_, hstep⟩

/-- Whatever the demux keeps, the exchange keeps. -/
theorem run_demux {lib : ListenLibrary} {Inv : State → Prop}
    (hstep : ∀ d a d', Inv d → Dtls.step d a = some d' → Inv d')
    {s s' : Exchange} {actions : List Exchange.Action} (hinit : Inv s.demux)
    (hrun : run (step lib mac) s actions = some s') : Inv s'.demux := by
  apply @run_invariant _ _ (step lib mac) (fun s => Inv s.demux) _ _ _ _
    hinit hrun
  intro s action s' hs h
  rcases step_refines h with hsame | ⟨a, ha⟩
  · rw [hsame]
    exact hs
  · exact hstep s.demux a s'.demux hs ha

end Exchange

end Exchanging

/-- Every permit was handed out for an address that is heard. -/
theorem Admits.holders {Hears : SocketAddr → Prop} {d : State}
    (hd : Admits Hears d) :
    ∀ holder ∈ holders d, ∃ peer, Hears peer ∧ holder.source = peer.ip := by
  intro holder hmem
  rcases List.mem_append.mp hmem with hlistener | hthread
  · cases hcase : d.listener with
    | admitted peer permit =>
        rw [hcase] at hlistener
        cases List.mem_singleton.mp hlistener
        exact ⟨peer, hd.listener peer (by rw [hcase]; rfl), rfl⟩
    | _ => simp [hcase, Listener.holder] at hlistener
  · obtain ⟨conn, hconn, hholder⟩ := List.mem_filterMap.mp hthread
    obtain ⟨-, hthis⟩ := Option.ite_none_left_eq_some.mp hholder
    cases hthis
    exact ⟨conn.peer, hd.threads conn hconn, rfl⟩

/-- Nothing is kept for an address that nobody hears, and nothing is taken off
its share, whatever is sent under its name. -/
theorem spoofed_costs_nothing {lib : ListenLibrary} {mac : Mac}
    {cookieOf : Octets → Option Octets} {Hears : SocketAddr → Prop}
    (hlib : lib.Documented cookieOf) (hmac : CollisionFree mac)
    {maxTotal maxPerIp : Nat} {actions : List Exchange.Action} {s : Exchange}
    (hunforged : Along (Exchange.step lib mac) (Unforged mac cookieOf Hears)
      (Exchange.init (ConnQuota.new maxTotal maxPerIp)) actions)
    (hrun : run (Exchange.step lib mac)
      (Exchange.init (ConnQuota.new maxTotal maxPerIp)) actions = some s) :
    (∀ conn ∈ s.demux.threads, Hears conn.peer) ∧
      (∀ peer c, s.demux.conns.lookup peer = some c → Hears peer) ∧
      ∀ ip, (∀ peer, Hears peer → bucket peer.ip ≠ bucket ip) →
        s.demux.quota.held (bucket ip) = 0 := by
  have hsound : s.Sound mac cookieOf Hears := by
    apply run_invariant_along _ _ _ hunforged hrun
    · intro s action s' hs hguard h
      exact hs.step hlib hmac hguard h
    · refine ⟨⟨by simp [Exchange.init, init, Listener.verified], ?_⟩,
        by simp [Exchange.init], by simp [Exchange.init], trivial⟩
      simp [Exchange.init, init]
  have haccounted : Accounted maxTotal maxPerIp s.demux :=
    Exchange.run_demux (fun d a d' hd h => hd.step h)
      (init_accounted maxTotal maxPerIp) hrun
  refine ⟨hsound.admits.threads, ?_, ?_⟩
  · intro peer c hentry
    obtain ⟨phase, hstatus⟩ := haccounted.entered peer c hentry
    obtain ⟨conn, hconn, hpair⟩ := Option.map_eq_some_iff.mp hstatus
    cases hpair
    exact hsound.admits.threads conn (List.mem_of_getElem? hconn)
  · intro ip hsilent
    have hnone : Admission.heldBy (holders s.demux) (bucket ip) = 0 := by
      apply List.countP_eq_zero.mpr
      intro holder hmem hbucket
      obtain ⟨peer, hheard, hsource⟩ := hsound.admits.holders holder hmem
      rw [hsource] at hbucket
      exact hsilent peer hheard (of_decide_eq_true hbucket)
    rw [haccounted.books.held, hnone]

/-! A run: a hello under the name of the victim, the whole exchange of another
client, and that client's cookie under the name of the victim. -/

/-- Tags of 32 bytes. -/
def paddedMac : Mac := fun material =>
  some (UInt8.ofNat material.length ::
    (material ++ List.replicate (31 - material.length) 0))

theorem paddedMac_collisionFree : CollisionFree paddedMac := by
  intro material material' tag hle hle' htag htag'
  have hsame := Option.some.inj (htag.trans htag'.symm)
  obtain ⟨hfirst, hrest⟩ := List.cons.inj hsame
  have hlength := congrArg UInt8.toNat hfirst
  rw [UInt8.toNat_ofNat_of_lt' (Nat.lt_of_le_of_lt hle (by decide)),
    UInt8.toNat_ofNat_of_lt' (Nat.lt_of_le_of_lt hle' (by decide))] at hlength
  exact (List.append_inj hrest hlength).1

/-- A ClientHello is 1, a HelloVerifyRequest 3, and the cookie follows. -/
def cookieAfterType : Octets → Option Octets
  | kind :: first :: rest =>
      if kind = 1 ∨ kind = 3 then some (first :: rest) else none
  | _ => none

/-- One datagram, and what it calls for. -/
def oneHello : ListenLibrary
  | [], .read _ => true
  | [.read (some dgram)], .generate _ => cookieAfterType dgram = none
  | [.read (some dgram)], .verify cookie => cookieAfterType dgram = some cookie
  | [.read _, .generated (some cookie)], .write dgram =>
      cookieAfterType dgram = some cookie
  | [.read _, .verified _ true], .answer outcome => outcome = .accepted
  | [.read _, .verified _ false], .answer outcome => outcome = .retry
  | [.read _, .generated _, .wrote _], .answer outcome => outcome = .retry
  | _, _ => false

theorem oneHello_documented : oneHello.Documented cookieAfterType where
  accepts events hmay := by
    unfold oneHello at hmay
    split at hmay <;> simp_all
  presents events cookie hmay := by
    unfold oneHello at hmay
    split at hmay <;> simp_all
  writes events dgram cookie hmay hcookie := by
    unfold oneHello at hmay
    split at hmay <;> simp_all

/-- What arrives has no cookie, or one that was sent to somebody. -/
def Echoes (cookieOf : Octets → Option Octets) (hearers : List SocketAddr)
    (s : Exchange) : Exchange.Action → Prop
  | .recvFrom _ dgram =>
      cookieOf dgram = none ∨
        ∃ entry ∈ s.sent, cookieOf entry.2 = cookieOf dgram ∧ entry.1 ∈ hearers
  | _ => True

instance (cookieOf : Octets → Option Octets) (hearers : List SocketAddr)
    (s : Exchange) : ∀ action, Decidable (Echoes cookieOf hearers s action)
  | .recvFrom _ _ => instDecidableOr
  | .begin _ | .call _ | .demux _ => isTrue trivial

theorem Echoes.unforged {mac : Mac} {cookieOf : Octets → Option Octets}
    {hearers : List SocketAddr} {s : Exchange} {action : Exchange.Action}
    (h : Echoes cookieOf hearers s action) :
    Unforged mac cookieOf (· ∈ hearers) s action := by
  cases action with
  | recvFrom peer dgram =>
      intro source cookie hcookie _
      rcases h with hnone | ⟨entry, hmem, hsame, hheard⟩
      · rw [hnone] at hcookie
        cases hcookie
      · exact ⟨entry, hmem, hsame.trans hcookie, hheard⟩
  | _ => trivial

def victim : SocketAddr where
  ip := .v4 0xC6336407
  port := 5684

def cookieTo (peer : SocketAddr) : Octets :=
  ((generateCookie paddedMac peer).getD [])

/-- A hello with no cookie yet. -/
def greet (peer : SocketAddr) : List Exchange.Action :=
  [.recvFrom peer [1], .begin true, .call (.read 2048), .call (.generate 255),
    .call (.write (3 :: cookieTo peer)), .call (.answer .retry)]

def present (peer : SocketAddr) (cookie : Octets) (outcome : ListenOutcome) :
    List Exchange.Action :=
  [.recvFrom peer (1 :: cookie), .begin true, .call (.read 2048),
    .call (.verify cookie), .call (.answer outcome)]

def spoofing : List Exchange.Action :=
  greet victim ++ greet client ++
  present client (cookieTo client) .accepted ++
  [.demux .tryAcquire, .demux (.promote true)] ++
  present victim (cookieTo client) .retry

theorem spoofed_costs_nothing_cookieStolen :
    ∃ s, run (Exchange.step oneHello paddedMac)
        (Exchange.init (ConnQuota.new 4096 256)) spoofing = some s ∧
      s.sent.map Prod.fst = [victim, client] ∧
      (∀ conn ∈ s.demux.threads, conn.peer ∈ [client]) ∧
      s.demux.quota.held (bucket victim.ip) = 0 := by
  have hechoes : Along (Exchange.step oneHello paddedMac)
      (Echoes cookieAfterType [client])
      (Exchange.init (ConnQuota.new 4096 256)) spoofing := by
    decide +kernel
  have hsent : (run (Exchange.step oneHello paddedMac)
      (Exchange.init (ConnQuota.new 4096 256)) spoofing).map
        (fun s => s.sent.map Prod.fst) = some [victim, client] := by
    decide +kernel
  obtain ⟨s, hrun, hpeers⟩ := Option.map_eq_some_iff.mp hsent
  have hunforged : Along (Exchange.step oneHello paddedMac)
      (Unforged paddedMac cookieAfterType (· ∈ [client]))
      (Exchange.init (ConnQuota.new 4096 256)) spoofing :=
    Along.mono _ (fun _ _ _ _ _ _ => trivial)
      (fun _ _ _ h => Echoes.unforged h) trivial hechoes
  obtain ⟨hthreads, -, hheld⟩ := spoofed_costs_nothing oneHello_documented
    paddedMac_collisionFree hunforged hrun
  exact ⟨s, hrun, hpeers, hthreads, hheld victim.ip (by simp; decide)⟩

end Loft.Dtls
