import Loft.Handler.Routing
import Loft.Psk.Vouched
import Loft.TlsCommon

namespace Loft.TlsCommon

open Loft.Data
open Loft.Data.Transition (run run_invariant)
open Loft.Coap
open Loft.Psk (PskEntry Vouched Stepped Documented)

/-! Who a session is served as: what the peer named in this handshake, and
holds the key to. -/

variable {world : World}

def Phase.settled : Phase → Bool
  | .serving _ | .closed => true
  | _ => false

/-- The peer named the identity in this handshake, and the resolver answered
that with the token, and with a key that the peer holds. -/
def Credited (world : World) (psk : Psk.State) (conn : Conn)
    (identity token : String) : Prop :=
  ∃ (k : Nat) (sent : Option Octets) (call : Psk.Call)
    (own : Option Psk.Lookup) (entry : PskEntry),
    (k, sent) ∈ conn.asked ∧ conn.identity sent = some identity ∧
      psk.calls[k]? = some call ∧ call.identity = identity ∧
      call.phase = .returned own (some entry) ∧ entry.token = token ∧
      world.knows conn.peer (asBytes entry.psk) = true

/-- The same handshake, perhaps further on. -/
structure Conn.Continues (conn conn' : Conn) : Prop where
  stack : conn'.stack = conn.stack
  peer : conn'.peer = conn.peer
  asked : conn.asked ⊆ conn'.asked

theorem Conn.Continues.identity {conn conn' : Conn}
    (h : conn.Continues conn') (sent : Option Octets) :
    conn'.identity sent = conn.identity sent := by
  rw [Conn.identity, Conn.identity, h.stack]

variable {psk psk' : Psk.State} {conn conn' : Conn} {identity token : String}

theorem Credited.continues (h : Credited world psk conn identity token)
    (hconn : conn.Continues conn') :
    Credited world psk conn' identity token := by
  obtain ⟨k, sent, call, own, entry, hasked, hsent, hrest⟩ := h
  refine ⟨k, sent, call, own, entry, hconn.asked hasked, ?_, ?_⟩
  · rw [hconn.identity, hsent]
  · rwa [hconn.peer]

theorem Credited.stepped {action : Psk.Action}
    (h : Credited world psk conn identity token)
    (hstep : Stepped world.resolver psk action psk') :
    Credited world psk' conn identity token := by
  obtain ⟨k, sent, call, own, entry, hasked, hsent, hcall, hidentity, hphase,
    hrest⟩ := h
  have hreturned : call.phase.hasReturned = true := by
    rw [hphase]
    rfl
  exact ⟨k, sent, call, own, entry, hasked, hsent,
    hstep.keeps_returned hcall hreturned, hidentity, hphase, hrest⟩

/-- What holds of a connection at any time. A stash is worth something only
together with the key that is installed. -/
structure Sound (world : World) (psk : Psk.State) (conn : Conn) : Prop where
  asked : ∀ k sent, (k, sent) ∈ conn.asked →
    ∃ call, psk.calls[k]? = some call ∧
      conn.identity sent = some call.identity
  resolving : ∀ k, conn.phase = .resolving k → ∃ sent, (k, sent) ∈ conn.asked
  stash : ∀ credentials key, conn.stash = some credentials →
    conn.key = some key → world.knows conn.peer key = true →
    Credited world psk conn credentials.identity credentials.token
  completed : conn.phase = .completed →
    ∃ key, conn.key = some key ∧ world.knows conn.peer key = true
  serving : ∀ device, conn.phase = .serving device →
    Credited world psk conn device.pigeonId device.token

namespace Sound

theorem new (stack : Stack) (peer : Peer) :
    Sound world psk (.new stack peer) where
  asked := nofun
  resolving := nofun
  stash := nofun
  completed := nofun
  serving := nofun

theorem stepped {action : Psk.Action} (h : Sound world psk conn)
    (hstep : Stepped world.resolver psk action psk') :
    Sound world psk' conn where
  asked k sent hmem := by
    obtain ⟨call, hcall, hsent⟩ := h.asked k sent hmem
    obtain ⟨call', hcall', hgrows⟩ := hstep.grows hcall
    refine ⟨call', hcall', ?_⟩
    rw [hgrows.identity, hsent]
  resolving := h.resolving
  stash credentials key hstash hkey hknown :=
    (h.stash credentials key hstash hkey hknown).stepped hstep
  completed := h.completed
  serving device hserving := (h.serving device hserving).stepped hstep

theorem close (h : Sound world psk conn) :
    Sound world psk { conn with phase := .closed } where
  asked := h.asked
  resolving := nofun
  stash := h.stash
  completed := nofun
  serving := nofun

theorem decoyed {decoy : Option Octets} (h : Sound world psk conn)
    (hdecoy : Unknown world conn.peer decoy) :
    Sound world psk (conn.rejectWithDecoyPsk decoy) where
  asked := h.asked
  resolving := nofun
  stash credentials key _ hkey hknown := by
    have hunknown := hdecoy key hkey
    rw [show world.knows conn.peer key = true from hknown] at hunknown
    cases hunknown
  completed := nofun
  serving := nofun

theorem reject {decoy : Option Octets} (h : Sound world psk conn)
    (hdecoy : Unknown world conn.peer decoy) :
    Sound world psk (conn.reject decoy) := by
  unfold Conn.reject
  split
  · exact h.close
  · exact h.decoyed hdecoy

theorem accept {k : Nat} {sent : Option Octets} {call : Psk.Call}
    {own : Option Psk.Lookup} {entry : PskEntry} (h : Sound world psk conn)
    (hasked : (k, sent) ∈ conn.asked) (hcall : psk.calls[k]? = some call)
    (hphase : call.phase = .returned own (some entry)) :
    Sound world psk (conn.accept call.identity entry) where
  asked := h.asked
  resolving := nofun
  stash credentials key hstash hkey hknown := by
    cases hstash
    cases hkey
    obtain ⟨call', hcall', hsent⟩ := h.asked k sent hasked
    rw [hcall, Option.some.injEq] at hcall'
    subst hcall'
    exact ⟨k, sent, call, own, entry, hasked, hsent, hcall, rfl, hphase, rfl,
      hknown⟩
  completed := nofun
  serving := nofun

/-- The callback ends in one of three ways. -/
theorem resolved {k : Nat} {sent : Option Octets} {call : Psk.Call}
    {own : Option Psk.Lookup} {result : Option PskEntry} {setHsPsk : Bool}
    {decoy : Option Octets} (h : Sound world psk conn)
    (hasked : (k, sent) ∈ conn.asked) (hcall : psk.calls[k]? = some call)
    (hphase : call.phase = .returned own result)
    (hdecoy : Unknown world conn.peer decoy) :
    Sound world psk
      (conn.resolved world setHsPsk decoy call.identity result) := by
  unfold Conn.resolved
  cases result with
  | none =>
      split
      · exact h.close
      · exact h.decoyed hdecoy
  | some entry =>
      have haccept := h.accept hasked hcall hphase
      split
      · unfold Conn.pskCallback
        dsimp only
        split_ifs
        · exact h.close
        · exact haccept.close
        · exact haccept
      · unfold Conn.pskTramp
        dsimp only
        split_ifs
        · exact haccept
        · exact h.decoyed hdecoy

theorem finished (h : Sound world psk conn)
    (hkey : conn.key.any (world.knows conn.peer) = true) :
    Sound world psk { conn with phase := .completed } where
  asked := h.asked
  resolving := nofun
  stash := h.stash
  completed _ := by
    obtain ⟨key, hkey, hknown⟩ := (Option.any_eq_true _ _).mp hkey
    exact ⟨key, hkey, hknown⟩
  serving := nofun

theorem establish (h : Sound world psk conn) (hphase : conn.phase = .completed)
    (connId : ConnId) : Sound world psk (conn.establish connId) := by
  unfold Conn.establish
  split
  · exact h.close
  · next credentials hstash =>
      obtain ⟨key, hkey, hknown⟩ := h.completed hphase
      have hcredited := h.stash credentials key hstash hkey hknown
      constructor
      · exact h.asked
      · exact nofun
      · intro credentials' key' hstash' hkey' hknown'
        dsimp only at hstash'
        split at hstash'
        · exact h.stash credentials' key' hstash' hkey' hknown'
        · cases hstash'
      · exact nofun
      · intro device hserving
        cases hserving
        exact hcredited

end Sound

/-! The whole process. -/

structure Inv (world : World) (s : State) : Prop where
  vouched : Vouched world.resolver s.resolver
  conns : ∀ (c : Nat) (conn : Conn), s.conns[c]? = some conn →
    Sound world s.resolver conn
  sent : ∀ c request, (c, request) ∈ s.sent →
    ∃ conn, s.conns[c]? = some conn ∧ conn.phase.settled = true ∧
      Credited world s.resolver conn request.pigeonId request.bearer

variable {s s' : State}

theorem init_inv : Inv world init where
  vouched := Psk.init_vouched
  conns := nofun
  sent := nofun

theorem Inv.setConn (hs : Inv world s) {c : Nat}
    (hfound : s.conns[c]? = some conn)
    (hsound : Sound world s.resolver conn')
    (hkept : conn.phase.settled = true →
      conn'.phase.settled = true ∧ conn.Continues conn') :
    Inv world (s.setConn c conn') where
  vouched := hs.vouched
  conns := by
    intro c' conn'' hconn''
    by_cases hsame : c = c'
    · subst hsame
      obtain ⟨hlt, -⟩ := List.getElem?_eq_some_iff.mp hfound
      rw [State.setConn, List.getElem?_set_self hlt, Option.some.injEq]
        at hconn''
      subst hconn''
      exact hsound
    · rw [State.setConn, List.getElem?_set_ne hsame] at hconn''
      exact hs.conns c' conn'' hconn''
  sent := by
    intro c' request hmem
    obtain ⟨conn'', hconn'', hsettled, hcredited⟩ := hs.sent c' request hmem
    by_cases hsame : c = c'
    · subst hsame
      rw [hfound, Option.some.injEq] at hconn''
      subst hconn''
      obtain ⟨hlt, -⟩ := List.getElem?_eq_some_iff.mp hfound
      obtain ⟨hsettled', hcontinues⟩ := hkept hsettled
      exact ⟨conn', List.getElem?_set_self hlt, hsettled',
        hcredited.continues hcontinues⟩
    · refine ⟨conn'', ?_, hsettled, hcredited⟩
      rw [State.setConn, List.getElem?_set_ne hsame]
      exact hconn''

theorem Inv.stepped (hs : Inv world s) {action : Psk.Action}
    {resolver : Psk.State}
    (hstep : Stepped world.resolver s.resolver action resolver) :
    Inv world { s with resolver := resolver } where
  vouched := hs.vouched.step hstep
  conns c conn hconn := (hs.conns c conn hconn).stepped hstep
  sent c request hmem := by
    obtain ⟨conn, hconn, hsettled, hcredited⟩ := hs.sent c request hmem
    exact ⟨conn, hconn, hsettled, hcredited.stepped hstep⟩

theorem Inv.connect (hs : Inv world s) (stack : Stack) (peer : Peer) :
    Inv world { s with conns := s.conns ++ [.new stack peer] } where
  vouched := hs.vouched
  conns := by
    intro c conn hconn
    rcases Nat.lt_or_ge c s.conns.length with hlt | hge
    · rw [List.getElem?_append_left hlt] at hconn
      exact hs.conns c conn hconn
    · rw [List.getElem?_append_right hge, List.getElem?_singleton] at hconn
      split_ifs at hconn
      cases hconn
      exact .new stack peer
  sent := by
    intro c request hmem
    obtain ⟨conn, hconn, hrest⟩ := hs.sent c request hmem
    obtain ⟨hlt, -⟩ := List.getElem?_eq_some_iff.mp hconn
    exact ⟨conn, by rwa [List.getElem?_append_left hlt], hrest⟩

theorem handle_requests {now : Instant} {req : Message} {device : DeviceSession}
    {transport : Transport} {upstream : DeviceRequest → UpstreamResult}
    {table : Block1Table} {request : DeviceRequest}
    (hmem : request ∈
      (world.handler.handle upstream now req device transport table).1) :
    request.pigeonId = device.pigeonId ∧ request.bearer = device.token := by
  rw [Handler.handle_eq, Handler.outcome_fst, Option.mem_toList] at hmem
  exact (Handler.dispatch_asks hmem).2

theorem Inv.handle (hs : Inv world s) {c : Nat} {device : DeviceSession}
    (hfound : s.conns[c]? = some conn) (hphase : conn.phase = .serving device)
    (now : Instant) (req : Message) (transport : Transport)
    (upstream : DeviceRequest → UpstreamResult) :
    let (requests, _, table) :=
      world.handler.handle upstream now req device transport s.table
    Inv world { s with
      table := table
      sent := s.sent ++ requests.map fun request => (c, request) } where
  vouched := hs.vouched
  conns := hs.conns
  sent := by
    intro c' request hmem
    rcases List.mem_append.mp hmem with hearlier | hnew
    · exact hs.sent c' request hearlier
    · obtain ⟨request', hmem', hsame⟩ := List.mem_map.mp hnew
      cases hsame
      obtain ⟨hpigeonId, hbearer⟩ := handle_requests hmem'
      refine ⟨conn, hfound, by rw [hphase]; rfl, ?_⟩
      rw [hpigeonId, hbearer]
      exact (hs.conns c conn hfound).serving device hphase

theorem unsettled {phase : Phase} (hphase : conn.phase = phase)
    (hopen : phase.settled = false) {P : Prop} :
    conn.phase.settled = true → P := by
  intro hsettled
  rw [hphase, hopen] at hsettled
  cases hsettled

theorem stepConn_inv {c : Nat} {action : Action} (hs : Inv world s)
    (hfound : s.conns[c]? = some conn)
    (h : stepConn world s c conn action = some s') : Inv world s' := by
  have hsound := hs.conns c conn hfound
  cases action with
  | connect stack peer => cases h
  | resolver action => cases h
  | reset _ peer =>
      simp only [stepConn] at h
      split_ifs at h with hguard
      cases h
      exact hs.setConn hfound (.new .mbedtls peer) (unsettled hguard.2 rfl)
  | pskAsked _ sent decoy =>
      simp only [stepConn] at h
      split_ifs at h with hguard
      split at h
      · cases h
        exact hs.setConn hfound (hsound.reject hguard.2)
          (unsettled hguard.1 rfl)
      · next identity hidentity =>
          obtain ⟨resolver, hstep, rfl⟩ := Option.map_eq_some_iff.mp h
          have hstepped := Psk.step_stepped hstep
          have hafter := hs.stepped hstepped
          cases hstep
          refine hafter.setConn hfound ?_ (unsettled hguard.1 rfl)
          have hsound' := hsound.stepped hstepped
          constructor
          · intro k sent' hmem
            rcases List.mem_append.mp hmem with hearlier | hnew
            · exact hsound'.asked k sent' hearlier
            · cases List.mem_singleton.mp hnew
              refine ⟨⟨identity, s.resolver.clock, .entered⟩, ?_, hidentity⟩
              exact List.getElem?_concat_length
          · intro k hk
            cases hk
            exact ⟨sent, List.mem_append_right _ List.mem_cons_self⟩
          · intro credentials key hstash hkey hknown
            exact (hsound'.stash credentials key hstash hkey hknown).continues
              ⟨rfl, rfl, List.subset_append_left ..⟩
          · exact nofun
          · exact nofun
  | resolved _ setHsPsk decoy =>
      simp only [stepConn] at h
      split at h
      · next k hphase =>
          split at h
          · next identity began own result hcall =>
              split_ifs at h with hdecoy
              cases h
              obtain ⟨sent, hasked⟩ := hsound.resolving k hphase
              exact hs.setConn hfound
                (hsound.resolved hasked hcall rfl hdecoy)
                (unsettled hphase rfl)
          · cases h
      · cases h
  | resolvePanics _ decoy =>
      simp only [stepConn] at h
      split at h
      · next k hphase =>
          split_ifs at h with hguard
          cases h
          exact hs.setConn hfound (hsound.decoyed hguard.2)
            (unsettled hphase rfl)
      · cases h
  | finished _ =>
      simp only [stepConn] at h
      split_ifs at h with hguard
      cases h
      exact hs.setConn hfound (hsound.finished hguard.2)
        (unsettled hguard.1 rfl)
  | establish _ connId =>
      simp only [stepConn] at h
      split_ifs at h with hguard
      cases h
      exact hs.setConn hfound (hsound.establish hguard connId)
        (unsettled hguard rfl)
  | handle _ now req transport upstream =>
      simp only [stepConn] at h
      split at h
      · next device hphase =>
          cases h
          exact hs.handle hfound hphase now req transport upstream
      · cases h
  | close _ =>
      cases h
      exact hs.setConn hfound hsound.close fun _ =>
        ⟨rfl, rfl, rfl, List.Subset.refl _⟩

theorem step_inv {action : Action} (hs : Inv world s)
    (h : step world s action = some s') : Inv world s' := by
  have hconn : ∀ c : Nat, ((s.conns[c]?).bind fun conn =>
      stepConn world s c conn action) = some s' → Inv world s' := by
    intro c hbind
    obtain ⟨conn, hfound, hstep⟩ := Option.bind_eq_some_iff.mp hbind
    exact stepConn_inv hs hfound hstep
  cases action with
  | connect stack peer =>
      cases h
      exact hs.connect stack peer
  | resolver action =>
      obtain ⟨resolver, hstep, rfl⟩ := Option.map_eq_some_iff.mp h
      exact hs.stepped (Psk.step_stepped hstep)
  | reset c peer => exact hconn c h
  | pskAsked c sent decoy => exact hconn c h
  | resolved c setHsPsk decoy => exact hconn c h
  | resolvePanics c decoy => exact hconn c h
  | finished c => exact hconn c h
  | establish c connId => exact hconn c h
  | handle c now req transport upstream => exact hconn c h
  | close c => exact hconn c h

/-- Whatever handshakes run side by side, fail, are refused or give up the
pending session to another source: each request that goes upstream is for the
identity which the peer of its connection named in its own handshake, under
the token that came with a key this peer holds, both as the source answered
them for that identity. -/
theorem sent_as_authenticated (actions : List Action)
    (hrun : run (step world) init actions = some s) {c : Nat}
    {request : DeviceRequest} (hsent : (c, request) ∈ s.sent) :
    ∃ (conn : Conn) (k : Nat) (named : Option Octets) (call : Psk.Call)
      (own : Option Psk.Lookup) (entry : PskEntry),
      s.conns[c]? = some conn ∧ (k, named) ∈ conn.asked ∧
        conn.identity named = some request.pigeonId ∧
        s.resolver.calls[k]? = some call ∧ call.identity = request.pigeonId ∧
        call.phase = .returned own (some entry) ∧
        Documented world.resolver s.resolver call entry own ∧
        entry.token = request.bearer ∧
        world.knows conn.peer (asBytes entry.psk) = true := by
  have hs : Inv world s :=
    run_invariant (step world) (fun _ _ _ => step_inv) init_inv hrun
  obtain ⟨conn, hconn, -, k, named, call, own, entry, hasked, hnamed, hcall,
    hidentity, hphase, htoken, hknown⟩ := hs.sent c request hsent
  exact ⟨conn, k, named, call, own, entry, hconn, hasked, hnamed, hcall,
    hidentity, hphase, hs.vouched.returned k call own entry hcall hphase,
    htoken, hknown⟩

def deviceKey : Octets :=
  asBytes Psk.credentials.psk

/-- Only peer 1 is the device. -/
def oneDevice : World where
  handler := { udpMaxSzx := 6 }
  resolver := .new Psk.defaultPositiveTtl
  knows peer key := peer == 1 && key == deviceKey
  pskOutLen := 256

def getShadow : Message where
  code := Code.get
  options := ["device", "pigeons", "p", "shadow"].map
    fun segment => (OptionNumber.uriPath, asBytes segment)

/-- A source that only names the device comes first on the pending session,
and fills the cache for it. -/
def afterStranger : List Action :=
  [.connect .mbedtls 0, .pskAsked 0 (some (asBytes "p")) none,
    .resolver (.lookup 0), .resolver (.fetch 0 (.ok (some Psk.credentials))),
    .resolver (.settle 0), .resolved 0 true none, .reset 0 1,
    .pskAsked 0 (some (asBytes "p")) none, .resolver (.lookup 1),
    .resolved 0 true none, .finished 0, .establish 0 7,
    .handle 0 0 getShadow .udp fun _ => .error "down"]

theorem sent_as_authenticated_afterStranger :
    ∃ s request, run (step oneDevice) init afterStranger = some s ∧
      (0, request) ∈ s.sent ∧
      ∃ (conn : Conn) (k : Nat) (named : Option Octets) (call : Psk.Call)
        (own : Option Psk.Lookup) (entry : PskEntry),
        s.conns[0]? = some conn ∧ (k, named) ∈ conn.asked ∧
          conn.identity named = some request.pigeonId ∧
          s.resolver.calls[k]? = some call ∧
          call.identity = request.pigeonId ∧
          call.phase = .returned own (some entry) ∧
          Documented oneDevice.resolver s.resolver call entry own ∧
          entry.token = request.bearer ∧
          oneDevice.knows conn.peer (asBytes entry.psk) = true := by
  have hsome : ((run (step oneDevice) init afterStranger).bind
      fun s => s.sent.head?).isSome = true := by decide +kernel
  obtain ⟨⟨c, request⟩, hhead⟩ := Option.isSome_iff_exists.mp hsome
  obtain ⟨s, hrun, hrequest⟩ := Option.bind_eq_some_iff.mp hhead
  have hfirst : ((run (step oneDevice) init afterStranger).bind
      fun s => s.sent.head?).map Prod.fst = some 0 := by decide +kernel
  rw [hhead] at hfirst
  cases hfirst
  have hsent := List.mem_of_head? hrequest
  exact ⟨s, request, hrun, hsent,
    sent_as_authenticated afterStranger hrun hsent⟩

end Loft.TlsCommon
