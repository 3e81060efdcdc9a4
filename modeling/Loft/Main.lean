import Loft.Config
import Loft.Dtls.Backing
import Loft.DtlsMbed.Backing

namespace Loft.Main

open Loft.Data
open Loft.Data.Transition
open Loft.Admission (Holder Books Drawn)

/-! The DTLS side of the process: the listener of the configured stack and, if
there is one, the canary, each with its connection threads, on one admission
table. -/

inductive Listener
  | openssl (s : Dtls.State)
  | mbed (s : DtlsMbed.State)

inductive Action
  | openssl (a : Dtls.Action)
  | mbed (a : DtlsMbed.Action)
  deriving DecidableEq, Repr

structure State where
  quota : ConnQuota
  listeners : List Listener

namespace Listener

def start (quota : ConnQuota) : DtlsStack → Listener
  | .openssl => .openssl (Dtls.init quota)
  | .mbedtls => .mbed (DtlsMbed.init quota)

def step (env : DtlsMbed.Env) (quota : ConnQuota) :
    Listener → Action → Option (ConnQuota × Listener)
  | .openssl s, .openssl a =>
      (Dtls.step { s with quota := quota } a).map fun s' =>
        (s'.quota, .openssl s')
  | .mbed s, .mbed a =>
      (DtlsMbed.step env { s with quota := quota } a).map fun s' =>
        (s'.quota, .mbed s')
  | _, _ => none

def holders : Listener → List Holder
  | .openssl s => Dtls.holders s
  | .mbed s => DtlsMbed.holders s

/-- Sources of the routes by address. -/
def addrRoutes : Listener → List IpAddr
  | .openssl s => Dtls.routes s
  | .mbed s => DtlsMbed.addrRoutes s

/-- Sources of the sessions routed by CID, as they were admitted. -/
def cidRoutes : Listener → List IpAddr
  | .openssl _ => []
  | .mbed s => DtlsMbed.cidRoutes s

/-- Routes that may outlive their permits: of threads that panicked, and of a
session whose thread could not be spawned. -/
def unbacked : Listener → List IpAddr
  | .openssl s => Dtls.stale s
  | .mbed s => DtlsMbed.unspawned s

def despawning : Listener → Bool
  | .openssl _ => false
  | .mbed s =>
      match s.listener with
      | .despawning _ => true
      | _ => false

/-- Waiting for a datagram, with no thread left. -/
def Done : Listener → Prop
  | .openssl s => s.listener = .receiving ∧
      ∀ conn ∈ s.threads, conn.phase = .finished
  | .mbed s => s.listener = .receiving ∧
      ∀ c sess, s.session c = some sess → sess.pc = .finished

end Listener

def start (config : Config) : State :=
  let udpQuota := ConnQuota.new maxConnections maxConnectionsPerIp
  { quota := udpQuota
    listeners := Listener.start udpQuota config.dtlsStack ::
      (config.dtlsMbedCanaryAddr.map fun _ =>
        Listener.start udpQuota .mbedtls).toList }

def step (env : DtlsMbed.Env) (s : State) (action : Nat × Action) :
    Option State :=
  match s.listeners[action.1]? with
  | none => none
  | some listener =>
      (listener.step env s.quota action.2).map fun next =>
        { quota := next.1, listeners := s.listeners.set action.1 next.2 }

namespace State

def holders (s : State) : List Holder :=
  s.listeners.flatMap Listener.holders

def addrRoutes (s : State) : List IpAddr :=
  s.listeners.flatMap Listener.addrRoutes

def cidRoutes (s : State) : List IpAddr :=
  s.listeners.flatMap Listener.cidRoutes

def unbacked (s : State) : List IpAddr :=
  s.listeners.flatMap Listener.unbacked

end State

/-! One listener. -/

def Listener.Sound : Listener → Prop
  | .openssl s => Dtls.Entered s
  | .mbed s => DtlsMbed.Owned s ∧ DtlsMbed.Permitted s

theorem Listener.start_sound (quota : ConnQuota) (stack : DtlsStack) :
    (Listener.start quota stack).Sound ∧
      (Listener.start quota stack).holders = [] := by
  cases stack with
  | openssl =>
      refine ⟨?_, rfl⟩
      intro a c hentry
      cases hentry
  | mbedtls =>
      exact ⟨⟨DtlsMbed.init_owned quota, DtlsMbed.init_permitted quota⟩, rfl⟩

/-- A listener keeps its own house, and a step of it is one step of the
admission at most. -/
theorem Listener.Sound.step {env : DtlsMbed.Env} {quota quota' : ConnQuota}
    {l l' : Listener} {a : Action} (hl : l.Sound)
    (h : l.step env quota a = some (quota', l')) :
    l'.Sound ∧ Drawn quota l.holders quota' l'.holders := by
  cases l with
  | openssl s =>
      cases a with
      | openssl a =>
          obtain ⟨s', hstep, hpair⟩ := Option.map_eq_some_iff.mp h
          cases hpair
          have hentered : Dtls.Entered { s with quota := quota } := hl
          exact ⟨hentered.step (Dtls.step_effect hstep), Dtls.step_drawn hstep⟩
      | mbed a => cases h
  | mbed s =>
      cases a with
      | openssl a => cases h
      | mbed a =>
          obtain ⟨s', hstep, hpair⟩ := Option.map_eq_some_iff.mp h
          cases hpair
          obtain ⟨howned, hpermitted⟩ := hl
          have howned' : DtlsMbed.Owned { s with quota := quota } :=
            ⟨howned.addr, howned.cid, howned.routed, howned.fresh,
              howned.minted, howned.unstarted⟩
          have hpermitted' : DtlsMbed.Permitted { s with quota := quota } :=
            ⟨hpermitted.held, hpermitted.spent⟩
          refine ⟨⟨?_, hpermitted'.step howned' hstep⟩,
            DtlsMbed.step_drawn howned' hstep⟩
          exact howned'.step (DtlsMbed.step_stepped hstep)

theorem Listener.Sound.backed {l : Listener} (hl : l.Sound) :
    l.addrRoutes.Subperm (l.holders.map Holder.source ++ l.unbacked) ∧
      l.cidRoutes.Subperm (l.holders.map Holder.source ++ l.unbacked) := by
  cases l with
  | openssl s => exact ⟨Dtls.Entered.backed hl, List.nil_subperm⟩
  | mbed s => exact ⟨hl.1.addr_backed hl.2, hl.1.cid_backed hl.2⟩

/-- A listener without threads holds nothing. -/
theorem Listener.Sound.done {l : Listener} (hl : l.Sound) (hdone : l.Done) :
    l.holders = [] ∧ l.cidRoutes = [] := by
  cases l with
  | openssl s =>
      obtain ⟨hlistener, hthreads⟩ := hdone
      refine ⟨?_, rfl⟩
      have hnone : s.threads.filterMap Dtls.Conn.holder = [] := by
        apply List.filterMap_eq_nil_iff.mpr
        intro conn hmem
        exact if_pos (hthreads conn hmem)
      rw [holders, Dtls.holders, hlistener, hnone]
      rfl
  | mbed s =>
      obtain ⟨hlistener, hsessions⟩ := hdone
      obtain ⟨howned, hpermitted⟩ := hl
      have hnone : DtlsMbed.held s = [] := by
        apply List.filterMap_eq_nil_iff.mpr
        intro entry hmem
        have hsess := (Table.mem_entries_iff_lookup s.sessions entry).mp hmem
        have hpermit := hpermitted.spent entry.1 entry.2 hsess
          (hsessions entry.1 entry.2 hsess)
        rw [DtlsMbed.Session.holder, hpermit]
        rfl
      have hholders : DtlsMbed.holders s = [] := by
        rw [DtlsMbed.holders, hlistener, hnone]
        rfl
      have hunspawned : DtlsMbed.unspawned s = [] := by
        rw [DtlsMbed.unspawned, hlistener]
        rfl
      have hbacked := howned.cid_backed hpermitted
      rw [hholders, hunspawned] at hbacked
      exact ⟨hholders, List.subperm_nil.mp hbacked⟩

/-! The whole process. -/

structure Inv (s : State) : Prop where
  books : Books maxConnections maxConnectionsPerIp ⟨s.quota, s.holders⟩
  sound : ∀ l ∈ s.listeners, l.Sound

theorem start_inv (config : Config) : Inv (start config) := by
  have hall : ∀ l ∈ (start config).listeners, l.Sound ∧ l.holders = [] := by
    intro l hmem
    rcases List.mem_cons.mp hmem with rfl | hcanary
    · exact Listener.start_sound _ config.dtlsStack
    · obtain ⟨addr, -, rfl⟩ := Option.map_eq_some_iff.mp
        (Option.mem_toList.mp hcanary)
      exact Listener.start_sound _ .mbedtls
  have hnone : (start config).holders = [] :=
    List.flatMap_eq_nil_iff.mpr fun l hmem => (hall l hmem).2
  refine ⟨?_, fun l hmem => (hall l hmem).1⟩
  rw [hnone]
  exact Admission.init_books maxConnections maxConnectionsPerIp

theorem step_eq_some {env : DtlsMbed.Env} {s s' : State} {action : Nat × Action}
    (h : step env s action = some s') :
    ∃ l quota l', s.listeners[action.1]? = some l ∧
      l.step env s.quota action.2 = some (quota, l') ∧
      s' = { quota := quota, listeners := s.listeners.set action.1 l' } := by
  unfold step at h
  cases hl : s.listeners[action.1]? with
  | none => simp [hl] at h
  | some l =>
      rw [hl] at h
      obtain ⟨⟨quota, l'⟩, hstep, rfl⟩ := Option.map_eq_some_iff.mp h
      exact ⟨l, quota, l', rfl, hstep, rfl⟩

theorem Inv.step {env : DtlsMbed.Env} {s s' : State} {action : Nat × Action}
    (hs : Inv s) (h : Main.step env s action = some s') : Inv s' := by
  obtain ⟨l, quota, l', hl, hstep, rfl⟩ := step_eq_some h
  obtain ⟨hsound, hdrawn⟩ :=
    (hs.sound l (List.mem_of_getElem? hl)).step hstep
  constructor
  · have hbefore := (Admission.perm_pick hl).flatMap_right Listener.holders
    have hafter := (Admission.perm_set hl l').flatMap_right Listener.holders
    rw [List.flatMap_cons] at hbefore hafter
    exact ((hs.books.perm hbefore).drawn hdrawn).perm hafter.symm
  · intro other hmem
    rcases List.mem_or_eq_of_mem_set hmem with hold | rfl
    · exact hs.sound other hold
    · exact hsound

/-! Without panics the OpenSSL listener has no stale entries. -/

def Calm (action : Nat × Action) : Prop :=
  ∀ c, action.2 ≠ .openssl (.panics c)

def Listener.Tended : Listener → Prop
  | .openssl s => Dtls.Tended s
  | .mbed _ => True

theorem Listener.Tended.step {env : DtlsMbed.Env} {quota quota' : ConnQuota}
    {l l' : Listener} {a : Action} (hsound : l.Sound) (hl : l.Tended)
    (hcalm : ∀ c, a ≠ .openssl (.panics c))
    (h : l.step env quota a = some (quota', l')) : l'.Tended := by
  cases l with
  | openssl s =>
      cases a with
      | openssl a =>
          obtain ⟨s', hstep, hpair⟩ := Option.map_eq_some_iff.mp h
          cases hpair
          have htended : Dtls.Tended { s with quota := quota } := hl
          exact htended.step hsound
            (fun c hsame => hcalm c (congrArg Action.openssl hsame)) hstep
      | mbed a => cases h
  | mbed s =>
      cases a with
      | openssl a => cases h
      | mbed a =>
          obtain ⟨s', hstep, hpair⟩ := Option.map_eq_some_iff.mp h
          cases hpair
          trivial

theorem Listener.Tended.unbacked {l : Listener} (hl : l.Tended) :
    l.unbacked.length = if l.despawning then 1 else 0 := by
  cases l with
  | openssl s =>
      rw [Listener.unbacked, Dtls.Tended.stale hl]
      rfl
  | mbed s =>
      rw [Listener.unbacked, DtlsMbed.unspawned, List.length_map, despawning]
      cases s.listener <;> rfl

def Tended (s : State) : Prop :=
  Inv s ∧ ∀ l ∈ s.listeners, l.Tended

theorem start_tended (config : Config) : Tended (start config) := by
  have hstart (quota : ConnQuota) (stack : DtlsStack) :
      (Listener.start quota stack).Tended := by
    cases stack with
    | openssl =>
        intro a c hentry
        cases hentry
    | mbedtls => trivial
  refine ⟨start_inv config, ?_⟩
  intro l hmem
  rcases List.mem_cons.mp hmem with rfl | hcanary
  · exact hstart _ _
  · obtain ⟨addr, -, rfl⟩ := Option.map_eq_some_iff.mp
      (Option.mem_toList.mp hcanary)
    exact hstart _ _

theorem Tended.step {env : DtlsMbed.Env} {s s' : State} {action : Nat × Action}
    (hs : Tended s) (hcalm : Calm action)
    (h : Main.step env s action = some s') : Tended s' := by
  refine ⟨hs.1.step h, ?_⟩
  obtain ⟨l, quota, l', hl, hstep, rfl⟩ := step_eq_some h
  have hmem := List.mem_of_getElem? hl
  intro other hother
  rcases List.mem_or_eq_of_mem_set hother with hold | rfl
  · exact hs.2 other hold
  · exact (hs.2 l hmem).step (hs.1.sound l hmem) hcalm hstep

theorem tended_run {env : DtlsMbed.Env} {config : Config}
    {actions : List (Nat × Action)} {s : State}
    (hcalm : ∀ action ∈ actions, Calm action)
    (hrun : run (step env) (start config) actions = some s) : Tended s :=
  run_invariant_of_mem (step env) (fun _ _ _ hs hcalm h => hs.step hcalm h)
    (start_tended config) hcalm hrun

theorem length_unbacked {listeners : List Listener}
    (hall : ∀ l ∈ listeners, l.Tended) :
    (listeners.flatMap Listener.unbacked).length =
      listeners.countP Listener.despawning := by
  induction listeners with
  | nil => rfl
  | cons l listeners ih =>
      rw [List.flatMap_cons, List.length_append, List.countP_cons,
        (hall l List.mem_cons_self).unbacked,
        ih fun other hmem => hall other (List.mem_cons_of_mem l hmem)]
      exact Nat.add_comm _ _

/-- Every route has a permit of its own but for those of panicked threads and of
a session being taken out again, and the last one to go leaves nothing. -/
theorem routes_within_quota (config : Config) (env : DtlsMbed.Env)
    (actions : List (Nat × Action)) (s : State)
    (hrun : run (step env) (start config) actions = some s) :
    s.quota.total = s.holders.length ∧
      (∀ routes, routes = s.addrRoutes ∨ routes = s.cidRoutes →
        routes.length ≤ maxConnections + s.unbacked.length ∧
        ∀ ip, routes.countP (bucket · = bucket ip) ≤
          maxConnectionsPerIp + s.unbacked.countP (bucket · = bucket ip)) ∧
      ((∀ action ∈ actions, Calm action) →
        s.unbacked.length = s.listeners.countP Listener.despawning) ∧
      ((∀ l ∈ s.listeners, l.Done) →
        s.quota.total = 0 ∧ (∀ ip, s.quota.held (bucket ip) = 0) ∧
          s.cidRoutes = [] ∧ s.addrRoutes.length ≤ s.unbacked.length) := by
  have hs : Inv s :=
    run_invariant (step env) (fun _ _ _ hs h => hs.step h) (start_inv config)
      hrun
  have hbacked : ∀ routes, routes = s.addrRoutes ∨ routes = s.cidRoutes →
      routes.Subperm (s.holders.map Holder.source ++ s.unbacked) := by
    intro routes hroutes
    rw [State.holders, List.map_flatMap]
    rcases hroutes with rfl | rfl
    · exact Admission.flatMap_subperm fun l hmem => (hs.sound l hmem).backed.1
    · exact Admission.flatMap_subperm fun l hmem => (hs.sound l hmem).backed.2
  refine ⟨hs.books.total, ?_, ?_, ?_⟩
  · intro routes hroutes
    obtain ⟨hlength, hcount⟩ := hs.books.injected (hbacked routes hroutes)
    exact ⟨hlength, fun ip => hcount (bucket ip)⟩
  · intro hcalm
    exact length_unbacked (tended_run hcalm hrun).2
  · intro hdone
    have hnone : s.holders = [] :=
      List.flatMap_eq_nil_iff.mpr fun l hmem =>
        ((hs.sound l hmem).done (hdone l hmem)).1
    have hroutes := (hbacked s.addrRoutes (.inl rfl)).length_le
    rw [hnone] at hroutes
    refine ⟨?_, ?_, ?_, ?_⟩
    · rw [hs.books.total, hnone]
      rfl
    · intro ip
      rw [hs.books.held, hnone]
      rfl
    · exact List.flatMap_eq_nil_iff.mpr fun l hmem =>
        ((hs.sound l hmem).done (hdone l hmem)).2
    · simpa using hroutes

def withCanary : Config where
  udpListen := "0.0.0.0:5684"
  tcpListen := "0.0.0.0:5684"
  dovecoteUrl := "https://api.pidgeiot.com"
  serviceSecret := "shhh"
  pskCacheTtl := secs 60
  dtlsStack := .openssl
  dtlsMbedCanaryAddr := some "0.0.0.0:5685"
  dtlsCidIdle := defaultCidIdle
  handshakeDeadline := secs 30
  udpMaxBlockSzx := 6

/-- The primary admits one client, and the canary cannot spawn a thread for the
next. -/
def unspawnedCanary : List (Nat × Action) :=
  [(0, .openssl (.recvFrom DtlsMbed.clientA [22])),
    (0, .openssl (.listen .accepted)), (0, .openssl .tryAcquire),
    (0, .openssl (.promote true))] ++
  ((DtlsMbed.admission DtlsMbed.clientB DtlsMbed.cidOne).dropLast ++
    [DtlsMbed.Action.listener (.spawn false)]).map fun a => (1, .mbed a)

theorem routes_within_quota_unspawnedCanary :
    ∃ s, run (step DtlsMbed.directEnv) (start withCanary) unspawnedCanary =
        some s ∧ s.quota.total = s.holders.length ∧
      s.addrRoutes.length ≤ maxConnections + s.unbacked.length ∧
      s.unbacked.length = s.listeners.countP Listener.despawning := by
  have hsome : (run (step DtlsMbed.directEnv) (start withCanary)
      unspawnedCanary).isSome = true := by
    decide +kernel
  have hcalm : ∀ action ∈ unspawnedCanary, Calm action := by
    simp [unspawnedCanary, Calm, DtlsMbed.admission]
  obtain ⟨s, hrun⟩ := Option.isSome_iff_exists.mp hsome
  obtain ⟨htotal, hroutes, hunbacked, -⟩ :=
    routes_within_quota withCanary DtlsMbed.directEnv unspawnedCanary s hrun
  exact ⟨s, hrun, htotal, (hroutes s.addrRoutes (.inl rfl)).1, hunbacked hcalm⟩

example :
    (run (step DtlsMbed.directEnv) (start withCanary) unspawnedCanary).map
      (fun s => (s.addrRoutes.length, s.quota.total, s.unbacked.length)) =
        some (2, 1, 1) := by
  decide +kernel

end Loft.Main
