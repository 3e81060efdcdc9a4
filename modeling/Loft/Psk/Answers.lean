import Loft.Data.Transition
import Loft.Psk

namespace Loft.Psk

open Loft.Data
open Loft.Data.Transition

/-! The cache is the last answer for each identity; from that, where whatever a
call returns comes from. -/

inductive Stepped (r : PskResolver) (s : State) : Action → State → Prop
  | entered {identity : String} :
      Stepped r s (.enter identity)
        { s with calls := s.calls ++ [⟨identity, s.clock, .entered⟩] }
  | ticked {elapsed : Nat} :
      Stepped r s (.tick elapsed) { s with clock := s.clock + elapsed }
  | hit {c : Nat} {call : Call} {result : Option PskEntry} :
      s.calls[c]? = some call → call.phase = .entered →
      r.cached call.now call.identity s.cache = some result →
      Stepped r s (.lookup c) (s.setPhase c call (.returned none result))
  | missed {c : Nat} {call : Call} :
      s.calls[c]? = some call → call.phase = .entered →
      r.cached call.now call.identity s.cache = none →
      Stepped r s (.lookup c) (s.setPhase c call .fetching)
  | fetched {c : Nat} {call : Call} {answer : Lookup} :
      s.calls[c]? = some call → call.phase = .fetching →
      Stepped r s (.fetch c answer) (s.setPhase c call (.fetched answer))
  | settled {c : Nat} {call : Call} {answer : Lookup} :
      s.calls[c]? = some call → call.phase = .fetched answer →
      Stepped r s (.settle c)
        { s.setPhase c call (.returned (some answer)
            (r.settle call.now call.identity answer s.cache).1) with
          cache := (r.settle call.now call.identity answer s.cache).2
          answers := s.answers ++ answerOf call answer }

private theorem stepCall_of_step {r : PskResolver} {s s' : State} {c : Nat}
    {action : Action}
    (hcall : action = .lookup c ∨ (∃ answer, action = .fetch c answer) ∨
      action = .settle c)
    (h : step r s action = some s') :
    ∃ call, s.calls[c]? = some call ∧
      stepCall r s c call action = some s' := by
  have hbind : step r s action = s.calls[c]?.bind fun call =>
      stepCall r s c call action := by
    obtain hlookup | ⟨answer, hfetch⟩ | hsettle := hcall
    · subst hlookup
      rw [step]
      cases s.calls[c]? <;> rfl
    · subst hfetch
      rw [step]
      cases s.calls[c]? <;> rfl
    · subst hsettle
      rw [step]
      cases s.calls[c]? <;> rfl
  rw [h] at hbind
  exact Option.bind_eq_some_iff.mp hbind.symm

theorem step_stepped {r : PskResolver} {s s' : State} {action : Action}
    (h : step r s action = some s') : Stepped r s action s' := by
  cases action with
  | enter identity =>
      cases h
      exact .entered
  | tick elapsed =>
      cases h
      exact .ticked
  | lookup c =>
      obtain ⟨call, hfound, hstep⟩ := stepCall_of_step (.inl rfl) h
      cases hphase : call.phase with
      | entered =>
          simp only [stepCall, hphase] at hstep
          cases hcached : r.cached call.now call.identity s.cache with
          | none =>
              simp only [hcached, Option.some.injEq] at hstep
              subst hstep
              exact .missed hfound hphase hcached
          | some result =>
              simp only [hcached, Option.some.injEq] at hstep
              subst hstep
              exact .hit hfound hphase hcached
      | _ => simp [stepCall, hphase] at hstep
  | fetch c answer =>
      obtain ⟨call, hfound, hstep⟩ :=
        stepCall_of_step (.inr (.inl ⟨answer, rfl⟩)) h
      cases hphase : call.phase with
      | fetching =>
          simp only [stepCall, hphase, Option.some.injEq] at hstep
          subst hstep
          exact .fetched hfound hphase
      | _ => simp [stepCall, hphase] at hstep
  | settle c =>
      obtain ⟨call, hfound, hstep⟩ := stepCall_of_step (.inr (.inr rfl)) h
      cases hphase : call.phase with
      | fetched answer =>
          simp only [stepCall, hphase, Option.some.injEq] at hstep
          subst hstep
          exact .settled hfound hphase
      | _ => simp [stepCall, hphase] at hstep

/-! What the calls keep: an answer once given stays with its call. -/

/-- `call` keeps its identity, its instant and what the source has told it. -/
structure Call.Grows (call call' : Call) : Prop where
  identity : call'.identity = call.identity
  now : call'.now = call.now
  own : ∀ answer, call.phase.own = some answer → call'.phase.own = some answer

theorem Call.Grows.refl (call : Call) : Call.Grows call call :=
  ⟨rfl, rfl, fun _ h => h⟩

theorem setPhase_grows {s : State} {c : Nat} {call : Call} {phase : Phase}
    (hfound : s.calls[c]? = some call)
    (hown : ∀ answer, call.phase.own = some answer → phase.own = some answer)
    {c' : Nat} {call' : Call} (hcall' : s.calls[c']? = some call') :
    ∃ call'', (s.setPhase c call phase).calls[c']? = some call'' ∧
      Call.Grows call' call'' := by
  obtain ⟨hlt, -⟩ := List.getElem?_eq_some_iff.mp hfound
  by_cases hsame : c' = c
  · subst hsame
    rw [hfound, Option.some.injEq] at hcall'
    subst hcall'
    exact ⟨_, List.getElem?_set_self hlt, rfl, rfl, hown⟩
  · refine ⟨call', ?_, Call.Grows.refl call'⟩
    rw [← hcall']
    exact List.getElem?_set_ne (Ne.symm hsame)

theorem Stepped.grows {r : PskResolver} {s s' : State} {action : Action}
    (h : Stepped r s action s') {c : Nat} {call : Call}
    (hcall : s.calls[c]? = some call) :
    ∃ call', s'.calls[c]? = some call' ∧ Call.Grows call call' := by
  cases h with
  | entered =>
      refine ⟨call, ?_, Call.Grows.refl call⟩
      obtain ⟨hlt, -⟩ := List.getElem?_eq_some_iff.mp hcall
      rw [List.getElem?_append_left hlt]
      exact hcall
  | ticked => exact ⟨call, hcall, Call.Grows.refl call⟩
  | hit hfound hphase =>
      exact setPhase_grows hfound (by simp [hphase, Phase.own]) hcall
  | missed hfound hphase =>
      exact setPhase_grows hfound (by simp [hphase, Phase.own]) hcall
  | fetched hfound hphase =>
      exact setPhase_grows hfound (by simp [hphase, Phase.own]) hcall
  | settled hfound hphase =>
      exact setPhase_grows hfound (by simp [hphase, Phase.own]) hcall

/-! The log of answers. -/

def Answer.entry (a : Answer) : Entry :=
  match a.found with
  | some entry => .known entry a.began
  | none => .unknown a.began

def lastAnswer (answers : List Answer) (identity : String) : Option Answer :=
  (answers.filter fun a => a.identity = identity).getLast?

theorem lastAnswer_concat (answers : List Answer) (a : Answer)
    (identity : String) :
    lastAnswer (answers ++ [a]) identity =
      if a.identity = identity then some a
      else lastAnswer answers identity := by
  unfold lastAnswer
  split_ifs with hsame
  · simp [List.filter_append, hsame]
  · simp [List.filter_append, hsame]

theorem lastAnswer_mem {answers : List Answer} {identity : String} {a : Answer}
    (h : lastAnswer answers identity = some a) :
    a ∈ answers ∧ a.identity = identity := by
  have hmem := List.mem_of_getLast? h
  simpa using hmem

theorem lastAnswer_isSome {answers : List Answer} {a : Answer}
    (hmem : a ∈ answers) : ∃ last, lastAnswer answers a.identity = some last := by
  cases hlast : lastAnswer answers a.identity with
  | some last => exact ⟨last, rfl⟩
  | none =>
      rw [lastAnswer, List.getLast?_eq_none_iff, List.filter_eq_nil_iff]
        at hlast
      exact absurd (decide_eq_true rfl) (hlast a hmem)

theorem settle_ok (r : PskResolver) (now : Instant) (identity : String)
    (found : Option PskEntry) (cache : Cache) :
    r.settle now identity (.ok found) cache =
      (found, cache.insert identity (Answer.entry ⟨identity, now, found⟩)) := by
  cases found <;> rfl

/-- The source gave this answer to one of the calls. -/
def GivenTo (calls : List Call) (a : Answer) : Prop :=
  ∃ (c : Nat) (call : Call), calls[c]? = some call ∧
    call.identity = a.identity ∧ call.now = a.began ∧
    call.phase.own = some (.ok a.found)

structure Logged (s : State) : Prop where
  cache : ∀ identity,
    s.cache.lookup identity =
      (lastAnswer s.answers identity).map Answer.entry
  calls : ∀ a ∈ s.answers, GivenTo s.calls a

theorem init_logged : Logged init where
  cache _ := rfl
  calls := nofun

theorem Logged.step {r : PskResolver} {s s' : State} {action : Action}
    (hs : Logged s) (h : Stepped r s action s') : Logged s' := by
  have hkept : ∀ a ∈ s.answers, GivenTo s'.calls a := by
    intro a hmem
    obtain ⟨c, call, hcall, hidentity, hnow, hown⟩ := hs.calls a hmem
    obtain ⟨call', hcall', hgrows⟩ := h.grows hcall
    exact ⟨c, call', hcall', hgrows.identity.trans hidentity,
      hgrows.now.trans hnow, hgrows.own _ hown⟩
  cases h with
  | @settled c call answer hfound hphase =>
      obtain ⟨hlt, -⟩ := List.getElem?_eq_some_iff.mp hfound
      cases answer with
      | error message =>
          refine ⟨?_, ?_⟩
          · simpa [answerOf, PskResolver.settle] using hs.cache
          · simpa [answerOf] using hkept
      | ok found =>
          refine ⟨?_, ?_⟩
          · intro identity
            rw [settle_ok, answerOf, lastAnswer_concat]
            split_ifs with hsame
            · subst hsame
              rw [AList.lookup_insert, Option.map_some]
            · rw [AList.lookup_insert_ne (Ne.symm hsame)]
              exact hs.cache identity
          · intro a hmem
            rw [answerOf] at hmem
            rcases List.mem_append.mp hmem with hold | hnew
            · exact hkept a hold
            · obtain rfl := List.mem_singleton.mp hnew
              exact ⟨c, _, List.getElem?_set_self hlt, rfl, rfl, rfl⟩
  | _ => exact ⟨hs.cache, hkept⟩

theorem logged_run {r : PskResolver} {actions : List Action} {s : State}
    (hrun : run (step r) init actions = some s) : Logged s :=
  run_invariant (step r) (fun _ _ _ hs h => hs.step (step_stepped h))
    init_logged hrun

/-- A cached entry is an answer to a call for the same identity, dated as that
call. -/
theorem Logged.entry {s : State} (hs : Logged s) {identity : String}
    {entry : Entry} (hentry : s.cache.lookup identity = some entry) :
    ∃ a ∈ s.answers, a.identity = identity ∧ a.entry = entry := by
  rw [hs.cache, Option.map_eq_some_iff] at hentry
  obtain ⟨a, hlast, hsame⟩ := hentry
  obtain ⟨hmem, hidentity⟩ := lastAnswer_mem hlast
  exact ⟨a, hmem, hidentity, hsame⟩

theorem Logged.known {s : State} (hs : Logged s) {identity : String}
    {entry : PskEntry} {fetched : Instant}
    (hentry : s.cache.lookup identity = some (.known entry fetched)) :
    ∃ (c : Nat) (call : Call), s.calls[c]? = some call ∧
      call.identity = identity ∧ call.now = fetched ∧
      call.phase.own = some (.ok (some entry)) := by
  obtain ⟨a, hmem, hidentity, hsame⟩ := hs.entry hentry
  obtain ⟨c, call, hcall, hcallIdentity, hnow, hown⟩ := hs.calls a hmem
  unfold Answer.entry at hsame
  cases hfound : a.found with
  | none => simp [hfound] at hsame
  | some entry' =>
      rw [hfound] at hsame hown
      cases hsame
      exact ⟨c, call, hcall, hcallIdentity.trans hidentity, hnow, hown⟩

/-! What a call returns. -/

/-- The step takes call `c` to its end, with what the source told it. -/
def Returns (s s' : State) (c : Nat) (call : Call) (own : Option Lookup)
    (result : Option PskEntry) : Prop :=
  s.calls[c]? = some call ∧ call.phase.hasReturned = false ∧
    s'.calls[c]? = some { call with phase := .returned own result }

/-- Credentials for an identity were answered by the source for that identity:
to this call, or to one not older than the window that applies. -/
inductive Documented (r : PskResolver) (s : State) (call : Call)
    (entry : PskEntry) : Option Lookup → Prop
  | own : Documented r s call entry (some (.ok (some entry)))
  | fresh {c : Nat} {earlier : Call} :
      s.calls[c]? = some earlier → earlier.identity = call.identity →
      earlier.phase.own = some (.ok (some entry)) →
      call.now.durationSince earlier.now < r.positiveTtl →
      Documented r s call entry none
  | stale {c : Nat} {earlier : Call} {message : String} :
      s.calls[c]? = some earlier → earlier.identity = call.identity →
      earlier.phase.own = some (.ok (some entry)) →
      call.now.durationSince earlier.now < r.staleGrace →
      Documented r s call entry (some (.error message))

/-- Why a call returns nothing. -/
inductive Rejected (r : PskResolver) (s : State) (call : Call) :
    Option Lookup → Prop
  | unknown : Rejected r s call (some (.ok none))
  | failed {message : String} :
      (∀ entry fetched,
        s.cache.lookup call.identity = some (.known entry fetched) →
          r.staleGrace ≤ call.now.durationSince fetched) →
      Rejected r s call (some (.error message))
  | cached {fetched : Instant} :
      s.cache.lookup call.identity = some (.unknown fetched) →
      call.now.durationSince fetched < r.negativeTtl →
      Rejected r s call none

theorem Returns.moved {s s' : State} {c : Nat} {call : Call}
    {own : Option Lookup} {result : Option PskEntry}
    (h : Returns s s' c call own result) : s'.calls[c]? ≠ s.calls[c]? := by
  obtain ⟨hcall, hphase, hcall'⟩ := h
  intro hsame
  rw [hcall', hcall, Option.some.injEq] at hsame
  rw [← hsame] at hphase
  cases hphase

theorem Returns.of_set {s s' : State} {c c' : Nat} {call call' : Call}
    {phase : Phase} {own : Option Lookup} {result : Option PskEntry}
    (h : Returns s s' c call own result) (hfound : s.calls[c']? = some call')
    (hset : s'.calls = s.calls.set c' { call' with phase := phase }) :
    c' = c ∧ call' = call ∧ phase = .returned own result := by
  by_cases hsame : c' = c
  · subst hsame
    obtain ⟨hcall, -, hcall'⟩ := h
    obtain ⟨hlt, -⟩ := List.getElem?_eq_some_iff.mp hfound
    rw [hfound, Option.some.injEq] at hcall
    subst hcall
    rw [hset, List.getElem?_set_self hlt, Option.some.injEq] at hcall'
    exact ⟨rfl, rfl, congrArg Call.phase hcall'⟩
  · refine absurd ?_ h.moved
    rw [hset, List.getElem?_set_ne hsame]

/-- A call returns out of its lookup or once the source has answered it. -/
theorem Stepped.returns {r : PskResolver} {s s' : State} {action : Action}
    (h : Stepped r s action s') {c : Nat} {call : Call} {own : Option Lookup}
    {result : Option PskEntry} (hreturns : Returns s s' c call own result) :
    own = none ∧ r.cached call.now call.identity s.cache = some result ∨
      ∃ answer, own = some answer ∧ action = .settle c ∧
        call.phase = .fetched answer ∧
        (r.settle call.now call.identity answer s.cache).1 = result := by
  cases h with
  | entered =>
      refine absurd ?_ hreturns.moved
      obtain ⟨hlt, -⟩ := List.getElem?_eq_some_iff.mp hreturns.1
      rw [List.getElem?_append_left hlt]
  | ticked => exact absurd rfl hreturns.moved
  | hit hfound _ hcached =>
      obtain ⟨-, rfl, hphase⟩ := hreturns.of_set hfound rfl
      cases hphase
      exact .inl ⟨rfl, hcached⟩
  | missed hfound =>
      obtain ⟨-, -, hphase⟩ := hreturns.of_set hfound rfl
      cases hphase
  | fetched hfound =>
      obtain ⟨-, -, hphase⟩ := hreturns.of_set hfound rfl
      cases hphase
  | settled hfound hfetched =>
      obtain ⟨rfl, rfl, hphase⟩ := hreturns.of_set hfound rfl
      cases hphase
      exact .inr ⟨_, rfl, rfl, hfetched, rfl⟩

theorem cached_eq_some {r : PskResolver} {now : Instant} {identity : String}
    {cache : Cache} {result : Option PskEntry}
    (h : r.cached now identity cache = some result) :
    (∃ entry fetched, result = some entry ∧
      cache.lookup identity = some (.known entry fetched) ∧
      now.durationSince fetched < r.positiveTtl) ∨
    ∃ fetched, result = none ∧
      cache.lookup identity = some (.unknown fetched) ∧
      now.durationSince fetched < r.negativeTtl := by
  unfold PskResolver.cached at h
  cases hentry : cache.lookup identity with
  | none => simp [hentry] at h
  | some entry =>
      rw [hentry] at h
      cases entry with
      | known entry fetched =>
          dsimp only at h
          split_ifs at h with hage
          exact .inl ⟨entry, fetched, (Option.some.inj h).symm, rfl, hage⟩
      | unknown fetched =>
          dsimp only at h
          split_ifs at h with hage
          exact .inr ⟨fetched, (Option.some.inj h).symm, rfl, hage⟩

theorem stale_eq_some {r : PskResolver} {now : Instant} {identity : String}
    {cache : Cache} {entry : PskEntry} :
    r.stale now identity cache = some entry ↔
      ∃ fetched, cache.lookup identity = some (.known entry fetched) ∧
        now.durationSince fetched < r.staleGrace := by
  unfold PskResolver.stale
  cases cache.lookup identity with
  | none => simp
  | some held =>
      cases held with
      | unknown fetched => simp
      | known held fetched =>
          dsimp only
          split_ifs with hage
          · simp [hage]
          · simp [hage]

theorem Logged.documented {r : PskResolver} {s s' : State} {action : Action}
    (hs : Logged s) (h : Stepped r s action s') {c : Nat} {call : Call}
    {own : Option Lookup} {entry : PskEntry}
    (hreturns : Returns s s' c call own (some entry)) :
    Documented r s call entry own := by
  rcases h.returns hreturns with
    ⟨rfl, hcached⟩ | ⟨answer, rfl, -, -, hsettle⟩
  · rcases cached_eq_some hcached with
      ⟨entry', fetched, hresult, hentry, hage⟩ | ⟨fetched, hresult, -⟩
    · cases hresult
      obtain ⟨c', earlier, hearlier, hidentity, rfl, hown⟩ := hs.known hentry
      exact .fresh hearlier hidentity hown hage
    · cases hresult
  · cases answer with
    | ok found =>
        rw [settle_ok] at hsettle
        dsimp only at hsettle
        subst hsettle
        exact .own
    | error message =>
        obtain ⟨fetched, hentry, hage⟩ := stale_eq_some.mp hsettle
        obtain ⟨c', earlier, hearlier, hidentity, rfl, hown⟩ := hs.known hentry
        exact .stale hearlier hidentity hown hage

theorem Stepped.rejected {r : PskResolver} {s s' : State} {action : Action}
    (h : Stepped r s action s') {c : Nat} {call : Call}
    {own : Option Lookup} (hreturns : Returns s s' c call own none) :
    Rejected r s call own := by
  rcases h.returns hreturns with
    ⟨rfl, hcached⟩ | ⟨answer, rfl, -, -, hsettle⟩
  · rcases cached_eq_some hcached with
      ⟨entry, fetched, hresult, -⟩ | ⟨fetched, -, hentry, hage⟩
    · cases hresult
    · exact .cached hentry hage
  · cases answer with
    | ok found =>
        rw [settle_ok] at hsettle
        dsimp only at hsettle
        subst hsettle
        exact .unknown
    | error message =>
        apply Rejected.failed
        intro entry fetched hentry
        apply Nat.le_of_not_lt
        intro hage
        have hserved := stale_eq_some.mpr ⟨fetched, hentry, hage⟩
        rw [PskResolver.settle, hserved] at hsettle
        cases hsettle

/-- In every run, credentials returned for an identity were answered by the
source for that identity, to the call itself or within the window documented
for it; nothing is returned only for the reasons named; and a failed fetch
leaves the cache alone. -/
theorem resolved_documented (r : PskResolver) (actions : List Action)
    (s s' : State) (action : Action)
    (hrun : run (step r) init actions = some s)
    (hstep : step r s action = some s') :
    (∀ c call own entry, Returns s s' c call own (some entry) →
      Documented r s call entry own) ∧
    (∀ c call own, Returns s s' c call own none → Rejected r s call own) ∧
    ∀ c call message, action = .settle c → s.calls[c]? = some call →
      call.phase = .fetched (.error message) → s'.cache = s.cache := by
  have hs := logged_run hrun
  have hstepped := step_stepped hstep
  refine ⟨fun _ _ _ _ hreturns => hs.documented hstepped hreturns,
    fun _ _ _ hreturns => hstepped.rejected hreturns, ?_⟩
  intro c call message hsettle hcall hphase
  subst hsettle
  cases hstepped with
  | settled hfound hfetched =>
      rw [hcall, Option.some.injEq] at hfound
      subst hfound
      rw [hphase, Phase.fetched.injEq] at hfetched
      subst hfetched
      rfl

/-- One whole call, from its entry to what the source answers. -/
def asks (c : Nat) (identity : String) (answer : Lookup) : List Action :=
  [.enter identity, .lookup c, .fetch c answer]

def credentials : PskEntry where
  psk := "0123456789abcdef"
  token := "t"

def sourceLost : List Action :=
  asks 0 "p" (.ok (some credentials)) ++ .settle 0 :: .tick (secs 100) ::
    asks 1 "p" (.error "down")

theorem resolved_documented_sourceLost :
    ∃ s s', run (step (.new defaultPositiveTtl)) init sourceLost = some s ∧
      step (.new defaultPositiveTtl) s (.settle 1) = some s' ∧
      (∀ c call own entry, Returns s s' c call own (some entry) →
        Documented (.new defaultPositiveTtl) s call entry own) ∧
      (∀ c call own, Returns s s' c call own none →
        Rejected (.new defaultPositiveTtl) s call own) ∧
      ∀ c call message, Action.settle 1 = .settle c →
        s.calls[c]? = some call → call.phase = .fetched (.error message) →
          s'.cache = s.cache := by
  have hsome : ((run (step (.new defaultPositiveTtl)) init sourceLost).bind
      fun s => step (.new defaultPositiveTtl) s (.settle 1)).isSome = true := by
    decide
  obtain ⟨s', hboth⟩ := Option.isSome_iff_exists.mp hsome
  obtain ⟨s, hrun, hstep⟩ := Option.bind_eq_some_iff.mp hboth
  exact ⟨s, s', hrun, hstep, resolved_documented (.new defaultPositiveTtl)
    sourceLost s s' (.settle 1) hrun hstep⟩

end Loft.Psk
