import Loft.Psk.Source
import Loft.Psk.Vouched

namespace Loft.Psk

open Loft.Data
open Loft.Data.Transition

/-! A time in which the source tells nothing about anybody. The cache stays as
it was, and lets in whom it would have let in at first. -/

variable {intoJson : Octets → Except String CoapPskLookup}

inductive Unavailable (intoJson : Octets → Except String CoapPskLookup) :
    CallResult → Prop
  | status {code : UInt16} :
      code ≠ 404 → code ≠ 400 → Unavailable intoJson (.status code)
  | transport {error : String} : Unavailable intoJson (.transport error)
  | unreadable {body : Octets} {error : String} :
      intoJson body = .error error → Unavailable intoJson (.ok body)

theorem lookupOf_error_iff (result : CallResult) :
    (∃ message, lookupOf intoJson result = .error message) ↔
      Unavailable intoJson result := by
  constructor
  · intro hfailed
    obtain ⟨message, hmessage⟩ := hfailed
    cases result with
    | ok body =>
        rw [lookupOf] at hmessage
        cases hread : intoJson body with
        | error error => exact .unreadable hread
        | ok lookup =>
            rw [hread] at hmessage
            cases hmessage
    | status code =>
        rw [lookupOf] at hmessage
        split_ifs at hmessage with hunknown
        obtain ⟨hne, hne'⟩ := not_or.mp hunknown
        exact .status hne hne'
    | transport error => exact .transport
  · intro hunavailable
    cases hunavailable with
    | status hne hne' =>
        rw [lookupOf, if_neg (not_or.mpr ⟨hne, hne'⟩)]
        exact ⟨_, rfl⟩
    | transport => exact ⟨_, rfl⟩
    | unreadable hread =>
        rw [lookupOf, hread]
        exact ⟨_, rfl⟩

/-- Whoever asks the source in this step is told nothing. -/
def Lost (intoJson : Octets → Except String CoapPskLookup) : Action → Prop
  | .fetch _ answer =>
      ∃ result, Unavailable intoJson result ∧ answer = lookupOf intoJson result
  | _ => True

/-- No answer is on its way into the cache. -/
def Quiet (s : State) : Prop :=
  ∀ (c : Nat) (call : Call) (found : Option PskEntry),
    s.calls[c]? = some call → call.phase ≠ .fetched (.ok found)

namespace PskResolver

/-- Whom the cache lets in by itself. -/
def admitted (r : PskResolver) (now : Instant) (identity : String)
    (cache : Cache) : Option PskEntry :=
  match cache.lookup identity with
  | some (.known entry fetched) =>
      if now.durationSince fetched < max r.positiveTtl r.staleGrace then
        some entry
      else none
  | _ => none

variable {r : PskResolver} {now : Instant} {identity : String} {cache : Cache}

theorem admitted_of_cached {result : Option PskEntry}
    (hcached : r.cached now identity cache = some result) :
    result = r.admitted now identity cache := by
  rcases cached_eq_some hcached with
    ⟨entry, fetched, rfl, hentry, hage⟩ | ⟨fetched, rfl, hentry, hage⟩
  · have hwithin : now.durationSince fetched <
        max r.positiveTtl r.staleGrace := by omega
    rw [admitted, hentry]
    exact (if_pos hwithin).symm
  · rw [admitted, hentry]

theorem admitted_of_stale (hmissed : r.cached now identity cache = none) :
    r.stale now identity cache = r.admitted now identity cache := by
  rw [stale, admitted]
  rw [cached] at hmissed
  cases hentry : cache.lookup identity with
  | none => rfl
  | some entry =>
      cases entry with
      | unknown fetched => rfl
      | known entry fetched =>
          rw [hentry] at hmissed
          dsimp only at hmissed ⊢
          split_ifs at hmissed with hfresh
          have hsame : now.durationSince fetched < r.staleGrace ↔
              now.durationSince fetched < max r.positiveTtl r.staleGrace := by
            omega
          simp only [hsame]

theorem admitted_eq_some {entry : PskEntry} :
    r.admitted now identity cache = some entry ↔
      ∃ fetched, cache.lookup identity = some (.known entry fetched) ∧
        now.durationSince fetched < max r.positiveTtl r.staleGrace := by
  unfold admitted
  cases cache.lookup identity with
  | none => simp
  | some held =>
      cases held with
      | unknown fetched => simp
      | known held fetched =>
          dsimp only
          split_ifs with hage
          · constructor
            · intro hsame
              cases hsame
              exact ⟨fetched, rfl, hage⟩
            · intro hheld
              obtain ⟨_, hentry, -⟩ := hheld
              cases hentry
              rfl
          · constructor
            · intro hnone
              cases hnone
            · intro hheld
              obtain ⟨_, hentry, hwithin⟩ := hheld
              cases hentry
              exact absurd hwithin hage

end PskResolver

theorem Logged.known_iff {s : State} (hs : Logged s) {identity : String}
    {entry : PskEntry} {fetched : Instant} :
    s.cache.lookup identity = some (.known entry fetched) ↔
      lastAnswer s.answers identity =
        some ⟨identity, fetched, some entry⟩ := by
  rw [hs.cache]
  constructor
  · intro hentry
    obtain ⟨a, hlast, hsame⟩ := Option.map_eq_some_iff.mp hentry
    obtain ⟨-, hidentity⟩ := lastAnswer_mem hlast
    obtain ⟨_, began, found⟩ := a
    cases found with
    | none => cases hsame
    | some entry' =>
        cases hsame
        rw [hlast, ← hidentity]
  · intro hlast
    rw [hlast]
    rfl

/-- How far a call that entered meanwhile can have come. -/
def Meanwhile (r : PskResolver) (cache : Cache) (call : Call) : Prop :=
  match call.phase with
  | .entered => True
  | .fetching | .fetched _ => r.cached call.now call.identity cache = none
  | .returned _ result => result = r.admitted call.now call.identity cache

structure Withheld (r : PskResolver) (start s : State) : Prop where
  cache : s.cache = start.cache
  answers : s.answers = start.answers
  quiet : Quiet s
  grown : start.calls.length ≤ s.calls.length
  calls : ∀ c call, start.calls.length ≤ c → s.calls[c]? = some call →
    Meanwhile r start.cache call

variable {r : PskResolver} {start s s' : State} {action : Action}

theorem Withheld.setPhase (hs : Withheld r start s) {c : Nat} {call : Call}
    {phase : Phase} (hquiet : ∀ found, phase ≠ .fetched (.ok found))
    (hcall : start.calls.length ≤ c →
      Meanwhile r start.cache { call with phase := phase }) :
    Withheld r start (s.setPhase c call phase) where
  cache := hs.cache
  answers := hs.answers
  quiet c' call' found hcall' := by
    rcases setPhase_getElem? hcall' with ⟨-, rfl⟩ | hold
    · exact hquiet found
    · exact hs.quiet c' call' found hold
  grown := by
    rw [State.setPhase, List.length_set]
    exact hs.grown
  calls c' call' hlater hcall' := by
    rcases setPhase_getElem? hcall' with ⟨rfl, rfl⟩ | hold
    · exact hcall hlater
    · exact hs.calls c' call' hlater hold

theorem Withheld.enter (hs : Withheld r start s) (identity : String) :
    Withheld r start
      { s with calls := s.calls ++ [⟨identity, s.clock, .entered⟩] } := by
  have hnew : ∀ (c : Nat) (call : Call),
      (s.calls ++ [⟨identity, s.clock, .entered⟩])[c]? = some call →
      s.calls[c]? = some call ∨ call.phase = .entered := by
    intro c call hcall
    rcases Nat.lt_or_ge c s.calls.length with hlt | hge
    · rw [List.getElem?_append_left hlt] at hcall
      exact .inl hcall
    · rw [List.getElem?_append_right hge] at hcall
      obtain ⟨_, hsame⟩ := List.getElem?_eq_some_iff.mp hcall
      rw [List.getElem_singleton] at hsame
      exact .inr (by rw [← hsame])
  refine ⟨hs.cache, hs.answers, ?_, ?_, ?_⟩
  · intro c call found hcall
    rcases hnew c call hcall with hold | hentered
    · exact hs.quiet c call found hold
    · rw [hentered]
      nofun
  · rw [List.length_append]
    exact Nat.le_add_right_of_le hs.grown
  · intro c call hlater hcall
    rcases hnew c call hcall with hold | hentered
    · exact hs.calls c call hlater hold
    · rw [Meanwhile, hentered]
      trivial

theorem Withheld.step (hs : Withheld r start s) (hlost : Lost intoJson action)
    (h : Stepped r s action s') : Withheld r start s' := by
  cases h with
  | entered => exact hs.enter _
  | ticked => exact ⟨hs.cache, hs.answers, hs.quiet, hs.grown, hs.calls⟩
  | hit hfound hphase hcached =>
      apply hs.setPhase (by simp)
      intro _
      rw [hs.cache] at hcached
      exact PskResolver.admitted_of_cached hcached
  | missed hfound hphase hcached =>
      apply hs.setPhase (by simp)
      intro _
      rw [hs.cache] at hcached
      exact hcached
  | @fetched c call answer hfound hphase =>
      obtain ⟨result, hunavailable, rfl⟩ := hlost
      obtain ⟨message, hmessage⟩ := (lookupOf_error_iff result).mpr hunavailable
      apply hs.setPhase
      · intro found hfetched
        rw [hmessage] at hfetched
        cases hfetched
      · intro hlater
        have hmissed := hs.calls c call hlater hfound
        rw [Meanwhile, hphase] at hmissed
        exact hmissed
  | @settled c call answer hfound hphase =>
      cases answer with
      | ok found => exact absurd hphase (hs.quiet c call found hfound)
      | error message =>
          rw [answerOf, List.append_nil]
          refine hs.setPhase (by simp) ?_
          intro hlater
          have hmissed := hs.calls c call hlater hfound
          rw [Meanwhile, hphase] at hmissed
          rw [PskResolver.settle, hs.cache]
          exact PskResolver.admitted_of_stale hmissed

/-- While the source tells nothing, the cache is neither renewed nor spoiled,
and a call that begins then is answered with credentials exactly if they were
the last answer about its identity and that is not too long ago. -/
theorem served_through_outage {before during : List Action}
    (hbefore : run (step r) init before = some s) (hquiet : Quiet s)
    (hlost : ∀ action ∈ during, Lost intoJson action)
    (hrun : run (step r) s during = some s') :
    s'.cache = s.cache ∧ s'.answers = s.answers ∧
      ∀ (c : Nat) (call : Call) own result, s.calls.length ≤ c →
        s'.calls[c]? = some call → call.phase = .returned own result →
        ∀ entry, result = some entry ↔ ∃ began,
          lastAnswer s.answers call.identity =
              some ⟨call.identity, began, some entry⟩ ∧
            call.now.durationSince began < max r.positiveTtl r.staleGrace := by
  have hs := logged_run hbefore
  have hwithheld : Withheld r s s' := by
    refine run_invariant_of_mem (step r) ?_ ?_ hlost hrun
    · intro s action s' hs hlost h
      exact hs.step hlost (step_stepped h)
    · refine ⟨rfl, rfl, hquiet, Nat.le_refl _, ?_⟩
      intro c call hlater hcall
      obtain ⟨hlt, -⟩ := List.getElem?_eq_some_iff.mp hcall
      omega
  refine ⟨hwithheld.cache, hwithheld.answers, ?_⟩
  intro c call own result hlater hcall hphase entry
  have hresult := hwithheld.calls c call hlater hcall
  rw [Meanwhile, hphase] at hresult
  dsimp only at hresult
  rw [hresult, PskResolver.admitted_eq_some]
  simp only [hs.known_iff]

def notJson (_ : Octets) : Except String CoapPskLookup :=
  .error "expected value at line 1 column 1"

def beforeOutage : List Action :=
  asks 0 "p" (.ok (some credentials)) ++ [.settle 0, .tick (secs 100)]

/-- One device that was let in before, another, and the first once more when
it is too late. -/
def outage : List Action :=
  asks 1 "p" (lookupOf notJson (.status 503)) ++ .settle 1 ::
    asks 2 "q" (lookupOf notJson (.transport "timed out")) ++ .settle 2 ::
      .tick (secs 300) :: asks 3 "p" (lookupOf notJson (.ok [])) ++ [.settle 3]

theorem outage_lost : ∀ action ∈ outage, Lost notJson action := by
  simp only [outage, asks, List.cons_append, List.nil_append,
    List.forall_mem_cons]
  exact ⟨trivial, trivial, ⟨_, .status (by decide) (by decide), rfl⟩, trivial,
    trivial, trivial, ⟨_, .transport, rfl⟩, trivial,
    trivial, trivial, trivial, ⟨_, .unreadable rfl, rfl⟩, trivial, nofun⟩

def resultOf (call : Call) : Option PskEntry :=
  match call.phase with
  | .returned _ result => result
  | _ => none

theorem served_through_outage_threeCalls :
    ∃ s s', run (step (.new defaultPositiveTtl)) init beforeOutage = some s ∧
      run (step (.new defaultPositiveTtl)) s outage = some s' ∧
      (s'.cache = s.cache ∧ s'.answers = s.answers ∧
        ∀ (c : Nat) (call : Call) own result, s.calls.length ≤ c →
          s'.calls[c]? = some call → call.phase = .returned own result →
          ∀ entry, result = some entry ↔ ∃ began,
            lastAnswer s.answers call.identity =
                some ⟨call.identity, began, some entry⟩ ∧
              call.now.durationSince began < max (secs 60) (secs 300)) ∧
      s'.calls.map resultOf =
        [some credentials, some credentials, none, none] := by
  have hmapped : ((run (step (.new defaultPositiveTtl)) init beforeOutage).bind
      fun s => (run (step (.new defaultPositiveTtl)) s outage).map fun s' =>
        (s.calls.all fun call => call.phase.hasReturned,
          s'.calls.map resultOf)) =
      some (true, [some credentials, some credentials, none, none]) := by
    decide +kernel
  obtain ⟨s, hbefore, hmapped⟩ := Option.bind_eq_some_iff.mp hmapped
  obtain ⟨s', hduring, hboth⟩ := Option.map_eq_some_iff.mp hmapped
  obtain ⟨hreturned, hresults⟩ := Prod.mk.inj hboth
  have hquiet : Quiet s := by
    intro c call found hcall hfetched
    have hdone := List.all_eq_true.mp hreturned call
      (List.mem_of_getElem? hcall)
    rw [hfetched] at hdone
    cases hdone
  exact ⟨s, s', hbefore, hduring,
    served_through_outage hbefore hquiet outage_lost hduring, hresults⟩

end Loft.Psk
