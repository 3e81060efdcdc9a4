import Mathlib.Data.List.Dedup
import Mathlib.Order.MinMax
import Loft.Psk.Answers

namespace Loft.Psk

open Loft.Data
open Loft.Data.Transition

/-! Two things the cache does not do: an insert does not look at what it
replaces, and nothing is ever taken out. -/

def Entry.fetched : Entry → Instant
  | .known _ fetched => fetched
  | .unknown fetched => fetched

@[simp] theorem Answer.entry_fetched (a : Answer) :
    a.entry.fetched = a.began := by
  unfold Answer.entry
  cases a.found <;> rfl

/-! Overtaken answers. -/

/-- When the call began whose answer is returned. -/
def obtainedAt (s : State) (call : Call) : Option Lookup → Option Instant
  | some (.ok _) => some call.now
  | _ => (s.cache.lookup call.identity).map Entry.fetched

/-- The step neither replaces an answer by an older one nor returns credentials
older than an answer that the identity is unknown. -/
structure NeverUndone (r : PskResolver) (s : State) (action : Action) :
    Prop where
  replaced : ∀ s' identity old new, step r s action = some s' →
    s.cache.lookup identity = some old →
      s'.cache.lookup identity = some new → old.fetched ≤ new.fetched
  resolved : ∀ s' c call own entry began, step r s action = some s' →
    Returns s s' c call own (some entry) →
      obtainedAt s call own = some began →
        ∀ a ∈ s.answers, a.identity = call.identity → a.found = none →
          a.began ≤ began

/-- No answer comes in behind that of a call for the same identity which began
later. -/
def InOrder (s : State) : Action → Prop
  | .settle c => ∀ call found, s.calls[c]? = some call →
      call.phase = .fetched (.ok found) →
        ∀ a ∈ s.answers, a.identity = call.identity → a.began ≤ call.now
  | _ => True

def Latest (answers : List Answer) : Prop :=
  ∀ a ∈ answers, ∀ last, lastAnswer answers a.identity = some last →
    a.began ≤ last.began

theorem Latest.concat {answers : List Answer} (h : Latest answers) {a : Answer}
    (hlatest : ∀ b ∈ answers, b.identity = a.identity → b.began ≤ a.began) :
    Latest (answers ++ [a]) := by
  intro b hmem last hlast
  rw [lastAnswer_concat] at hlast
  split_ifs at hlast with hsame
  · cases hlast
    rcases List.mem_append.mp hmem with hold | hnew
    · exact hlatest b hold hsame.symm
    · rw [List.mem_singleton.mp hnew]
  · rcases List.mem_append.mp hmem with hold | hnew
    · exact h b hold last hlast
    · exact absurd (congrArg Answer.identity (List.mem_singleton.mp hnew).symm)
        hsame

theorem Latest.step {r : PskResolver} {s s' : State} {action : Action}
    (hs : Latest s.answers) (horder : InOrder s action)
    (h : Stepped r s action s') : Latest s'.answers := by
  cases h with
  | @settled c call answer hfound hphase =>
      cases answer with
      | error message => simpa [answerOf] using hs
      | ok found =>
          apply hs.concat
          exact horder call found hfound hphase
  | _ => exact hs

/-- The cached entry is at least as recent as every answer. -/
theorem Logged.latest {s : State} (hs : Logged s) (hlatest : Latest s.answers)
    {a : Answer} (hmem : a ∈ s.answers) :
    ∃ entry, s.cache.lookup a.identity = some entry ∧
      a.began ≤ entry.fetched := by
  obtain ⟨last, hlast⟩ := lastAnswer_isSome hmem
  refine ⟨last.entry, ?_, ?_⟩
  · rw [hs.cache, hlast, Option.map_some]
  · rw [last.entry_fetched]
    exact hlatest a hmem last hlast

theorem neverUndone_of_inOrder {r : PskResolver} {s : State} {action : Action}
    (hs : Logged s) (hlatest : Latest s.answers) (horder : InOrder s action) :
    NeverUndone r s action where
  replaced s' identity old new hstep hold hnew := by
    cases step_stepped hstep with
    | @settled c call answer hfound hphase =>
        cases answer with
        | error message =>
            dsimp only [PskResolver.settle] at hnew
            rw [hold, Option.some.injEq] at hnew
            rw [hnew]
        | ok found =>
            rw [settle_ok] at hnew
            dsimp only at hnew
            by_cases hsame : identity = call.identity
            · subst hsame
              rw [AList.lookup_insert, Option.some.injEq] at hnew
              subst hnew
              obtain ⟨a, hmem, hidentity, rfl⟩ := hs.entry hold
              rw [Answer.entry_fetched, Answer.entry_fetched]
              exact horder call found hfound hphase a hmem hidentity
            · rw [AList.lookup_insert_ne hsame, hold, Option.some.injEq]
                at hnew
              rw [hnew]
    | _ =>
        dsimp only [State.setPhase] at hnew
        rw [hold, Option.some.injEq] at hnew
        rw [hnew]
  resolved s' c call own entry began hstep hreturns hbegan a hmem hsame _ := by
    have hcached : (s.cache.lookup call.identity).map Entry.fetched =
        some began → a.began ≤ began := by
      intro hentry
      obtain ⟨held, hheld, hle⟩ := hs.latest hlatest hmem
      rw [← hsame, hheld, Option.map_some, Option.some.injEq] at hentry
      rwa [← hentry]
    rcases (step_stepped hstep).returns hreturns with
      ⟨rfl, -⟩ | ⟨answer, rfl, rfl, hphase, -⟩
    · exact hcached hbegan
    · cases answer with
      | error message => exact hcached hbegan
      | ok found =>
          rw [obtainedAt, Option.some.injEq] at hbegan
          subst hbegan
          exact horder call found hreturns.1 hphase a hmem hsame

theorem inOrder_of_neverUndone {r : PskResolver} {s : State} {action : Action}
    (hs : Logged s) (hlatest : Latest s.answers)
    (hundone : NeverUndone r s action) : InOrder s action := by
  cases action with
  | settle c =>
      intro call found hcall hphase a hmem hsame
      obtain ⟨old, hold, hle⟩ := hs.latest hlatest hmem
      have hstep : step r s (.settle c) = some {
          s.setPhase c call (.returned (some (.ok found)) found) with
          cache := s.cache.insert call.identity
            (Answer.entry ⟨call.identity, call.now, found⟩)
          answers := s.answers ++ answerOf call (.ok found) } := by
        simp only [step, hcall, stepCall, hphase, settle_ok]
      rw [hsame] at hold
      have hreplaced := hundone.replaced _ call.identity old _ hstep hold
        (AList.lookup_insert s.cache)
      rw [Answer.entry_fetched] at hreplaced
      exact le_trans hle hreplaced
  | _ => trivial

structure Ordered (s : State) : Prop where
  logged : Logged s
  latest : Latest s.answers

theorem Ordered.step {r : PskResolver} {s s' : State} {action : Action}
    (hs : Ordered s) (horder : InOrder s action)
    (h : Psk.step r s action = some s') : Ordered s' where
  logged := hs.logged.step (step_stepped h)
  latest := hs.latest.step horder (step_stepped h)

/-- Answers are never undone exactly as long as they come in in the order in
which their calls began. -/
theorem never_undone_iff (r : PskResolver) (actions : List Action) :
    Along (step r) (NeverUndone r) init actions ↔
      Along (step r) InOrder init actions := by
  have hinit : Ordered init := ⟨init_logged, nofun⟩
  have hinOrder (s : State) (action : Action) (hs : Ordered s) :
      NeverUndone r s action → InOrder s action :=
    inOrder_of_neverUndone hs.logged hs.latest
  constructor
  · apply Along.mono (step r) _ hinOrder hinit
    intro s action s' hs hundone hstep
    exact hs.step (hinOrder s action hs hundone) hstep
  · apply Along.mono (step r) _ _ hinit
    · intro s action s' hs horder hstep
      exact hs.step horder hstep
    · intro s action hs horder
      exact neverUndone_of_inOrder hs.logged hs.latest horder

/-- The first call is still waiting for the source when a second one begins, is
told that the identity is unknown, and returns. -/
def overtaken : List Action :=
  [.enter "p", .lookup 0, .tick 1, .enter "p", .lookup 1,
    .fetch 0 (.ok (some credentials)), .fetch 1 (.ok none), .settle 1]

theorem revoked_credentials_return :
    (∃ s, run (step (.new defaultPositiveTtl)) init
        (overtaken ++ [.settle 0, .enter "p", .lookup 2]) = some s ∧
      s.answers = [⟨"p", 1, none⟩, ⟨"p", 0, some credentials⟩] ∧
      s.cache.lookup "p" = some (.known credentials 0) ∧
      s.calls[2]? = some ⟨"p", 1, .returned none (some credentials)⟩) ∧
    ¬ Along (step (.new defaultPositiveTtl))
      (NeverUndone (.new defaultPositiveTtl)) init
      (overtaken ++ [.settle 0]) := by
  constructor
  · exact ⟨_, rfl, rfl, rfl, rfl⟩
  · intro halong
    obtain ⟨-, hlast⟩ := (along_concat _).mp halong
    have hundone := (hlast _ rfl).replaced _ "p" (.unknown 1)
      (.known credentials 0) rfl rfl rfl
    exact absurd hundone (by decide)

/-! Entries that outlive their use. -/

namespace PskResolver

/-- Some call at `now` could still be answered from the entry. -/
def servable (r : PskResolver) (now : Instant) : Entry → Bool
  | .known _ fetched =>
      decide (now.durationSince fetched < max r.positiveTtl r.staleGrace)
  | .unknown fetched => decide (now.durationSince fetched < r.negativeTtl)

/-- That is what the two lookups serve from. -/
theorem servable_iff (r : PskResolver) (now : Instant) {identity : String}
    {cache : Cache} {entry : Entry}
    (hentry : cache.lookup identity = some entry) :
    r.servable now entry = true ↔
      (r.cached now identity cache).isSome = true ∨
        (r.stale now identity cache).isSome = true := by
  cases entry with
  | known entry fetched =>
      simp only [servable, cached, stale, hentry, decide_eq_true_eq, lt_max_iff]
      split_ifs <;> simp [*]
  | unknown fetched =>
      simp only [servable, cached, stale, hentry, decide_eq_true_eq]
      split_ifs <;> simp [*]

end PskResolver

/-- Every entry could still be served at `now`, and there are no more of them
than identities answered within their window. -/
structure BoundedByTraffic (r : PskResolver) (now : Instant) (s : State) :
    Prop where
  servable : ∀ identity entry, s.cache.lookup identity = some entry →
    r.servable now entry = true
  len_le : s.cache.len ≤
    ((s.answers.filter fun a => r.servable now a.entry).map
      Answer.identity).dedup.length

/-- The bound holds right after every call that has asked the source. -/
def BoundedAfter (r : PskResolver) (s : State) (action : Action) : Prop :=
  ∀ s' c call, step r s action = some s' → action = .settle c →
    s.calls[c]? = some call → BoundedByTraffic r call.now s'

/-- When a call settles, no identity answered so far has gone without an answer
for longer than its window. -/
def KeptUp (r : PskResolver) (s : State) : Action → Prop
  | .settle c => ∀ call answer, s.calls[c]? = some call →
      call.phase = .fetched answer → ∀ identity last,
        lastAnswer (s.answers ++ answerOf call answer) identity = some last →
          r.servable call.now last.entry = true
  | _ => True

theorem Logged.bounded {r : PskResolver} {now : Instant} {s : State}
    (hs : Logged s)
    (hlast : ∀ identity last, lastAnswer s.answers identity = some last →
      r.servable now last.entry = true) : BoundedByTraffic r now s where
  servable identity entry hentry := by
    rw [hs.cache, Option.map_eq_some_iff] at hentry
    obtain ⟨last, hlookup, rfl⟩ := hentry
    exact hlast identity last hlookup
  len_le := by
    have hkeys : s.cache.keys.length = s.cache.len := by
      rw [AList.keys, List.keys, List.length_map, Table.len]
    rw [← hkeys]
    apply List.Subperm.length_le
    apply List.subperm_of_subset s.cache.keys_nodup
    intro identity hmem
    obtain ⟨entry, hentry⟩ := Option.isSome_iff_exists.mp
      (AList.lookup_isSome.mpr (AList.mem_keys.mp hmem))
    rw [hs.cache, Option.map_eq_some_iff] at hentry
    obtain ⟨last, hlookup, -⟩ := hentry
    obtain ⟨hanswer, hidentity⟩ := lastAnswer_mem hlookup
    apply List.mem_dedup.mpr
    apply List.mem_map.mpr
    refine ⟨last, List.mem_filter.mpr ⟨hanswer, ?_⟩, hidentity⟩
    exact hlast identity last hlookup

theorem boundedAfter_iff {r : PskResolver} {s : State} (action : Action)
    (hs : Logged s) : BoundedAfter r s action ↔ KeptUp r s action := by
  constructor
  · intro hbounded
    cases action with
    | settle c =>
        intro call answer hcall hphase identity last hlast
        have hstep : step r s (.settle c) = some {
            s.setPhase c call (.returned (some answer)
              (r.settle call.now call.identity answer s.cache).1) with
            cache := (r.settle call.now call.identity answer s.cache).2
            answers := s.answers ++ answerOf call answer } := by
          simp only [step, hcall, stepCall, hphase]
        have hs' := hs.step (step_stepped hstep)
        apply (hbounded _ c call hstep rfl hcall).servable identity
        rw [hs'.cache, hlast, Option.map_some]
    | _ => trivial
  · intro hkept s' c call hstep hsettle hcall
    subst hsettle
    have hs' := hs.step (step_stepped hstep)
    cases step_stepped hstep with
    | settled hfound hphase =>
        rw [hcall, Option.some.injEq] at hfound
        subst hfound
        exact hs'.bounded (hkept call _ hcall hphase)

/-- After every call that asked the source the cache is bounded by recent
traffic exactly if no identity ever goes unanswered for longer than its
window. -/
theorem bounded_iff_keptUp (r : PskResolver) (actions : List Action) :
    Along (step r) (BoundedAfter r) init actions ↔
      Along (step r) (KeptUp r) init actions := by
  have hkept (Guard : State → Action → Prop) (s : State) (action : Action)
      (s' : State) (hs : Logged s) (_ : Guard s action)
      (hstep : step r s action = some s') : Logged s' :=
    hs.step (step_stepped hstep)
  constructor
  · apply Along.mono (step r) (hkept _) _ init_logged
    intro s action hs hbounded
    exact (boundedAfter_iff action hs).mp hbounded
  · apply Along.mono (step r) (hkept _) _ init_logged
    intro s action hs hkeptUp
    exact (boundedAfter_iff action hs).mpr hkeptUp

/-- An unauthenticated peer tries a made-up identity; long after, a device
connects. -/
def madeUp : List Action :=
  asks 0 "made-up" (.ok none) ++ .settle 0 :: .tick (secs 3600) ::
    asks 1 "p" (.ok (some credentials))

theorem made_up_identity_stays :
    (∃ s, run (step (.new defaultPositiveTtl)) init (madeUp ++ [.settle 1]) =
        some s ∧ s.clock = secs 3600 ∧
      s.cache.lookup "made-up" = some (.unknown 0) ∧
      PskResolver.servable (.new defaultPositiveTtl) s.clock (.unknown 0) =
        false) ∧
    ¬ Along (step (.new defaultPositiveTtl))
      (BoundedAfter (.new defaultPositiveTtl)) init (madeUp ++ [.settle 1]) := by
  constructor
  · exact ⟨_, rfl, rfl, rfl, by decide⟩
  · intro halong
    obtain ⟨-, hlast⟩ := (along_concat _).mp halong
    have hbounded := hlast _ rfl _ 1
      ⟨"p", secs 3600, .fetched (.ok (some credentials))⟩ rfl rfl rfl
    have hservable := hbounded.servable "made-up" (.unknown 0) rfl
    exact absurd hservable (by decide)

end Loft.Psk
