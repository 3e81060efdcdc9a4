import Loft.Data.Table
import Loft.Time

namespace Loft.Psk

open Loft.Data

/-! PSK identity to credentials, through a short positive and negative cache.
Any number of calls are under way at once; the cache is locked for the lookup
and for the insert, and not while the source is asked. -/

structure PskEntry where
  psk : String
  token : String
  deriving DecidableEq, Repr

/-- What a source answers: credentials, no such identity, or a failure that
tells nothing. -/
abbrev Lookup := Except String (Option PskEntry)

inductive Entry
  | known (entry : PskEntry) (fetched : Instant)
  | unknown (fetched : Instant)
  deriving DecidableEq, Repr

abbrev Cache := Table String Entry

structure PskResolver where
  positiveTtl : Nat
  negativeTtl : Nat
  staleGrace : Nat

def defaultPositiveTtl : Nat := secs 60
def defaultNegativeTtl : Nat := secs 10
def defaultStaleGrace : Nat := secs 300

namespace PskResolver

def new (positiveTtl : Nat) : PskResolver where
  positiveTtl := positiveTtl
  negativeTtl := defaultNegativeTtl
  staleGrace := defaultStaleGrace

/-- The lookup `resolve` begins with: what it returns at once, if anything. -/
def cached (r : PskResolver) (now : Instant) (identity : String)
    (cache : Cache) : Option (Option PskEntry) :=
  match cache.lookup identity with
  | some (.known entry fetched) =>
      if now.durationSince fetched < r.positiveTtl then some (some entry)
      else none
  | some (.unknown fetched) =>
      if now.durationSince fetched < r.negativeTtl then some none else none
  | none => none

/-- What is served while the source cannot be reached. -/
def stale (r : PskResolver) (now : Instant) (identity : String)
    (cache : Cache) : Option PskEntry :=
  match cache.lookup identity with
  | some (.known entry fetched) =>
      if now.durationSince fetched < r.staleGrace then some entry else none
  | _ => none

/-- The rest of `resolve`, once the source has answered. -/
def settle (r : PskResolver) (now : Instant) (identity : String)
    (answer : Lookup) (cache : Cache) : Option PskEntry × Cache :=
  match answer with
  | .ok (some entry) =>
      (some entry, cache.insert identity (.known entry now))
  | .ok none => (none, cache.insert identity (.unknown now))
  | .error _ => (r.stale now identity cache, cache)

end PskResolver

/-! The calls under way. -/

inductive Phase
  -- `now` is taken, the cache not looked at yet.
  | entered
  | fetching
  | fetched (answer : Lookup)
  -- With what the source said to this call, if it was asked.
  | returned (own : Option Lookup) (result : Option PskEntry)

namespace Phase

/-- What the source has said to the call. -/
def own : Phase → Option Lookup
  | .entered | .fetching => none
  | .fetched answer => some answer
  | .returned own _ => own

def hasReturned : Phase → Bool
  | .returned _ _ => true
  | _ => false

end Phase

structure Call where
  identity : String
  now : Instant
  phase : Phase

/-- An answer that went into the cache, dated as its call. -/
structure Answer where
  identity : String
  began : Instant
  found : Option PskEntry
  deriving DecidableEq, Repr

/-- `answers` records the inserts in the order in which they were made. -/
structure State where
  clock : Instant
  cache : Cache
  calls : List Call
  answers : List Answer

def init : State where
  clock := 0
  cache := ∅
  calls := []
  answers := []

inductive Action
  | enter (identity : String)
  | lookup (c : Nat)
  | fetch (c : Nat) (answer : Lookup)
  | settle (c : Nat)
  | tick (elapsed : Nat)

def State.setPhase (s : State) (c : Nat) (call : Call) (phase : Phase) :
    State :=
  { s with calls := s.calls.set c { call with phase := phase } }

def answerOf (call : Call) : Lookup → List Answer
  | .ok found => [⟨call.identity, call.now, found⟩]
  | .error _ => []

def stepCall (r : PskResolver) (s : State) (c : Nat) (call : Call) :
    Action → Option State
  | .lookup _ =>
      match call.phase with
      | .entered =>
          match r.cached call.now call.identity s.cache with
          | some result => some (s.setPhase c call (.returned none result))
          | none => some (s.setPhase c call .fetching)
      | _ => none
  | .fetch _ answer =>
      match call.phase with
      | .fetching => some (s.setPhase c call (.fetched answer))
      | _ => none
  | .settle _ =>
      match call.phase with
      | .fetched answer =>
          let (result, cache) :=
            r.settle call.now call.identity answer s.cache
          some { s.setPhase c call (.returned (some answer) result) with
            cache := cache
            answers := s.answers ++ answerOf call answer }
      | _ => none
  | _ => none

def step (r : PskResolver) (s : State) (action : Action) : Option State :=
  match action with
  | .enter identity =>
      some { s with calls := s.calls ++ [⟨identity, s.clock, .entered⟩] }
  | .tick elapsed => some { s with clock := s.clock + elapsed }
  | .lookup c | .fetch c _ | .settle c =>
      match s.calls[c]? with
      | none => none
      | some call => stepCall r s c call action

end Loft.Psk
