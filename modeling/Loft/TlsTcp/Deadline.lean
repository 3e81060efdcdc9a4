import Loft.Data.Watched
import Loft.Time

namespace Loft.TlsTcp

open Loft.Data
open Loft.Data.Transition (run)
open Loft.Data.Watched (Event Move Verdict Transport Loop start total
  begunAfter overran)

/-! How long a TCP connection waits for its peer before it is authenticated.
The socket's timeouts bound silence, and the guard a peer that never falls
silent. -/

def handshakeTick : Nat := secs 1

inductive ErrorKind
  | timedOut
  | wouldBlock
  -- What else a socket can fail with.
  | other
  deriving DecidableEq, Repr

structure IoError where
  kind : ErrorKind
  text : String
  deriving DecidableEq, Repr

abbrev IoResult := Except IoError Nat

/-- A call that the socket could serve after `ready`, with `result`. -/
structure Request where
  writes : Bool
  ready : Nat
  result : IoResult
  deriving DecidableEq, Repr

structure Timeouts where
  read : Option Nat
  write : Option Nat
  deriving DecidableEq, Repr

namespace Timeouts

def handshake : Timeouts where
  read := some handshakeTick
  write := some handshakeTick

/-- The socket itself: how long it blocks, and what it returns. -/
def serve (timeouts : Timeouts) (request : Request) : Nat × IoResult :=
  match if request.writes then timeouts.write else timeouts.read with
  | none => (request.ready, request.result)
  | some timeout =>
      if request.ready ≤ timeout then (request.ready, request.result)
      else (timeout, .error ⟨.wouldBlock, "timeout"⟩)

end Timeouts

structure GuardedTcp where
  deadline : Instant
  armed : Bool
  deriving DecidableEq, Repr

namespace GuardedTcp

def expired (io : GuardedTcp) (now : Instant) : Option IoError :=
  if io.armed ∧ io.deadline ≤ now then
    some ⟨.timedOut, "handshake deadline exceeded"⟩
  else none

/-- `read` and `write` alike. -/
def attempt (timeouts : Timeouts) (io : GuardedTcp) (now : Instant)
    (request : Request) : Nat × IoResult × GuardedTcp :=
  match io.expired now with
  | some e => (0, .error e, io)
  | none =>
      let (waited, result) := timeouts.serve request
      (waited, result, io)

/-- As `connection_thread` hands it to `accept`. -/
def guarding (started handshakeDeadline : Nat) : GuardedTcp where
  deadline := started + handshakeDeadline
  armed := true

def transport (timeouts : Timeouts) :
    Transport GuardedTcp Empty Request IoResult where
  attempt := attempt timeouts
  configure io _ _ := io
  deadline io := if io.armed then some io.deadline else none
  refuses result :=
    ∃ e : IoError, result = .error e ∧ e.kind = .timedOut
  silent result :=
    ∃ e : IoError, result = .error e ∧ e.kind = .wouldBlock

theorem expired_of_armed {io : GuardedTcp} {deadline : Instant} (now : Instant)
    (harmed : (transport .handshake).deadline io = some deadline) :
    io.expired now =
      if deadline ≤ now then
        some ⟨.timedOut, "handshake deadline exceeded"⟩ else none := by
  simp only [transport] at harmed
  split_ifs at harmed with h
  cases harmed
  simp only [expired, h, true_and]

theorem serve_handshake_le (request : Request) :
    (Timeouts.handshake.serve request).1 ≤ handshakeTick := by
  unfold Timeouts.serve
  have htimeout : (if request.writes then Timeouts.handshake.write
      else Timeouts.handshake.read) = some handshakeTick := ite_self _
  rw [htimeout]
  dsimp only
  split_ifs with hready
  · exact hready
  · exact Nat.le_refl _

theorem attempt_handshake_le (io : GuardedTcp) (now : Instant)
    (request : Request) :
    (attempt .handshake io now request).1 ≤ handshakeTick := by
  unfold attempt
  split
  · exact Nat.zero_le _
  · exact serve_handshake_le request

theorem lawful :
    (transport .handshake).Lawful handshakeTick handshakeTick where
  bounded := attempt_handshake_le
  ended {io now deadline} request _ hbefore := by
    have hwait := attempt_handshake_le io now request
    exact Nat.add_le_add (Nat.le_of_lt hbefore) hwait
  refused {io now deadline} request harmed hlate := by
    have hexpired := expired_of_armed now harmed
    rw [if_pos hlate] at hexpired
    simp only [transport, attempt, hexpired, true_and]
    exact ⟨_, rfl, rfl⟩
  deadline_attempt io now request := by
    simp only [transport, attempt]
    split <;> rfl
  deadline_configure io now setting := nomatch setting

end GuardedTcp

/-- What `accept` and `handshake` return. -/
inductive Accepted
  | ok
  | wouldBlock
  | failure
  | setupFailure
  deriving DecidableEq, Repr

def Accepted.verdict : Accepted → Verdict
  | .ok => .progress
  | .wouldBlock => .again
  | .failure | .setupFailure => .failure

abbrev TlsLibrary := List (Event IoResult Accepted) → Move Accepted → Bool

/-- The handshake loop of `connection_thread`. -/
def handshakeLoop (lib : TlsLibrary) (handshakeDeadline : Nat) :
    Loop GuardedTcp Empty Request IoResult Accepted where
  transport := GuardedTcp.transport .handshake
  lib := lib
  judge := Accepted.verdict
  limit := handshakeDeadline
  serves := false

/-- However a peer spaces its bytes, and whatever the library does with them,
the thread waits for them until the deadline and a tick at most, and only once
beyond the deadline. A handshake that does not fail is not cut short. A library
that hands on what stops it touches the socket only once more. -/
theorem handshake_bounded (lib : TlsLibrary) (handshakeDeadline started : Nat)
    (actions : List (Watched.Action Empty Request Accepted))
    {s : Watched.State GuardedTcp IoResult Accepted}
    (hrun : run (handshakeLoop lib handshakeDeadline).step
      (start (.guarding started handshakeDeadline) started started) actions =
        some s) :
    total s.waits ≤ handshakeDeadline + handshakeTick ∧
      s.now ≤ started + handshakeDeadline + handshakeTick + s.spent ∧
      (∀ wait ∈ s.waits, 0 < wait.lasted →
        wait.began < started + handshakeDeadline) ∧
      (overran (started + handshakeDeadline) s.waits).length ≤ 1 ∧
      (handshakeLoop lib handshakeDeadline).Excused s ∧
      ((handshakeLoop lib handshakeDeadline).Surfaces →
        (begunAfter (started + handshakeDeadline) s.waits).length ≤ 1) := by
  have hbooked : (handshakeLoop lib handshakeDeadline).Booked started
      handshakeTick handshakeTick (some (started + handshakeDeadline)) s :=
    Loop.booked_run GuardedTcp.lawful hrun
  have htotal := hbooked.total_le
  have hnow := hbooked.now_le
  refine ⟨by omega, by omega, ?_, hbooked.length_overran_le,
    Loop.excused_run hrun, ?_⟩
  · intro wait hmem hpos
    exact (hbooked.ended _ rfl wait hmem hpos).1
  · intro hlib
    exact (Loop.spared_run GuardedTcp.lawful hlib
      (started + handshakeDeadline) rfl hrun).length_le

/-- A library that can never get enough, and reports what stops it. -/
def insatiable : TlsLibrary := fun t move =>
  match t.getLast? with
  | some .called | some (.got (.ok _)) => move == .ask
  | some (.got (.error e)) =>
      move == .answer (if e.kind = .wouldBlock then .wouldBlock else .failure)
  | _ => false

theorem insatiable_surfaces (handshakeDeadline : Nat) :
    (handshakeLoop insatiable handshakeDeadline).Surfaces where
  refusal {t result move} hrefuses hmove := by
    obtain ⟨e, rfl, hkind⟩ := hrefuses
    refine ⟨.failure, ?_, rfl⟩
    simpa [handshakeLoop, insatiable, hkind] using hmove
  silence {t result} hsilent := by
    obtain ⟨e, rfl, -⟩ := hsilent
    simp [handshakeLoop, insatiable]

/-- One byte after every 0.9 s. -/
def dribble : Watched.Action Empty Request Accepted :=
  .ask { writes := false, ready := 900000000, result := .ok 1 }

theorem handshake_bounded_dribble :
    ∃ s, run (handshakeLoop insatiable (secs 2)).step
        (start (.guarding 0 (secs 2)) 0 0)
        [.call, dribble, dribble, dribble, dribble, .answer .failure] =
          some s ∧
      s.phase = .over ∧ total s.waits ≤ secs 2 + handshakeTick ∧
      (overran (0 + secs 2) s.waits).length ≤ 1 ∧
      (begunAfter (0 + secs 2) s.waits).length ≤ 1 := by
  refine ⟨_, rfl, rfl, ?_⟩
  have hbounded := handshake_bounded insatiable (secs 2) 0
    [.call, dribble, dribble, dribble, dribble, .answer .failure] rfl
  exact ⟨hbounded.1, hbounded.2.2.2.1,
    hbounded.2.2.2.2.2 (insatiable_surfaces (secs 2))⟩

end Loft.TlsTcp
