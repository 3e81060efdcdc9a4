import Loft.Data.Watched
import Loft.Dtls.DgramIo

namespace Loft.Dtls

open Loft.Data
open Loft.Data.Transition (run Along)
open Loft.Data.Watched (Event Move Verdict Transport Loop start total
  begunAfter overran)

/-! How long a connection thread of the OpenSSL listener waits for its peer:
under the handshake deadline, and in silence once it serves. -/

def readTick : Nat := secs 1
def idleDeadline : Nat := secs 300

namespace DgramIo

structure Ask where
  cap : Nat
  meanwhile : Inbox.Meanwhile Octets
  deriving DecidableEq, Repr

/-- `read` on the clock: it parks where the deadline lets it and nothing is
queued. -/
def attempt (tick : Nat) (io : DgramIo) (now : Instant) (ask : Ask) :
    Nat × (ReadResult × Option Octets) × DgramIo :=
  let (waited, senders, queue) :=
    if (io.deadline.any fun deadline => decide (deadline ≤ now)) ∨
        io.rx ≠ [] then (0, true, io.rx)
    else ask.meanwhile.recvTimeout tick
  let (result, delivered, io) :=
    { io with rx := queue }.read now senders ask.cap
  (waited, (result, delivered), io)

def timedTransport (tick : Nat) :
    Transport DgramIo Octets Ask (ReadResult × Option Octets) where
  attempt := attempt tick
  configure io _ dgram := { io with rx := io.rx ++ [dgram] }
  deadline := DgramIo.deadline
  refuses result := ∃ e : IoError, result.1 = .error e ∧ e.kind = .timedOut
  silent result := ∃ e : IoError, result.1 = .error e ∧ e.kind = .wouldBlock

theorem read_deadline (io : DgramIo) (now : Instant) (senders : Bool)
    (cap : Nat) : (io.read now senders cap).2.2.deadline = io.deadline := by
  unfold read
  split
  · rfl
  · split
    · split <;> rfl
    · split <;> rfl

theorem attempt_le (tick : Nat) (io : DgramIo) (now : Instant) (ask : Ask) :
    (attempt tick io now ask).1 ≤ tick := by
  unfold attempt
  split_ifs
  · exact Nat.zero_le _
  · exact ask.meanwhile.recvTimeout_le tick

theorem lawful_timed (tick : Nat) :
    (timedTransport tick).Lawful tick tick where
  bounded := attempt_le tick
  ended {io now deadline} ask _ hbefore :=
    Nat.add_le_add (Nat.le_of_lt hbefore) (attempt_le tick io now ask)
  refused {io now deadline} ask harmed hlate := by
    have hany : (io.deadline.any fun deadline =>
        decide (deadline ≤ now)) = true := by
      rw [show io.deadline = some deadline from harmed]
      exact decide_eq_true hlate
    simp only [timedTransport, attempt, if_pos (Or.inl hany), read,
      if_pos hany, true_and]
    exact ⟨_, rfl, rfl⟩
  deadline_attempt io now ask := read_deadline ..
  deadline_configure io now dgram := rfl

end DgramIo

/-! The two loops of a connection thread. -/

/-- The error codes that `ssl.rs` tells apart. -/
inductive ErrorCode
  | wantRead
  | wantWrite
  | zeroReturn
  | other
  deriving DecidableEq, Repr

/-- The `match` of `complete_handshake` on what `accept` returns. -/
def acceptVerdict : Except ErrorCode Unit → Verdict
  | .ok () => .progress
  | .error .wantRead | .error .wantWrite => .again
  | .error _ => .failure

/-- What `ssl_read` returns, and whether the reply to it could be written. -/
structure Served where
  read : Except ErrorCode Nat
  written : Bool
  deriving DecidableEq, Repr

/-- The `match` of `serve_datagrams`; only a quiet tick looks at the clock. -/
def Served.verdict (served : Served) : Verdict :=
  match served.read with
  | .ok 0 => .failure
  | .ok (_ + 1) => if served.written then .progress else .failure
  | .error .wantRead => .again
  | .error _ => .failure

abbrev SslLibrary (Return : Type) : Type :=
  List (Event (ReadResult × Option Octets) Return) → Move Return → Bool

def completeHandshake (lib : SslLibrary (Except ErrorCode Unit))
    (deadline : Nat) : Loop DgramIo Octets DgramIo.Ask
      (ReadResult × Option Octets) (Except ErrorCode Unit) where
  transport := DgramIo.timedTransport readTick
  lib := lib
  judge := acceptVerdict
  limit := deadline
  serves := false

def serveDatagrams (lib : SslLibrary Served) : Loop DgramIo Octets
      DgramIo.Ask (ReadResult × Option Octets) Served where
  transport := DgramIo.timedTransport readTick
  lib := lib
  judge := Served.verdict
  limit := idleDeadline
  serves := true

/-- As `connection_thread` arms it at `begun`, the first thing it does. -/
def armed (rx : List Octets) (begun handshakeDeadline : Nat) : DgramIo where
  rx := rx
  deadline := some (begun + handshakeDeadline)

/-- A connection thread is done with its peer in time. Until the session is
established it waits to the deadline and a tick at most, and only once beyond
the deadline, whatever comes and whatever the library does with it. Later the
library has to hand on that nothing came: then a peer that falls silent is
given up once it has been silent for the idle time, and in any case not
before. -/
theorem waits_bounded (accepting : SslLibrary (Except ErrorCode Unit))
    (serving : SslLibrary Served) {handshakeDeadline begun started : Nat}
    {rx : List Octets} (hstarted : begun ≤ started) :
    (∀ actions s,
      run (completeHandshake accepting handshakeDeadline).step
          (start (armed rx begun handshakeDeadline) started started) actions =
            some s →
        total s.waits ≤ handshakeDeadline + readTick ∧
          (overran (begun + handshakeDeadline) s.waits).length ≤ 1 ∧
          (completeHandshake accepting handshakeDeadline).Excused s ∧
          ((completeHandshake accepting handshakeDeadline).Surfaces →
            (begunAfter (begun + handshakeDeadline) s.waits).length ≤ 1)) ∧
      ∀ io now front s actions s',
        run (serveDatagrams serving).step (start io now now) front = some s →
        run (serveDatagrams serving).step s actions = some s' →
        (serveDatagrams serving).Excused s' ∧
          ((serveDatagrams serving).Surfaces →
            Along (serveDatagrams serving).step (serveDatagrams serving).Quiet
              s actions →
            s'.phase.running → s'.now ≤
              max s.now (s.mark + idleDeadline) + readTick +
                (s'.spent - s.spent)) := by
  constructor
  · intro actions s hrun
    have hbooked : (completeHandshake accepting handshakeDeadline).Booked
        started readTick readTick (some (begun + handshakeDeadline)) s :=
      Loop.booked_run (DgramIo.lawful_timed readTick) hrun
    have htotal := hbooked.total_le
    refine ⟨by omega, hbooked.length_overran_le, Loop.excused_run hrun, ?_⟩
    intro haccepting
    exact (Loop.spared_run (DgramIo.lawful_timed readTick) haccepting
      (begun + handshakeDeadline) rfl hrun).length_le
  · intro io now front s actions s' hfront hrun
    refine ⟨Loop.excused_run ((Transition.run_append_eq_some _).mpr
      ⟨s, hfront, hrun⟩), ?_⟩
    intro hserving hquiet
    exact Loop.now_le_of_quiet (DgramIo.lawful_timed readTick) hserving hquiet
      hrun

/-- A library that takes every datagram for another fragment, and hands on
what stops it. -/
def fragmented {Return : Type} [DecidableEq Return] (again failed : Return) :
    SslLibrary Return := fun t move =>
  match t.getLast? with
  | some .called | some (.got (.ok _, _)) => move == .ask
  | some (.got (.error e, _)) =>
      move == .answer (if e.kind = .wouldBlock then again else failed)
  | _ => false

def fragmentedAccept : SslLibrary (Except ErrorCode Unit) :=
  fragmented (.error .wantRead) (.error .other)

def fragmentedRead : SslLibrary Served :=
  fragmented ⟨.error .wantRead, true⟩ ⟨.error .other, true⟩

theorem fragmentedAccept_surfaces (deadline : Nat) :
    (completeHandshake fragmentedAccept deadline).Surfaces where
  refusal {t result move} hrefuses hmove := by
    obtain ⟨read, delivered⟩ := result
    obtain ⟨e, rfl, hkind⟩ := hrefuses
    refine ⟨.error .other, ?_, rfl⟩
    simpa [completeHandshake, fragmentedAccept, fragmented, hkind] using hmove
  silence {t result} hsilent := by
    obtain ⟨read, delivered⟩ := result
    obtain ⟨e, rfl, -⟩ := hsilent
    simp [completeHandshake, fragmentedAccept, fragmented]

theorem fragmentedRead_surfaces :
    (serveDatagrams fragmentedRead).Surfaces where
  refusal {t result move} hrefuses hmove := by
    obtain ⟨read, delivered⟩ := result
    obtain ⟨e, rfl, hkind⟩ := hrefuses
    refine ⟨⟨.error .other, true⟩, ?_, rfl⟩
    simpa [serveDatagrams, fragmentedRead, fragmented, hkind] using hmove
  silence {t result} hsilent := by
    obtain ⟨read, delivered⟩ := result
    obtain ⟨e, rfl, -⟩ := hsilent
    simp [serveDatagrams, fragmentedRead, fragmented]

def quietTick : DgramIo.Ask where
  cap := 65535
  meanwhile := .silence

def inSilence : List (Watched.Action Octets DgramIo.Ask Served) :=
  [.elapse (secs 300), .call, .ask quietTick]

theorem inSilence_quiet :
    Along (serveDatagrams fragmentedRead).step
      (serveDatagrams fragmentedRead).Quiet
      (start { rx := [], deadline := none } 0 0) inSilence := by
  refine ⟨trivial, ?_⟩
  rintro _ ⟨⟩
  refine ⟨trivial, ?_⟩
  rintro _ ⟨⟩
  exact ⟨⟨_, rfl, rfl⟩, fun _ _ => trivial⟩

/-- A peer that sends a fragment every 0.9 s, and one that sends nothing. -/
theorem waits_bounded_fragmented :
    (∃ s, run (completeHandshake fragmentedAccept (secs 2)).step
        (start (armed [[22]] 0 (secs 2)) 5 5)
        [.call, .ask quietTick, .ask ⟨65535, .arrives 900000000 [22]⟩,
          .ask ⟨65535, .arrives 900000000 [22]⟩,
          .ask ⟨65535, .arrives 900000000 [22]⟩, .ask quietTick,
          .answer (.error .other)] = some s ∧
      s.phase = .over ∧ total s.waits ≤ secs 2 + readTick ∧
      (begunAfter (0 + secs 2) s.waits).length ≤ 1) ∧
    (∃ s, run (serveDatagrams fragmentedRead).step
        (start { rx := [], deadline := none } 0 0) inSilence = some s ∧
      s.now ≤ max 0 (0 + idleDeadline) + readTick + (s.spent - 0)) ∧
    ∃ s, run (serveDatagrams fragmentedRead).step
        (start { rx := [], deadline := none } 0 0)
        (inSilence ++ [.answer ⟨.error .wantRead, true⟩]) = some s ∧
      s.phase = .over ∧ (serveDatagrams fragmentedRead).Excused s := by
  have hbounded := fun rx => @waits_bounded fragmentedAccept fragmentedRead
    (secs 2) 0 5 rx (Nat.zero_le 5)
  refine ⟨⟨_, rfl, rfl, ?_⟩, ⟨_, rfl, ?_⟩, ⟨_, rfl, rfl, ?_⟩⟩
  · have hhandshake := (hbounded [[22]]).1 [.call, .ask quietTick,
      .ask ⟨65535, .arrives 900000000 [22]⟩,
      .ask ⟨65535, .arrives 900000000 [22]⟩,
      .ask ⟨65535, .arrives 900000000 [22]⟩, .ask quietTick,
      .answer (.error .other)] _ rfl
    exact ⟨hhandshake.1,
      hhandshake.2.2.2 (fragmentedAccept_surfaces (secs 2))⟩
  · exact ((hbounded []).2 { rx := [], deadline := none } 0 [] _ inSilence _
      rfl rfl).2 fragmentedRead_surfaces inSilence_quiet rfl
  · exact ((hbounded []).2 { rx := [], deadline := none } 0 [] _
      (inSilence ++ [.answer ⟨.error .wantRead, true⟩]) _ rfl rfl).1

end Loft.Dtls
