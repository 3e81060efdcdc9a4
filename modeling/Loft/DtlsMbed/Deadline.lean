import Loft.Data.Inbox
import Loft.Data.Watched
import Loft.DtlsMbed
import Loft.MbedtlsShim.Timer

namespace Loft.DtlsMbed

open Loft.Data
open Loft.Data.Transition (run Along run_append_eq_some)
open Loft.Data.Watched (Event Move Verdict Loop start total begunAfter
  overran)
open Loft.MbedtlsShim

/-! How long a session thread of the mbedTLS listener waits for its peer. Each
park ends with the tick, the retransmission timer or the handshake deadline,
whichever is first. -/

def readTick : Nat := secs 1

/-- What the two trampolines of a session reach through their pointer. -/
structure SessionCtx where
  timer : TimerState
  io : ConnState
  deriving DecidableEq, Repr

inductive Setting
  -- the listener queues a datagram
  | enqueue (delivery : Delivery)
  | setTimer (intMs finMs : Nat)
  deriving DecidableEq, Repr

structure Ask where
  cap : Nat
  meanwhile : Inbox.Meanwhile Delivery
  deriving DecidableEq, Repr

abbrev RecvResult := Int × Option Delivery

namespace ConnState

def late (io : ConnState) (now : Instant) : Prop :=
  (io.deadline.any fun deadline => decide (deadline ≤ now)) = true

instance (io : ConnState) (now : Instant) : Decidable (io.late now) :=
  inferInstanceAs (Decidable (_ = _))

def parkBudget (io : ConnState) (tick : Nat) (timer : TimerState)
    (now : Instant) : Nat :=
  let budget :=
    match timer.remaining now with
    | some remaining => min tick remaining
    | none => tick
  match io.deadline with
  | some deadline => min budget (deadline.durationSince now)
  | none => budget

theorem parkBudget_le_tick (io : ConnState) (tick : Nat) (timer : TimerState)
    (now : Instant) : io.parkBudget tick timer now ≤ tick := by
  have hbudget : (match timer.remaining now with
      | some remaining => min tick remaining
      | none => tick) ≤ tick := by
    split
    · exact Nat.min_le_left ..
    · exact Nat.le_refl _
  unfold parkBudget
  dsimp only
  split
  · exact Nat.le_trans (Nat.min_le_left ..) hbudget
  · exact hbudget

theorem parkBudget_le_deadline {io : ConnState} {deadline : Instant}
    (hdeadline : io.deadline = some deadline) (tick : Nat) (timer : TimerState)
    (now : Instant) :
    io.parkBudget tick timer now ≤ deadline.durationSince now := by
  unfold parkBudget
  rw [hdeadline]
  exact Nat.min_le_right ..

theorem parkBudget_le_remaining {timer : TimerState} {now : Instant}
    {remaining : Nat} (hremaining : timer.remaining now = some remaining)
    (io : ConnState) (tick : Nat) :
    io.parkBudget tick timer now ≤ remaining := by
  unfold parkBudget
  rw [hremaining]
  dsimp only
  split
  · exact Nat.le_trans (Nat.min_le_left ..) (Nat.min_le_right ..)
  · exact Nat.min_le_right ..

theorem deliver_deadline (io : ConnState) (cap : Nat) (delivery : Delivery) :
    (io.deliver cap delivery).2.2.deadline = io.deadline := by
  unfold deliver
  split <;> rfl

theorem recv_deadline (io : ConnState) (now : Instant) (senders : Bool)
    (cap : Nat) (expired : Bool) :
    (io.recv now senders cap expired).2.2.deadline = io.deadline := by
  unfold recv
  split
  · rfl
  · split
    · exact deliver_deadline ..
    · split
      · exact deliver_deadline ..
      · split <;> rfl

end ConnState

namespace SessionCtx

/-- `recv_tramp` on the clock. -/
def recv (tick : Nat) (ctx : SessionCtx) (now : Instant) (ask : Ask) :
    Nat × RecvResult × SessionCtx :=
  let (waited, senders, queue) :=
    if ctx.io.late now ∨ ctx.io.pending.isSome ∨ ctx.io.queue ≠ [] then
      (0, true, ctx.io.queue)
    else ask.meanwhile.recvTimeout (ctx.io.parkBudget tick ctx.timer now)
  let (outcome, delivered, io) :=
    { ctx.io with queue := queue }.recv now senders ask.cap
      (ctx.timer.finalExpired (now + waited))
  (waited, (recvTramp outcome, delivered), { ctx with io := io })

def configure (ctx : SessionCtx) (now : Instant) : Setting → SessionCtx
  | .enqueue delivery =>
      { ctx with io := { ctx.io with queue := ctx.io.queue ++ [delivery] } }
  | .setTimer intMs finMs => { ctx with timer := .set now intMs finMs }

def transport (tick : Nat) :
    Watched.Transport SessionCtx Setting Ask RecvResult where
  attempt := recv tick
  configure := configure
  deadline ctx := ctx.io.deadline
  refuses result := result.1 = Codes.errNetRecvFailed
  silent result :=
    result.1 = Codes.errSslWantRead ∨ result.1 = Codes.errSslTimeout

theorem recv_le (tick : Nat) (ctx : SessionCtx) (now : Instant) (ask : Ask) :
    (recv tick ctx now ask).1 ≤ ctx.io.parkBudget tick ctx.timer now := by
  unfold recv
  split_ifs
  · exact Nat.zero_le _
  · exact ask.meanwhile.recvTimeout_le _

/-- The deadline is in the budget, so no park outlasts it. -/
theorem lawful (tick : Nat) : (transport tick).Lawful tick 0 where
  bounded ctx now ask :=
    Nat.le_trans (recv_le ..) (ConnState.parkBudget_le_tick ..)
  ended {ctx now deadline} ask harmed hbefore := by
    have hwait : (recv tick ctx now ask).1 ≤ deadline - now :=
      Nat.le_trans (recv_le ..)
        (ConnState.parkBudget_le_deadline harmed ..)
    simp only [transport]
    omega
  refused {ctx now deadline} ask harmed hlate := by
    have hdeadline : ctx.io.deadline = some deadline := harmed
    have hany : ctx.io.late now := by
      rw [ConnState.late, hdeadline]
      exact decide_eq_true hlate
    have hany' : (ctx.io.deadline.any fun deadline =>
        decide (deadline ≤ now)) = true := hany
    simp only [transport, recv, if_pos (Or.inl hany), ConnState.recv,
      if_pos hany', true_and]
    rfl
  deadline_attempt ctx now ask := ConnState.recv_deadline ..
  deadline_configure ctx now setting := by
    cases setting <;> rfl

/-- A parked session wakes no later than its timer. -/
theorem recv_le_due {ctx : SessionCtx} {now started : Nat}
    (hstart : ctx.timer.start = some started) (hstarted : started ≤ now)
    (tick : Nat) (ask : Ask) :
    now + (recv tick ctx now ask).1 ≤
      max now (started + millis ctx.timer.finMs) := by
  have hremaining : ctx.timer.remaining now =
      some (millis ctx.timer.finMs - (now - started)) := by
    rw [TimerState.remaining, hstart]
    rfl
  have hbudget := ConnState.parkBudget_le_remaining hremaining ctx.io tick
  have hwait := recv_le tick ctx now ask
  omega

/-- Parked on silence, it says so from the moment the timer has expired. -/
theorem recv_silence {tick : Nat} {ctx : SessionCtx} {now started : Nat}
    (hstart : ctx.timer.start = some started) (hstarted : started ≤ now)
    (hearly : ¬ ctx.io.late now) (hpending : ctx.io.pending = none)
    (hqueue : ctx.io.queue = []) (cap : Nat) :
    let due := started + millis ctx.timer.finMs
    let (waited, (rc, _), _) := recv tick ctx now ⟨cap, .silence⟩
    rc = if due ≤ now + waited then Codes.errSslTimeout
      else Codes.errSslWantRead := by
  have hexpired : ∀ waited : Nat,
      ctx.timer.finalExpired (now + waited) = true ↔
        started + millis ctx.timer.finMs ≤ now + waited := by
    intro waited
    rw [TimerState.finalExpired_iff, TimerState.remaining, hstart,
      Option.map_some, Option.some.injEq, Nat.sub_eq_zero_iff_le]
    change _ ≤ now + waited - started ↔ _
    omega
  have hparks : ¬ (ctx.io.late now ∨ ctx.io.pending.isSome = true ∨
      ctx.io.queue ≠ []) := by
    simp [hearly, hpending, hqueue]
  have hearly' : ¬ (ctx.io.deadline.any fun deadline =>
      decide (deadline ≤ now)) = true := hearly
  simp only [recv, if_neg hparks, Inbox.Meanwhile.recvTimeout]
  simp only [ConnState.recv, if_neg hearly', hpending, if_true]
  by_cases hdue : ctx.timer.finalExpired
      (now + ctx.io.parkBudget tick ctx.timer now) = true
  · rw [if_pos hdue, if_pos ((hexpired _).mp hdue)]
    rfl
  · rw [if_neg hdue, if_neg fun h => hdue ((hexpired _).mpr h)]
    rfl

end SessionCtx

/-! The two loops of `session_thread`. -/

def handshakeVerdict (rc : Int) : Verdict :=
  match handshakeStatus rc with
  | .done => .progress
  | .wantRead | .wantWrite => .again
  | .helloVerifyRequired | .failed _ => .failure

/-- What `mbedtls_ssl_read` returns, and whether the reply to it could be
written. -/
structure Served where
  rc : Int
  written : Bool
  deriving DecidableEq, Repr

def Served.verdict (served : Served) : Verdict :=
  match readStatus served.rc with
  | .data n => if n = 0 ∨ served.written then .progress else .failure
  | .wantRead | .wantWrite => .again
  | .peerClosed | .failed _ => .failure

abbrev SslLibrary (Return : Type) : Type :=
  List (Event RecvResult Return) → Move Return → Bool

def handshaking (lib : SslLibrary Int) (handshakeDeadline : Nat) :
    Loop SessionCtx Setting Ask RecvResult Int where
  transport := SessionCtx.transport readTick
  lib := lib
  judge := handshakeVerdict
  limit := handshakeDeadline
  serves := false

def serving (lib : SslLibrary Served) (cidActive : Bool) (cidIdle : Nat) :
    Loop SessionCtx Setting Ask RecvResult Served where
  transport := SessionCtx.transport readTick
  lib := lib
  judge := Served.verdict
  limit := if cidActive then cidIdle else idleDeadline
  serves := true

/-- A session thread is done with its peer in time. A handshake waits for
nothing past its deadline, whatever comes and whatever the library does with
it. Later the library has to hand on that nothing came: then a peer that falls
silent is given up once it has been silent for the idle time that its session
has, and in any case not before. No wait makes the library late for a flight
that it has to send again. -/
theorem parks_bounded (handshake : SslLibrary Int) (read : SslLibrary Served)
    {handshakeDeadline cidIdle begun started : Nat} {cidActive : Bool}
    (hstarted : begun ≤ started) :
    (∀ ctx actions s,
      ctx.io.deadline = some (begun + handshakeDeadline) →
      run (handshaking handshake handshakeDeadline).step
          (start ctx started started) actions = some s →
        total s.waits ≤ handshakeDeadline ∧
          overran (begun + handshakeDeadline) s.waits = [] ∧
          (handshaking handshake handshakeDeadline).Excused s ∧
          ((handshaking handshake handshakeDeadline).Surfaces →
            (begunAfter (begun + handshakeDeadline) s.waits).length ≤ 1)) ∧
      (∀ ctx now front s actions s',
        run (serving read cidActive cidIdle).step (start ctx now now) front =
          some s →
        run (serving read cidActive cidIdle).step s actions = some s' →
        (serving read cidActive cidIdle).Excused s' ∧
          ((serving read cidActive cidIdle).Surfaces →
            Along (serving read cidActive cidIdle).step
              (serving read cidActive cidIdle).Quiet s actions →
            s'.phase.running → s'.now ≤
              max s.now (s.mark + if cidActive then cidIdle else idleDeadline) +
                readTick + (s'.spent - s.spent))) ∧
      ∀ (ctx : SessionCtx) (now armedAt : Nat),
        ctx.timer.start = some armedAt → armedAt ≤ now →
        let due := armedAt + millis ctx.timer.finMs
        (∀ ask, now + (ctx.recv readTick now ask).1 ≤ max now due) ∧
          (¬ ctx.io.late now → ctx.io.pending = none → ctx.io.queue = [] →
            ∀ cap,
              let (waited, (rc, _), _) := ctx.recv readTick now ⟨cap, .silence⟩
              rc = if due ≤ now + waited then Codes.errSslTimeout
                else Codes.errSslWantRead) := by
  refine ⟨?_, ?_, ?_⟩
  · intro ctx actions s harmed hrun
    have hbooked : (handshaking handshake handshakeDeadline).Booked started
        readTick 0 (some (begun + handshakeDeadline)) s := by
      rw [← harmed]
      exact Loop.booked_run (SessionCtx.lawful readTick) hrun
    have htotal := hbooked.total_le
    refine ⟨by omega, ?_, Loop.excused_run hrun, ?_⟩
    · apply List.filter_eq_nil_iff.mpr
      intro wait hmem hover
      obtain ⟨hpos, hbeyond⟩ := of_decide_eq_true hover
      have hended := (hbooked.ended _ rfl wait hmem hpos).2
      omega
    · intro hhandshake
      exact (Loop.spared_run (SessionCtx.lawful readTick) hhandshake
        (begun + handshakeDeadline) harmed hrun).length_le
  · intro ctx now front s actions s' hfront hrun
    refine ⟨Loop.excused_run ((run_append_eq_some _).mpr
      ⟨s, hfront, hrun⟩), ?_⟩
    intro hread hquiet
    exact Loop.now_le_of_quiet (SessionCtx.lawful readTick) hread hquiet hrun
  · intro ctx now armedAt hstart harmedAt
    refine ⟨SessionCtx.recv_le_due hstart harmedAt readTick, ?_⟩
    intro hearly hpending hqueue cap
    exact SessionCtx.recv_silence hstart harmedAt hearly hpending hqueue cap

/-- A library that takes every datagram for another fragment, and hands on
what stops it. -/
def fragmented {Return : Type} [DecidableEq Return] (ret : Int → Return) :
    SslLibrary Return := fun t move =>
  match t.getLast? with
  | some .called => move == .ask
  | some (.got (rc, _)) =>
      if rc = Codes.errNetRecvFailed then move == .answer (ret rc)
      else if rc = Codes.errSslWantRead ∨ rc = Codes.errSslTimeout then
        move == .answer (ret Codes.errSslWantRead)
      else move == .ask
  | _ => false

def fragmentedHandshake : SslLibrary Int := fragmented fun rc => rc

def fragmentedRead : SslLibrary Served := fragmented fun rc => ⟨rc, true⟩

theorem fragmentedHandshake_surfaces (handshakeDeadline : Nat) :
    (handshaking fragmentedHandshake handshakeDeadline).Surfaces where
  refusal {t result move} hrefuses hmove := by
    have hrc : result.1 = Codes.errNetRecvFailed := hrefuses
    refine ⟨Codes.errNetRecvFailed, ?_, rfl⟩
    simpa [handshaking, fragmentedHandshake, fragmented, hrc] using hmove
  silence {t result} hsilent := by
    rcases hsilent with hrc | hrc <;>
      simp [handshaking, fragmentedHandshake, fragmented, hrc,
        Codes.errNetRecvFailed, Codes.errSslWantRead, Codes.errSslTimeout]

theorem fragmentedRead_surfaces (cidActive : Bool) (cidIdle : Nat) :
    (serving fragmentedRead cidActive cidIdle).Surfaces where
  refusal {t result move} hrefuses hmove := by
    have hrc : result.1 = Codes.errNetRecvFailed := hrefuses
    refine ⟨⟨Codes.errNetRecvFailed, true⟩, ?_, rfl⟩
    simpa [serving, fragmentedRead, fragmented, hrc] using hmove
  silence {t result} hsilent := by
    rcases hsilent with hrc | hrc <;>
      simp [serving, fragmentedRead, fragmented, hrc, Codes.errNetRecvFailed,
        Codes.errSslWantRead, Codes.errSslTimeout]

def sessionCtx (deadline : Option Nat) : SessionCtx where
  timer := .set 0 250 1000
  io := {
    queue := []
    committedPeer := clientA
    stagedPeer := clientA
    pending := none
    deadline := deadline }

def fragment : Ask where
  cap := 1500
  meanwhile := .arrives 900000000 (handshakeRecord 16, clientA)

def silence : Ask where
  cap := 1500
  meanwhile := .silence

def untilRefused : List (Watched.Action Setting Ask Int) :=
  [.configure (.setTimer 0 0), .call, .ask fragment, .ask fragment,
    .ask silence, .answer Codes.errSslWantRead, .call, .ask silence,
    .answer Codes.errNetRecvFailed]

def inSilence : List (Watched.Action Setting Ask Served) :=
  [.configure (.setTimer 0 0), .elapse (secs 21600), .call, .ask silence]

theorem inSilence_quiet :
    Along (serving fragmentedRead true (secs 21600)).step
      (serving fragmentedRead true (secs 21600)).Quiet
      (start (sessionCtx none) 0 0) inSilence := by
  refine ⟨trivial, ?_⟩
  rintro _ ⟨⟩
  refine ⟨trivial, ?_⟩
  rintro _ ⟨⟩
  refine ⟨trivial, ?_⟩
  rintro _ ⟨⟩
  exact ⟨.inl rfl, fun _ _ => trivial⟩

/-- A peer that sends a fragment every 0.9 s, one that sends nothing for six
hours, and a flight that is due after a second. -/
theorem parks_bounded_fragmented :
    (∃ s, run (handshaking fragmentedHandshake (secs 2)).step
        (start (sessionCtx (some (0 + secs 2))) 5 5)
        untilRefused = some s ∧
      s.phase = .over ∧ total s.waits ≤ secs 2 ∧
      (begunAfter (0 + secs 2) s.waits).length ≤ 1) ∧
    (∃ s, run (serving fragmentedRead true (secs 21600)).step
        (start (sessionCtx none) 0 0) inSilence = some s ∧
      s.now ≤ max 0 (0 + secs 21600) + readTick + (s.spent - 0)) ∧
    (∃ s, run (serving fragmentedRead true (secs 21600)).step
        (start (sessionCtx none) 0 0)
        (inSilence ++ [.answer ⟨Codes.errSslWantRead, true⟩]) = some s ∧
      s.phase = .over ∧
      (serving fragmentedRead true (secs 21600)).Excused s) ∧
    ((sessionCtx none).recv readTick (millis 400) silence).2.1.1 =
      Codes.errSslTimeout := by
  have hbounded := @parks_bounded fragmentedHandshake fragmentedRead (secs 2)
    (secs 21600) 0 5 true (Nat.zero_le 5)
  refine ⟨⟨_, rfl, rfl, ?_⟩, ⟨_, rfl, ?_⟩, ⟨_, rfl, rfl, ?_⟩, ?_⟩
  · have hhandshake := hbounded.1 (sessionCtx (some (0 + secs 2)))
      untilRefused _ rfl rfl
    exact ⟨hhandshake.1,
      hhandshake.2.2.2 (fragmentedHandshake_surfaces (secs 2))⟩
  · exact (hbounded.2.1 (sessionCtx none) 0 [] _ inSilence _ rfl rfl).2
      (fragmentedRead_surfaces true (secs 21600)) inSilence_quiet rfl
  · exact (hbounded.2.1 (sessionCtx none) 0 [] _
      (inSilence ++ [.answer ⟨Codes.errSslWantRead, true⟩]) _ rfl rfl).1
  · have hflight := (hbounded.2.2 (sessionCtx none) (millis 400) 0 rfl
      (Nat.zero_le _)).2 (by decide) rfl rfl 1500
    exact hflight.trans (if_pos (by decide +kernel))

end Loft.DtlsMbed
