import Loft.MbedtlsShim
import Loft.Time

namespace Loft.MbedtlsShim

/-! The timer pair of a session: the library sets it, and learns from it when
to resend a flight. Delays are in milliseconds. -/

def millis (n : Nat) : Nat :=
  n * 1000000

structure TimerState where
  intMs : Nat
  finMs : Nat
  start : Option Instant
  deriving DecidableEq, Repr

namespace TimerState

/-- A final delay of zero cancels the timer. -/
def set (now : Instant) (intMs finMs : Nat) : TimerState where
  intMs := intMs
  finMs := finMs
  start := if finMs ≠ 0 then some now else none

def elapsedMs (now started : Instant) : Nat :=
  now.durationSince started / 1000000

def status (timer : TimerState) (now : Instant) : Int :=
  match timer.start with
  | none => -1
  | some started =>
      if timer.finMs ≤ elapsedMs now started then 2
      else if timer.intMs ≤ elapsedMs now started then 1
      else 0

def finalExpired (timer : TimerState) (now : Instant) : Bool :=
  timer.status now == 2

def remaining (timer : TimerState) (now : Instant) : Option Nat :=
  timer.start.map fun started =>
    millis timer.finMs - now.durationSince started

theorem le_elapsedMs {ms now started : Nat} :
    ms ≤ elapsedMs now started ↔ millis ms ≤ now - started :=
  Nat.le_div_iff_mul_le (by decide)

/-- The timer has expired exactly when nothing of it remains. -/
theorem finalExpired_iff {timer : TimerState} {now : Instant} :
    timer.finalExpired now = true ↔ timer.remaining now = some 0 := by
  unfold finalExpired status remaining
  cases hstart : timer.start with
  | none => simp
  | some started =>
      dsimp only [Option.map_some]
      rw [Option.some.injEq, Nat.sub_eq_zero_iff_le]
      split_ifs with hfin hint
      · exact iff_of_true rfl (le_elapsedMs.mp hfin)
      · exact iff_of_false (by decide) fun hle => hfin (le_elapsedMs.mpr hle)
      · exact iff_of_false (by decide) fun hle => hfin (le_elapsedMs.mpr hle)

end TimerState

end Loft.MbedtlsShim
