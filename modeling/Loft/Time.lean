import Mathlib.Tactic.Common

namespace Loft

/-! Time is an `Instant`: nanoseconds since some fixed origin. -/

abbrev Instant := Nat

/-- `Instant::duration_since` saturates at zero. -/
def Instant.durationSince (now earlier : Instant) : Nat :=
  Nat.sub now earlier

def secs (n : Nat) : Nat :=
  n * 1000000000

end Loft
