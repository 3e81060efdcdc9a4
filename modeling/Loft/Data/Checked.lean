import Mathlib.Algebra.Group.Nat.Defs
import Mathlib.Tactic.Common

namespace Loft.Data.Checked

/-! Steps of a program that panics where it leaves the range of its machine
words or its buffers: `none` is the panic. -/

variable {α : Type}

def add (width a b : Nat) : Option Nat :=
  if a + b < 2 ^ width then some (a + b) else none

def sub (a b : Nat) : Option Nat :=
  if b ≤ a then some (a - b) else none

def mul (width a b : Nat) : Option Nat :=
  if a * b < 2 ^ width then some (a * b) else none

/-- Shifting a word by `amount`. -/
def shift (width amount : Nat) : Option Unit :=
  if amount < width then some () else none

def index (xs : List α) (i : Nat) : Option α :=
  xs[i]?

def slice (xs : List α) (start stop : Nat) : Option (List α) :=
  if start ≤ stop ∧ stop ≤ xs.length then some ((xs.take stop).drop start)
  else none

theorem add_of_lt {width a b : Nat} (h : a + b < 2 ^ width) :
    add width a b = some (a + b) :=
  if_pos h

theorem sub_of_le {a b : Nat} (h : b ≤ a) : sub a b = some (a - b) :=
  if_pos h

theorem mul_of_lt {width a b : Nat} (h : a * b < 2 ^ width) :
    mul width a b = some (a * b) :=
  if_pos h

theorem shift_of_lt {width amount : Nat} (h : amount < width) :
    shift width amount = some () :=
  if_pos h

theorem index_of_lt {xs : List α} {i : Nat} (h : i < xs.length) :
    index xs i = some xs[i] :=
  List.getElem?_eq_getElem h

theorem slice_of_le {xs : List α} {start stop : Nat} (hstart : start ≤ stop)
    (hstop : stop ≤ xs.length) :
    slice xs start stop = some ((xs.take stop).drop start) :=
  if_pos ⟨hstart, hstop⟩

theorem slice_range {xs : List α} {start len : Nat}
    (h : start + len ≤ xs.length) :
    slice xs start (start + len) = some ((xs.drop start).take len) := by
  rw [slice_of_le (Nat.le_add_right _ _) h, List.drop_take,
    Nat.add_sub_cancel_left]

theorem slice_to_end {xs : List α} {start : Nat} (h : start ≤ xs.length) :
    slice xs start xs.length = some (xs.drop start) := by
  rw [slice_of_le h (Nat.le_refl _), List.take_length]

theorem slice_from_start {xs : List α} {stop : Nat} (h : stop ≤ xs.length) :
    slice xs 0 stop = some (xs.take stop) := by
  rw [slice_of_le (Nat.zero_le _) h, List.drop_zero]

end Loft.Data.Checked
