import Mathlib.Data.Nat.Bitwise
import Mathlib.Tactic.Common

namespace Loft.Data

/-! Octet strings, nibble packing and big-endian fields. -/

abbrev Octets := List UInt8

namespace Octets

def packNibbles (high low : UInt8) : UInt8 :=
  (high <<< 4) ||| low

theorem toNat_shiftRight_four (byte : UInt8) :
    (byte >>> 4).toNat = byte.toNat / 16 := by
  simp [UInt8.toNat_shiftRight, Nat.shiftRight_eq_div_pow]

theorem toNat_and_fifteen (byte : UInt8) :
    (byte &&& 0x0F).toNat = byte.toNat % 16 := by
  rw [UInt8.toNat_and]
  exact Nat.and_two_pow_sub_one_eq_mod byte.toNat 4

theorem toNat_packNibbles {high low : UInt8}
    (hhigh : high.toNat < 16) (hlow : low.toNat < 16) :
    (packNibbles high low).toNat = 16 * high.toNat + low.toNat := by
  have hshift : (high <<< 4).toNat = 2 ^ 4 * high.toNat := by
    rw [UInt8.toNat_shiftLeft]
    simp only [UInt8.reduceToNat, Nat.reduceMod, Nat.shiftLeft_eq]
    omega
  rw [packNibbles, UInt8.toNat_or, hshift,
    ← Nat.two_pow_add_eq_or_of_lt (i := 4) hlow]

theorem packNibbles_high {high low : UInt8}
    (hhigh : high.toNat < 16) (hlow : low.toNat < 16) :
    packNibbles high low >>> 4 = high := by
  apply UInt8.toNat_inj.mp
  rw [toNat_shiftRight_four, toNat_packNibbles hhigh hlow]
  omega

theorem packNibbles_low {high low : UInt8}
    (hhigh : high.toNat < 16) (hlow : low.toNat < 16) :
    packNibbles high low &&& 0x0F = low := by
  apply UInt8.toNat_inj.mp
  rw [toNat_and_fifteen, toNat_packNibbles hhigh hlow]
  omega

theorem shiftRight_four_lt (byte : UInt8) : (byte >>> 4).toNat < 16 := by
  have := byte.toNat_lt
  rw [toNat_shiftRight_four]
  omega

theorem and_fifteen_lt (byte : UInt8) : (byte &&& 0x0F).toNat < 16 := by
  rw [toNat_and_fifteen]
  omega

theorem packNibbles_split (byte : UInt8) :
    packNibbles (byte >>> 4) (byte &&& 0x0F) = byte := by
  apply UInt8.toNat_inj.mp
  rw [toNat_packNibbles (shiftRight_four_lt byte) (and_fifteen_lt byte),
    toNat_shiftRight_four, toNat_and_fifteen]
  omega

def be16 (value : Nat) : Octets :=
  [UInt8.ofNat (value / 256), UInt8.ofNat value]

def ofBe16 (a b : UInt8) : Nat :=
  a.toNat * 256 + b.toNat

def be32 (value : Nat) : Octets :=
  be16 (value / 65536) ++ be16 value

def ofBe32 (a b c d : UInt8) : Nat :=
  ofBe16 a b * 65536 + ofBe16 c d

@[simp] theorem length_be16 (value : Nat) : (be16 value).length = 2 := rfl

@[simp] theorem length_be32 (value : Nat) : (be32 value).length = 4 := rfl

theorem ofBe16_lt (a b : UInt8) : ofBe16 a b < 65536 := by
  have := a.toNat_lt
  have := b.toNat_lt
  unfold ofBe16
  omega

theorem ofBe32_lt (a b c d : UInt8) : ofBe32 a b c d < 4294967296 := by
  have := ofBe16_lt a b
  have := ofBe16_lt c d
  unfold ofBe32
  omega

theorem be16_ofBe16 (a b : UInt8) : be16 (ofBe16 a b) = [a, b] := by
  have ha := a.toNat_lt
  have hb := b.toNat_lt
  simp only [be16, List.cons.injEq, and_true]
  constructor <;> apply UInt8.toNat_inj.mp <;> rw [UInt8.toNat_ofNat'] <;>
    unfold ofBe16 <;> omega

theorem ofBe16_be16 (value : Nat) (hvalue : value < 65536) :
    ofBe16 (UInt8.ofNat (value / 256)) (UInt8.ofNat value) = value := by
  simp only [ofBe16, UInt8.toNat_ofNat']
  omega

theorem be16_injective {value value' : Nat} (hvalue : value < 65536)
    (hvalue' : value' < 65536) (h : be16 value = be16 value') :
    value = value' := by
  simp only [be16, List.cons.injEq, and_true] at h
  rw [← ofBe16_be16 value hvalue, ← ofBe16_be16 value' hvalue', h.1, h.2]

theorem be32_ofBe32 (a b c d : UInt8) :
    be32 (ofBe32 a b c d) = [a, b, c, d] := by
  have hhigh := ofBe16_lt a b
  have hlow := ofBe16_lt c d
  have hdiv : ofBe32 a b c d / 65536 = ofBe16 a b := by
    unfold ofBe32
    omega
  have hbe : be16 (ofBe32 a b c d) = be16 (ofBe16 c d) := by
    have hdivLow : ofBe32 a b c d / 256 =
        ofBe16 a b * 256 + ofBe16 c d / 256 := by
      unfold ofBe32
      omega
    simp only [be16, List.cons.injEq, and_true]
    constructor <;> apply UInt8.toNat_inj.mp <;>
      simp only [UInt8.toNat_ofNat']
    · omega
    · unfold ofBe32
      omega
  rw [be32, hdiv, hbe, be16_ofBe16, be16_ofBe16]
  rfl

theorem ofBe32_be32 (value : Nat) (hvalue : value < 4294967296) :
    ofBe32 (UInt8.ofNat (value / 65536 / 256)) (UInt8.ofNat (value / 65536))
      (UInt8.ofNat (value / 256)) (UInt8.ofNat value) = value := by
  simp only [ofBe32, ofBe16, UInt8.toNat_ofNat']
  omega

end Octets

end Loft.Data
