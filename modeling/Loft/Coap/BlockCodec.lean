import Mathlib.Order.Basic
import Loft.Coap.Block

namespace Loft.Coap

open Loft.Data

/-! What is put into an option as a number is read out of it again. -/

def pushByte (acc : UInt32) (byte : UInt8) : UInt32 :=
  (acc <<< 8) ||| byte.toUInt32

theorem toNat_pushByte (acc : UInt32) (byte : UInt8) :
    (pushByte acc byte).toNat =
      acc.toNat % 16777216 * 256 + byte.toNat := by
  have hbyte := byte.toNat_lt
  have hshift : (acc <<< 8).toNat = 2 ^ 8 * (acc.toNat % 16777216) := by
    rw [UInt32.toNat_shiftLeft]
    simp only [UInt32.reduceToNat, Nat.reduceMod, Nat.shiftLeft_eq]
    omega
  rw [pushByte, UInt32.toNat_or, hshift, UInt8.toNat_toUInt32,
    ← Nat.two_pow_add_eq_or_of_lt (i := 8) hbyte]
  omega

theorem foldl_pushByte_dropWhile (bytes : Octets) :
    (bytes.dropWhile (· == 0)).foldl pushByte 0 = bytes.foldl pushByte 0 := by
  induction bytes with
  | nil => rfl
  | cons byte bytes ih =>
      by_cases hzero : byte = 0
      · subst hzero
        rw [List.foldl_cons]
        exact ih
      · rw [List.dropWhile_cons_of_neg (by simpa using hzero)]

theorem foldl_pushByte_encodeUint (value : UInt32) :
    (encodeUint value).foldl pushByte 0 = value := by
  rw [encodeUint, foldl_pushByte_dropWhile]
  apply UInt32.toNat_inj.mp
  have hlt := value.toNat_lt
  simp only [Octets.be32, Octets.be16, List.cons_append, List.nil_append,
    List.foldl_cons, List.foldl_nil, toNat_pushByte, UInt8.toNat_ofNat',
    UInt32.toNat_zero]
  omega

namespace Message

theorem firstOption_setOptionUint_self (msg : Message) (number : UInt16)
    (value : UInt32) :
    (msg.setOptionUint number value).firstOption number =
      some (encodeUint value) := by
  have hgone : ((msg.options.filter fun option => option.1 != number).filter
      fun option => option.1 == number) = [] := by
    simp
  simp only [firstOption, optionValues, setOptionUint, List.filter_append, hgone]
  simp

theorem firstOption_setOptionUint_ne (msg : Message) {number number' : UInt16}
    (value : UInt32) (hne : number' ≠ number) :
    (msg.setOptionUint number value).firstOption number' =
      msg.firstOption number' := by
  have hkept : ((msg.options.filter fun option => option.1 != number).filter
        fun option => option.1 == number') =
      msg.options.filter fun option => option.1 == number' := by
    rw [List.filter_filter]
    apply List.filter_congr
    intro option _
    by_cases hsame : option.1 = number'
    · simp [hsame, hne]
    · simp [hsame]
  simp only [firstOption, optionValues, setOptionUint, List.filter_append, hkept]
  simp [Ne.symm hne]

theorem firstOption_pushOption_ne (msg : Message) {number number' : UInt16}
    (value : Octets) (hne : number' ≠ number) :
    (msg.pushOption number value).firstOption number' =
      msg.firstOption number' := by
  simp [firstOption, optionValues, pushOption, List.filter_append, Ne.symm hne]

theorem firstOption_pushOption_self (msg : Message) (number : UInt16)
    (value : Octets) :
    (msg.pushOption number value).firstOption number =
      (msg.firstOption number).or (some value) := by
  simp [firstOption, optionValues, pushOption, List.filter_append,
    List.head?_append]

theorem optionUint_congr {msg msg' : Message} {number : UInt16}
    (hfirst : msg.firstOption number = msg'.firstOption number) :
    msg.optionUint number = msg'.optionUint number := by
  rw [optionUint, optionUint, hfirst]

@[simp] theorem optionUint_setOptionUint_self (msg : Message)
    (number : UInt16) (value : UInt32) :
    (msg.setOptionUint number value).optionUint number = some value := by
  rw [optionUint, firstOption_setOptionUint_self]
  dsimp only
  rw [if_neg (Nat.not_lt.mpr (length_encodeUint_le value))]
  exact congrArg some (foldl_pushByte_encodeUint value)

theorem optionUint_setOptionUint_ne (msg : Message) {number number' : UInt16}
    (value : UInt32) (hne : number' ≠ number) :
    (msg.setOptionUint number value).optionUint number' =
      msg.optionUint number' :=
  optionUint_congr (msg.firstOption_setOptionUint_ne value hne)

theorem optionUint_pushOption_ne (msg : Message) {number number' : UInt16}
    (value : Octets) (hne : number' ≠ number) :
    (msg.pushOption number value).optionUint number' =
      msg.optionUint number' :=
  optionUint_congr (msg.firstOption_pushOption_ne value hne)

end Message

/-! The block option value, and a block at a smaller size. -/

theorem sizeFor_eq (szx : UInt8) : sizeFor szx = 2 ^ (szx.toNat + 4) := by
  rw [sizeFor, Nat.one_shiftLeft]

namespace Block

private theorem min_maxSzx {szx : UInt8} (hszx : szx ≤ maxSzx) :
    min szx maxSzx = szx :=
  if_pos hszx

private theorem min_maxSzx_le (szx : UInt8) :
    (min szx maxSzx).toNat ≤ 6 := by
  by_cases hszx : szx ≤ maxSzx
  · rw [min_maxSzx hszx]
    exact hszx
  · have hmin : min szx maxSzx = maxSzx := if_neg hszx
    rw [hmin]
    decide

theorem toNat_encode (b : Block) :
    b.encode.toNat = 16 * (b.num.toNat % 2 ^ 28) + 8 * b.more.toNat +
      (min b.szx maxSzx).toNat := by
  have hszx := min_maxSzx_le b.szx
  have hshift : (b.num <<< 4).toNat = 2 ^ 4 * (b.num.toNat % 2 ^ 28) := by
    rw [UInt32.toNat_shiftLeft]
    simp only [UInt32.reduceToNat, Nat.reduceMod, Nat.shiftLeft_eq]
    omega
  have hmore : ((if b.more then (1 : UInt32) else 0) <<< 3).toNat =
      2 ^ 3 * b.more.toNat := by
    cases b.more <;> rfl
  have hbit := b.more.toNat_le
  rw [encode, UInt32.toNat_or, UInt32.toNat_or, hshift, hmore,
    UInt8.toNat_toUInt32, Nat.or_assoc,
    ← Nat.two_pow_add_eq_or_of_lt (i := 3) (by omega),
    ← Nat.two_pow_add_eq_or_of_lt (i := 4) (by omega)]
  omega

/-- An option has 28 bits for the number; what is above them is lost. -/
theorem decode_encode_low (b : Block) :
    decode b.encode = some {
      num := UInt32.ofNat (b.num.toNat % 2 ^ 28)
      more := b.more
      szx := min b.szx maxSzx } := by
  have hszx := min_maxSzx_le b.szx
  have hbit := b.more.toNat_le
  have hvalue := b.toNat_encode
  have hlow : (b.encode &&& 0x7).toUInt8 = min b.szx maxSzx := by
    apply UInt8.toNat_inj.mp
    have hand : (b.encode &&& 0x7).toNat = b.encode.toNat % 8 := by
      rw [UInt32.toNat_and]
      exact Nat.and_two_pow_sub_one_eq_mod _ 3
    rw [UInt32.toNat_toUInt8, hand, hvalue]
    omega
  have hhigh : b.encode >>> 4 = UInt32.ofNat (b.num.toNat % 2 ^ 28) := by
    apply UInt32.toNat_inj.mp
    rw [UInt32.toNat_shiftRight, hvalue, UInt32.toNat_ofNat']
    simp only [UInt32.reduceToNat, Nat.reduceMod, Nat.shiftRight_eq_div_pow]
    omega
  have hmore : (b.encode &&& 0x8 != 0) = b.more := by
    have hand : (b.encode &&& 0x8).toNat = b.more.toNat * 8 := by
      rw [UInt32.toNat_and]
      change b.encode.toNat &&& 2 ^ 3 = _
      have hbit3 : (16 * (b.num.toNat % 2 ^ 28) + 8 * b.more.toNat +
          (min b.szx maxSzx).toNat) / 2 ^ 3 % 2 = b.more.toNat := by omega
      rw [Nat.and_two_pow, Nat.testBit_eq_decide_div_mod_eq, hvalue, hbit3]
      cases b.more <;> rfl
    cases hmore : b.more with
    | false =>
        rw [hmore] at hand
        simpa using UInt32.toNat_inj.mp hand
    | true =>
        rw [hmore] at hand
        have height : b.encode &&& 0x8 = 8 := UInt32.toNat_inj.mp hand
        rw [height]
        rfl
  rw [decode, hlow, hhigh, hmore]
  have hsame : min (min b.szx maxSzx) maxSzx = min b.szx maxSzx :=
    min_maxSzx (UInt8.le_iff_toNat_le.mpr hszx)
  simp only [hsame]

theorem decode_encode {b : Block} (hnum : b.num.toNat < 2 ^ 28)
    (hszx : b.szx ≤ maxSzx) : decode b.encode = some b := by
  rw [decode_encode_low, Nat.mod_eq_of_lt hnum, UInt32.ofNat_toNat,
    min_maxSzx hszx]

theorem decode_szx_le {value : UInt32} {b : Block}
    (h : decode value = some b) : b.szx ≤ maxSzx := by
  cases h
  by_cases hszx : (value &&& 0x7).toUInt8 ≤ maxSzx
  · exact (min_maxSzx hszx).symm ▸ hszx
  · have hmin : min (value &&& 0x7).toUInt8 maxSzx = maxSzx := if_neg hszx
    exact hmin.symm ▸ UInt8.le_refl maxSzx

theorem size_eq (b : Block) : b.size = 2 ^ (b.szx.toNat + 4) :=
  sizeFor_eq b.szx

theorem sixteen_le_size (b : Block) : 16 ≤ b.size := by
  have hpow : 2 ^ 4 ≤ 2 ^ (b.szx.toNat + 4) :=
    Nat.pow_le_pow_right (by decide) (Nat.le_add_left 4 b.szx.toNat)
  rw [size_eq]
  exact hpow

theorem size_le {b : Block} (hszx : b.szx ≤ maxSzx) : b.size ≤ 1024 := by
  have hpow : 2 ^ (b.szx.toNat + 4) ≤ 2 ^ 10 :=
    Nat.pow_le_pow_right (by decide) (Nat.add_le_add_right hszx 4)
  rw [size_eq]
  exact hpow

theorem offset_lt {b : Block} (hszx : b.szx ≤ maxSzx) : b.offset < 2 ^ 42 := by
  have hnum := b.num.toNat_lt
  have hmul := Nat.mul_le_mul_left b.num.toNat (size_le hszx)
  rw [offset]
  omega

theorem offset_eq_zero {b : Block} : b.offset = 0 ↔ b.num = 0 := by
  have hsize := b.sixteen_le_size
  rw [offset, Nat.mul_eq_zero, ← UInt32.toNat_inj]
  constructor
  · intro hzero
    rcases hzero with hnum | hnone
    · exact hnum
    · omega
  · exact Or.inl

theorem size_le_offset {b : Block} (hnum : b.num ≠ 0) : b.size ≤ b.offset := by
  apply Nat.le_mul_of_pos_left
  apply Nat.pos_of_ne_zero
  intro hzero
  exact hnum (UInt32.toNat_inj.mp hzero)

theorem num_lt_of_offset_lt {b : Block} (hoffset : b.offset < 2 ^ 32) :
    b.num.toNat < 2 ^ 28 := by
  have hmul : b.num.toNat * 16 ≤ b.offset :=
    Nat.mul_le_mul_left b.num.toNat b.sixteen_le_size
  omega

theorem toNat_saturatingMul (num factor : UInt32) :
    (saturatingMul num factor).toNat =
      min (num.toNat * factor.toNat) (2 ^ 32 - 1) := by
  unfold saturatingMul
  split_ifs with hlt
  · rw [UInt32.toNat_mul, Nat.mod_eq_of_lt hlt]
    omega
  · rw [min_eq_right (by omega)]
    rfl

theorem capped_of_le {b : Block} {ceiling : UInt8} (hle : b.szx ≤ ceiling) :
    b.capped ceiling = b :=
  if_pos hle

theorem szx_capped_le (b : Block) (ceiling : UInt8) :
    (b.capped ceiling).szx ≤ ceiling := by
  unfold capped
  split_ifs with hle
  · exact hle
  · exact UInt8.le_refl ceiling

private theorem toNat_factor {szx ceiling : UInt8} (hszx : szx ≤ maxSzx)
    (hlt : ceiling < szx) :
    ((1 : UInt32) <<< (szx - ceiling).toUInt32).toNat =
      2 ^ (szx.toNat - ceiling.toNat) := by
  have hszx' : szx.toNat ≤ 6 := hszx
  have hsmall : 2 ^ (szx.toNat - ceiling.toNat) < 2 ^ 32 :=
    Nat.pow_lt_pow_right (by decide) (by omega)
  rw [UInt32.toNat_shiftLeft, UInt8.toNat_toUInt32,
    UInt8.toNat_sub_of_le _ _ (UInt8.le_of_lt hlt),
    Nat.mod_eq_of_lt (a := szx.toNat - ceiling.toNat) (by omega),
    UInt32.toNat_one, Nat.one_shiftLeft, Nat.mod_eq_of_lt hsmall]

/-- The smaller block begins where the one asked for does, unless neither
begins within any body there can be. -/
theorem offset_capped {b : Block} (hszx : b.szx ≤ maxSzx) (ceiling : UInt8) :
    (b.capped ceiling).offset = b.offset ∨
      2 ^ 32 ≤ b.offset ∧ 2 ^ 32 ≤ (b.capped ceiling).offset := by
  by_cases hle : b.szx ≤ ceiling
  · exact .inl (congrArg offset (capped_of_le hle))
  have hlt : ceiling < b.szx := UInt8.not_le.mp hle
  have hlt' : ceiling.toNat < b.szx.toNat := hlt
  have hfactor := toNat_factor hszx hlt
  have hsizes : b.size =
      2 ^ (b.szx.toNat - ceiling.toNat) * 2 ^ (ceiling.toNat + 4) := by
    rw [size_eq, ← Nat.pow_add]
    congr 1
    omega
  have hoffset : b.offset = b.num.toNat *
      2 ^ (b.szx.toNat - ceiling.toNat) * 2 ^ (ceiling.toNat + 4) := by
    rw [offset, hsizes, Nat.mul_assoc]
  have hcapped : (b.capped ceiling).offset =
      min (b.num.toNat * 2 ^ (b.szx.toNat - ceiling.toNat)) (2 ^ 32 - 1) *
        2 ^ (ceiling.toNat + 4) := by
    rw [offset, capped, if_neg hle, size_eq]
    dsimp only
    rw [toNat_saturatingMul, hfactor]
  have hsixteen : 2 ^ 4 ≤ 2 ^ (ceiling.toNat + 4) :=
    Nat.pow_le_pow_right (by decide) (Nat.le_add_left 4 ceiling.toNat)
  generalize b.num.toNat * 2 ^ (b.szx.toNat - ceiling.toNat) = scaled
    at hoffset hcapped
  by_cases hfits : scaled < 2 ^ 32
  · left
    rw [hcapped, hoffset, min_eq_left (by omega)]
  · right
    rw [hcapped, hoffset, min_eq_right (by omega)]
    have hscaled := Nat.mul_le_mul_left scaled hsixteen
    have hsaturated := Nat.mul_le_mul_left (2 ^ 32 - 1) hsixteen
    exact ⟨by omega, by omega⟩

theorem offset_capped_of_lt {b : Block} (hszx : b.szx ≤ maxSzx)
    (ceiling : UInt8) (hoffset : b.offset < 2 ^ 32) :
    (b.capped ceiling).offset = b.offset := by
  rcases b.offset_capped hszx ceiling with hsame | ⟨hfar, -⟩
  · exact hsame
  · omega

/-- Out of range stays out of range. -/
theorem le_offset_capped {b : Block} (hszx : b.szx ≤ maxSzx) (ceiling : UInt8)
    {total : Nat} (htotal : total ≤ 2 ^ 32) (hpast : total ≤ b.offset) :
    total ≤ (b.capped ceiling).offset := by
  rcases b.offset_capped hszx ceiling with hsame | ⟨-, hfar⟩
  · rw [hsame]
    exact hpast
  · omega

theorem num_capped_eq_zero {b : Block} (hszx : b.szx ≤ maxSzx)
    (ceiling : UInt8) : (b.capped ceiling).num = 0 ↔ b.num = 0 := by
  rw [← offset_eq_zero, ← offset_eq_zero]
  rcases b.offset_capped hszx ceiling with hsame | ⟨hfar, hfar'⟩
  · rw [hsame]
  · omega

theorem szx_capped_le_szx (b : Block) (ceiling : UInt8) :
    (b.capped ceiling).szx ≤ b.szx := by
  unfold capped
  split_ifs with hle
  · exact UInt8.le_refl b.szx
  · exact UInt8.le_of_lt (UInt8.not_le.mp hle)

theorem size_capped_le (b : Block) (ceiling : UInt8) :
    (b.capped ceiling).size ≤ b.size := by
  have hszx : (b.capped ceiling).szx.toNat ≤ b.szx.toNat :=
    b.szx_capped_le_szx ceiling
  rw [size_eq, size_eq]
  exact Nat.pow_le_pow_right (by decide) (Nat.add_le_add_right hszx 4)

theorem offset_capped_lt_iff {b : Block} (hszx : b.szx ≤ maxSzx)
    (ceiling : UInt8) {total : Nat} (htotal : total ≤ 2 ^ 32) :
    (b.capped ceiling).offset < total ↔ b.offset < total := by
  rcases b.offset_capped hszx ceiling with hsame | ⟨hfar, hfar'⟩
  · rw [hsame]
  · omega

/-- The range ends where the next block would begin. -/
theorem moreAfter_iff (b : Block) (total : Nat) :
    moreAfter b total = true ↔ ∃ i, b.byteRange.2 < i ∧ i < total := by
  have hsize := b.sixteen_le_size
  simp only [moreAfter, byteRange, decide_eq_true_eq]
  constructor
  · intro hmore
    exact ⟨b.offset + b.size, by omega, hmore⟩
  · rintro ⟨i, hafter, hlt⟩
    omega

/-- Whatever number a Block2 option carries, the block served in its place is
the same part of the resource, at most as long, and is named by its option. -/
theorem capped_names_block (value : UInt32) (ceiling : UInt8) (total : Nat)
    (htotal : total ≤ 2 ^ 32) :
    ∃ b, decode value = some b ∧
      (b.capped ceiling).szx ≤ ceiling ∧
      ((b.capped ceiling).offset < total ↔ b.offset < total) ∧
      (b.offset < total →
        (b.capped ceiling).offset = b.offset ∧
        (b.capped ceiling).byteRange.1 = b.byteRange.1 ∧
        (b.capped ceiling).byteRange.2 ≤ b.byteRange.2 ∧
        (moreAfter (b.capped ceiling) total = true ↔
          ∃ i, (b.capped ceiling).byteRange.2 < i ∧ i < total) ∧
        decode (b.capped ceiling).encode = some (b.capped ceiling)) := by
  obtain ⟨b, hdecode⟩ : ∃ b, decode value = some b := ⟨_, rfl⟩
  have hszx := decode_szx_le hdecode
  refine ⟨b, hdecode, b.szx_capped_le ceiling,
    offset_capped_lt_iff hszx ceiling htotal, ?_⟩
  intro hin
  have hoffset := offset_capped_of_lt hszx ceiling
    (Nat.lt_of_lt_of_le hin htotal)
  have hsize := b.size_capped_le ceiling
  refine ⟨hoffset, hoffset, ?_, moreAfter_iff _ total, ?_⟩
  · rw [byteRange, byteRange, hoffset]
    exact Nat.sub_le_sub_right (Nat.add_le_add_left hsize b.offset) 1
  · apply decode_encode
    · apply num_lt_of_offset_lt
      rw [hoffset]
      exact Nat.lt_of_lt_of_le hin htotal
    · exact UInt8.le_trans (b.szx_capped_le_szx ceiling) hszx

theorem capped_names_block_bert :
    ∃ b, decode 0x3F = some b ∧
      (b.capped 4).szx ≤ 4 ∧
      ((b.capped 4).offset < 4000 ↔ b.offset < 4000) ∧
      (b.offset < 4000 →
        (b.capped 4).offset = b.offset ∧
        (b.capped 4).byteRange.1 = b.byteRange.1 ∧
        (b.capped 4).byteRange.2 ≤ b.byteRange.2 ∧
        (moreAfter (b.capped 4) 4000 = true ↔
          ∃ i, (b.capped 4).byteRange.2 < i ∧ i < 4000) ∧
        decode (b.capped 4).encode = some (b.capped 4)) :=
  capped_names_block 0x3F 4 4000 (by decide)

end Block

end Loft.Coap
