import Loft.Coap.BlockCodec
import Loft.Coap.Tcp
import Loft.Coap.Udp
import Loft.Data.Checked

namespace Loft.Coap.Checked

open Loft.Data
open Loft.Data.Checked

/-! The codecs once more, with every addition, subtraction, multiplication,
shift, index and slice of the source a step that can panic. -/

def cls (code : UInt8) : Option UInt8 := do
  shift 8 5
  return code >>> 5

/-! Options of a message. -/

def pushByte (acc : UInt32) (byte : UInt8) : Option UInt32 := do
  shift 32 8
  return (acc <<< 8) ||| byte.toUInt32

def optionUint (msg : Message) (number : UInt16) : Option (Option UInt32) :=
  match msg.firstOption number with
  | none => some none
  | some value =>
      if value.length > 4 then some none
      else do
        let n ← value.foldlM pushByte 0
        return some n

def encodeUint (value : UInt32) : Option Octets :=
  let bytes := Octets.be32 value.toNat
  slice bytes (bytes.takeWhile (· == 0)).length bytes.length

def setOptionUint (msg : Message) (number : UInt16) (value : UInt32) :
    Option Message := do
  let bytes ← encodeUint value
  return { msg with
    options := (msg.options.filter fun option => option.1 != number) ++
      [(number, bytes)] }

/-! The shared region. -/

def nibbleExt (value : Nat) : Option (UInt8 × Octets) :=
  if value < 13 then some (UInt8.ofNat value, [])
  else if value < 269 then do
    let rest ← sub value 13
    return (13, [UInt8.ofNat rest])
  else do
    let rest ← sub value 269
    return (14, Octets.be16 rest)

def encodeOption (prev : UInt16) (option : MessageOption) : Option Octets := do
  let delta ← sub option.1.toNat prev.toNat
  let (deltaNibble, deltaExt) ← nibbleExt delta
  let (lenNibble, lenExt) ← nibbleExt (option.2.length % 2 ^ 32)
  shift 8 4
  return Octets.packNibbles deltaNibble lenNibble ::
    (deltaExt ++ lenExt ++ option.2)

def encodeOptionsFrom : UInt16 → List MessageOption → Option Octets
  | _, [] => some []
  | prev, option :: rest => do
      let bytes ← encodeOption prev option
      let more ← encodeOptionsFrom option.1 rest
      return bytes ++ more

def encodeOptionsAndPayload (msg : Message) : Option Octets := do
  let options ← encodeOptionsFrom 0 (sortByNumber msg.options)
  return options ++ encodePayload msg.payload

def readNibbleExt (nibble : UInt8) (buf : Octets) :
    Option (Except DecodeError (Nat × Octets)) :=
  if nibble ≤ 12 then some (.ok (nibble.toNat, buf))
  else if nibble = 13 then
    match buf with
    | first :: rest => do
        let value ← add 32 13 first.toNat
        return .ok (value, rest)
    | _ => some (.error .truncated)
  else if nibble = 14 then
    match buf with
    | a :: b :: rest => do
        let value ← add 32 269 (Octets.ofBe16 a b)
        return .ok (value, rest)
    | _ => some (.error .truncated)
  else some (.error .badOptionEncoding)

/-- One turn of the loop takes at least one byte, so that `fuel` more turns
than there are bytes are never needed. -/
def decodeOptionsLoop (fuel : Nat) (number : UInt16) (buf : Octets)
    (msg : Message) : Option (Except DecodeError Message) :=
  match fuel with
  | 0 => none
  | fuel + 1 =>
      if buf.isEmpty then some (.ok msg)
      else do
        let byte ← index buf 0
        if byte = 0xFF then
          if buf.length = 1 then return .error .payloadMarkerNoPayload
          else
            let payload ← slice buf 1 buf.length
            return .ok { msg with payload := payload }
        else
          let buf ← slice buf 1 buf.length
          shift 8 4
          match ← readNibbleExt (byte >>> 4) buf with
          | .error e => return .error e
          | .ok (delta, buf) =>
              match ← readNibbleExt (byte &&& 0x0F) buf with
              | .error e => return .error e
              | .ok (len, buf) =>
                  if buf.length < len then return .error .truncated
                  else
                    let extended ← add 32 number.toNat delta
                    if extended < 65536 then
                      let value ← slice buf 0 len
                      let rest ← slice buf len buf.length
                      decodeOptionsLoop fuel (UInt16.ofNat extended) rest
                        { msg with options := msg.options ++
                            [(UInt16.ofNat extended, value)] }
                    else return .error .badOptionEncoding

def decodeOptionsAndPayload (buf : Octets) (msg : Message) :
    Option (Except DecodeError Message) :=
  decodeOptionsLoop (buf.length + 1) 0 buf msg

/-! Blocks. -/

def sizeFor (szx : UInt8) : Option Nat := do
  let amount ← add 8 szx.toNat 4
  shift 64 amount
  return 1 <<< amount

def offset (b : Block) : Option Nat := do
  let size ← sizeFor b.szx
  mul 64 b.num.toNat size

def decodeBlock (value : UInt32) : Option (Option Block) := do
  shift 32 4
  return some {
    num := value >>> 4
    more := value &&& 0x8 != 0
    szx := min (value &&& 0x7).toUInt8 maxSzx }

def encodeBlock (b : Block) : Option UInt32 := do
  shift 32 4
  shift 32 3
  return (b.num <<< 4) ||| ((if b.more then (1 : UInt32) else 0) <<< 3) |||
    (min b.szx maxSzx).toUInt32

def capped (b : Block) (maxSzx : UInt8) : Option Block :=
  if b.szx ≤ maxSzx then some b
  else do
    let steps ← sub b.szx.toNat maxSzx.toNat
    shift 32 steps
    return { b with
      num := Block.saturatingMul b.num (1 <<< UInt32.ofNat steps)
      szx := maxSzx }

def byteRange (b : Block) : Option (Nat × Nat) := do
  let start ← offset b
  let size ← sizeFor b.szx
  let stop ← add 64 start size
  let last ← sub stop 1
  return (start, last)

def moreAfter (b : Block) (total : Nat) : Option Bool := do
  let start ← offset b
  let size ← sizeFor b.szx
  let stop ← add 64 start size
  return decide (stop < total)

/-! None of them panics. -/

theorem cls_eq (code : UInt8) : cls code = some (Code.cls code) :=
  rfl

theorem optionUint_eq (msg : Message) (number : UInt16) :
    optionUint msg number = some (msg.optionUint number) := by
  have hfold (value : Octets) (acc : UInt32) :
      value.foldlM pushByte acc = some (value.foldl
        (fun (acc : UInt32) byte => (acc <<< 8) ||| byte.toUInt32) acc) := by
    induction value generalizing acc with
    | nil => rfl
    | cons byte value ih =>
        have hpush : pushByte acc byte =
            some ((acc <<< 8) ||| byte.toUInt32) := rfl
        rw [List.foldlM_cons, hpush, List.foldl_cons]
        exact ih _
  unfold optionUint Message.optionUint
  cases msg.firstOption number with
  | none => rfl
  | some value =>
      dsimp only
      split_ifs
      · rfl
      · rw [hfold]
        rfl

theorem drop_length_takeWhile (p : UInt8 → Bool) (buf : Octets) :
    buf.drop (buf.takeWhile p).length = buf.dropWhile p := by
  have hsplit : (buf.takeWhile p ++ buf.dropWhile p).drop
      (buf.takeWhile p).length = buf.dropWhile p := List.drop_left
  rwa [List.takeWhile_append_dropWhile] at hsplit

theorem encodeUint_eq (value : UInt32) :
    encodeUint value = some (Coap.encodeUint value) := by
  have hle := (List.takeWhile_prefix (l := Octets.be32 value.toNat)
    (· == 0)).length_le
  rw [encodeUint, slice_to_end hle, drop_length_takeWhile]
  rfl

theorem setOptionUint_eq (msg : Message) (number : UInt16) (value : UInt32) :
    setOptionUint msg number value = some (msg.setOptionUint number value) := by
  rw [setOptionUint, encodeUint_eq]
  rfl

theorem nibbleExt_eq (value : Nat) :
    nibbleExt value = some (Coap.nibbleExt value) := by
  unfold nibbleExt Coap.nibbleExt
  split_ifs with hsmall hbyte
  · rfl
  · rw [sub_of_le (Nat.not_lt.mp hsmall)]
    rfl
  · rw [sub_of_le (Nat.not_lt.mp hbyte)]
    rfl

theorem encodeOption_eq {prev : UInt16} {option : MessageOption}
    (hprev : prev ≤ option.1) :
    encodeOption prev option = some (Coap.encodeOption prev option) := by
  rw [encodeOption, sub_of_le (UInt16.le_iff_toNat_le.mp hprev),
    ← UInt16.toNat_sub_of_le _ _ hprev]
  simp only [Option.bind_eq_bind, Option.bind_some, nibbleExt_eq,
    shift_of_lt (by decide : 4 < 8)]
  rfl

/-- The deltas of ascending numbers never underflow. -/
theorem encodeOptionsFrom_eq {prev : UInt16} {options : List MessageOption}
    (hascending : (prev :: options.map Prod.fst).Pairwise (· ≤ ·)) :
    encodeOptionsFrom prev options =
      some (Coap.encodeOptionsFrom prev options) := by
  induction options generalizing prev with
  | nil => rfl
  | cons option rest ih =>
      rw [List.map_cons, List.pairwise_cons] at hascending
      rw [encodeOptionsFrom, encodeOption_eq
        (hascending.1 _ List.mem_cons_self), ih hascending.2]
      rfl

theorem encodeOptionsAndPayload_eq (msg : Message) :
    encodeOptionsAndPayload msg =
      some (Coap.encodeOptionsAndPayload msg) := by
  have hascending : ((0 : UInt16) ::
      (sortByNumber msg.options).map Prod.fst).Pairwise (· ≤ ·) := by
    rw [List.pairwise_cons]
    exact ⟨fun number _ => UInt16.zero_le,
      List.pairwise_map.mpr (sortByNumber_pairwise msg.options)⟩
  rw [encodeOptionsAndPayload, encodeOptionsFrom_eq hascending]
  rfl

theorem readNibbleExt_eq (nibble : UInt8) (buf : Octets) :
    readNibbleExt nibble buf = some (Coap.readNibbleExt nibble buf) := by
  unfold readNibbleExt Coap.readNibbleExt
  split_ifs
  · rfl
  · cases buf with
    | nil => rfl
    | cons first rest =>
        have hlt := first.toNat_lt
        dsimp only
        rw [add_of_lt (by omega)]
        rfl
  · match buf with
    | [] => rfl
    | [_] => rfl
    | a :: b :: rest =>
        have hlt := Octets.ofBe16_lt a b
        dsimp only
        rw [add_of_lt (by omega)]
        rfl
  · rfl

theorem readNibbleExt_le {nibble : UInt8} {buf rest : Octets} {value : Nat}
    (h : Coap.readNibbleExt nibble buf = .ok (value, rest)) :
    value ≤ maxOptionLen :=
  (readNibbleExt_sound h).1

theorem slice_tail (byte : UInt8) (buf : Octets) :
    slice (byte :: buf) 1 (byte :: buf).length = some buf :=
  slice_to_end (Nat.le_add_left 1 _)

/-- One turn of the loop. -/
theorem decodeOptionsLoop_cons (fuel : Nat) (number : UInt16) (byte : UInt8)
    (buf : Octets) (msg : Message) :
    decodeOptionsLoop (fuel + 1) number (byte :: buf) msg =
      if byte = 0xFF then
        if (byte :: buf).length = 1 then
          some (.error .payloadMarkerNoPayload)
        else some (.ok { msg with payload := buf })
      else
        match Coap.readNibbleExt (byte >>> 4) buf with
        | .error e => some (.error e)
        | .ok (delta, buf) =>
            match Coap.readNibbleExt (byte &&& 0x0F) buf with
            | .error e => some (.error e)
            | .ok (len, buf) =>
                if buf.length < len then some (.error .truncated)
                else if number.toNat + delta < 65536 then
                  decodeOptionsLoop fuel (UInt16.ofNat (number.toNat + delta))
                    (buf.drop len)
                    { msg with options := msg.options ++
                        [(UInt16.ofNat (number.toNat + delta), buf.take len)] }
                else some (.error .badOptionEncoding) := by
  have hhead : index (byte :: buf) 0 = some byte := rfl
  have hnumber := number.toNat_lt
  simp only [decodeOptionsLoop, List.isEmpty_cons, Bool.false_eq_true,
    if_false, hhead, slice_tail, shift_of_lt (by decide : 4 < 8),
    readNibbleExt_eq, Option.bind_eq_bind, Option.bind_some]
  split_ifs with hmarker hlast
  · rfl
  · rfl
  · cases hdelta : Coap.readNibbleExt (byte >>> 4) buf with
    | error e => rfl
    | ok read =>
        obtain ⟨delta, buf'⟩ := read
        have hle := readNibbleExt_le hdelta
        unfold maxOptionLen at hle
        cases hlen : Coap.readNibbleExt (byte &&& 0x0F) buf' with
        | error e => simp only [hlen]; rfl
        | ok read =>
            obtain ⟨len, buf''⟩ := read
            simp only [hlen]
            by_cases hshort : buf''.length < len
            · simp only [if_pos hshort]
              rfl
            · rw [not_lt] at hshort
              simp only [if_neg (not_lt.mpr hshort),
                add_of_lt (by omega : number.toNat + delta < 2 ^ 32),
                slice_from_start hshort, slice_to_end hshort,
                Option.bind_some]
              rfl

/-- A turn leaves fewer bytes than it found, so the fuel lasts. -/
theorem decodeOptionsLoop_eq {fuel : Nat} {number : UInt16} {buf : Octets}
    {msg : Message} (hfuel : buf.length ≤ fuel) :
    decodeOptionsLoop (fuel + 1) number buf msg =
      some (Coap.decodeOptionsLoop number buf msg) := by
  fun_induction Coap.decodeOptionsLoop number buf msg generalizing fuel with
  | case1 number msg =>
      rfl
  | case2 number msg buf hempty =>
      have hnil : buf = [] := List.isEmpty_iff.mp hempty
      subst hnil
      rfl
  | case3 number msg buf hempty =>
      have hlength : (0xFF :: buf).length ≠ 1 := by
        rw [List.isEmpty_iff, ← List.length_eq_zero_iff] at hempty
        rw [List.length_cons]
        omega
      rw [decodeOptionsLoop_cons, if_pos rfl, if_neg hlength]
  | case4 number msg byte buf hmarker e hdelta =>
      rw [decodeOptionsLoop_cons, if_neg hmarker, hdelta]
  | case5 number msg byte buf hmarker delta buf' hdelta e hlen =>
      rw [decodeOptionsLoop_cons, if_neg hmarker, hdelta]
      simp only [hlen]
  | case6 number msg byte buf hmarker delta buf' hdelta len buf'' hlen hshort =>
      rw [decodeOptionsLoop_cons, if_neg hmarker, hdelta]
      simp only [hlen, if_pos hshort]
  | case7 number msg byte buf hmarker delta buf' hdelta len buf'' hlen hfits
      hextended ih =>
      have hread := readNibbleExt_length hdelta
      have hread' := readNibbleExt_length hlen
      rw [decodeOptionsLoop_cons, if_neg hmarker, hdelta]
      simp only [hlen, if_neg hfits, if_pos hextended]
      cases fuel with
      | zero => cases hfuel
      | succ fuel =>
          apply ih
          rw [List.length_cons] at hfuel
          rw [List.length_drop]
          omega
  | case8 number msg byte buf hmarker delta buf' hdelta len buf'' hlen hfits
      hextended =>
      rw [decodeOptionsLoop_cons, if_neg hmarker, hdelta]
      simp only [hlen, if_neg hfits, if_neg hextended]

theorem decodeOptionsAndPayload_eq (buf : Octets) (msg : Message) :
    decodeOptionsAndPayload buf msg =
      some (Coap.decodeOptionsAndPayload buf msg) :=
  decodeOptionsLoop_eq (Nat.le_refl buf.length)

/-! Neither do those on blocks, whose sizes are at most 1024. -/

variable {b : Block}

theorem sizeFor_eq {szx : UInt8} (hszx : szx ≤ maxSzx) :
    sizeFor szx = some (Coap.sizeFor szx) := by
  have hle : szx.toNat ≤ 6 := hszx
  rw [sizeFor, add_of_lt (by omega), Option.bind_eq_bind, Option.bind_some,
    shift_of_lt (by omega)]
  rfl

theorem offset_eq (hszx : b.szx ≤ maxSzx) : offset b = some b.offset := by
  have hlt := Block.offset_lt hszx
  rw [offset, sizeFor_eq hszx, Option.bind_eq_bind, Option.bind_some]
  exact mul_of_lt (Nat.lt_trans hlt (by decide))

theorem decodeBlock_eq (value : UInt32) :
    decodeBlock value = some (Block.decode value) :=
  rfl

theorem encodeBlock_eq (b : Block) : encodeBlock b = some b.encode :=
  rfl

theorem capped_eq (hszx : b.szx ≤ maxSzx) (ceiling : UInt8) :
    capped b ceiling = some (b.capped ceiling) := by
  have hle : b.szx.toNat ≤ 6 := hszx
  unfold capped Block.capped
  split_ifs with hfits
  · rfl
  · have hceiling : ceiling ≤ b.szx := UInt8.le_of_lt (UInt8.not_le.mp hfits)
    have hsteps : UInt32.ofNat (b.szx.toNat - ceiling.toNat) =
        (b.szx - ceiling).toUInt32 := by
      rw [← UInt8.toNat_sub_of_le _ _ hceiling, UInt32.ofNat_uInt8ToNat]
    rw [sub_of_le (UInt8.le_iff_toNat_le.mp hceiling), Option.bind_eq_bind,
      Option.bind_some, shift_of_lt (by omega), hsteps]
    rfl

theorem blockEnd_eq (hszx : b.szx ≤ maxSzx) :
    add 64 b.offset b.size = some (b.offset + b.size) := by
  have hoffset := Block.offset_lt hszx
  have hsize := Block.size_le hszx
  exact add_of_lt (by omega)

theorem byteRange_eq (hszx : b.szx ≤ maxSzx) :
    byteRange b = some b.byteRange := by
  have hsize := b.sixteen_le_size
  have hadd := blockEnd_eq hszx
  rw [Block.size] at hadd
  simp only [byteRange, offset_eq hszx, sizeFor_eq hszx, hadd,
    Option.bind_eq_bind, Option.bind_some]
  rw [← Block.size, sub_of_le (by omega)]
  rfl

theorem moreAfter_eq (hszx : b.szx ≤ maxSzx) (total : Nat) :
    moreAfter b total = some (Coap.moreAfter b total) := by
  have hadd := blockEnd_eq hszx
  rw [Block.size] at hadd
  simp only [moreAfter, offset_eq hszx, sizeFor_eq hszx, hadd,
    Option.bind_eq_bind, Option.bind_some]
  rfl

end Loft.Coap.Checked
