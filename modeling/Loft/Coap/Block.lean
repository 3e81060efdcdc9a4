import Loft.Coap.Message

namespace Loft.Coap

/-! Block-wise transfer: the Block1/Block2 option value and its mapping to byte
ranges. -/

def maxSzx : UInt8 := 6

def sizeFor (szx : UInt8) : Nat :=
  1 <<< (szx.toNat + 4)

structure Block where
  num : UInt32
  more : Bool
  szx : UInt8
  deriving DecidableEq, Repr

namespace Block

def size (b : Block) : Nat :=
  sizeFor b.szx

def offset (b : Block) : Nat :=
  b.num.toNat * b.size

/-- Never `none`: szx 7 is read as the largest size served. -/
def decode (value : UInt32) : Option Block :=
  let szx := (value &&& 0x7).toUInt8
  some {
    num := value >>> 4
    more := value &&& 0x8 != 0
    szx := min szx maxSzx }

def encode (b : Block) : UInt32 :=
  (b.num <<< 4) ||| ((if b.more then (1 : UInt32) else 0) <<< 3) |||
    (min b.szx maxSzx).toUInt32

def saturatingMul (num factor : UInt32) : UInt32 :=
  if num.toNat * factor.toNat < 2 ^ 32 then num * factor else 0xFFFFFFFF

def capped (b : Block) (maxSzx : UInt8) : Block :=
  if b.szx ≤ maxSzx then b
  else
    { b with
      num := saturatingMul b.num (1 <<< (b.szx - maxSzx).toUInt32)
      szx := maxSzx }

def byteRange (b : Block) : Nat × Nat :=
  (b.offset, b.offset + b.size - 1)

theorem decode_num_lt {value : UInt32} {b : Block} (h : decode value = some b) :
    b.num.toNat < 2 ^ 28 := by
  cases h
  have hlt := value.toNat_lt
  rw [UInt32.toNat_shiftRight]
  change value.toNat >>> 4 < 2 ^ 28
  rw [Nat.shiftRight_eq_div_pow]
  omega

theorem offset_of_num_eq_zero {b : Block} (hnum : b.num = 0) :
    b.offset = 0 := by
  rw [offset, hnum]
  exact Nat.zero_mul _

end Block

def moreAfter (block : Block) (total : Nat) : Bool :=
  block.offset + block.size < total

/-- `str::trim` works on Unicode white space. -/
def isWhiteSpace (c : Char) : Bool :=
  let n := c.toNat
  (9 ≤ n && n ≤ 13) || n == 0x20 || n == 0x85 || n == 0xA0 || n == 0x1680 ||
    (0x2000 ≤ n && n ≤ 0x200A) || n == 0x2028 || n == 0x2029 || n == 0x202F ||
    n == 0x205F || n == 0x3000

def trim (text : List Char) : List Char :=
  ((text.dropWhile isWhiteSpace).reverse.dropWhile isWhiteSpace).reverse

def stripPrefix (head text : List Char) : Option (List Char) :=
  if head.isPrefixOf text then some (text.drop head.length) else none

def splitOnce (sep : Char) (text : List Char) :
    Option (List Char × List Char) :=
  match text.dropWhile (· != sep) with
  | [] => none
  | _ :: rest => some (text.takeWhile (· != sep), rest)

def parseDigits : List Char → Nat → Option Nat
  | [], acc => some acc
  | c :: rest, acc =>
      if c.isDigit then
        let acc := acc * 10 + (c.toNat - '0'.toNat)
        if acc < 2 ^ 64 then parseDigits rest acc else none
      else none

/-- `str::parse::<u64>`: digits with an optional leading plus, checked. -/
def parseU64 (text : List Char) : Option Nat :=
  match text with
  | [] => none
  | '+' :: [] => none
  | '+' :: rest => parseDigits rest 0
  | _ => parseDigits text 0

/-- `Content-Range: bytes <start>-<end>/<total>`. -/
def parseContentRange (value : String) : Option (Nat × Nat × Nat) := do
  let rest ← stripPrefix "bytes ".toList (trim value.toList)
  let (range, total) ← splitOnce '/' rest
  let (start, stop) ← splitOnce '-' range
  return (← parseU64 (trim start), ← parseU64 (trim stop),
    ← parseU64 (trim total))

end Loft.Coap
