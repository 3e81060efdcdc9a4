import Mathlib.Data.List.Sort
import Loft.Data.Octets
import Loft.Data.Utf8

namespace Loft.Coap

open Loft.Data

/-! The transport-agnostic message: codes, options, and the options+payload
region that the UDP and the TCP framings share. -/

namespace Code

def resp (cls detail : UInt8) : UInt8 :=
  (cls <<< 5) ||| detail

def empty : UInt8 := 0x00
def get : UInt8 := 0x01
def post : UInt8 := 0x02

def created : UInt8 := resp 2 1
def changed : UInt8 := resp 2 4
def content : UInt8 := resp 2 5
def continue_ : UInt8 := resp 2 31

def badRequest : UInt8 := resp 4 0
def unauthorized : UInt8 := resp 4 1
def badOption : UInt8 := resp 4 2
def forbidden : UInt8 := resp 4 3
def notFound : UInt8 := resp 4 4
def methodNotAllowed : UInt8 := resp 4 5
def requestEntityIncomplete : UInt8 := resp 4 8
def requestEntityTooLarge : UInt8 := resp 4 13

def badGateway : UInt8 := resp 5 2
def serviceUnavailable : UInt8 := resp 5 3
def gatewayTimeout : UInt8 := resp 5 4

def csm : UInt8 := resp 7 1
def ping : UInt8 := resp 7 2
def pong : UInt8 := resp 7 3
def release : UInt8 := resp 7 4
def abort : UInt8 := resp 7 5

def cls (code : UInt8) : UInt8 :=
  code >>> 5

def isRequest (code : UInt8) : Bool :=
  cls code == 0 && code != empty

end Code

namespace OptionNumber

def uriHost : UInt16 := 3
def etag : UInt16 := 4
def observe : UInt16 := 6
def uriPort : UInt16 := 7
def uriPath : UInt16 := 11
def contentFormat : UInt16 := 12
def uriQuery : UInt16 := 15
def block2 : UInt16 := 23
def block1 : UInt16 := 27
def size2 : UInt16 := 28
def size1 : UInt16 := 60

def isCritical (number : UInt16) : Bool :=
  number &&& 1 == 1

end OptionNumber

namespace ContentFormat

def octetStream : UInt16 := 42
def json : UInt16 := 50

end ContentFormat

def maxTokenLen : Nat := 8

abbrev MessageOption := UInt16 × Octets

structure Message where
  code : UInt8 := 0
  token : Octets := []
  options : List MessageOption := []
  payload : Octets := []
  deriving DecidableEq, Repr

/-- Minimal-length big-endian encoding; zero is the empty string. -/
def encodeUint (value : UInt32) : Octets :=
  (Octets.be32 value.toNat).dropWhile (· == 0)

theorem length_encodeUint_le (value : UInt32) :
    (encodeUint value).length ≤ 4 :=
  (List.dropWhile_suffix _).length_le

namespace Message

def response (code : UInt8) (request : Message) : Message :=
  { code := code, token := request.token }

def optionValues (msg : Message) (number : UInt16) : List Octets :=
  (msg.options.filter fun option => option.1 == number).map Prod.snd

def firstOption (msg : Message) (number : UInt16) : Option Octets :=
  (msg.optionValues number).head?

def optionUint (msg : Message) (number : UInt16) : Option UInt32 :=
  match msg.firstOption number with
  | none => none
  | some value =>
      if value.length > 4 then none
      else some (value.foldl (fun acc byte => (acc <<< 8) ||| byte.toUInt32) 0)

def pushOption (msg : Message) (number : UInt16) (value : Octets) : Message :=
  { msg with options := msg.options ++ [(number, value)] }

def setOptionUint (msg : Message) (number : UInt16) (value : UInt32) :
    Message :=
  { msg with
    options := (msg.options.filter fun option => option.1 != number) ++
      [(number, encodeUint value)] }

def pathSegments (msg : Message) : List String :=
  (msg.optionValues OptionNumber.uriPath).map fromUtf8Lossy

def unknownCriticalOption (msg : Message) (known : List UInt16) :
    Option UInt16 :=
  (msg.options.map Prod.fst).find? fun number =>
    OptionNumber.isCritical number && !known.contains number

variable (msg request : Message) (code : UInt8) (number : UInt16)
  (value : UInt32) (bytes : Octets)

@[simp] theorem response_code : (response code request).code = code :=
  rfl

@[simp] theorem response_token :
    (response code request).token = request.token :=
  rfl

@[simp] theorem response_payload : (response code request).payload = [] :=
  rfl

@[simp] theorem pushOption_code :
    (msg.pushOption number bytes).code = msg.code :=
  rfl

@[simp] theorem pushOption_token :
    (msg.pushOption number bytes).token = msg.token :=
  rfl

@[simp] theorem setOptionUint_code :
    (msg.setOptionUint number value).code = msg.code :=
  rfl

@[simp] theorem setOptionUint_token :
    (msg.setOptionUint number value).token = msg.token :=
  rfl

@[simp] theorem setOptionUint_payload :
    (msg.setOptionUint number value).payload = msg.payload :=
  rfl

end Message

inductive DecodeError
  | truncated
  | badOptionEncoding
  | badTokenLength
  | payloadMarkerNoPayload
  deriving DecidableEq, Repr

/-! The codec of the shared region. -/

/-- Nibble and extension octets of an option delta or length.  The casts of
the source truncate, so lengths past 65804 are not represented faithfully. -/
def nibbleExt (value : Nat) : UInt8 × Octets :=
  if value < 13 then (UInt8.ofNat value, [])
  else if value < 269 then (13, [UInt8.ofNat (value - 13)])
  else (14, Octets.be16 (value - 269))

def readNibbleExt (nibble : UInt8) (buf : Octets) :
    Except DecodeError (Nat × Octets) :=
  if nibble ≤ 12 then .ok (nibble.toNat, buf)
  else if nibble = 13 then
    match buf with
    | first :: rest => .ok (13 + first.toNat, rest)
    | _ => .error .truncated
  else if nibble = 14 then
    match buf with
    | a :: b :: rest => .ok (269 + Octets.ofBe16 a b, rest)
    | _ => .error .truncated
  else .error .badOptionEncoding

def encodeOption (prev : UInt16) (option : MessageOption) : Octets :=
  let delta := nibbleExt (option.1 - prev).toNat
  let len := nibbleExt (option.2.length % 2 ^ 32)
  Octets.packNibbles delta.1 len.1 :: (delta.2 ++ len.2 ++ option.2)

def encodeOptionsFrom : UInt16 → List MessageOption → Octets
  | _, [] => []
  | prev, option :: rest =>
      encodeOption prev option ++ encodeOptionsFrom option.1 rest

def encodePayload (payload : Octets) : Octets :=
  if payload.isEmpty then [] else 0xFF :: payload

def numberLe (left right : MessageOption) : Bool :=
  decide (left.1 ≤ right.1)

def sortByNumber (options : List MessageOption) : List MessageOption :=
  options.mergeSort numberLe

def encodeOptionsAndPayload (msg : Message) : Octets :=
  encodeOptionsFrom 0 (sortByNumber msg.options) ++ encodePayload msg.payload

theorem readNibbleExt_length {nibble : UInt8} {buf rest : Octets} {value : Nat}
    (h : readNibbleExt nibble buf = .ok (value, rest)) :
    rest.length ≤ buf.length := by
  unfold readNibbleExt at h
  split_ifs at h
  · cases h
    exact Nat.le_refl _
  · split at h <;> cases h
    exact Nat.le_succ _
  · split at h <;> cases h
    simp only [List.length_cons]
    omega

/-- The decode loop: `number` is the running option number, `msg` collects. -/
def decodeOptionsLoop (number : UInt16) (buf : Octets) (msg : Message) :
    Except DecodeError Message :=
  match buf with
  | [] => .ok msg
  | byte :: buf =>
      if byte = 0xFF then
        if buf.isEmpty then .error .payloadMarkerNoPayload
        else .ok { msg with payload := buf }
      else
        match _hdelta : readNibbleExt (byte >>> 4) buf with
        | .error e => .error e
        | .ok (delta, buf') =>
            match _hlen : readNibbleExt (byte &&& 0x0F) buf' with
            | .error e => .error e
            | .ok (len, buf'') =>
                if buf''.length < len then .error .truncated
                -- the narrowing back to u16 is checked, never wrapping
                else if number.toNat + delta < 65536 then
                  decodeOptionsLoop (UInt16.ofNat (number.toNat + delta))
                    (buf''.drop len)
                    { msg with options := msg.options ++
                        [(UInt16.ofNat (number.toNat + delta), buf''.take len)] }
                else .error .badOptionEncoding
termination_by buf.length
decreasing_by
  have hdelta := readNibbleExt_length _hdelta
  have hlen := readNibbleExt_length _hlen
  simp only [List.length_drop, List.length_cons]
  omega

def decodeOptionsAndPayload (buf : Octets) (msg : Message) :
    Except DecodeError Message :=
  decodeOptionsLoop 0 buf msg

end Loft.Coap
