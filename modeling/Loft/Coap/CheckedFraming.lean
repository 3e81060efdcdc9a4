import Loft.Coap.Checked

namespace Loft.Coap.Checked

open Loft.Data
open Loft.Data.Checked

/-! Datagrams. -/

def encodeDatagram (dgram : Datagram) : Option Octets := do
  let tkl := min dgram.message.token.length maxTokenLen
  let capacity ← add 64 4 dgram.message.payload.length
  let _ ← add 64 capacity 32
  shift 8 6
  shift 8 4
  let token ← slice dgram.message.token 0 tkl
  let region ← encodeOptionsAndPayload dgram.message
  return Datagram.firstByte dgram.messageType (UInt8.ofNat tkl) ::
    dgram.message.code :: (Octets.be16 dgram.messageId.toNat ++ token ++ region)

def decodeDatagram (buf : Octets) : Option (Except DecodeError Datagram) :=
  if buf.length < 4 then some (.error .truncated)
  else do
    let first ← index buf 0
    shift 8 6
    if first >>> 6 ≠ version then return .error .badOptionEncoding
    else
      shift 8 4
      let tkl := (first &&& 0x0F).toNat
      if tkl > maxTokenLen then return .error .badTokenLength
      else
        let code ← index buf 1
        let midHigh ← index buf 2
        let midLow ← index buf 3
        let start ← add 64 4 tkl
        if buf.length < start then return .error .truncated
        else
          let token ← slice buf 4 start
          let region ← slice buf start buf.length
          match ← decodeOptionsAndPayload region
              { code := code, token := token } with
          | .error e => return .error e
          | .ok message => return .ok {
              messageType := MessageType.fromBits (first >>> 4)
              messageId := UInt16.ofNat (Octets.ofBe16 midHigh midLow)
              message := message }

/-! Frames. -/

def encodeBodyLen (bodyLen : Nat) : Option (UInt8 × Octets) :=
  if bodyLen < 13 then some (UInt8.ofNat bodyLen, [])
  else if bodyLen < 269 then do
    let rest ← sub bodyLen 13
    return (13, [UInt8.ofNat rest])
  else if bodyLen < 65805 then do
    let rest ← sub bodyLen 269
    return (14, Octets.be16 rest)
  else do
    let rest ← sub bodyLen 65805
    return (15, Octets.be32 rest)

def encodeFrame (msg : Message) : Option Octets := do
  let body ← encodeOptionsAndPayload msg
  let tkl := min msg.token.length maxTokenLen
  let capacity ← add 64 body.length msg.token.length
  let _ ← add 64 capacity 6
  let (lenNibble, ext) ← encodeBodyLen body.length
  shift 8 4
  let token ← slice msg.token 0 tkl
  return Octets.packNibbles lenNibble (UInt8.ofNat tkl) ::
    (ext ++ msg.code :: (token ++ body))

def readBodyLen (lenNibble : UInt8) (rest : Octets) :
    Option (Option (Nat × Nat)) :=
  if lenNibble ≤ 12 then some (some (lenNibble.toNat, 0))
  else if lenNibble = 13 then
    match rest with
    | ext :: _ => do
        let bodyLen ← add 64 13 ext.toNat
        return some (bodyLen, 1)
    | _ => some none
  else if lenNibble = 14 then
    match rest with
    | a :: b :: _ => do
        let bodyLen ← add 64 269 (Octets.ofBe16 a b)
        return some (bodyLen, 2)
    | _ => some none
  else
    match rest with
    | a :: b :: c :: d :: _ => do
        let bodyLen ← add 64 65805 (Octets.ofBe32 a b c d)
        return some (bodyLen, 4)
    | _ => some none

def tryDecodeFrame (buf : Octets) :
    Option (Except DecodeError (Option (Message × Nat))) :=
  match buf with
  | [] => some (.ok none)
  | first :: rest => do
      shift 8 4
      let tkl := (first &&& 0x0F).toNat
      if tkl > maxTokenLen then return .error .badTokenLength
      else
        match ← readBodyLen (first >>> 4) rest with
        | none => return .ok none
        | some (bodyLen, extBytes) =>
            if bodyLen > maxFrameBody then return .error .truncated
            else
              let codeAt ← add 64 1 extBytes
              let tokenStart ← add 64 codeAt 1
              let tokenEnd ← add 64 tokenStart tkl
              let total ← add 64 tokenEnd bodyLen
              if buf.length < total then return .ok none
              else
                let code ← index buf codeAt
                let token ← slice buf tokenStart tokenEnd
                let region ← slice buf tokenEnd total
                match ← decodeOptionsAndPayload region
                    { code := code, token := token } with
                | .error e => return .error e
                | .ok msg => return .ok (some (msg, total))

def nextFrame (dec : FrameDecoder) :
    Option (Except DecodeError (Option Message) × FrameDecoder) := do
  match ← tryDecodeFrame dec.buf with
  | .error e => return (.error e, dec)
  | .ok none => return (.ok none, dec)
  | .ok (some (msg, consumed)) =>
      let rest ← slice dec.buf consumed dec.buf.length
      return (.ok (some msg), { buf := rest })

/-! Decoding never panics; nor does encoding, as long as the sizes that go
into a capacity are those of a message that fits in memory. -/

theorem encodeDatagram_eq {dgram : Datagram}
    (hpayload : dgram.message.payload.length < 2 ^ 63) :
    encodeDatagram dgram = some dgram.encode := by
  have htkl : min dgram.message.token.length maxTokenLen ≤
      dgram.message.token.length := Nat.min_le_left _ _
  simp only [encodeDatagram, add_of_lt
      (by omega : 4 + dgram.message.payload.length < 2 ^ 64),
    add_of_lt (by omega : 4 + dgram.message.payload.length + 32 < 2 ^ 64),
    shift_of_lt (by decide : 6 < 8), shift_of_lt (by decide : 4 < 8),
    slice_from_start htkl, encodeOptionsAndPayload_eq, Option.bind_eq_bind,
    Option.bind_some]
  rfl

theorem decodeDatagram_eq (buf : Octets) :
    decodeDatagram buf = some (Datagram.decode buf) := by
  match buf with
  | [] => rfl
  | [_] => rfl
  | [_, _] => rfl
  | [_, _, _] => rfl
  | first :: code :: midHigh :: midLow :: rest =>
      have hlength : (first :: code :: midHigh :: midLow :: rest).length =
          rest.length + 4 := rfl
      have hfirst : index (first :: code :: midHigh :: midLow :: rest) 0 =
          some first := rfl
      have hcode : index (first :: code :: midHigh :: midLow :: rest) 1 =
          some code := rfl
      have hhigh : index (first :: code :: midHigh :: midLow :: rest) 2 =
          some midHigh := rfl
      have hlow : index (first :: code :: midHigh :: midLow :: rest) 3 =
          some midLow := rfl
      have hlong : ¬ (first :: code :: midHigh :: midLow :: rest).length < 4 := by
        rw [hlength]
        omega
      simp only [decodeDatagram, Datagram.decode, if_neg hlong, hfirst,
        shift_of_lt (by decide : 6 < 8), shift_of_lt (by decide : 4 < 8),
        hcode, hhigh, hlow, Option.bind_eq_bind, Option.bind_some]
      split_ifs with hversion htkl hshort
      · rfl
      · rfl
      · have htoken := Nat.not_lt.mp htkl
        unfold maxTokenLen at htoken
        rw [add_of_lt (by omega), Option.bind_some, if_pos (by omega)]
        rfl
      · have htoken := Nat.not_lt.mp htkl
        unfold maxTokenLen at htoken
        generalize hbuf : first :: code :: midHigh :: midLow :: rest = buf
          at hlength
        have hdrop : buf.drop 4 = rest := by
          rw [← hbuf]
          rfl
        have hregion : buf.drop (4 + (first &&& 0x0F).toNat) =
            rest.drop (first &&& 0x0F).toNat := by
          rw [← List.drop_drop, hdrop]
        rw [add_of_lt (by omega), Option.bind_some, if_neg (by omega),
          slice_range (by omega), Option.bind_some, slice_to_end (by omega),
          Option.bind_some, hdrop, hregion, decodeOptionsAndPayload_eq,
          Option.bind_some]
        cases Coap.decodeOptionsAndPayload (rest.drop (first &&& 0x0F).toNat)
          { code := code, token := rest.take (first &&& 0x0F).toNat } <;> rfl

theorem encodeBodyLen_eq (bodyLen : Nat) :
    encodeBodyLen bodyLen = some (Coap.encodeBodyLen bodyLen) := by
  unfold encodeBodyLen Coap.encodeBodyLen
  split_ifs with hsmall hbyte hword
  · rfl
  · rw [sub_of_le (Nat.not_lt.mp hsmall)]
    rfl
  · rw [sub_of_le (Nat.not_lt.mp hbyte)]
    rfl
  · rw [sub_of_le (Nat.not_lt.mp hword)]
    rfl

theorem encodeFrame_eq {msg : Message}
    (hbody : (Coap.encodeOptionsAndPayload msg).length < 2 ^ 62)
    (htoken : msg.token.length < 2 ^ 62) :
    encodeFrame msg = some (Coap.encodeFrame msg) := by
  have htkl : min msg.token.length maxTokenLen ≤ msg.token.length :=
    Nat.min_le_left _ _
  simp only [encodeFrame, encodeOptionsAndPayload_eq, encodeBodyLen_eq,
    shift_of_lt (by decide : 4 < 8), slice_from_start htkl,
    Option.bind_eq_bind, Option.bind_some]
  rw [add_of_lt (by omega), Option.bind_some, add_of_lt (by omega)]
  rfl

theorem readBodyLen_eq (lenNibble : UInt8) (rest : Octets) :
    readBodyLen lenNibble rest = some (Coap.readBodyLen lenNibble rest) := by
  unfold readBodyLen Coap.readBodyLen
  split_ifs
  · rfl
  · cases rest with
    | nil => rfl
    | cons ext rest =>
        have hlt := ext.toNat_lt
        dsimp only
        rw [add_of_lt (by omega)]
        rfl
  · match rest with
    | [] => rfl
    | [_] => rfl
    | a :: b :: rest =>
        have hlt := Octets.ofBe16_lt a b
        dsimp only
        rw [add_of_lt (by omega)]
        rfl
  · match rest with
    | [] => rfl
    | [_] => rfl
    | [_, _] => rfl
    | [_, _, _] => rfl
    | a :: b :: c :: d :: rest =>
        have hlt := Octets.ofBe32_lt a b c d
        dsimp only
        rw [add_of_lt (by omega)]
        rfl

theorem tryDecodeFrame_eq (buf : Octets) :
    tryDecodeFrame buf = some (Coap.tryDecodeFrame buf) := by
  cases buf with
  | nil => rfl
  | cons first rest =>
      simp only [tryDecodeFrame, Coap.tryDecodeFrame,
        shift_of_lt (by decide : 4 < 8), readBodyLen_eq, Option.bind_eq_bind,
        Option.bind_some]
      by_cases htkl : (first &&& 0x0F).toNat > maxTokenLen
      · rw [if_pos htkl, if_pos htkl]
        rfl
      rw [if_neg htkl, if_neg htkl]
      cases hlen : Coap.readBodyLen (first >>> 4) rest with
      | none => rfl
      | some found =>
          obtain ⟨bodyLen, extBytes⟩ := found
          have hext := readBodyLen_extBytes_le hlen
          have htoken := Nat.not_lt.mp htkl
          unfold maxTokenLen at htoken
          dsimp only
          by_cases hmax : bodyLen > maxFrameBody
          · rw [if_pos hmax, if_pos hmax]
            rfl
          have hbody := Nat.not_lt.mp hmax
          unfold maxFrameBody at hbody
          rw [if_neg hmax, if_neg hmax, add_of_lt (by omega), Option.bind_some,
            add_of_lt (by omega), Option.bind_some, add_of_lt (by omega),
            Option.bind_some, add_of_lt (by omega), Option.bind_some]
          split_ifs with hshort
          · rfl
          · have hlong := Nat.not_lt.mp hshort
            have hcodeAt : 1 + extBytes < (first :: rest).length := by omega
            have hcode : (first :: rest)[1 + extBytes] =
                (first :: rest).getD (1 + extBytes) 0 :=
              (List.getD_eq_getElem _ _ hcodeAt).symm
            rw [index_of_lt hcodeAt, Option.bind_some,
              slice_range (by omega), Option.bind_some,
              slice_of_le (by omega) hlong, Option.bind_some,
              decodeOptionsAndPayload_eq, Option.bind_some, hcode]
            generalize Coap.decodeOptionsAndPayload _ _ = decoded
            cases decoded <;> rfl

theorem nextFrame_eq (dec : FrameDecoder) :
    nextFrame dec = some dec.nextFrame := by
  rw [nextFrame, tryDecodeFrame_eq, Option.bind_eq_bind, Option.bind_some]
  cases hscan : Coap.tryDecodeFrame dec.buf with
  | error e => rw [FrameDecoder.nextFrame_of_error hscan]; rfl
  | ok found =>
      cases found with
      | none => rw [FrameDecoder.nextFrame_of_none hscan]; rfl
      | some scanned =>
          obtain ⟨msg, consumed⟩ := scanned
          have hused := (tryDecodeFrame_sound hscan).2.2.1
          rw [FrameDecoder.nextFrame_of_some hscan]
          dsimp only
          rw [slice_to_end hused]
          rfl

end Loft.Coap.Checked
