import Loft.Coap.OptionCodec
import Loft.Data.Scanner

namespace Loft.Coap

open Loft.Data

/-! Length-prefixed framing for TCP: `[Len|TKL] [ExtLen] [Code] [Token]` and
the shared region, whose length the prefix declares. -/

def maxFrameBody : Nat := 256 * 1024

def encodeBodyLen (bodyLen : Nat) : UInt8 × Octets :=
  if bodyLen < 13 then (UInt8.ofNat bodyLen, [])
  else if bodyLen < 269 then (13, [UInt8.ofNat (bodyLen - 13)])
  else if bodyLen < 65805 then (14, Octets.be16 (bodyLen - 269))
  else (15, Octets.be32 (bodyLen - 65805))

def encodeFrame (msg : Message) : Octets :=
  let body := encodeOptionsAndPayload msg
  let tkl := min msg.token.length maxTokenLen
  let len := encodeBodyLen body.length
  Octets.packNibbles len.1 (UInt8.ofNat tkl) ::
    (len.2 ++ msg.code :: (msg.token.take tkl ++ body))

/-- The declared body length and the number of extension octets, or `none`
when the extension is still incomplete. -/
def readBodyLen (lenNibble : UInt8) (rest : Octets) : Option (Nat × Nat) :=
  if lenNibble ≤ 12 then some (lenNibble.toNat, 0)
  else if lenNibble = 13 then
    match rest with
    | ext :: _ => some (13 + ext.toNat, 1)
    | _ => none
  else if lenNibble = 14 then
    match rest with
    | a :: b :: _ => some (269 + Octets.ofBe16 a b, 2)
    | _ => none
  else
    match rest with
    | a :: b :: c :: d :: _ => some (65805 + Octets.ofBe32 a b c d, 4)
    | _ => none

def tryDecodeFrame (buf : Octets) :
    Except DecodeError (Option (Message × Nat)) :=
  match buf with
  | [] => .ok none
  | first :: rest =>
      let tkl := (first &&& 0x0F).toNat
      if tkl > maxTokenLen then .error .badTokenLength
      else
        match readBodyLen (first >>> 4) rest with
        | none => .ok none
        | some (bodyLen, extBytes) =>
            -- an oversized declaration is refused before its body arrives
            if bodyLen > maxFrameBody then .error .truncated
            else
              let total := 1 + extBytes + 1 + tkl + bodyLen
              if buf.length < total then .ok none
              else
                let code := buf.getD (1 + extBytes) 0
                let tokenStart := 1 + extBytes + 1
                match decodeOptionsAndPayload
                    ((buf.take total).drop (tokenStart + tkl))
                    { code := code, token := (buf.drop tokenStart).take tkl } with
                | .error e => .error e
                | .ok msg => .ok (some (msg, total))

/-! The length field. -/

theorem encodeBodyLen_nibble_lt (bodyLen : Nat) :
    (encodeBodyLen bodyLen).1.toNat < 16 := by
  unfold encodeBodyLen
  split_ifs with hsmall
  · rw [UInt8.toNat_ofNat']
    omega
  · change 13 < 16
    omega
  · change 14 < 16
    omega
  · change 15 < 16
    omega

theorem readBodyLen_encodeBodyLen {bodyLen : Nat}
    (hbody : bodyLen ≤ maxFrameBody) (more : Octets) :
    readBodyLen (encodeBodyLen bodyLen).1 ((encodeBodyLen bodyLen).2 ++ more) =
      some (bodyLen, (encodeBodyLen bodyLen).2.length) := by
  unfold maxFrameBody at hbody
  unfold encodeBodyLen
  split_ifs with hsmall hbyte hword
  · have hle : UInt8.ofNat bodyLen ≤ 12 := by
      rw [UInt8.le_iff_toNat_le, UInt8.toNat_ofNat']
      change bodyLen % 256 ≤ 12
      omega
    have hmod : bodyLen % 256 = bodyLen := by omega
    simp [readBodyLen, hle, UInt8.toNat_ofNat', hmod]
  · have hadd : 13 + (bodyLen - 13) % 256 = bodyLen := by omega
    simp [readBodyLen, UInt8.toNat_ofNat', hadd]
  · have hof := Octets.ofBe16_be16 (bodyLen - 269) (by omega)
    have hadd : 269 + (bodyLen - 269) = bodyLen := by omega
    simp only [readBodyLen, Octets.be16, List.cons_append, hof, hadd]
    rfl
  · have hof := Octets.ofBe32_be32 (bodyLen - 65805) (by omega)
    have hadd : 65805 + (bodyLen - 65805) = bodyLen := by omega
    simp [readBodyLen, Octets.be32, Octets.be16, hof, hadd]

theorem readBodyLen_sound {lenNibble : UInt8} {rest : Octets}
    {bodyLen extBytes : Nat} (hnibble : lenNibble.toNat < 16)
    (h : readBodyLen lenNibble rest = some (bodyLen, extBytes)) :
    extBytes ≤ rest.length ∧
      encodeBodyLen bodyLen = (lenNibble, rest.take extBytes) := by
  unfold readBodyLen at h
  split_ifs at h with hsmall hbyte hword
  · cases h
    have hle : lenNibble.toNat ≤ 12 := UInt8.le_iff_toNat_le.mp hsmall
    have hlt : lenNibble.toNat < 13 := by omega
    simp [encodeBodyLen, hlt]
  · split at h <;> cases h
    rename_i ext rest
    have hext := ext.toNat_lt
    have hthirteen : ¬ 13 + ext.toNat < 13 := by omega
    have hlt : 13 + ext.toNat < 269 := by omega
    simp [encodeBodyLen, hlt, hbyte]
  · split at h <;> cases h
    rename_i a b rest
    have hlt := Octets.ofBe16_lt a b
    have hthirteen : ¬ 269 + Octets.ofBe16 a b < 13 := by omega
    have hbig : ¬ 269 + Octets.ofBe16 a b < 269 := by omega
    have hmax : 269 + Octets.ofBe16 a b < 65805 := by omega
    simp [encodeBodyLen, hthirteen, hmax, hword, Octets.be16_ofBe16]
  · split at h <;> cases h
    rename_i a b c d rest
    have hthirteen : ¬ 65805 + Octets.ofBe32 a b c d < 13 := by omega
    have hbyteLen : ¬ 65805 + Octets.ofBe32 a b c d < 269 := by omega
    have hfifteen : lenNibble = 15 := by
      have h12 : ¬ lenNibble.toNat ≤ 12 := fun hle =>
        hsmall (UInt8.le_iff_toNat_le.mpr hle)
      have h13 : lenNibble.toNat ≠ 13 := fun heq =>
        hbyte (UInt8.toNat_inj.mp heq)
      have h14 : lenNibble.toNat ≠ 14 := fun heq =>
        hword (UInt8.toNat_inj.mp heq)
      apply UInt8.toNat_inj.mp
      change _ = 15
      omega
    simp [encodeBodyLen, hthirteen, hbyteLen, hfifteen, Octets.be32_ofBe32]

theorem readBodyLen_append {lenNibble : UInt8} {rest : Octets}
    {len : Nat × Nat} (h : readBodyLen lenNibble rest = some len)
    (more : Octets) : readBodyLen lenNibble (rest ++ more) = some len := by
  unfold readBodyLen at h ⊢
  split_ifs at h ⊢
  · exact h
  · split at h <;> cases h
    rfl
  · split at h <;> cases h
    rfl
  · split at h <;> cases h
    rfl

theorem readBodyLen_extBytes_le {lenNibble : UInt8} {rest : Octets}
    {bodyLen extBytes : Nat}
    (h : readBodyLen lenNibble rest = some (bodyLen, extBytes)) :
    extBytes ≤ 4 := by
  unfold readBodyLen at h
  split_ifs at h
  · cases h
    exact Nat.zero_le 4
  all_goals
    split at h <;> cases h
    decide

theorem readBodyLen_none_length_lt {lenNibble : UInt8} {rest : Octets}
    (h : readBodyLen lenNibble rest = none) : rest.length < 4 := by
  match rest with
  | [] | [_] | [_, _] | [_, _, _] => simp
  | a :: b :: c :: d :: rest =>
      -- four octets complete every form of the extension
      unfold readBodyLen at h
      split_ifs at h

/-! One frame at the head of the buffer. -/

/-- What a frame can carry. -/
structure Frameable (msg : Message) : Prop where
  token : msg.token.length ≤ maxTokenLen
  values : ∀ option ∈ msg.options, option.2.length ≤ maxOptionLen
  body : (encodeOptionsAndPayload msg).length ≤ maxFrameBody

theorem length_encodeFrame {msg : Message} (htoken : msg.token.length ≤ maxTokenLen) :
    (encodeFrame msg).length =
      1 + (encodeBodyLen (encodeOptionsAndPayload msg).length).2.length + 1 +
        msg.token.length + (encodeOptionsAndPayload msg).length := by
  simp only [encodeFrame, Nat.min_eq_left htoken, List.length_cons,
    List.length_append, List.take_length]
  omega

theorem frame_slices (first code : UInt8) (ext token body more : Octets) :
    let buf := first :: (ext ++ code :: (token ++ body)) ++ more
    let tokenStart := 1 + ext.length + 1
    buf.getD (1 + ext.length) 0 = code ∧
      (buf.drop tokenStart).take token.length = token ∧
      (buf.take (tokenStart + token.length + body.length)).drop
        (tokenStart + token.length) = body := by
  dsimp only
  have hlayout : first :: (ext ++ code :: (token ++ body)) ++ more =
      (first :: (ext ++ [code])) ++ (token ++ (body ++ more)) := by simp
  have hlen : (first :: (ext ++ [code])).length = 1 + ext.length + 1 := by
    simp only [List.length_cons, List.length_append, List.length_nil]
    omega
  have hprefix : ((first :: (ext ++ [code])) ++ token).length =
      1 + ext.length + 1 + token.length := by
    rw [List.length_append, hlen]
  refine ⟨?_, ?_, ?_⟩
  · rw [Nat.add_comm 1, List.cons_append, List.getD_cons_succ,
      List.getD_eq_getElem?_getD]
    simp
  · rw [hlayout, List.drop_left' hlen, List.take_left]
  · rw [hlayout, List.drop_take, ← List.append_assoc,
      List.drop_left' hprefix, Nat.add_sub_cancel_left, List.take_left]

theorem exists_frame_layout (rest : Octets) (extBytes tkl bodyLen : Nat)
    (h : extBytes + 1 + tkl + bodyLen ≤ rest.length) :
    ∃ (code : UInt8) (token body more : Octets),
      token.length = tkl ∧ body.length = bodyLen ∧
        rest = rest.take extBytes ++ code :: (token ++ body) ++ more := by
  cases hdrop : rest.drop extBytes with
  | nil =>
      have := List.drop_eq_nil_iff.mp hdrop
      omega
  | cons code tail =>
      have htail : tail.length = rest.length - extBytes - 1 := by
        have := congrArg List.length hdrop
        rw [List.length_drop, List.length_cons] at this
        omega
      refine ⟨code, tail.take tkl, (tail.drop tkl).take bodyLen,
        (tail.drop tkl).drop bodyLen, ?_, ?_, ?_⟩
      · rw [List.length_take]
        omega
      · rw [List.length_take, List.length_drop]
        omega
      · simp only [List.append_assoc, List.cons_append, List.take_append_drop]
        rw [← hdrop, List.take_append_drop]

theorem tryDecodeFrame_encodeFrame {msg : Message} (hmsg : Frameable msg)
    (more : Octets) :
    tryDecodeFrame (encodeFrame msg ++ more) =
      .ok (some ({ msg with options := sortByNumber msg.options },
        (encodeFrame msg).length)) := by
  obtain ⟨htoken, hvalues, hbody⟩ := hmsg
  have hnibble := encodeBodyLen_nibble_lt (encodeOptionsAndPayload msg).length
  have htklNat : (UInt8.ofNat msg.token.length).toNat = msg.token.length := by
    rw [UInt8.toNat_ofNat']
    unfold maxTokenLen at htoken
    omega
  have htklLt : (UInt8.ofNat msg.token.length).toNat < 16 := by
    unfold maxTokenLen at htoken
    omega
  have hlen := readBodyLen_encodeBodyLen hbody
    (msg.code :: (msg.token ++ encodeOptionsAndPayload msg) ++ more)
  have hregion : decodeOptionsAndPayload (encodeOptionsAndPayload msg)
      { code := msg.code, token := msg.token } =
        .ok { msg with options := sortByNumber msg.options } :=
    decodeOptionsAndPayload_eq_ok_iff.mpr
      ⟨rfl, rfl, sortByNumber_encodable hvalues, rfl⟩
  obtain ⟨hcode, htokenSlice, hbodySlice⟩ := frame_slices
    (Octets.packNibbles
      (encodeBodyLen (encodeOptionsAndPayload msg).length).1
      (UInt8.ofNat msg.token.length))
    msg.code (encodeBodyLen (encodeOptionsAndPayload msg).length).2
    msg.token (encodeOptionsAndPayload msg) more
  rw [length_encodeFrame htoken, encodeFrame, Nat.min_eq_left htoken,
    List.take_length]
  rw [← List.append_assoc] at hlen
  simp only [List.cons_append] at hcode htokenSlice hbodySlice hlen ⊢
  simp only [tryDecodeFrame, Octets.packNibbles_low hnibble htklLt,
    Octets.packNibbles_high hnibble htklLt, htklNat, Nat.not_lt.mpr htoken,
    Nat.not_lt.mpr hbody, if_false, hlen, hcode, htokenSlice, hbodySlice,
    hregion]
  rw [if_neg]
  simp only [List.length_cons, List.length_append]
  omega

theorem tryDecodeFrame_eq_some {buf : Octets} {msg : Message} {used : Nat}
    (h : tryDecodeFrame buf = .ok (some (msg, used))) :
    ∃ first rest bodyLen extBytes, buf = first :: rest ∧
      (first &&& 0x0F).toNat ≤ maxTokenLen ∧
      readBodyLen (first >>> 4) rest = some (bodyLen, extBytes) ∧
      bodyLen ≤ maxFrameBody ∧
      used = 1 + extBytes + 1 + (first &&& 0x0F).toNat + bodyLen ∧
      used ≤ buf.length ∧
      decodeOptionsAndPayload
          ((buf.take used).drop (1 + extBytes + 1 + (first &&& 0x0F).toNat))
          { code := buf.getD (1 + extBytes) 0
            token := (buf.drop (1 + extBytes + 1)).take
              (first &&& 0x0F).toNat } = .ok msg := by
  unfold tryDecodeFrame at h
  split at h
  · cases h
  · rename_i first rest
    dsimp only at h
    split_ifs at h with htkl
    split at h
    · cases h
    · rename_i bodyLen extBytes hlen
      split_ifs at h with hmax htotal
      · cases h
      · split at h
        · cases h
        · rename_i decoded hregion
          cases h
          exact ⟨first, rest, bodyLen, extBytes, rfl, Nat.not_lt.mp htkl, hlen,
            Nat.not_lt.mp hmax, rfl, Nat.not_lt.mp htotal, hregion⟩

theorem tryDecodeFrame_sound {buf : Octets} {msg : Message} {used : Nat}
    (h : tryDecodeFrame buf = .ok (some (msg, used))) :
    Frameable msg ∧
      msg.options.Pairwise (fun left right => left.1 ≤ right.1) ∧
      used ≤ buf.length ∧ encodeFrame msg = buf.take used := by
  obtain ⟨first, rest, bodyLen, extBytes, rfl, htkl, hlen, hmax, rfl, htotal,
    hregion⟩ := tryDecodeFrame_eq_some h
  obtain ⟨hext, hlenField⟩ :=
    readBodyLen_sound (Octets.shiftRight_four_lt first) hlen
  obtain ⟨hcode, htoken, hencodable, hencode⟩ :=
    decodeOptionsAndPayload_eq_ok_iff.mp hregion
  obtain ⟨hascending, hvalues⟩ := encodableFrom_zero.mp hencodable
  obtain ⟨code, token, body, more, htokenLen, hbodyLen, hlayout⟩ :=
    exists_frame_layout rest extBytes (first &&& 0x0F).toNat bodyLen
      (by rw [List.length_cons] at htotal; omega)
  have hextLen := List.length_take_of_le hext
  generalize rest.take extBytes = ext at hlenField hlayout hextLen
  subst hlayout
  subst hextLen
  subst hbodyLen
  rw [← htokenLen] at htkl htotal htoken hencode
  obtain ⟨hcodeAt, htokenAt, hbodyAt⟩ :=
    frame_slices first code ext token body more
  rw [← List.cons_append] at hcode htoken hencode
  rw [hcodeAt] at hcode
  rw [htokenAt] at htoken
  rw [hbodyAt] at hencode
  have hbody : encodeOptionsAndPayload msg = body := by
    rw [encodeOptionsAndPayload, sortByNumber_of_ascending hascending, hencode]
  have hbound : msg.token.length ≤ maxTokenLen := by
    rw [htoken]
    exact htkl
  rw [← htokenLen]
  refine ⟨⟨hbound, hvalues, by rw [hbody]; exact hmax⟩, hascending, htotal, ?_⟩
  have hframe : encodeFrame msg =
      first :: (ext ++ code :: (token ++ body)) := by
    rw [encodeFrame, Nat.min_eq_left hbound, List.take_length, hbody,
      hlenField, hcode, htoken, htokenLen, UInt8.ofNat_toNat,
      Octets.packNibbles_split]
  have hlength : (first :: (ext ++ code :: (token ++ body))).length =
      1 + ext.length + 1 + token.length + body.length := by
    simp only [List.length_cons, List.length_append]
    omega
  rw [hframe]
  exact (List.take_left' hlength).symm

theorem tryDecodeFrame_append {buf : Octets} {msg : Message} {used : Nat}
    (h : tryDecodeFrame buf = .ok (some (msg, used))) (more : Octets) :
    tryDecodeFrame (buf ++ more) = .ok (some (msg, used)) := by
  obtain ⟨hframeable, hascending, hused, hencode⟩ := tryDecodeFrame_sound h
  have hsplit : buf ++ more = encodeFrame msg ++ (buf.drop used ++ more) := by
    rw [hencode, ← List.append_assoc, List.take_append_drop]
  have hlen : (encodeFrame msg).length = used := by
    rw [hencode, List.length_take_of_le hused]
  rw [hsplit, tryDecodeFrame_encodeFrame hframeable,
    sortByNumber_of_ascending hascending, hlen]

theorem tryDecodeFrame_error_append {buf : Octets} {e : DecodeError}
    (h : tryDecodeFrame buf = .error e) (more : Octets) :
    tryDecodeFrame (buf ++ more) = .error e := by
  unfold tryDecodeFrame at h
  split at h
  · cases h
  · rename_i first rest
    dsimp only at h
    rw [List.cons_append, tryDecodeFrame]
    dsimp only
    split_ifs at h ⊢ with htkl
    · exact h
    · split at h
      · cases h
      · rename_i bodyLen extBytes hlen
        rw [readBodyLen_append hlen]
        dsimp only
        split_ifs at h with hmax htotal
        · rw [if_pos hmax]
          exact h
        · rw [not_lt] at htotal
          have hcode : (first :: (rest ++ more)).getD (1 + extBytes) 0 =
              (first :: rest).getD (1 + extBytes) 0 :=
            List.getD_append (first :: rest) more 0 _ (by omega)
          have htoken : ((first :: (rest ++ more)).drop
                (1 + extBytes + 1)).take (first &&& 0x0F).toNat =
              ((first :: rest).drop (1 + extBytes + 1)).take
                (first &&& 0x0F).toNat := by
            rw [← List.cons_append,
              List.drop_append_of_le_length (by omega),
              List.take_append_of_le_length (by rw [List.length_drop]; omega)]
          have htake : (first :: (rest ++ more)).take
                (1 + extBytes + 1 + (first &&& 0x0F).toNat + bodyLen) =
              (first :: rest).take
                (1 + extBytes + 1 + (first &&& 0x0F).toNat + bodyLen) :=
            List.take_append_of_le_length htotal
          have hlong : ¬ (first :: (rest ++ more)).length <
              1 + extBytes + 1 + (first &&& 0x0F).toNat + bodyLen := by
            rw [← List.cons_append, List.length_append]
            omega
          rw [if_neg hmax, if_neg hlong, htake, htoken, hcode]
          exact h

theorem tryDecodeFrame_two_le {buf : Octets} {msg : Message} {used : Nat}
    (h : tryDecodeFrame buf = .ok (some (msg, used))) : 2 ≤ used := by
  obtain ⟨_, _, _, _, -, -, -, -, hused, -⟩ := tryDecodeFrame_eq_some h
  omega

/-- An oversized declaration is an error as soon as its header is complete, so
that more octets are only waited for within the largest frame. -/
theorem tryDecodeFrame_none_length_lt {buf : Octets}
    (h : tryDecodeFrame buf = .ok none) : buf.length < maxFrameBody + 14 := by
  unfold tryDecodeFrame at h
  split at h
  · decide
  · rename_i first rest
    dsimp only at h
    split_ifs at h with htkl
    split at h
    · rename_i hlen
      have hrest := readBodyLen_none_length_lt hlen
      rw [List.length_cons]
      omega
    · rename_i bodyLen extBytes hlen
      have hext := readBodyLen_extBytes_le hlen
      have htoken := Nat.not_lt.mp htkl
      unfold maxTokenLen at htoken
      split_ifs at h with hmax htotal
      · have hbody := Nat.not_lt.mp hmax
        omega
      · split at h <;> cases h

def frameScanner : Scanner UInt8 Message DecodeError where
  scan := tryDecodeFrame
  scan_nil := rfl
  used_pos := fun h =>
    Nat.lt_of_lt_of_le Nat.zero_lt_two (tryDecodeFrame_two_le h)
  used_le := fun h => (tryDecodeFrame_sound h).2.2.1
  item_append := fun h => tryDecodeFrame_append h _
  error_append := fun h => tryDecodeFrame_error_append h _

theorem frameScanner_bounds : frameScanner.Bounds 2 (maxFrameBody + 14) where
  least_le := tryDecodeFrame_two_le
  lt_cap := tryDecodeFrame_none_length_lt

structure FrameDecoder where
  buf : Octets := []
  deriving DecidableEq, Repr

namespace FrameDecoder

def extend (dec : FrameDecoder) (bytes : Octets) : FrameDecoder :=
  { buf := dec.buf ++ bytes }

def nextFrame (dec : FrameDecoder) :
    Except DecodeError (Option Message) × FrameDecoder :=
  match tryDecodeFrame dec.buf with
  | .error e => (.error e, dec)
  | .ok none => (.ok none, dec)
  | .ok (some (msg, consumed)) =>
      (.ok (some msg), { buf := dec.buf.drop consumed })

theorem nextFrame_of_error {dec : FrameDecoder} {e : DecodeError}
    (h : tryDecodeFrame dec.buf = .error e) :
    dec.nextFrame = (.error e, dec) := by
  rw [nextFrame, h]

theorem nextFrame_of_none {dec : FrameDecoder}
    (h : tryDecodeFrame dec.buf = .ok none) :
    dec.nextFrame = (.ok none, dec) := by
  rw [nextFrame, h]

theorem nextFrame_of_some {dec : FrameDecoder} {msg : Message}
    {consumed : Nat} (h : tryDecodeFrame dec.buf = .ok (some (msg, consumed))) :
    dec.nextFrame = (.ok (some msg), { buf := dec.buf.drop consumed }) := by
  rw [nextFrame, h]

theorem nextFrame_eq_some {dec dec' : FrameDecoder} {msg : Message}
    (h : dec.nextFrame = (.ok (some msg), dec')) :
    ∃ consumed, tryDecodeFrame dec.buf = .ok (some (msg, consumed)) ∧
      dec' = { buf := dec.buf.drop consumed } := by
  unfold nextFrame at h
  split at h
  · cases h
  · cases h
  · rename_i msg consumed hscan
    cases h
    exact ⟨consumed, hscan, rfl⟩

theorem nextFrame_frameable {dec dec' : FrameDecoder} {msg : Message}
    (h : dec.nextFrame = (.ok (some msg), dec')) : Frameable msg := by
  obtain ⟨consumed, hscan, -⟩ := nextFrame_eq_some h
  exact (tryDecodeFrame_sound hscan).1

/-- A yielded frame re-encodes to exactly what it took off the buffer. -/
theorem nextFrame_consumes {dec dec' : FrameDecoder} {msg : Message}
    (h : dec.nextFrame = (.ok (some msg), dec')) :
    dec.buf = encodeFrame msg ++ dec'.buf := by
  obtain ⟨consumed, hscan, rfl⟩ := nextFrame_eq_some h
  rw [(tryDecodeFrame_sound hscan).2.2.2, List.take_append_drop]

theorem nextFrame_takes {dec dec' : FrameDecoder} {msg : Message}
    (h : dec.nextFrame = (.ok (some msg), dec')) :
    ∃ consumed, 2 ≤ consumed ∧ consumed ≤ dec.buf.length ∧
      dec'.buf = dec.buf.drop consumed := by
  obtain ⟨consumed, hscan, rfl⟩ := nextFrame_eq_some h
  exact ⟨consumed, tryDecodeFrame_two_le hscan,
    (tryDecodeFrame_sound hscan).2.2.1, rfl⟩

theorem nextFrame_shrinks {dec dec' : FrameDecoder} {msg : Message}
    (h : dec.nextFrame = (.ok (some msg), dec')) :
    dec'.buf.length < dec.buf.length := by
  obtain ⟨consumed, htwo, hle, hdrop⟩ := nextFrame_takes h
  rw [hdrop, List.length_drop]
  omega

theorem nextFrame_waits {dec dec' : FrameDecoder}
    (h : dec.nextFrame = (.ok none, dec')) :
    dec' = dec ∧ tryDecodeFrame dec.buf = .ok none := by
  unfold nextFrame at h
  split at h
  · cases h
  · rename_i hscan
    cases h
    exact ⟨rfl, hscan⟩
  · cases h

theorem nextFrame_fails {dec dec' : FrameDecoder} {e : DecodeError}
    (h : dec.nextFrame = (.error e, dec')) : dec' = dec := by
  unfold nextFrame at h
  split at h <;> cases h
  rfl

end FrameDecoder

end Loft.Coap
