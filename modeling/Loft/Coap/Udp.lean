import Loft.Coap.OptionCodec

namespace Loft.Coap

open Loft.Data

/-! The UDP datagram format: a fixed header around the shared region. -/

def version : UInt8 := 1

inductive MessageType
  | confirmable
  | nonConfirmable
  | acknowledgement
  | reset
  deriving DecidableEq, Repr

namespace MessageType

def fromBits (bits : UInt8) : MessageType :=
  if bits &&& 0b11 = 0 then confirmable
  else if bits &&& 0b11 = 1 then nonConfirmable
  else if bits &&& 0b11 = 2 then acknowledgement
  else reset

def bits : MessageType → UInt8
  | confirmable => 0
  | nonConfirmable => 1
  | acknowledgement => 2
  | reset => 3

end MessageType

structure Datagram where
  messageType : MessageType
  messageId : UInt16
  message : Message
  deriving DecidableEq, Repr

namespace Datagram

def firstByte (messageType : MessageType) (tkl : UInt8) : UInt8 :=
  (version <<< 6) ||| (messageType.bits <<< 4) ||| tkl

def encode (dgram : Datagram) : Octets :=
  let tkl := min dgram.message.token.length maxTokenLen
  firstByte dgram.messageType (UInt8.ofNat tkl) :: dgram.message.code ::
    (Octets.be16 dgram.messageId.toNat ++ dgram.message.token.take tkl ++
      encodeOptionsAndPayload dgram.message)

def decode (buf : Octets) : Except DecodeError Datagram :=
  match buf with
  | first :: code :: midHigh :: midLow :: rest =>
      if first >>> 6 ≠ version then .error .badOptionEncoding
      else
        let tkl := (first &&& 0x0F).toNat
        if tkl > maxTokenLen then .error .badTokenLength
        else if rest.length < tkl then .error .truncated
        else
          match decodeOptionsAndPayload (rest.drop tkl)
              { code := code, token := rest.take tkl } with
          | .error e => .error e
          | .ok message => .ok {
              messageType := MessageType.fromBits (first >>> 4)
              messageId := UInt16.ofNat (Octets.ofBe16 midHigh midLow)
              message := message }
  | _ => .error .truncated

/-- What `decode` can return: a legal token, options in wire order, and option
values their length fields can express. -/
structure Normal (dgram : Datagram) : Prop where
  token : dgram.message.token.length ≤ maxTokenLen
  ascending : dgram.message.options.Pairwise
    fun left right => left.1 ≤ right.1
  values : ∀ option ∈ dgram.message.options, option.2.length ≤ maxOptionLen

/-! The first byte packs version, type and token length without overlap. -/

theorem firstByte_version (messageType : MessageType) (tkl : Nat)
    (htkl : tkl ≤ maxTokenLen) :
    firstByte messageType (UInt8.ofNat tkl) >>> 6 = version := by
  have hall : ∀ n : Fin 9,
      firstByte messageType (UInt8.ofNat n.val) >>> 6 = version := by
    cases messageType <;> decide
  exact hall ⟨tkl, Nat.lt_succ_of_le htkl⟩

theorem firstByte_type (messageType : MessageType) (tkl : Nat)
    (htkl : tkl ≤ maxTokenLen) :
    MessageType.fromBits (firstByte messageType (UInt8.ofNat tkl) >>> 4) =
      messageType := by
  have hall : ∀ n : Fin 9, MessageType.fromBits
      (firstByte messageType (UInt8.ofNat n.val) >>> 4) = messageType := by
    cases messageType <;> decide
  exact hall ⟨tkl, Nat.lt_succ_of_le htkl⟩

theorem firstByte_tkl (messageType : MessageType) (tkl : Nat)
    (htkl : tkl ≤ maxTokenLen) :
    (firstByte messageType (UInt8.ofNat tkl) &&& 0x0F).toNat = tkl := by
  have hall : ∀ n : Fin 9,
      (firstByte messageType (UInt8.ofNat n.val) &&& 0x0F).toNat = n.val := by
    cases messageType <;> decide
  exact hall ⟨tkl, Nat.lt_succ_of_le htkl⟩

theorem firstByte_split {first : UInt8} (hversion : first >>> 6 = version) :
    firstByte (MessageType.fromBits (first >>> 4))
      (UInt8.ofNat (first &&& 0x0F).toNat) = first := by
  have hall : ∀ n : Fin 256, UInt8.ofNat n.val >>> 6 = version →
      firstByte (MessageType.fromBits (UInt8.ofNat n.val >>> 4))
        (UInt8.ofNat (UInt8.ofNat n.val &&& 0x0F).toNat) =
          UInt8.ofNat n.val := by
    decide +kernel
  have h := hall ⟨first.toNat, first.toNat_lt⟩
  simp only [UInt8.ofNat_toNat] at h ⊢
  exact h hversion

theorem be16_messageId (messageId : UInt16) :
    UInt16.ofNat (Octets.ofBe16 (UInt8.ofNat (messageId.toNat / 256))
      (UInt8.ofNat messageId.toNat)) = messageId := by
  rw [Octets.ofBe16_be16 _ messageId.toNat_lt, UInt16.ofNat_toNat]

theorem be16_of_ofBe16 (high low : UInt8) :
    Octets.be16 (UInt16.ofNat (Octets.ofBe16 high low)).toNat = [high, low] := by
  have hlt := Octets.ofBe16_lt high low
  rw [UInt16.toNat_ofNat', Nat.mod_eq_of_lt hlt, Octets.be16_ofBe16]

/-- Type, message id and token, read off the front of a datagram. -/
def header (buf : Octets) : Option (MessageType × UInt16 × Octets) :=
  match buf with
  | first :: _ :: midHigh :: midLow :: rest =>
      some (MessageType.fromBits (first >>> 4),
        UInt16.ofNat (Octets.ofBe16 midHigh midLow),
        rest.take (first &&& 0x0F).toNat)
  | _ => none

theorem header_encode {dgram : Datagram}
    (htoken : dgram.message.token.length ≤ maxTokenLen) :
    header dgram.encode =
      some (dgram.messageType, dgram.messageId, dgram.message.token) := by
  have hmin : min dgram.message.token.length maxTokenLen =
      dgram.message.token.length := Nat.min_eq_left htoken
  simp only [encode, header, hmin, Octets.be16, List.cons_append,
    List.nil_append, List.take_length, firstByte_type _ _ htoken,
    firstByte_tkl _ _ htoken, be16_messageId, List.take_left]

/-- Decoding an encoding gives the datagram back with its options in stable
number order. -/
theorem decode_encode_sorted {dgram : Datagram}
    (htoken : dgram.message.token.length ≤ maxTokenLen)
    (hvalues : ∀ option ∈ dgram.message.options,
      option.2.length ≤ maxOptionLen) :
    decode dgram.encode = .ok { dgram with message := { dgram.message with
      options := sortByNumber dgram.message.options } } := by
  have hmin : min dgram.message.token.length maxTokenLen =
      dgram.message.token.length := Nat.min_eq_left htoken
  have htkl := firstByte_tkl dgram.messageType _ htoken
  have hregion : decodeOptionsAndPayload (encodeOptionsAndPayload dgram.message)
      { code := dgram.message.code, token := dgram.message.token } =
        .ok { dgram.message with
          options := sortByNumber dgram.message.options } :=
    decodeOptionsAndPayload_eq_ok_iff.mpr
      ⟨rfl, rfl, sortByNumber_encodable hvalues, rfl⟩
  simp only [encode, decode, hmin, List.take_length, Octets.be16,
    List.cons_append, List.nil_append, firstByte_version _ _ htoken, htkl,
    List.length_append, List.drop_left, List.take_left, hregion,
    firstByte_type _ _ htoken, be16_messageId]
  have hfits : ¬ dgram.message.token.length +
      (encodeOptionsAndPayload dgram.message).length <
        dgram.message.token.length := by
    omega
  simp [Nat.not_lt.mpr htoken, hfits]

theorem decode_sound {buf : Octets} {dgram : Datagram}
    (h : decode buf = .ok dgram) : dgram.Normal ∧ dgram.encode = buf := by
  unfold decode at h
  split at h
  · rename_i first code midHigh midLow rest
    dsimp only at h
    split_ifs at h with hversion htkl hlen
    rw [not_not] at hversion
    split at h
    · cases h
    · rename_i message hregion
      cases h
      obtain ⟨hcode, htoken, hencodable, hencode⟩ :=
        decodeOptionsAndPayload_eq_ok_iff.mp hregion
      obtain ⟨hascending, hvalues⟩ := encodableFrom_zero.mp hencodable
      have htokenLen : message.token.length = (first &&& 0x0F).toNat := by
        rw [htoken, List.length_take_of_le (Nat.not_lt.mp hlen)]
      have hbound : message.token.length ≤ maxTokenLen := by omega
      refine ⟨⟨hbound, hascending, hvalues⟩, ?_⟩
      have hmin : min message.token.length maxTokenLen =
          (first &&& 0x0F).toNat := by omega
      have htake : message.token.take (first &&& 0x0F).toNat =
          rest.take (first &&& 0x0F).toNat := by
        rw [htoken, List.take_take, Nat.min_self]
      simp only [encode, hmin, firstByte_split hversion, hcode, be16_of_ofBe16,
        htake, encodeOptionsAndPayload, sortByNumber_of_ascending hascending,
        hencode, List.cons_append, List.nil_append, List.take_append_drop]
  · cases h

theorem Normal.decode_encode {dgram : Datagram} (h : dgram.Normal) :
    decode dgram.encode = .ok dgram := by
  rw [decode_encode_sorted h.token h.values,
    sortByNumber_of_ascending h.ascending]

/-- The decoder accepts the canonical encodings and nothing else, and an
encoding of any datagram the format can carry decodes to its stably sorted
form. -/
theorem decode_canonical :
    (∀ (buf : Octets) (dgram : Datagram),
      decode buf = .ok dgram ↔ dgram.Normal ∧ dgram.encode = buf) ∧
    (∀ dgram : Datagram, dgram.message.token.length ≤ maxTokenLen →
      (∀ option ∈ dgram.message.options, option.2.length ≤ maxOptionLen) →
      ∃ sorted, StablySorted dgram.message.options sorted ∧
        decode dgram.encode = .ok { dgram with
          message := { dgram.message with options := sorted } }) ∧
    (∀ buf : Octets,
      (¬ ∃ dgram : Datagram, dgram.Normal ∧ dgram.encode = buf) →
        ∃ e, decode buf = .error e) := by
  refine ⟨?_, ?_, ?_⟩
  · intro buf dgram
    constructor
    · exact decode_sound
    · intro hboth
      obtain ⟨hnormal, rfl⟩ := hboth
      exact hnormal.decode_encode
  · intro dgram htoken hvalues
    exact ⟨sortByNumber dgram.message.options,
      sortByNumber_stablySorted dgram.message.options,
      decode_encode_sorted htoken hvalues⟩
  · intro buf hnone
    cases hdecode : decode buf with
    | error e => exact ⟨e, rfl⟩
    | ok dgram => exact absurd ⟨dgram, decode_sound hdecode⟩ hnone

def unsortedDatagram : Datagram where
  messageType := .confirmable
  messageId := 0x1234
  message := {
    code := Code.get
    token := [0xDE, 0xAD]
    options := [(OptionNumber.uriQuery, [0x71]), (OptionNumber.uriPath, [0x73])]
    payload := [0x7B, 0x7D] }

theorem decode_canonical_unsorted :
    ∃ sorted, StablySorted unsortedDatagram.message.options sorted ∧
      decode unsortedDatagram.encode = .ok { unsortedDatagram with
        message := { unsortedDatagram.message with options := sorted } } :=
  decode_canonical.2.1 unsortedDatagram (by decide) (by decide)

end Datagram

end Loft.Coap
