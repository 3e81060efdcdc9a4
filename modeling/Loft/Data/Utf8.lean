import Loft.Data.Octets

namespace Loft.Data.Utf8

/-! Lossy UTF-8 decoding: every maximal ill-formed subpart of the input is
replaced by one U+FFFD. -/

def replacement : Char :=
  Char.ofNat 0xFFFD

/-- Length of the sequence a leading byte announces; 0 where none starts. -/
def charWidth (first : UInt8) : Nat :=
  if first < 0x80 then 1
  else if first < 0xC2 then 0
  else if first < 0xE0 then 2
  else if first < 0xF0 then 3
  else if first < 0xF5 then 4
  else 0

def secondRange (first : UInt8) : UInt8 × UInt8 :=
  if first = 0xE0 then (0xA0, 0xBF)
  else if first = 0xED then (0x80, 0x9F)
  else if first = 0xF0 then (0x90, 0xBF)
  else if first = 0xF4 then (0x80, 0x8F)
  else (0x80, 0xBF)

def isContinuation (byte : UInt8) : Bool :=
  byte &&& 0xC0 == 0x80

/-- The bytes after `first` that still belong to its sequence. -/
def continuation (first : UInt8) (rest : Octets) : Octets :=
  match rest.take (charWidth first - 1) with
  | [] => []
  | second :: more =>
      if (secondRange first).1 ≤ second ∧ second ≤ (secondRange first).2 then
        second :: more.takeWhile isContinuation
      else []

/-- The scalar value of a complete sequence. -/
def scalar (first : UInt8) (cont : Octets) : Char :=
  let lead :=
    match charWidth first with
    | 2 => first.toNat % 0x20
    | 3 => first.toNat % 0x10
    | 4 => first.toNat % 0x08
    | _ => first.toNat
  Char.ofNat (cont.foldl (fun acc byte => acc * 64 + byte.toNat % 64) lead)

def decodeLossy : Octets → List Char
  | [] => []
  | first :: rest =>
      (if (continuation first rest).length + 1 = charWidth first then
          scalar first (continuation first rest)
        else replacement) ::
      decodeLossy (rest.drop (continuation first rest).length)
termination_by buf => buf.length
decreasing_by
  simp only [List.length_drop, List.length_cons]
  omega

end Loft.Data.Utf8

namespace Loft.Data

def fromUtf8Lossy (buf : Octets) : String :=
  String.ofList (Utf8.decodeLossy buf)

def asBytes (text : String) : Octets :=
  text.toUTF8.data.toList

@[simp] theorem asBytes_append (front back : String) :
    asBytes (front ++ back) = asBytes front ++ asBytes back := by
  simp [asBytes]

theorem asBytes_injective {text text' : String}
    (h : asBytes text = asBytes text') : text = text' := by
  have hbytes : text.toByteArray = text'.toByteArray :=
    ByteArray.ext (Array.toList_inj.mp h)
  exact String.toByteArray_inj.mp hbytes

/-- `std::str::from_utf8`. -/
def fromUtf8 (buf : Octets) : Option String :=
  String.fromUTF8? ⟨buf.toArray⟩

end Loft.Data
