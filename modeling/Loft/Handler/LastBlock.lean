import Loft.Handler.Firmware

namespace Loft

open Loft.Data
open Loft.Coap

/-! When a firmware reply says that the image ends with it, and when it does. -/

namespace Handler

/-- Upstream tells nothing false of the image: it may send less than was asked
for, and leave out how long the image is. -/
structure Truthful (image : Octets) (block : Block) (r : UpstreamResponse) :
    Prop where
  sent : r.status = 206 ∧ r.body <+: image.drop block.offset ∧
      r.body.length ≤ block.size ∨
    r.status = 200 ∧ r.body = image
  range : ∀ start stop total, firmwareRange r = some (start, stop, total) →
    (r.status = 206 → start = block.offset) ∧ total = image.length
  size : ∀ size, r.firmwareSize = some size → size.toNat = image.length

def TotalGiven (r : UpstreamResponse) : Prop :=
  (firmwareRange r).isSome = true ∨ r.firmwareSize.isSome = true

/-- The end of the image is where the reply takes it to be, or is not taken to
be reached. -/
inductive EndKnown (image : Octets) (block : Block) (r : UpstreamResponse) :
    Prop
  | whole : r.status = 200 → EndKnown image block r
  | reached : image.length ≤ block.offset + r.body.length →
      EndKnown image block r
  | given : TotalGiven r → block.offset + block.size < image.length →
      EndKnown image block r
  | refused : ¬ TotalGiven r → block.num ≠ 0 → r.body ≠ [] →
      EndKnown image block r

/-- A reply without the more bit carries all that is left of the image. -/
def NotCutShort (image : Octets) (block : Block) (reply : Message) : Prop :=
  reply.code = Code.content → moreSet reply = false →
    reply.payload = image.drop block.offset

variable {h : Handler} {req : Message} {r : UpstreamResponse} {block : Block}
  {image : Octets}

theorem Truthful.total (htruthful : Truthful image block r)
    (hgiven : TotalGiven r) : firmwareTotal r = image.length := by
  rw [firmwareTotal]
  cases hrange : firmwareRange r with
  | some range =>
      obtain ⟨start, stop, total⟩ := range
      exact (htruthful.range start stop total hrange).2
  | none =>
      cases hsize : r.firmwareSize with
      | some size => exact htruthful.size size hsize
      | none => simp [TotalGiven, hrange, hsize] at hgiven

theorem firmwareTotal_of_not_given (hgiven : ¬ TotalGiven r) :
    firmwareTotal r = r.body.length := by
  rw [TotalGiven, not_or, Bool.not_eq_true, Bool.not_eq_true,
    Option.isSome_eq_false_iff, Option.isSome_eq_false_iff,
    Option.isNone_iff_eq_none, Option.isNone_iff_eq_none] at hgiven
  rw [firmwareTotal, hgiven.1, hgiven.2]

/-- What is served is out of range, or told by its payload and the total. -/
theorem notCutShort_iff (req : Message)
    (hrange : (firmwareRange r).any (fun range => range.1 != block.offset) =
      false) :
    NotCutShort image block (firmwareSuccess req block r) ↔
      (firmwareTotal r ≤ block.offset ∧ 0 < firmwareTotal r) ∨
      block.offset + block.size < firmwareTotal r ∨
      firmwarePayload block r = image.drop block.offset := by
  have hstart : ¬ ((firmwareRange r).any fun range =>
      range.1 != block.byteRange.1) = true := by
    rw [Bool.not_eq_true]
    exact hrange
  rw [firmwareSuccess, if_neg hstart]
  split_ifs with hpast
  · refine ⟨fun _ => .inl hpast, fun _ hcode => absurd hcode ?_⟩
    rw [diagnostic_code]
    decide
  · have hpayload : (firmwareContent req block r).payload =
        firmwarePayload block r := rfl
    have hpast' : ¬ (firmwareTotal r ≤ block.offset ∧ 0 < firmwareTotal r) :=
      hpast
    simp only [NotCutShort, firmwareContent_code, moreSet_firmwareContent,
      moreAfter, hpayload, hpast', decide_eq_false_iff_not, true_implies,
      false_or]
    exact ⟨fun himp => or_iff_not_imp_left.mpr himp, or_iff_not_imp_left.mp⟩

theorem eq_drop_iff {body : Octets} (hpart : body <+: image.drop block.offset) :
    body = image.drop block.offset ↔
      image.length ≤ block.offset + body.length := by
  constructor
  · intro hall
    rw [hall, List.length_drop]
    omega
  · intro hreached
    apply hpart.eq_of_length_le
    rw [List.length_drop]
    omega

theorem notCutShort_partial (req : Message)
    (htruthful : Truthful image block r) (hstatus : r.status = 206)
    (hpart : r.body <+: image.drop block.offset)
    (hlength : r.body.length ≤ block.size) :
    NotCutShort image block (firmwareSuccess req block r) ↔
      EndKnown image block r := by
  have hrange : (firmwareRange r).any (fun range => range.1 != block.offset) =
      false := by
    cases hfound : firmwareRange r with
    | none => rfl
    | some range =>
        obtain ⟨start, stop, total⟩ := range
        have hstart := (htruthful.range start stop total hfound).1 hstatus
        simp [hstart]
  have hpayload : firmwarePayload block r = r.body := by
    have hpartial : ¬ r.status = 200 := by
      rw [hstatus]
      decide
    simp only [firmwarePayload, hpartial, false_and, if_false]
  have hsize := block.sixteen_le_size
  rw [notCutShort_iff req hrange, hpayload, eq_drop_iff hpart]
  by_cases hgiven : TotalGiven r
  · rw [htruthful.total hgiven]
    constructor
    · rintro (⟨hpast, -⟩ | hmore | hreached)
      · exact .reached (by omega)
      · exact .given hgiven hmore
      · exact .reached hreached
    · intro hknown
      cases hknown with
      | whole hwhole => exact absurd (hstatus.symm.trans hwhole) (by decide)
      | reached hreached => exact .inr (.inr hreached)
      | given _ hmore => exact .inr (.inl hmore)
      | refused hnone => exact absurd hgiven hnone
  · rw [firmwareTotal_of_not_given hgiven]
    constructor
    · rintro (⟨hpast, hpos⟩ | hmore | hreached)
      · refine .refused hgiven ?_ (List.ne_nil_of_length_pos hpos)
        intro hnum
        rw [Block.offset_of_num_eq_zero hnum] at hpast
        omega
      · omega
      · exact .reached hreached
    · intro hknown
      cases hknown with
      | whole hwhole => exact absurd (hstatus.symm.trans hwhole) (by decide)
      | reached hreached => exact .inr (.inr hreached)
      | given hsome => exact absurd hsome hgiven
      | refused _ hnum hbody =>
          have hpos := List.length_pos_iff.mpr hbody
          have hoffset := Block.size_le_offset hnum
          exact .inl ⟨by omega, hpos⟩

theorem notCutShort_whole (req : Message)
    (htruthful : Truthful image block r) (hstatus : r.status = 200)
    (hbody : r.body = image) :
    NotCutShort image block (firmwareSuccess req block r) := by
  have htotal : firmwareTotal r = image.length := by
    by_cases hgiven : TotalGiven r
    · exact htruthful.total hgiven
    · rw [firmwareTotal_of_not_given hgiven, hbody]
  cases hrange : (firmwareRange r).any fun range =>
      range.1 != block.offset with
  | true =>
      intro hcode
      have hstart : ((firmwareRange r).any fun range =>
          range.1 != block.byteRange.1) = true := hrange
      rw [firmwareSuccess, if_pos hstart, diagnostic_code] at hcode
      exact absurd hcode (by decide)
  | false =>
      rw [notCutShort_iff req hrange, htotal]
      by_cases hinside : block.offset < image.length
      · rw [firmwarePayload_whole hstatus hbody hinside]
        by_cases hmore : block.offset + block.size < image.length
        · exact .inr (.inl hmore)
        · right
          right
          apply List.take_of_length_le
          rw [List.length_drop]
          omega
      · by_cases hempty : image = []
        · right
          right
          have hnone : r.body = [] := hbody.trans hempty
          simp [firmwarePayload, hnone, hempty]
        · exact .inl ⟨Nat.not_lt.mp hinside, List.length_pos_iff.mpr hempty⟩

/-- For every block asked for and every truthful answer. -/
theorem complete_iff_endKnown (h : Handler) (g : Get) (image : Octets)
    (r : UpstreamResponse)
    (hadmitted : Admitted g.req g.session .get "firmware")
    (hresp : g.upstream (g.ranged h) = .ok r)
    (htruthful : Truthful image (h.firmwareBlock g.req g.transport) r) :
    NotCutShort image (h.firmwareBlock g.req g.transport) (g.reply h) ↔
      EndKnown image (h.firmwareBlock g.req g.transport) r := by
  rw [reply_firmware hadmitted, hresp, firmwareResponse]
  rcases htruthful.sent with ⟨hstatus, hpart, hlength⟩ | ⟨hstatus, hbody⟩
  · rw [hstatus, if_pos (by decide)]
    exact notCutShort_partial g.req htruthful hstatus hpart hlength
  · rw [hstatus, if_pos (by decide)]
    exact iff_of_true (notCutShort_whole g.req htruthful hstatus hbody)
      (.whole hstatus)

/-- The first of two blocks, out of an image whose length is not told. -/
def lengthWithheld : UpstreamResponse where
  status := 206
  body := twentyBytes.take 16
  contentRange := some "bytes 0-15/*"

theorem lengthWithheld_truthful :
    Truthful twentyBytes ⟨0, false, 0⟩ lengthWithheld where
  sent := by
    refine .inl ⟨rfl, ?_, by decide⟩
    rw [Block.offset_of_num_eq_zero rfl, List.drop_zero]
    exact List.take_prefix 16 twentyBytes
  range start stop total hrange := by
    have hnone : firmwareRange lengthWithheld = none := by decide +kernel
    rw [hnone] at hrange
    cases hrange
  size size hsize := by cases hsize

theorem complete_iff_endKnown_lengthWithheld :
    NotCutShort twentyBytes ⟨0, false, 0⟩
        ((firmwareGet [] fun _ => .ok lengthWithheld).reply (Handler.mk 0)) ↔
      EndKnown twentyBytes ⟨0, false, 0⟩ lengthWithheld :=
  complete_iff_endKnown (Handler.mk 0)
    (firmwareGet [] fun _ => .ok lengthWithheld) twentyBytes lengthWithheld
    ⟨by unfold Understood; decide +kernel, by decide +kernel, .getFirmware⟩
    rfl lengthWithheld_truthful

theorem lengthWithheld_cutShort :
    let reply :=
      (firmwareGet [] fun _ => .ok lengthWithheld).reply (Handler.mk 0)
    Truthful twentyBytes ⟨0, false, 0⟩ lengthWithheld ∧
      reply.code = Code.content ∧ moreSet reply = false ∧
      ¬ reply.payload <:+ twentyBytes ∧
      ¬ NotCutShort twentyBytes ⟨0, false, 0⟩ reply := by
  have hcode : ((firmwareGet [] fun _ => .ok lengthWithheld).reply
      (Handler.mk 0)).code = Code.content := by decide +kernel
  have hmore : moreSet ((firmwareGet [] fun _ => .ok lengthWithheld).reply
      (Handler.mk 0)) = false := by decide +kernel
  refine ⟨lengthWithheld_truthful, hcode, hmore, by decide +kernel, ?_⟩
  intro hkept
  have hpayload := hkept hcode hmore
  revert hpayload
  decide +kernel

end Handler

end Loft
