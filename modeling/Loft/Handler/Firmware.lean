import Loft.Coap.ContentRange
import Loft.Handler.Fetch
import Loft.Handler.Outcomes

namespace Loft

open Loft.Data
open Loft.Coap

/-! A firmware image, downloaded by ranged GETs that upstream may answer with
the range or with the whole image. -/

namespace Handler

/-- The bytes from `start` to `stop`, both included. -/
def slice (image : Octets) (start stop : Nat) : Octets :=
  (image.take (stop + 1)).drop start

inductive RangeAnswer (image : Octets) (start stop : Nat) :
    UpstreamResponse → Prop
  | partialContent {r : UpstreamResponse} :
      start < image.length → r.status = 206 →
      r.body = slice image start stop →
      r.contentRange = some (contentRangeText start
        (min stop (image.length - 1)) image.length) →
      RangeAnswer image start stop r
  | notSatisfiable {r : UpstreamResponse} :
      image.length ≤ start → r.status = 416 → RangeAnswer image start stop r
  | clamped {r : UpstreamResponse} {start' stop' : Nat} :
      image.length ≤ start → start' ≤ stop' → stop' < image.length →
      r.status = 206 → r.body = slice image start' stop' →
      r.contentRange = some (contentRangeText start' stop' image.length) →
      RangeAnswer image start stop r
  | whole {r : UpstreamResponse} :
      r.status = 200 → r.body = image → r.contentRange = none →
      (∀ size, r.firmwareSize = some size → size.toNat = image.length) →
      RangeAnswer image start stop r

structure FetchesFirmware (image : Octets) (g : Get) : Prop where
  admitted : Admitted g.req g.session .get "firmware"
  answered : ∀ request start stop, request.method = .get →
    request.leaf = "firmware" → request.pigeonId = g.session.pigeonId →
    request.range = some (start, stop) →
    ∃ r, g.upstream request = .ok r ∧ RangeAnswer image start stop r

variable {h : Handler} {req : Message} {transport : Transport}
  {r : UpstreamResponse} {block : Block} {image : Octets}

/-- The one upstream call that a GET of the firmware is answered out of. -/
def Get.ranged (h : Handler) (g : Get) : DeviceRequest :=
  upstreamCall g.session .get "firmware"
    (some (h.firmwareBlock g.req g.transport).byteRange) none

theorem reply_firmware {g : Get}
    (hadmitted : Admitted g.req g.session .get "firmware") :
    g.reply h = firmwareResponse g.req (h.firmwareBlock g.req g.transport)
      (g.upstream (g.ranged h)) := by
  have hroute : route g.req g.session = .getFirmware := route_eq hadmitted rfl
  rw [Get.reply, serve_eq, dispatch, hroute]
  rfl

theorem reply_fetchesFirmware {g : Get} (hg : FetchesFirmware image g) :
    ∃ r, RangeAnswer image (h.firmwareBlock g.req g.transport).byteRange.1
        (h.firmwareBlock g.req g.transport).byteRange.2 r ∧
      g.reply h = firmwareResponse g.req (h.firmwareBlock g.req g.transport)
        (.ok r) := by
  obtain ⟨r, hresp, hanswer⟩ :=
    hg.answered (g.ranged h) _ _ rfl rfl rfl rfl
  refine ⟨r, hanswer, ?_⟩
  rw [reply_firmware hg.admitted, hresp]

theorem firmwareBlock_spec (h : Handler) (transport : Transport)
    (hfits : offsetNamed req < 2 ^ 32) :
    (h.firmwareBlock req transport).offset = offsetNamed req ∧
      (h.firmwareBlock req transport).szx ≤ h.maxSzxFor transport := by
  unfold firmwareBlock
  cases hrequested : block2Of req with
  | some requested =>
      exact ⟨offset_capped_asked hrequested hfits _,
        Block.szx_capped_le requested _⟩
  | none =>
      rw [offsetNamed, hrequested]
      exact ⟨Block.offset_of_num_eq_zero rfl, UInt8.le_refl _⟩

/-! What each kind of answer says of the image. -/

theorem firmwareRange_of_text {start stop total : Nat}
    (hrange : r.contentRange = some (contentRangeText start stop total))
    (hstart : start < 2 ^ 64) (hstop : stop < 2 ^ 64)
    (htotal : total < 2 ^ 64) : firmwareRange r = some (start, stop, total) := by
  rw [firmwareRange, hrange, Option.bind_some]
  exact parseContentRange_contentRangeText hstart hstop htotal

theorem firmwareTotal_whole (hbody : r.body = image)
    (hrange : r.contentRange = none)
    (hsize : ∀ size, r.firmwareSize = some size → size.toNat = image.length) :
    firmwareTotal r = image.length := by
  rw [firmwareTotal, firmwareRange, hrange]
  cases hdeclared : r.firmwareSize with
  | some size => exact hsize size hdeclared
  | none => exact congrArg List.length hbody

theorem slice_byteRange (image : Octets) (block : Block) :
    slice image block.byteRange.1 block.byteRange.2 =
      (image.drop block.offset).take block.size := by
  have hsize := block.sixteen_le_size
  have hstop : block.offset + block.size - 1 + 1 =
      block.offset + block.size := by omega
  rw [slice, Block.byteRange, hstop, List.drop_take, Nat.add_sub_cancel_left]

theorem block2Of_firmwareContent_low (req : Message) (block : Block)
    (r : UpstreamResponse) :
    block2Of (firmwareContent req block r) =
      Block.decode { block with
        more := moreAfter block (firmwareTotal r) }.encode := by
  have hsized : ∀ out : Message,
      block2Of (if block.num = 0 then
          out.setOptionUint OptionNumber.size2 (UInt32.ofNat (firmwareTotal r))
        else out) = block2Of out := by
    intro out
    split_ifs
    · exact block2Of_setOptionUint_ne out _ (by decide)
    · rfl
  have hset : ∀ (out : Message) (value : UInt32),
      block2Of (out.setOptionUint OptionNumber.block2 value) =
        Block.decode value := by
    intro out value
    rw [block2Of, Message.optionUint_setOptionUint_self]
    rfl
  rw [firmwareContent, block2Of_payload]
  split
  · rw [block2Of_pushOption_ne _ _ (by decide), hsized, hset]
  · rw [hsized, hset]

theorem block2Of_firmwareContent (req : Message) (r : UpstreamResponse)
    (hszx : block.szx ≤ maxSzx) (hnum : block.num.toNat < 2 ^ 28) :
    block2Of (firmwareContent req block r) =
      some { block with more := moreAfter block (firmwareTotal r) } := by
  rw [block2Of_firmwareContent_low]
  exact Block.decode_encode hnum hszx

theorem moreSet_firmwareContent (req : Message) (block : Block)
    (r : UpstreamResponse) :
    moreSet (firmwareContent req block r) =
      moreAfter block (firmwareTotal r) := by
  rw [moreSet, block2Of_firmwareContent_low, Block.decode_encode_low]
  rfl

theorem carries_firmwareContent
    (hszx : block.szx ≤ maxSzx) (hoffset : block.offset < image.length)
    (himage : image.length < 2 ^ 32)
    (htotal : firmwareTotal r = image.length)
    (hpayload : firmwarePayload block r =
      (image.drop block.offset).take block.size) :
    Carries image block.offset (firmwareContent req block r) := by
  have hblock := block2Of_firmwareContent req r hszx
    (Block.num_lt_of_offset_lt (by omega))
  refine .part hblock rfl hszx (Nat.le_of_lt hoffset) hpayload ?_
  have hreply : (firmwareContent req block r).payload =
      (image.drop block.offset).take block.size := hpayload
  rw [moreAfter, decide_eq_true_eq, hreply, htotal, List.length_take,
    List.length_drop]
  omega

theorem firmwareSuccess_content
    (hrange : ∀ range, firmwareRange r = some range → range.1 = block.offset)
    (htotal : block.offset < firmwareTotal r) :
    firmwareSuccess req block r = firmwareContent req block r := by
  have hsame : ¬ ((firmwareRange r).any fun range =>
      range.1 != block.byteRange.1) = true := by
    rw [Option.any_eq_true]
    intro hmoved
    obtain ⟨range, hfound, hne⟩ := hmoved
    rw [hrange range hfound] at hne
    simp [Block.byteRange] at hne
  have hinside : ¬ (firmwareTotal r ≤ block.byteRange.1 ∧
      0 < firmwareTotal r) := fun hpast => Nat.not_lt.mpr hpast.1 htotal
  rw [firmwareSuccess]
  rw [if_neg hsame, if_neg hinside]

/-- An image no larger than a block is in range only for block 0. -/
theorem firmwarePayload_whole (hstatus : r.status = 200)
    (hbody : r.body = image) (hoffset : block.offset < image.length) :
    firmwarePayload block r = (image.drop block.offset).take block.size := by
  have hsize := block.sixteen_le_size
  have hspan : block.byteRange.2 - block.byteRange.1 + 1 = block.size := by
    simp only [Block.byteRange]
    omega
  have hcut : firmwarePayload block r = if block.size < image.length then
      slice image block.byteRange.1 block.byteRange.2 else image := by
    simp only [firmwarePayload, hstatus, hbody, hspan, true_and, slice]
  rw [hcut]
  split_ifs with hlarge
  · exact slice_byteRange image block
  · have hnum : block.num.toNat = 0 := by
      by_contra hnum
      have hmul := Nat.mul_le_mul_right block.size (Nat.pos_of_ne_zero hnum)
      rw [Nat.one_mul] at hmul
      have hfirst : block.offset = block.num.toNat * block.size := rfl
      omega
    have hzero : block.offset = 0 := by
      rw [Block.offset, hnum, Nat.zero_mul]
    rw [hzero, List.drop_zero, List.take_of_length_le (by omega)]

/-- The reply is one block of the image. -/
structure Blockwise (image : Octets) (offset : Nat) (reply : Message) :
    Prop where
  code : reply.code = Code.content
  named : ∃ b, block2Of reply = some b
  carries : Carries image offset reply

/-- What is in range is served, whichever way upstream answers. -/
theorem firmwareResponse_inRange
    (hanswer : RangeAnswer image block.byteRange.1 block.byteRange.2 r)
    (hszx : block.szx ≤ maxSzx) (hoffset : block.offset < image.length)
    (himage : image.length < 2 ^ 32) :
    Blockwise image block.offset (firmwareResponse req block (.ok r)) := by
  have hserved : r.status < 300 → firmwareTotal r = image.length →
      (∀ range, firmwareRange r = some range → range.1 = block.offset) →
      firmwarePayload block r = (image.drop block.offset).take block.size →
      Blockwise image block.offset (firmwareResponse req block (.ok r)) := by
    intro hstatus htotal hrange hpayload
    simp only [firmwareResponse, if_pos hstatus]
    rw [firmwareSuccess_content hrange (htotal ▸ hoffset)]
    exact ⟨firmwareContent_code req block r,
      ⟨_, block2Of_firmwareContent req r hszx
        (Block.num_lt_of_offset_lt (by omega))⟩,
      carries_firmwareContent hszx hoffset himage htotal hpayload⟩
  cases hanswer with
  | notSatisfiable hpast hstatus => exact absurd hoffset (Nat.not_lt.mpr hpast)
  | clamped hpast hle hlt hstatus hbody hrange =>
      exact absurd hoffset (Nat.not_lt.mpr hpast)
  | partialContent hstart hstatus hbody hrange =>
      have hparsed := firmwareRange_of_text hrange (by omega) (by omega)
        (by omega)
      refine hserved ?_ ?_ ?_ ?_
      · rw [hstatus]
        decide
      · rw [firmwareTotal, hparsed]
      · intro range hfound
        rw [hparsed, Option.some.injEq] at hfound
        rw [← hfound]
        rfl
      · have hpartial : ¬ r.status = 200 := by
          rw [hstatus]
          decide
        simp only [firmwarePayload, hpartial, false_and, if_false]
        rw [hbody, slice_byteRange]
  | whole hstatus hbody hrange hsize =>
      refine hserved ?_ (firmwareTotal_whole hbody hrange hsize) ?_ ?_
      · rw [hstatus]
        decide
      · intro range hfound
        rw [firmwareRange, hrange] at hfound
        cases hfound
      · exact firmwarePayload_whole hstatus hbody hoffset

theorem firmwareResponse_pastEnd
    (hanswer : RangeAnswer image block.byteRange.1 block.byteRange.2 r)
    (hnonempty : image ≠ []) (himage : image.length < 2 ^ 32)
    (hpast : image.length ≤ block.offset) :
    (firmwareResponse req block (.ok r)).code = Code.badRequest := by
  cases hanswer with
  | partialContent hstart hstatus hbody hrange =>
      exact absurd hstart (Nat.not_lt.mpr hpast)
  | notSatisfiable hstart hstatus =>
      simp [firmwareResponse, errorResponse, hstatus, upstreamStatus,
        Message.response]
  | @clamped start' stop' hstart hle hlt hstatus hbody hrange =>
      have hparsed := firmwareRange_of_text hrange (by omega) (by omega)
        (by omega)
      have hmoved : start' ≠ block.byteRange.1 := by
        have hoffset : block.byteRange.1 = block.offset := rfl
        omega
      simp [firmwareResponse, hstatus, firmwareSuccess, hparsed, hmoved,
        diagnostic, Message.response]
  | whole hstatus hbody hrange hsize =>
      have htotal := firmwareTotal_whole hbody hrange hsize
      have hpos := List.length_pos_iff.mpr hnonempty
      have hstart : image.length ≤ block.byteRange.1 := hpast
      simp [firmwareResponse, hstatus, firmwareSuccess, firmwareRange, hrange,
        htotal, hstart, hpos, diagnostic, Message.response]

theorem firmware_download (h : Handler) (image : Octets)
    (hceiling : h.udpMaxSzx ≤ maxSzx) (hnonempty : image ≠ [])
    (himage : image.length < 2 ^ 32) :
    (∀ gs, Download h (FetchesFirmware image) gs → Complete h image gs ∧
      ∀ g ∈ gs, Blockwise image (offsetNamed g.req) (g.reply h)) ∧
    ∀ g b, FetchesFirmware image g → block2Of g.req = some b →
      image.length ≤ b.offset → (g.reply h).code = Code.badRequest := by
  have hserve : ∀ g, FetchesFirmware image g → Download.Asked image g →
      Blockwise image (offsetNamed g.req) (g.reply h) := by
    intro g hg hasked
    obtain ⟨hoffset, hszx⟩ :=
      firmwareBlock_spec h g.transport (hasked.lt himage)
    have hle := UInt8.le_trans hszx (maxSzxFor_le hceiling g.transport)
    obtain ⟨r, hanswer, hreply⟩ := reply_fetchesFirmware (h := h) hg
    have hlt : offsetNamed g.req < image.length := by
      have hpos := List.length_pos_iff.mpr hnonempty
      unfold Download.Asked at hasked
      omega
    rw [hreply, ← hoffset]
    exact firmwareResponse_inRange hanswer hle (hoffset.symm ▸ hlt) himage
  have hcarries : ∀ g, FetchesFirmware image g → Download.Asked image g →
      Carries image (offsetNamed g.req) (g.reply h) :=
    fun g hg hasked => (hserve g hg hasked).carries
  refine ⟨?_, ?_⟩
  · intro gs hgs
    refine ⟨hgs.complete himage hcarries, ?_⟩
    intro g hmem
    obtain ⟨hg, hasked, -⟩ := (hgs.pieces hcarries).2 g hmem
    exact hserve g hg hasked
  · intro g b hg hblock hpast
    obtain ⟨r, hanswer, hreply⟩ := reply_fetchesFirmware (h := h) hg
    have hfar : image.length ≤
        (h.firmwareBlock g.req g.transport).offset := by
      rw [firmwareBlock, hblock]
      exact Block.le_offset_capped (block2Of_szx_le hblock) _
        (Nat.le_of_lt himage) hpast
    rw [hreply]
    exact firmwareResponse_pastEnd hanswer hnonempty himage hfar

/-- Answers a range with as much of it as there is. -/
def rangeServer (image : Octets) (request : DeviceRequest) : UpstreamResult :=
  match request.range with
  | some (start, stop) =>
      if start < image.length then
        .ok {
          status := 206
          body := slice image start stop
          contentRange := some (contentRangeText start
            (min stop (image.length - 1)) image.length) }
      else .ok { status := 416, body := [] }
  | none => .ok { status := 200, body := image }

def wholeServer (image : Octets) (_ : DeviceRequest) : UpstreamResult :=
  .ok { status := 200, body := image }

theorem rangeServer_answers (image : Octets) {request : DeviceRequest}
    {start stop : Nat} (hrange : request.range = some (start, stop)) :
    ∃ r, rangeServer image request = .ok r ∧ RangeAnswer image start stop r := by
  rw [rangeServer, hrange]
  dsimp only
  split_ifs with hstart
  · exact ⟨_, rfl, .partialContent hstart rfl rfl rfl⟩
  · exact ⟨_, rfl, .notSatisfiable (Nat.not_lt.mp hstart) rfl⟩

def firmwareGet (block2 : List MessageOption)
    (upstream : DeviceRequest → UpstreamResult) : Get where
  now := 1
  req := getRequest "firmware" block2
  session := logsSession 1
  transport := .udp
  map := ∅
  upstream := upstream

/-- The first block comes as a range, the second out of the whole image. -/
def firmwareGets : List Get :=
  [firmwareGet [] (rangeServer twentyBytes),
    firmwareGet [(OptionNumber.block2, encodeUint 0x10)]
      (wholeServer twentyBytes)]

theorem fetchesFirmware_firmwareGet {block2 : List MessageOption}
    {upstream : DeviceRequest → UpstreamResult}
    (hunderstood : Understood (getRequest "firmware" block2))
    (hpath : (getRequest "firmware" block2).pathSegments =
      ["device", "pigeons", "p", "firmware"])
    (hanswers : ∀ request start stop, request.range = some (start, stop) →
      ∃ r, upstream request = .ok r ∧ RangeAnswer twentyBytes start stop r) :
    FetchesFirmware twentyBytes (firmwareGet block2 upstream) :=
  ⟨⟨hunderstood, hpath, .getFirmware⟩,
    fun request start stop _ _ _ => hanswers request start stop⟩

theorem firmware_download_firmwareGets :
    (Complete (Handler.mk 0) twentyBytes firmwareGets ∧
      ∀ g ∈ firmwareGets, Blockwise twentyBytes (offsetNamed g.req)
        (g.reply (Handler.mk 0))) ∧
    ((firmwareGet [(OptionNumber.block2, encodeUint 0x20)]
      (rangeServer twentyBytes)).reply (Handler.mk 0)).code =
        Code.badRequest := by
  have hboth := firmware_download (Handler.mk 0) twentyBytes (by decide)
    (by decide) (by decide +kernel)
  have hranges : ∀ request start stop, request.range = some (start, stop) →
      ∃ r, rangeServer twentyBytes request = .ok r ∧
        RangeAnswer twentyBytes start stop r :=
    fun _ _ _ => rangeServer_answers twentyBytes
  have hfirst : Download (Handler.mk 0) (FetchesFirmware twentyBytes)
      ([] ++ [firmwareGet [] (rangeServer twentyBytes)]) :=
    .start (fetchesFirmware_firmwareGet
      (by unfold Understood; decide +kernel) (by decide +kernel) hranges)
      (by decide +kernel)
  have hgets : Download (Handler.mk 0) (FetchesFirmware twentyBytes)
      firmwareGets :=
    .next hfirst (by decide +kernel)
      (fetchesFirmware_firmwareGet (by unfold Understood; decide +kernel)
        (by decide +kernel)
        fun _ _ _ _ => ⟨_, rfl, .whole rfl rfl rfl (by simp)⟩)
      (by decide +kernel)
  refine ⟨hboth.1 firmwareGets hgets, hboth.2 _ ⟨2, false, 0⟩ ?_ ?_ ?_⟩
  · exact fetchesFirmware_firmwareGet (by unfold Understood; decide +kernel)
      (by decide +kernel) hranges
  · decide +kernel
  · decide +kernel

end Handler

end Loft
