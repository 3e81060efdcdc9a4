import Loft.Handler.Firmware

namespace Loft

open Loft.Data
open Loft.Coap

/-! Upstream may publish another image while a device is downloading. Every
block carries the head of its image's digest as an entity tag. -/

def hexDigitOf (n : Nat) : UInt8 :=
  if n < 10 then UInt8.ofNat (0x30 + n) else UInt8.ofNat (0x57 + n)

/-- Two lower-case digits a byte. -/
def hexOf : Octets → Octets
  | [] => []
  | byte :: rest =>
      hexDigitOf (byte.toNat / 16) :: hexDigitOf (byte.toNat % 16) :: hexOf rest

theorem hexDigit_hexDigitOf : ∀ n < 16,
    hexDigit (hexDigitOf n) = some (UInt8.ofNat n) ∧
      hexDigitOf n ≠ 0x2B := by decide

theorem hexByte_hexDigitOf (byte : UInt8) :
    hexByte (hexDigitOf (byte.toNat / 16)) (hexDigitOf (byte.toNat % 16)) =
      some byte := by
  have hlt := byte.toNat_lt
  obtain ⟨hhigh, hsign⟩ := hexDigit_hexDigitOf (byte.toNat / 16) (by omega)
  obtain ⟨hlow, -⟩ := hexDigit_hexDigitOf (byte.toNat % 16) (by omega)
  have hbyte : UInt8.ofNat (byte.toNat / 16) * 16 +
      UInt8.ofNat (byte.toNat % 16) = byte := by
    apply UInt8.toNat_inj.mp
    simp only [UInt8.toNat_add, UInt8.toNat_mul, UInt8.toNat_ofNat',
      UInt8.reduceToNat]
    omega
  rw [hexByte, if_neg hsign, hhigh, hlow]
  exact congrArg some hbyte

theorem length_hexOf (bytes : Octets) :
    (hexOf bytes).length = bytes.length * 2 := by
  induction bytes with
  | nil => rfl
  | cons byte rest ih =>
      rw [hexOf, List.length_cons, List.length_cons, ih, List.length_cons]
      omega

theorem hexBytes_hexOf (bytes : Octets) :
    hexBytes (hexOf bytes) = some bytes := by
  induction bytes with
  | nil => rfl
  | cons byte rest ih =>
      rw [hexOf, hexBytes, hexByte_hexDigitOf, ih]
      rfl

theorem take_hexOf (bytes : Octets) (n : Nat) :
    (hexOf bytes).take (n * 2) = hexOf (bytes.take n) := by
  induction bytes generalizing n with
  | nil => simp [hexOf]
  | cons byte rest ih =>
      cases n with
      | zero => rfl
      | succ n =>
          have hpair : (n + 1) * 2 = n * 2 + 1 + 1 := by omega
          rw [hexOf, hpair, List.take_succ_cons, List.take_succ_cons, ih,
            List.take_succ_cons, hexOf]

theorem hexPrefixBytes_hexOf {text : String} {digest : Octets} {n : Nat}
    (htext : asBytes text = hexOf digest) (hlong : n ≤ digest.length) :
    hexPrefixBytes text n = some (digest.take n) := by
  have hlength := length_hexOf digest
  rw [hexPrefixBytes, htext, if_neg (by omega), take_hexOf]
  exact hexBytes_hexOf _

namespace Handler

def etagOf (reply : Message) : Option Octets :=
  reply.firstOption OptionNumber.etag

variable {h : Handler} {req : Message} {block : Block} {r : UpstreamResponse}
  {image : Octets}

theorem etagOf_firmwareContent (req : Message) (block : Block)
    (r : UpstreamResponse) :
    etagOf (firmwareContent req block r) =
      r.firmwareSha256.bind (hexPrefixBytes · 8) := by
  have hset : ∀ (out : Message) (number : UInt16) (value : UInt32),
      OptionNumber.etag ≠ number →
      etagOf (out.setOptionUint number value) = etagOf out :=
    fun out _ value hne => out.firstOption_setOptionUint_ne value hne
  have hsized : ∀ out : Message,
      etagOf (if block.num = 0 then
          out.setOptionUint OptionNumber.size2 (UInt32.ofNat (firmwareTotal r))
        else out) = etagOf out := by
    intro out
    split_ifs
    · exact hset out _ _ (by decide)
    · rfl
  have hbare : etagOf (Message.response Code.content req) = none := rfl
  have hpayload : ∀ (out : Message) (payload : Octets),
      etagOf { out with payload := payload } = etagOf out :=
    fun _ _ => rfl
  rw [firmwareContent, hpayload]
  cases r.firmwareSha256.bind (hexPrefixBytes · 8) with
  | none =>
      dsimp only
      rw [hsized, hset _ _ _ (by decide), hset _ _ _ (by decide), hbare]
  | some tag =>
      dsimp only
      rw [etagOf, Message.firstOption_pushOption_self, ← etagOf, hsized,
        hset _ _ _ (by decide), hset _ _ _ (by decide), hbare]
      rfl

/-- A reply that is not a block has no options, so neither a tag nor more. -/
theorem firmwareResponse_cases (req : Message) (block : Block)
    (r : UpstreamResponse) :
    (r.status < 300 ∧
        firmwareResponse req block (.ok r) = firmwareContent req block r) ∨
      (firmwareResponse req block (.ok r)).code ≠ Code.content ∧
        (firmwareResponse req block (.ok r)).options = [] := by
  rw [firmwareResponse]
  split_ifs with hstatus
  · rw [firmwareSuccess]
    have hrefused : (diagnostic req Code.badRequest
        "block out of range").code ≠ Code.content := by
      rw [diagnostic_code]
      decide
    split_ifs
    · exact .inr ⟨hrefused, rfl⟩
    · exact .inr ⟨hrefused, rfl⟩
    · exact .inl ⟨hstatus, rfl⟩
  · refine .inr ⟨?_, rfl⟩
    intro hcontent
    have hfailed := upstreamStatus_mem r.status
    have hcode : upstreamStatus r.status = Code.content := hcontent
    rw [hcode] at hfailed
    exact absurd hfailed (by decide)

/-- A ranged GET is answered out of one image, and with its digest. -/
structure ReleaseAnswer (digest : Octets → Octets) (image : Octets)
    (start stop : Nat) (resp : HttpResponse) : Prop where
  range : RangeAnswer image start stop (Dovecote.upstreamResponse resp)
  digest : resp.status < 300 → ∃ text,
    resp.header "X-Firmware-Sha256" = some text ∧
      asBytes text = hexOf (digest image)

structure FetchesRelease (digest : Octets → Octets) (image : Octets)
    (g : Get) : Prop where
  admitted : Admitted g.req g.session .get "firmware"
  answered : ∀ request start stop, request.method = .get →
    request.leaf = "firmware" → request.pigeonId = g.session.pigeonId →
    request.range = some (start, stop) →
    ∃ resp, g.upstream request = Dovecote.deviceResponse (.ok resp) ∧
      ReleaseAnswer digest image start stop resp

/-- What upstream may publish. -/
structure Published (digest : Octets → Octets) (image : Octets) : Prop where
  nonempty : image ≠ []
  length : image.length < 2 ^ 32
  digest : 8 ≤ (digest image).length

def tagOf (digest : Octets → Octets) (image : Octets) : Octets :=
  (digest image).take 8

variable {digest : Octets → Octets} {g : Get}

theorem reply_fetchesRelease (hg : FetchesRelease digest image g) :
    ∃ resp, ReleaseAnswer digest image
        (h.firmwareBlock g.req g.transport).byteRange.1
        (h.firmwareBlock g.req g.transport).byteRange.2 resp ∧
      g.reply h = firmwareResponse g.req (h.firmwareBlock g.req g.transport)
        (.ok (Dovecote.upstreamResponse resp)) := by
  obtain ⟨resp, hresp, hanswer⟩ :=
    hg.answered (g.ranged h) _ _ rfl rfl rfl rfl
  refine ⟨resp, hanswer, ?_⟩
  rw [reply_firmware hg.admitted, hresp]
  rfl

/-- Whatever is served carries the tag of the image it was cut out of. -/
theorem FetchesRelease.tagged (hg : FetchesRelease digest image g)
    (himage : Published digest image)
    (hserved : (g.reply h).code = Code.content) :
    etagOf (g.reply h) = some (tagOf digest image) := by
  obtain ⟨resp, hanswer, hreply⟩ := reply_fetchesRelease (h := h) hg
  rw [hreply] at hserved ⊢
  rcases firmwareResponse_cases g.req (h.firmwareBlock g.req g.transport)
    (Dovecote.upstreamResponse resp) with ⟨hstatus, hcontent⟩ | ⟨hother, -⟩
  · obtain ⟨text, hheader, htext⟩ := hanswer.digest hstatus
    have hsha : (Dovecote.upstreamResponse resp).firmwareSha256 = some text :=
      hheader
    rw [hcontent, etagOf_firmwareContent, hsha, Option.bind_some]
    exact hexPrefixBytes_hexOf htext himage.digest
  · exact absurd hserved hother

theorem FetchesRelease.inRange (hg : FetchesRelease digest image g)
    (himage : Published digest image) (hceiling : h.udpMaxSzx ≤ maxSzx)
    (hoffset : offsetNamed g.req < image.length) :
    Blockwise image (offsetNamed g.req) (g.reply h) := by
  have hlength := himage.length
  have hfits : offsetNamed g.req < 2 ^ 32 := by omega
  obtain ⟨hnamed, hszx⟩ := firmwareBlock_spec h g.transport hfits
  have hle := UInt8.le_trans hszx (maxSzxFor_le hceiling g.transport)
  obtain ⟨resp, hanswer, hreply⟩ := reply_fetchesRelease (h := h) hg
  rw [hreply, ← hnamed]
  rw [← hnamed] at hoffset
  exact firmwareResponse_inRange hanswer.range hle hoffset hlength

theorem FetchesRelease.served (hg : FetchesRelease digest image g)
    (himage : Published digest image) (hceiling : h.udpMaxSzx ≤ maxSzx)
    (hfits : offsetNamed g.req < 2 ^ 32)
    (hserved : (g.reply h).code = Code.content) :
    Blockwise image (offsetNamed g.req) (g.reply h) := by
  apply hg.inRange himage hceiling
  apply Nat.lt_of_not_le
  intro hpast
  obtain ⟨hnamed, -⟩ := firmwareBlock_spec h g.transport hfits
  obtain ⟨resp, hanswer, hreply⟩ := reply_fetchesRelease (h := h) hg
  rw [← hnamed] at hpast
  have hrefused : (g.reply h).code = Code.badRequest := by
    rw [hreply]
    exact firmwareResponse_pastEnd hanswer.range himage.nonempty himage.length
      hpast
  rw [hrefused] at hserved
  exact absurd hserved (by decide)

theorem FetchesRelease.content_of_moreSet (hg : FetchesRelease digest image g)
    (hmore : moreSet (g.reply h) = true) :
    (g.reply h).code = Code.content := by
  obtain ⟨resp, -, hreply⟩ := reply_fetchesRelease (h := h) hg
  rw [hreply] at hmore ⊢
  rcases firmwareResponse_cases g.req (h.firmwareBlock g.req g.transport)
    (Dovecote.upstreamResponse resp) with ⟨-, hcontent⟩ | ⟨-, hbare⟩
  · rw [hcontent]
    exact firmwareContent_code _ _ _
  · have hnone : ∀ reply : Message, reply.options = [] →
        moreSet reply = false := by
      intro reply hempty
      simp [moreSet, block2Of, Message.optionUint, Message.firstOption,
        Message.optionValues, hempty]
    rw [hnone _ hbare] at hmore
    cases hmore

/-- The request is answered out of whatever is published just then. -/
def FetchesSome (digest : Octets → Octets) (Released : Octets → Prop)
    (g : Get) : Prop :=
  ∃ image, Released image ∧ FetchesRelease digest image g

theorem Download.imp {P Q : Get → Prop} {gs : List Get}
    (hgs : Download h P gs) (himp : ∀ g ∈ gs, P g → Q g) :
    Download h Q gs := by
  induction hgs with
  | start hserved hzero => exact .start (himp _ (by simp) hserved) hzero
  | next hgs hmore hserved hasks ih =>
      refine .next (ih ?_) hmore (himp _ (by simp) hserved) hasks
      intro g hmem
      exact himp g (List.mem_append_left _ hmem)

variable {Released : Octets → Prop} {gs : List Get}

/-- The offsets asked for follow from blocks of images, so they fit. -/
theorem Download.fits (hgs : Download h (FetchesSome digest Released) gs)
    (hpublished : ∀ image, Released image → Published digest image)
    (hceiling : h.udpMaxSzx ≤ maxSzx) :
    ∀ g ∈ gs, FetchesSome digest Released g ∧ offsetNamed g.req < 2 ^ 32 := by
  induction hgs with
  | @start g hserved hzero =>
      intro g' hmem
      obtain rfl := List.mem_singleton.mp hmem
      exact ⟨hserved, by omega⟩
  | @next gs last g hgs hmore hserved hasks ih =>
      intro g' hmem
      rcases List.mem_append.mp hmem with hold | hnew
      · exact ih g' hold
      · obtain rfl := List.mem_singleton.mp hnew
        obtain ⟨⟨image, hreleased, hlast⟩, hfits⟩ := ih last (by simp)
        have himage := hpublished image hreleased
        have hblock := hlast.served himage hceiling hfits
          (hlast.content_of_moreSet hmore)
        have hleft := hblock.carries.moreSet_iff.mp hmore
        have hlength := himage.length
        rw [hblock.carries.offsetNamed_eq] at hasks
        exact ⟨hserved, by omega⟩

theorem Download.ne_nil {P : Get → Prop} (hgs : Download h P gs) :
    ∃ g, g ∈ gs := by
  cases hgs with
  | start => exact ⟨_, List.mem_singleton_self _⟩
  | next => exact ⟨_, List.mem_append_right _ (List.mem_singleton_self _)⟩

/-- A block says by its tag which image it was cut out of, and a client that
goes on only under one tag ends up with one whole image. -/
theorem releases_kept_apart (h : Handler)
    (hceiling : h.udpMaxSzx ≤ maxSzx)
    (hpublished : ∀ image, Released image → Published digest image)
    (hapart : ∀ image image', Released image → Released image' →
      tagOf digest image = tagOf digest image' → image = image')
    (hgs : Download h (FetchesSome digest Released) gs) :
    (∀ g ∈ gs, (g.reply h).code = Code.content →
      ∃ image, Released image ∧
        etagOf (g.reply h) = some (tagOf digest image) ∧
        Blockwise image (offsetNamed g.req) (g.reply h)) ∧
    ∀ tag, (∀ g ∈ gs, (g.reply h).code = Code.content ∧
        etagOf (g.reply h) = some tag) →
      ∃ image, Released image ∧ tag = tagOf digest image ∧
        Complete h image gs := by
  have hall := hgs.fits hpublished hceiling
  refine ⟨?_, ?_⟩
  · intro g hmem hserved
    obtain ⟨⟨image, hreleased, hg⟩, hfits⟩ := hall g hmem
    have himage := hpublished image hreleased
    exact ⟨image, hreleased, hg.tagged himage hserved,
      hg.served himage hceiling hfits hserved⟩
  · intro tag htag
    obtain ⟨first, hfirst⟩ := hgs.ne_nil
    obtain ⟨⟨image, hreleased, hg⟩, -⟩ := hall first hfirst
    have himage := hpublished image hreleased
    have hsame : tag = tagOf digest image := by
      have htagged := hg.tagged himage (htag first hfirst).1
      rw [(htag first hfirst).2] at htagged
      exact Option.some.inj htagged
    refine ⟨image, hreleased, hsame, ?_⟩
    have hone : Download h (FetchesRelease digest image) gs := by
      apply hgs.imp
      intro g hmem hserved
      obtain ⟨image', hreleased', hg'⟩ := hserved
      have htagged := hg'.tagged (hpublished image' hreleased') (htag g hmem).1
      rw [(htag g hmem).2, hsame] at htagged
      rw [hapart image image' hreleased hreleased' (Option.some.inj htagged)]
      exact hg'
    apply hone.complete himage.length
    intro g hg' hasked
    have hpos := List.length_pos_iff.mpr himage.nonempty
    apply (hg'.inRange himage hceiling ?_).carries
    unfold Download.Asked at hasked
    omega

def eighteenBytes : Octets :=
  List.replicate 18 0xCC

/-- Tells the two images apart. -/
def lengthDigest (image : Octets) : Octets :=
  List.replicate 32 (UInt8.ofNat image.length)

def releaseResponse (image : Octets) : HttpResponse where
  status := 200
  headers := [("x-firmware-sha256", hexOf (lengthDigest image))]
  body := image

def releaseServer (image : Octets) (_ : DeviceRequest) : UpstreamResult :=
  Dovecote.deviceResponse (.ok (releaseResponse image))

/-- The second block is asked for after the image may have been replaced. -/
def releaseGets (first second : Octets) : List Get :=
  [firmwareGet [] (releaseServer first),
    firmwareGet [(OptionNumber.block2, encodeUint 0x10)]
      (releaseServer second)]

def TwoReleases (image : Octets) : Prop :=
  image = twentyBytes ∨ image = eighteenBytes

theorem fetchesRelease_firmwareGet {block2 : List MessageOption}
    {image : Octets}
    (hunderstood : Understood (getRequest "firmware" block2))
    (hpath : (getRequest "firmware" block2).pathSegments =
      ["device", "pigeons", "p", "firmware"])
    (hheader : ((releaseResponse image).header "X-Firmware-Sha256").map
      asBytes = some (hexOf (lengthDigest image)))
    (hnone : (releaseResponse image).header "Content-Range" = none ∧
      (releaseResponse image).header "X-Firmware-Size" = none) :
    FetchesRelease lengthDigest image
      (firmwareGet block2 (releaseServer image)) := by
  refine ⟨⟨hunderstood, hpath, .getFirmware⟩, ?_⟩
  intro request start stop _ _ _ _
  refine ⟨releaseResponse image, rfl, .whole rfl rfl hnone.1 ?_, ?_⟩
  · intro size hsize
    rw [Dovecote.upstreamResponse, hnone.2] at hsize
    cases hsize
  · intro _
    exact Option.map_eq_some_iff.mp hheader

theorem releases_kept_apart_replaced :
    ((∀ g ∈ releaseGets twentyBytes eighteenBytes,
        (g.reply (Handler.mk 0)).code = Code.content →
          ∃ image, TwoReleases image ∧
            etagOf (g.reply (Handler.mk 0)) = some (tagOf lengthDigest image) ∧
            Blockwise image (offsetNamed g.req) (g.reply (Handler.mk 0))) ∧
      ∀ tag, (∀ g ∈ releaseGets twentyBytes eighteenBytes,
          (g.reply (Handler.mk 0)).code = Code.content ∧
            etagOf (g.reply (Handler.mk 0)) = some tag) →
        ∃ image, TwoReleases image ∧ tag = tagOf lengthDigest image ∧
          Complete (Handler.mk 0) image
            (releaseGets twentyBytes eighteenBytes)) ∧
    (releaseGets twentyBytes eighteenBytes).map
        (fun g => etagOf (g.reply (Handler.mk 0))) =
      [some (List.replicate 8 20), some (List.replicate 8 18)] := by
  refine ⟨releases_kept_apart (Handler.mk 0) (by decide) ?_ ?_ ?_, ?_⟩
  · intro image himage
    rcases himage with rfl | rfl
    · exact ⟨by decide, by decide +kernel, by decide +kernel⟩
    · exact ⟨by decide, by decide +kernel, by decide +kernel⟩
  · intro image image' himage himage' hsame
    rcases himage with rfl | rfl <;> rcases himage' with rfl | rfl
    · rfl
    · exact absurd hsame (by decide +kernel)
    · exact absurd hsame (by decide +kernel)
    · rfl
  · have hfirst : Download (Handler.mk 0)
        (FetchesSome lengthDigest TwoReleases)
        ([] ++ [firmwareGet [] (releaseServer twentyBytes)]) :=
      .start ⟨_, .inl rfl, fetchesRelease_firmwareGet
        (by unfold Understood; decide +kernel) (by decide +kernel)
        (by decide +kernel) (by decide +kernel)⟩ (by decide +kernel)
    exact .next hfirst (by decide +kernel)
      ⟨_, .inr rfl, fetchesRelease_firmwareGet
        (by unfold Understood; decide +kernel) (by decide +kernel)
        (by decide +kernel) (by decide +kernel)⟩ (by decide +kernel)
  · decide +kernel

end Handler

end Loft
