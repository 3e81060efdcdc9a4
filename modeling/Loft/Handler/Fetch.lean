import Loft.Handler.Download

namespace Loft

open Loft.Data
open Loft.Coap

/-! The JSON body of a GET, fetched block by block. -/

namespace Handler

structure FetchesShadow (body : Octets) (g : Get) : Prop where
  admitted : Admitted g.req g.session .get "shadow"
  unchanged : ∀ request, request.method = .get → request.leaf = "shadow" →
    request.pigeonId = g.session.pigeonId →
    ∃ r, g.upstream request = .ok r ∧ r.status = 200 ∧ r.body = body

variable {h : Handler} {req : Message} {transport : Transport}
  {r : UpstreamResponse}

theorem reply_fetchesShadow {body : Octets} {g : Get}
    (hg : FetchesShadow body g) :
    ∃ r, r.status = 200 ∧ r.body = body ∧
      g.reply h = h.jsonSuccess g.req r .get g.transport := by
  obtain ⟨r, hresp, hstatus, hbody⟩ := hg.unchanged
    (upstreamCall g.session .get "shadow" none none) rfl rfl rfl
  refine ⟨r, hstatus, hbody, ?_⟩
  have hroute : route g.req g.session = .getShadow := route_eq hg.admitted rfl
  rw [Get.reply, serve_eq, dispatch, hroute]
  simp only [Action.outcome, hresp, jsonResponse, hstatus]
  rfl

theorem jsonBlock_some {total : Nat} {b : Block}
    (hblock : h.jsonBlock req transport total = some b)
    (hfits : offsetNamed req < 2 ^ 32) :
    b.offset = offsetNamed req ∧ b.szx ≤ h.maxSzxFor transport := by
  unfold jsonBlock at hblock
  cases hrequested : block2Of req with
  | some requested =>
      rw [hrequested] at hblock
      cases hblock
      exact ⟨offset_capped_asked hrequested hfits _,
        Block.szx_capped_le requested _⟩
  | none =>
      rw [hrequested] at hblock
      dsimp only at hblock
      split_ifs at hblock
      cases hblock
      rw [offsetNamed, hrequested]
      exact ⟨Block.offset_of_num_eq_zero rfl, UInt8.le_refl _⟩

theorem jsonBlock_none {total : Nat}
    (hblock : h.jsonBlock req transport total = none) :
    block2Of req = none ∧
      (transport = .udp → total ≤ sizeFor h.udpMaxSzx) := by
  unfold jsonBlock at hblock
  cases hrequested : block2Of req with
  | some requested => simp [hrequested] at hblock
  | none =>
      rw [hrequested] at hblock
      dsimp only at hblock
      split_ifs at hblock with hlarge
      refine ⟨rfl, ?_⟩
      intro hudp
      subst hudp
      rw [not_and, Nat.not_lt] at hlarge
      exact hlarge rfl

theorem jsonSuccess_whole
    (hblock : h.jsonBlock req transport r.body.length = none) :
    h.jsonSuccess req r .get transport =
      { (Message.response (jsonCode .get r.status) req).setOptionUint
          OptionNumber.contentFormat ContentFormat.json.toUInt32 with
        payload := r.body } := by
  simp only [jsonSuccess, hblock]

/-- A block in range is cut out of the body and says whether more follows. -/
theorem jsonSuccess_part {b : Block}
    (hblock : h.jsonBlock req transport r.body.length = some b)
    (hszx : b.szx ≤ maxSzx)
    (hrange : b.offset = 0 ∨ b.offset < r.body.length)
    (htotal : r.body.length < 2 ^ 32) :
    block2Of (h.jsonSuccess req r .get transport) = some { b with
        more := decide (min (b.offset + b.size) r.body.length <
          r.body.length) } ∧
      (h.jsonSuccess req r .get transport).payload =
        (r.body.drop b.offset).take b.size ∧
      (h.jsonSuccess req r .get transport).code = jsonCode .get r.status := by
  have hinside : ¬ (r.body.length ≤ b.offset ∧ 0 < b.num) := by
    intro hpast
    rcases hrange with hzero | hlt
    · rw [Block.offset_eq_zero.mp hzero] at hpast
      exact absurd hpast.2 (by decide)
    · omega
  have hnum : b.num.toNat < 2 ^ 28 :=
    Block.num_lt_of_offset_lt (by omega)
  simp only [jsonSuccess, hblock, if_neg hinside]
  refine ⟨?_, ?_, ?_⟩
  · rw [block2Of_payload]
    split_ifs
    · rw [block2Of_setOptionUint_ne _ _ (by decide)]
      exact block2Of_setOptionUint_self _ hnum hszx
    · exact block2Of_setOptionUint_self _ hnum hszx
  · exact drop_take_min r.body b.offset b.size
  · split_ifs <;> rfl

theorem payload_length_le {reply : Message} {body : Octets} {b : Block}
    (hpayload : reply.payload = (body.drop b.offset).take b.size) :
    reply.payload.length ≤ b.size := by
  rw [hpayload]
  exact List.length_take_le _ _

structure Fetched (h : Handler) (body : Octets) (g : Get) : Prop where
  code : (g.reply h).code = Code.content
  carries : Carries body (offsetNamed g.req) (g.reply h)
  ceiling : g.transport = .udp →
    (g.reply h).payload.length ≤ sizeFor h.udpMaxSzx

theorem fetched {body : Octets} {g : Get} (hceiling : h.udpMaxSzx ≤ maxSzx)
    (hbody : body.length < 2 ^ 32) (hg : FetchesShadow body g)
    (hasked : Download.Asked body g) : Fetched h body g := by
  obtain ⟨r, hstatus, rfl, hreply⟩ := reply_fetchesShadow (h := h) hg
  cases hblock : h.jsonBlock g.req g.transport r.body.length with
  | none =>
      obtain ⟨hnone, hudp⟩ := jsonBlock_none hblock
      rw [jsonSuccess_whole hblock] at hreply
      refine ⟨?_, ?_, ?_⟩
      · rw [hreply, hstatus]
        rfl
      · rw [hreply, offsetNamed, hnone]
        refine .all ?_ rfl rfl
        rw [block2Of_payload, block2Of_setOptionUint_ne _ _ (by decide)]
        rfl
      · rw [hreply]
        exact hudp
  | some b =>
      obtain ⟨hoffset, hszx⟩ := jsonBlock_some hblock (hasked.lt hbody)
      have hle : b.szx ≤ maxSzx :=
        UInt8.le_trans hszx (maxSzxFor_le hceiling g.transport)
      have hrange : b.offset = 0 ∨ b.offset < r.body.length := by
        rw [hoffset]
        exact hasked
      obtain ⟨hblock2, hpayload, hcode⟩ :=
        jsonSuccess_part hblock hle hrange hbody
      rw [← hreply] at hblock2 hpayload hcode
      refine ⟨?_, ?_, ?_⟩
      · rw [hcode, hstatus]
        rfl
      · rw [← hoffset]
        refine .part hblock2 rfl hle (by omega) hpayload ?_
        rw [decide_eq_true_eq, hpayload, List.length_take, List.length_drop]
        omega
      · intro hudp
        rw [hudp] at hszx
        refine Nat.le_trans (payload_length_le hpayload) ?_
        rw [Block.size, sizeFor_eq, sizeFor_eq]
        exact Nat.pow_le_pow_right (by decide) (Nat.add_le_add_right hszx 4)

theorem past_end {body : Octets} {g : Get} {b : Block}
    (hbody : body.length < 2 ^ 32) (hg : FetchesShadow body g)
    (hblock : block2Of g.req = some b) (hnum : b.num ≠ 0)
    (hpast : body.length ≤ b.offset) :
    (g.reply h).code = Code.badRequest := by
  obtain ⟨r, -, rfl, hreply⟩ := reply_fetchesShadow (h := h) hg
  have hszx := block2Of_szx_le hblock
  have hfar : r.body.length ≤
      (b.capped (h.maxSzxFor g.transport)).offset :=
    Block.le_offset_capped hszx _ (Nat.le_of_lt hbody) hpast
  have hpos : 0 < (b.capped (h.maxSzxFor g.transport)).num := by
    rw [UInt32.pos_iff_ne_zero, Ne, Block.num_capped_eq_zero hszx]
    exact hnum
  simp only [hreply, jsonSuccess, jsonBlock, hblock]
  rw [if_pos ⟨hfar, hpos⟩]
  rfl

theorem shadow_download (h : Handler) (body : Octets)
    (hceiling : h.udpMaxSzx ≤ maxSzx) (hbody : body.length < 2 ^ 32) :
    (∀ gs, Download h (FetchesShadow body) gs →
      Complete h body gs ∧ ∀ g ∈ gs, Fetched h body g) ∧
    ∀ g b, FetchesShadow body g → block2Of g.req = some b → b.num ≠ 0 →
      body.length ≤ b.offset → (g.reply h).code = Code.badRequest := by
  have hserve : ∀ g, FetchesShadow body g → Download.Asked body g →
      Fetched h body g := fun g => fetched hceiling hbody
  have hcarries : ∀ g, FetchesShadow body g → Download.Asked body g →
      Carries body (offsetNamed g.req) (g.reply h) :=
    fun g hg hasked => (hserve g hg hasked).carries
  refine ⟨?_, fun g b hg => past_end hbody hg⟩
  intro gs hgs
  refine ⟨hgs.complete hbody hcarries, ?_⟩
  intro g hmem
  obtain ⟨hg, hasked, -⟩ := (hgs.pieces hcarries).2 g hmem
  exact hserve g hg hasked

def getRequest (leaf : String) (block2 : List MessageOption) : Message where
  code := Code.get
  options := ["device", "pigeons", "p", leaf].map
      (fun segment => (OptionNumber.uriPath, asBytes segment)) ++ block2

def twentyBytes : Octets :=
  List.replicate 16 0xAA ++ List.replicate 4 0xBB

def shadowGet (block2 : List MessageOption) : Get where
  now := 1
  req := getRequest "shadow" block2
  session := logsSession 1
  transport := .udp
  map := ∅
  upstream := fun _ => .ok { status := 200, body := twentyBytes }

/-- The rest is asked for at the size of the first block. -/
def shadowGets : List Get :=
  [shadowGet [], shadowGet [(OptionNumber.block2, encodeUint 0x10)]]

theorem fetchesShadow_shadowGet {block2 : List MessageOption}
    (hunderstood : Understood (getRequest "shadow" block2))
    (hpath : (getRequest "shadow" block2).pathSegments =
      ["device", "pigeons", "p", "shadow"]) :
    FetchesShadow twentyBytes (shadowGet block2) :=
  ⟨⟨hunderstood, hpath, .getShadow⟩, fun _ _ _ _ => ⟨_, rfl, rfl, rfl⟩⟩

theorem shadow_download_shadowGets :
    (Complete (Handler.mk 0) twentyBytes shadowGets ∧
      ∀ g ∈ shadowGets, Fetched (Handler.mk 0) twentyBytes g) ∧
    ((shadowGet [(OptionNumber.block2, encodeUint 0x20)]).reply
      (Handler.mk 0)).code = Code.badRequest := by
  have hboth := shadow_download (Handler.mk 0) twentyBytes (by decide)
    (by decide +kernel)
  have hfirst : Download (Handler.mk 0) (FetchesShadow twentyBytes)
      ([] ++ [shadowGet []]) :=
    .start (fetchesShadow_shadowGet (by unfold Understood; decide +kernel)
      (by decide +kernel)) (by decide +kernel)
  have hgets : Download (Handler.mk 0) (FetchesShadow twentyBytes) shadowGets :=
    .next hfirst (by decide +kernel)
      (fetchesShadow_shadowGet (by unfold Understood; decide +kernel)
        (by decide +kernel)) (by decide +kernel)
  refine ⟨hboth.1 shadowGets hgets, hboth.2 _ ⟨2, false, 0⟩ ?_ ?_ ?_ ?_⟩
  · exact fetchesShadow_shadowGet (by unfold Understood; decide +kernel)
      (by decide +kernel)
  · decide +kernel
  · decide
  · decide +kernel

end Handler

end Loft
