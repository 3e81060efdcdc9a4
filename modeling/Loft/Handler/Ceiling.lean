import Loft.Handler.LastBlock

namespace Loft

open Loft.Data
open Loft.Coap

/-! The configured ceiling against what a UDP response carries: which answers
keep to it, and under what conditions the others do. -/

namespace Handler

def ceiling (h : Handler) : Nat :=
  sizeFor h.udpMaxSzx

theorem sixteen_le_ceiling (h : Handler) : 16 ≤ h.ceiling := by
  rw [ceiling, sizeFor_eq]
  exact (Nat.pow_le_pow_iff_right Nat.one_lt_two).mpr (Nat.le_add_left 4 _)

theorem size_le_ceiling {h : Handler} {b : Block} (hszx : b.szx ≤ h.udpMaxSzx) :
    b.size ≤ h.ceiling := by
  rw [Block.size, ceiling, sizeFor_eq, sizeFor_eq]
  exact Nat.pow_le_pow_right (by decide) (Nat.add_le_add_right hszx 4)

/-! Upstream's answers. An error text is cut to 128 bytes, a failed call is
reported in 20. -/

def ErrorFits (h : Handler) : UpstreamResult → Prop
  | .ok r => 300 ≤ r.status → min 128 r.body.length ≤ h.ceiling
  | .error _ => 20 ≤ h.ceiling

def JsonFits (h : Handler) (req : Message) (resp : UpstreamResult) : Prop :=
  h.ErrorFits resp ∧ ∀ r b, resp = .ok r → r.status < 300 →
    block2Of req = some b → r.body.length ≤ (b.capped h.udpMaxSzx).offset →
      0 < (b.capped h.udpMaxSzx).num → 18 ≤ h.ceiling

/-- The block asked for lies outside of what upstream says there is. -/
def OutOfRange (block : Block) (r : UpstreamResponse) : Prop :=
  (∃ range, firmwareRange r = some range ∧ range.1 ≠ block.offset) ∨
    firmwareTotal r ≤ block.offset ∧ 0 < firmwareTotal r

def FirmwareFits (h : Handler) (block : Block) (resp : UpstreamResult) : Prop :=
  h.ErrorFits resp ∧ ∀ r, resp = .ok r → r.status < 300 →
    (OutOfRange block r → 18 ≤ h.ceiling) ∧
      (¬ OutOfRange block r → r.status = 200 ∧ block.size < r.body.length ∨
        r.body.length ≤ h.ceiling)

variable {h : Handler} {req : Message} {r : UpstreamResponse}
  {resp : UpstreamResult} {block : Block}

theorem errorResponse_fits_iff
    (hfailed : ∀ r, resp = .ok r → 300 ≤ r.status) :
    (errorResponse req resp).payload.length ≤ h.ceiling ↔ h.ErrorFits resp := by
  cases resp with
  | error message =>
      have hlength : (asBytes "upstream unreachable").length = 20 := by
        decide +kernel
      rw [errorResponse, diagnostic_payload, hlength, ErrorFits]
  | ok r =>
      have hlength : (errorResponse req (.ok r)).payload.length =
          min 128 r.body.length := List.length_take
      rw [hlength, ErrorFits]
      exact ⟨fun hle _ => hle, fun hle => hle (hfailed r rfl)⟩

theorem onSuccess_fits_iff {success : UpstreamResponse → Message}
    {Fits : UpstreamResponse → Prop}
    (hsuccess : ∀ r, (success r).payload.length ≤ h.ceiling ↔ Fits r) :
    (onSuccess req success resp).payload.length ≤ h.ceiling ↔
      h.ErrorFits resp ∧ ∀ r, resp = .ok r → r.status < 300 → Fits r := by
  cases resp with
  | error message =>
      have hnone (r : UpstreamResponse) :
          (.error message : UpstreamResult) ≠ .ok r := by
        rintro ⟨⟩
      rw [onSuccess, errorResponse_fits_iff fun r hr => absurd hr (hnone r)]
      exact ⟨fun hfits => ⟨hfits, fun r hr => absurd hr (hnone r)⟩, And.left⟩
  | ok r =>
      rw [onSuccess]
      split_ifs with hstatus
      · rw [hsuccess]
        constructor
        · intro hfits
          refine ⟨fun hfailed => absurd hstatus (UInt16.not_lt.mpr hfailed), ?_⟩
          intro r' hsame _
          cases hsame
          exact hfits
        · intro hboth
          exact hboth.2 r rfl hstatus
      · rw [errorResponse_fits_iff (by simpa using hstatus)]
        refine ⟨fun hfits => ⟨hfits, ?_⟩, And.left⟩
        intro r' hsame hsuccess
        cases hsame
        exact absurd hsuccess hstatus

theorem diagnostic_fits_iff {code : UInt8} {text : String} {n : Nat}
    (hlength : (asBytes text).length = n) :
    (diagnostic req code text).payload.length ≤ h.ceiling ↔ n ≤ h.ceiling := by
  rw [diagnostic_payload, hlength]

theorem jsonSuccess_fits_iff (method : Method) :
    (h.jsonSuccess req r method .udp).payload.length ≤ h.ceiling ↔
      ∀ b, block2Of req = some b →
        r.body.length ≤ (b.capped h.udpMaxSzx).offset →
          0 < (b.capped h.udpMaxSzx).num → 18 ≤ h.ceiling := by
  have htext : (asBytes "block out of range").length = 18 := by
    decide +kernel
  cases hrequested : block2Of req with
  | some requested =>
      have hblock : h.jsonBlock req .udp r.body.length =
          some (requested.capped h.udpMaxSzx) := by
        rw [jsonBlock, hrequested]
        rfl
      have hsize := size_le_ceiling (requested.szx_capped_le h.udpMaxSzx)
      simp only [Option.some.injEq, forall_eq', jsonSuccess, hblock]
      split_ifs with hpast
      · rw [diagnostic_fits_iff htext]
        exact ⟨fun hle _ _ => hle, fun hle => hle hpast.1 hpast.2⟩
      all_goals
        refine iff_of_true ?_ fun hfar hpos => absurd ⟨hfar, hpos⟩ hpast
        dsimp only
        rw [List.length_drop, List.length_take]
        omega
  | none =>
      have hvacuous : ∀ b, (none : Option Block) = some b →
          r.body.length ≤ (b.capped h.udpMaxSzx).offset →
            0 < (b.capped h.udpMaxSzx).num → 18 ≤ h.ceiling := by
        intro b hsame
        cases hsame
      refine iff_of_true ?_ hvacuous
      cases hblock : h.jsonBlock req .udp r.body.length with
      | none =>
          simp only [jsonSuccess, hblock]
          exact (jsonBlock_none hblock).2 rfl
      | some b =>
          have hspontaneous : b = Block.mk 0 false h.udpMaxSzx := by
            rw [jsonBlock, hrequested] at hblock
            dsimp only at hblock
            split_ifs at hblock
            exact (Option.some.inj hblock).symm
          have hsize : b.size = h.ceiling := by
            rw [hspontaneous]
            rfl
          have hfirst : ¬ (r.body.length ≤ b.offset ∧ 0 < b.num) := by
            rw [hspontaneous]
            exact fun hpast => absurd hpast.2 (lt_irrefl 0)
          simp only [jsonSuccess, hblock, if_neg hfirst]
          rw [List.length_drop, List.length_take]
          omega

theorem jsonResponse_fits_iff (method : Method) :
    (h.jsonResponse req resp method .udp).payload.length ≤ h.ceiling ↔
      h.JsonFits req resp := by
  rw [jsonResponse_eq, onSuccess_fits_iff fun r => jsonSuccess_fits_iff method,
    JsonFits]
  refine and_congr_right fun _ => ⟨?_, ?_⟩
  · intro hfits r b hsame hstatus
    exact hfits r hsame hstatus b
  · intro hfits r hsame hstatus b
    exact hfits r b hsame hstatus

theorem logsResponse_fits_iff :
    (logsResponse req resp).payload.length ≤ h.ceiling ↔ h.ErrorFits resp := by
  have hempty (_ : UpstreamResponse) :
      (Message.response Code.changed req).payload.length ≤ h.ceiling ↔ True :=
    iff_of_true (Nat.zero_le _) trivial
  rw [logsResponse_eq, onSuccess_fits_iff hempty]
  exact ⟨And.left, fun hfits => ⟨hfits, fun _ _ _ => trivial⟩⟩

/-- A 200 that holds more than the block is cut, and nothing else is. -/
theorem firmwarePayload_fits_iff (hszx : block.szx ≤ h.udpMaxSzx) :
    (firmwarePayload block r).length ≤ h.ceiling ↔
      r.status = 200 ∧ block.size < r.body.length ∨
        r.body.length ≤ h.ceiling := by
  have hspan : block.byteRange.2 - block.byteRange.1 + 1 = block.size := by
    have hsize := block.sixteen_le_size
    simp only [Block.byteRange]
    omega
  have hstop : block.byteRange.2 + 1 = block.offset + block.size := by
    have hsize := block.sixteen_le_size
    simp only [Block.byteRange]
    omega
  unfold firmwarePayload
  dsimp only
  rw [hspan, hstop]
  split_ifs with hcut
  · refine iff_of_true ?_ (.inl hcut)
    have hsize := size_le_ceiling hszx
    have hstart : block.byteRange.1 = block.offset := rfl
    rw [hstart, List.length_drop, List.length_take]
    omega
  · rw [or_iff_right hcut]

theorem firmwareSuccess_fits_iff (hszx : block.szx ≤ h.udpMaxSzx) :
    (firmwareSuccess req block r).payload.length ≤ h.ceiling ↔
      (OutOfRange block r → 18 ≤ h.ceiling) ∧
        (¬ OutOfRange block r → r.status = 200 ∧ block.size < r.body.length ∨
          r.body.length ≤ h.ceiling) := by
  have htext : (asBytes "block out of range").length = 18 := by
    decide +kernel
  have hmoved : ((firmwareRange r).any fun range =>
      range.1 != block.byteRange.1) = true ↔
        ∃ range, firmwareRange r = some range ∧ range.1 ≠ block.offset := by
    cases firmwareRange r with
    | none => simp
    | some range => simp [Block.byteRange]
  rw [firmwareSuccess]
  split_ifs with hrange hpast
  · have hout : OutOfRange block r := .inl (hmoved.mp hrange)
    simp only [hout, diagnostic_fits_iff htext, true_implies,
      not_true_eq_false, false_implies, and_true]
  · have hout : OutOfRange block r := .inr hpast
    simp only [hout, diagnostic_fits_iff htext, true_implies,
      not_true_eq_false, false_implies, and_true]
  · have hinside : ¬ OutOfRange block r := by
      rw [hmoved] at hrange
      exact not_or.mpr ⟨hrange, hpast⟩
    have hpayload : (firmwareContent req block r).payload =
        firmwarePayload block r := rfl
    rw [hpayload, firmwarePayload_fits_iff hszx]
    simp only [hinside, false_implies, true_and, not_false_eq_true,
      true_implies]

theorem firmwareResponse_fits_iff (hszx : block.szx ≤ h.udpMaxSzx) :
    (firmwareResponse req block resp).payload.length ≤ h.ceiling ↔
      h.FirmwareFits block resp := by
  rw [firmwareResponse_eq,
    onSuccess_fits_iff fun r => firmwareSuccess_fits_iff hszx, FirmwareFits]

/-! Uploads. -/

/-- The body that an upload is passed on with. -/
inductive PassedBody (now : Instant) (req : Message) (map : Block1Table)
    (key : Block1Key) : Octets → Prop
  | whole :
      block1Of req = none → PassedBody now req map key req.payload
  | last {b : Block} {entry : Reassembly} {current : Block1Table} :
      block1Of req = some b → b.more = false →
      Continues now map key b entry current →
      entry.data.length + req.payload.length ≤ maxBlock1Body →
      PassedBody now req map key (entry.data ++ req.payload)

theorem assembleBody_complete_iff {now : Instant} {session : DeviceSession}
    {leaf : String} {map : Block1Table} {body : Octets} :
    (assembleBody now req session leaf map).1 = .complete body ↔
      PassedBody now req map (session.connId, leaf) body := by
  constructor
  · intro hbody
    cases hblock : block1Of req with
    | none =>
        rw [assembleBody, hblock] at hbody
        cases hbody
        exact .whole hblock
    | some b =>
        have hresult := assembleBody_uploading now session leaf map hblock
        generalize assembleBody now req session leaf map = result
          at hbody hresult
        obtain ⟨state, map'⟩ := result
        cases hbody
        cases hresult with
        | completed hcontinues hroom hlast =>
            exact .last hblock hlast hcontinues hroom
  · intro hpassed
    cases hpassed with
    | whole hblock => rw [assembleBody, hblock]
    | last hblock hlast hcontinues hroom =>
        rw [assembleBody_of_uploading hblock
          (.completed hcontinues hroom hlast)]

def UploadFits (h : Handler) (req : Message) (resp : UpstreamResult) :
    UploadLeaf → Prop
  | .shadow | .telemetry => h.JsonFits req resp
  | .logs => h.ErrorFits resp

theorem postResponse_fits_iff (leaf : UploadLeaf) :
    (h.postResponse req leaf .udp resp).payload.length ≤ h.ceiling ↔
      h.UploadFits req resp leaf := by
  cases leaf with
  | shadow => exact jsonResponse_fits_iff .post
  | telemetry => exact jsonResponse_fits_iff .post
  | logs => exact logsResponse_fits_iff

/-! One datagram's request. -/

/-- Each thing that can be answered is short enough: the handler's own texts,
upstream's error, and an image that upstream was asked a part of. -/
structure FitsCeiling (h : Handler) (upstream : DeviceRequest → UpstreamResult)
    (now : Instant) (req : Message) (session : DeviceSession)
    (map : Block1Table) : Prop where
  badOption : Code.isRequest req.code = true → ¬ Understood req →
    28 ≤ h.ceiling
  forbidden : ∀ pigeonId leaf, Code.isRequest req.code = true →
    Understood req → req.pathSegments = ["device", "pigeons", pigeonId, leaf] →
    pigeonId ≠ session.pigeonId → 33 ≤ h.ceiling
  notAllowed : ∀ leaf, Code.isRequest req.code = true → Understood req →
    req.pathSegments = ["device", "pigeons", session.pigeonId, leaf] →
    leaf ∈ leaves → (∀ method, ¬ Served req.code method leaf) →
    18 ≤ h.ceiling
  tableFull : ∀ leaf b, Admitted req session .post leaf →
    block1Of req = some b → b.num = 0 → (session.connId, leaf) ∉ map →
    maxBlock1Entries ≤ map.len → 28 ≤ h.ceiling
  outOfSequence : ∀ leaf b entry, Admitted req session .post leaf →
    block1Of req = some b → b.num ≠ 0 →
    map.lookup (session.connId, leaf) = some entry → entry.nextNum ≠ b.num →
    21 ≤ h.ceiling
  uploaded : ∀ (leaf : UploadLeaf) body, Admitted req session .post leaf.name →
    PassedBody now req map (session.connId, leaf.name) body →
    h.UploadFits req (upstream (upstreamCall session .post leaf.name none
      (some (body, leaf.contentType)))) leaf
  shadow : Admitted req session .get "shadow" →
    h.JsonFits req (upstream (upstreamCall session .get "shadow" none none))
  firmware : Admitted req session .get "firmware" →
    h.FirmwareFits (h.firmwareBlock req .udp)
      (upstream (upstreamCall session .get "firmware"
        (some (h.firmwareBlock req .udp).byteRange) none))

variable {upstream : DeviceRequest → UpstreamResult} {now : Instant}
  {session : DeviceSession} {map : Block1Table}

def answer (h : Handler) (upstream : DeviceRequest → UpstreamResult)
    (now : Instant) (req : Message) (session : DeviceSession)
    (map : Block1Table) : Message :=
  ((h.dispatch now req session .udp map).1.outcome upstream).2

theorem answer_refused {reply : Message} (hrefusal : Refusal req session reply) :
    h.answer upstream now req session map = reply := by
  rw [answer, dispatch, route_of_refusal hrefusal]
  rfl

theorem answer_interim {leaf : String} {b : Block} {reply : Message}
    {map' : Block1Table} (hadmitted : Admitted req session .post leaf)
    (hblock : block1Of req = some b)
    (hresult : Uploading now req map (session.connId, leaf) b
      (.interim reply, map')) :
    h.answer upstream now req session map = reply := by
  obtain ⟨upload, rfl, hroute⟩ := route_post hadmitted
  rw [answer, dispatch_post h now .udp map hroute,
    assembleBody_of_uploading hblock hresult]
  rfl

theorem answer_uploaded {leaf : UploadLeaf} {body : Octets}
    (hadmitted : Admitted req session .post leaf.name)
    (hpassed : PassedBody now req map (session.connId, leaf.name) body) :
    (h.answer upstream now req session map).payload =
      (h.postResponse req leaf .udp
        (upstream (upstreamCall session .post leaf.name none
          (some (body, leaf.contentType))))).payload := by
  have hroute : route req session = .post leaf :=
    route_eq hadmitted rfl
  rw [answer, dispatch_post h now .udp map hroute,
    assembleBody_complete_iff.mpr hpassed]
  exact echoFinalBlock1_payload req _

theorem answer_shadow (hadmitted : Admitted req session .get "shadow") :
    h.answer upstream now req session map = h.jsonResponse req
      (upstream (upstreamCall session .get "shadow" none none)) .get .udp := by
  have hroute : route req session = .getShadow := route_eq hadmitted rfl
  rw [answer, dispatch, hroute]
  rfl

theorem answer_firmware (hadmitted : Admitted req session .get "firmware") :
    h.answer upstream now req session map =
      firmwareResponse req (h.firmwareBlock req .udp)
        (upstream (upstreamCall session .get "firmware"
          (some (h.firmwareBlock req .udp).byteRange) none)) := by
  have hroute : route req session = .getFirmware := route_eq hadmitted rfl
  rw [answer, dispatch, hroute]
  rfl

theorem firmwareBlock_szx_le (h : Handler) (req : Message) :
    (h.firmwareBlock req .udp).szx ≤ h.udpMaxSzx := by
  unfold firmwareBlock
  cases block2Of req with
  | some b => exact b.szx_capped_le h.udpMaxSzx
  | none => exact UInt8.le_refl h.udpMaxSzx

theorem FitsCeiling.answer_fits
    (hfits : h.FitsCeiling upstream now req session map) :
    (h.answer upstream now req session map).payload.length ≤ h.ceiling := by
  have hsixteen := h.sixteen_le_ceiling
  have htext {code : UInt8} {text : String} {n : Nat}
      (hlength : (asBytes text).length = n) (hle : n ≤ h.ceiling) :
      (diagnostic req code text).payload.length ≤ h.ceiling :=
    (diagnostic_fits_iff hlength).mpr hle
  cases hroute : route req session with
  | refused reply =>
      have hrefusal := route_refusal hroute
      rw [answer_refused hrefusal]
      cases hrefusal with
      | notRequest hrequest =>
          exact htext (by decide +kernel)
            (Nat.le_trans (by decide : 13 ≤ 16) hsixteen)
      | badOption hrequest hunknown =>
          exact htext (by decide +kernel) (hfits.badOption hrequest hunknown)
      | noResource hrequest hunderstood hnone =>
          exact htext (by decide +kernel) hsixteen
      | forbidden hrequest hunderstood hpath hother =>
          exact htext (by decide +kernel)
            (hfits.forbidden _ _ hrequest hunderstood hpath hother)
      | notAllowed hrequest hunderstood hpath hknown hnever =>
          exact htext (by decide +kernel)
            (hfits.notAllowed _ hrequest hunderstood hpath hknown hnever)
  | getShadow =>
      have hadmitted : Admitted req session .get "shadow" := by
        rw [← route_asks_iff, hroute]
        rfl
      rw [answer_shadow hadmitted, jsonResponse_fits_iff]
      exact hfits.shadow hadmitted
  | getFirmware =>
      have hadmitted : Admitted req session .get "firmware" := by
        rw [← route_asks_iff, hroute]
        rfl
      rw [answer_firmware hadmitted,
        firmwareResponse_fits_iff (h.firmwareBlock_szx_le req)]
      exact hfits.firmware hadmitted
  | post leaf =>
      have hadmitted : Admitted req session .post leaf.name := by
        rw [← route_asks_iff, hroute]
        rfl
      cases hbody : (assembleBody now req session leaf.name map).1 with
      | complete body =>
          rw [assembleBody_complete_iff] at hbody
          rw [answer_uploaded hadmitted hbody, postResponse_fits_iff]
          exact hfits.uploaded leaf body hadmitted hbody
      | interim reply =>
          cases hblock : block1Of req with
          | none =>
              rw [assembleBody, hblock] at hbody
              cases hbody
          | some b =>
              have hresult :=
                assembleBody_uploading now session leaf.name map hblock
              generalize assembleBody now req session leaf.name map = result
                at hbody hresult
              obtain ⟨state, map'⟩ := result
              cases hbody
              rw [answer_interim hadmitted hblock hresult]
              cases hresult with
              | tableFull hnum habsent hfull =>
                  exact htext (by decide +kernel)
                    (hfits.tableFull _ b hadmitted hblock hnum habsent hfull)
              | noContext hnum hentry =>
                  exact htext (by decide +kernel) hsixteen
              | outOfSequence hnum hentry hnext =>
                  exact htext (by decide +kernel)
                    (hfits.outOfSequence _ b _ hadmitted hblock hnum hentry
                      hnext)
              | tooLarge hcontinues hlarge =>
                  exact htext (by decide +kernel)
                    (Nat.le_trans (by decide : 14 ≤ 16) hsixteen)
              | continued hcontinues hroom hmore => exact Nat.zero_le _

theorem fitsCeiling_of_answer
    (hfits : (h.answer upstream now req session map).payload.length ≤
      h.ceiling) :
    h.FitsCeiling upstream now req session map := by
  have htext {code : UInt8} {text : String} {n : Nat}
      (hanswer : h.answer upstream now req session map =
        diagnostic req code text)
      (hlength : (asBytes text).length = n) : n ≤ h.ceiling := by
    rw [hanswer, diagnostic_fits_iff hlength] at hfits
    exact hfits
  constructor
  case badOption =>
    intro hrequest hunknown
    exact htext (answer_refused (.badOption hrequest hunknown))
      (by decide +kernel)
  case forbidden =>
    intro pigeonId leaf hrequest hunderstood hpath hother
    exact htext (answer_refused
      (.forbidden hrequest hunderstood hpath hother)) (by decide +kernel)
  case notAllowed =>
    intro leaf hrequest hunderstood hpath hknown hnever
    exact htext (answer_refused
      (.notAllowed hrequest hunderstood hpath hknown hnever))
      (by decide +kernel)
  case tableFull =>
    intro leaf b hadmitted hblock hnum habsent hfull
    exact htext (answer_interim hadmitted hblock
      (.tableFull hnum habsent hfull)) (by decide +kernel)
  case outOfSequence =>
    intro leaf b entry hadmitted hblock hnum hentry hnext
    exact htext (answer_interim hadmitted hblock
      (.outOfSequence hnum hentry hnext)) (by decide +kernel)
  case uploaded =>
    intro leaf body hadmitted hpassed
    rwa [answer_uploaded hadmitted hpassed, postResponse_fits_iff] at hfits
  case shadow =>
    intro hadmitted
    rwa [answer_shadow hadmitted, jsonResponse_fits_iff] at hfits
  case firmware =>
    intro hadmitted
    rwa [answer_firmware hadmitted,
      firmwareResponse_fits_iff (h.firmwareBlock_szx_le req)] at hfits

/-- The ceiling holds for what is cut into blocks, and for a text or an image
only where that is short enough by itself. -/
theorem udp_payload_le_ceiling_iff (h : Handler)
    (upstream : DeviceRequest → UpstreamResult) (now : Instant) (req : Message)
    (session : DeviceSession) (map : Block1Table) :
    (h.handle upstream now req session .udp map).2.1.payload.length ≤
        sizeFor h.udpMaxSzx ↔
      h.FitsCeiling upstream now req session (sweepBlock1 now map) := by
  rw [handle_eq]
  exact ⟨fitsCeiling_of_answer, FitsCeiling.answer_fits⟩

def shadowRequest : Message where
  code := Code.get
  options := ["device", "pigeons", "p", "shadow"].map
    fun segment => (OptionNumber.uriPath, asBytes segment)

/-- Upstream fails, with a text longer than the smallest ceiling. -/
theorem errorText_over_ceiling :
    let failed : UpstreamResult :=
      .ok { status := 500, body := List.replicate 17 0x78 }
    let served := (Handler.mk 0).handle (fun _ => failed) 1 shadowRequest
      (logsSession 1) .udp ∅
    (served.2.1.code = Code.badGateway ∧ sizeFor 0 = 16 ∧
        served.2.1.payload.length = 17) ∧
      ¬ served.2.1.payload.length ≤ sizeFor (Handler.mk 0).udpMaxSzx := by
  decide +kernel

end Handler

end Loft
