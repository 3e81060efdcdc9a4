import Loft.Handler.Reassembly

namespace Loft

open Loft.Data
open Loft.Coap

/-! Everything that one call can come to: how a request is refused, what
becomes of a block of an upload, and what is made of upstream's answer. -/

@[simp] theorem diagnostic_code (req : Message) (code : UInt8) (text : String) :
    (diagnostic req code text).code = code :=
  rfl

@[simp] theorem diagnostic_token (req : Message) (code : UInt8)
    (text : String) : (diagnostic req code text).token = req.token :=
  rfl

@[simp] theorem diagnostic_payload (req : Message) (code : UInt8)
    (text : String) : (diagnostic req code text).payload = asBytes text :=
  rfl

@[simp] theorem echoFinalBlock1_code (req out : Message) :
    (echoFinalBlock1 req out).code = out.code := by
  unfold echoFinalBlock1
  split
  · split_ifs <;> rfl
  · rfl

@[simp] theorem echoFinalBlock1_token (req out : Message) :
    (echoFinalBlock1 req out).token = out.token := by
  unfold echoFinalBlock1
  split
  · split_ifs <;> rfl
  · rfl

@[simp] theorem echoFinalBlock1_payload (req out : Message) :
    (echoFinalBlock1 req out).payload = out.payload := by
  unfold echoFinalBlock1
  split
  · split_ifs <;> rfl
  · rfl

namespace Handler

/-! Requests that are not passed on. -/

def leaves : List String :=
  ["shadow", "telemetry", "logs", "firmware"]

inductive Refusal (req : Message) (session : DeviceSession) : Message → Prop
  | notRequest :
      Code.isRequest req.code = false →
      Refusal req session (diagnostic req Code.badRequest "not a request")
  | badOption :
      Code.isRequest req.code = true → ¬ Understood req →
      Refusal req session
        (diagnostic req Code.badOption "unrecognized critical option")
  | noResource :
      Code.isRequest req.code = true → Understood req →
      (∀ pigeonId leaf,
        req.pathSegments = ["device", "pigeons", pigeonId, leaf] →
          pigeonId = session.pigeonId ∧ leaf ∉ leaves) →
      Refusal req session (diagnostic req Code.notFound "no such resource")
  | forbidden {pigeonId leaf : String} :
      Code.isRequest req.code = true → Understood req →
      req.pathSegments = ["device", "pigeons", pigeonId, leaf] →
      pigeonId ≠ session.pigeonId →
      Refusal req session
        (diagnostic req Code.forbidden "pigeon id does not match identity")
  | notAllowed {leaf : String} :
      Code.isRequest req.code = true → Understood req →
      req.pathSegments = ["device", "pigeons", session.pigeonId, leaf] →
      leaf ∈ leaves → (∀ method, ¬ Served req.code method leaf) →
      Refusal req session
        (diagnostic req Code.methodNotAllowed "method not allowed")

theorem Served.mem_leaves {code : UInt8} {method : Method} {leaf : String}
    (hserved : Served code method leaf) : leaf ∈ leaves := by
  cases hserved <;> decide

theorem routeLeaf_refused {req reply : Message} {leaf : String}
    (hroute : routeLeaf req leaf = .refused reply) :
    leaf ∈ leaves ∧ (∀ method, ¬ Served req.code method leaf) ∧
        reply = diagnostic req Code.methodNotAllowed "method not allowed" ∨
      leaf ∉ leaves ∧
        reply = diagnostic req Code.notFound "no such resource" := by
  have hnever (method : Method) : ¬ Served req.code method leaf := by
    intro hserved
    have hasks : (routeLeaf req leaf).asks = some (method, leaf) :=
      routeLeaf_asks_iff.mpr ⟨rfl, hserved⟩
    rw [hroute] at hasks
    cases hasks
  unfold routeLeaf at hroute
  split_ifs at hroute with hget hshadow htelemetry hlogs hfirmware hknown
  · cases hroute
    exact .inl ⟨hknown, hnever, rfl⟩
  · cases hroute
    exact .inr ⟨hknown, rfl⟩

theorem route_refusal {req reply : Message} {session : DeviceSession}
    (hroute : route req session = .refused reply) :
    Refusal req session reply := by
  unfold route at hroute
  split_ifs at hroute with hrequest hunknown
  · cases hroute
    exact .notRequest hrequest
  · cases hroute
    refine .badOption (by simpa using hrequest) ?_
    rw [← unknownCriticalOption_eq_none, ← ne_eq,
      Option.ne_none_iff_isSome]
    exact hunknown
  · rw [Bool.not_eq_true, Option.isSome_eq_false_iff,
      Option.isNone_iff_eq_none, unknownCriticalOption_eq_none] at hunknown
    rw [Bool.not_eq_false] at hrequest
    split at hroute
    · rename_i segDevice segPigeons pigeonId leaf hpath
      split_ifs at hroute with hroot hpigeon
      · cases hroute
        refine .noResource hrequest hunknown ?_
        intro pigeonId' leaf' hpath'
        rw [hpath'] at hpath
        cases hpath
        simp at hroot
      · cases hroute
        rw [not_or, not_not, not_not] at hroot
        rw [hroot.1, hroot.2] at hpath
        exact .forbidden hrequest hunknown hpath hpigeon
      · rw [not_or, not_not, not_not] at hroot
        rw [not_not] at hpigeon
        rw [hroot.1, hroot.2, hpigeon] at hpath
        rcases routeLeaf_refused hroute with
          ⟨hknown, hnever, rfl⟩ | ⟨hunserved, rfl⟩
        · exact .notAllowed hrequest hunknown hpath hknown hnever
        · refine .noResource hrequest hunknown ?_
          intro pigeonId' leaf' hpath'
          rw [hpath'] at hpath
          cases hpath
          exact ⟨rfl, hunserved⟩
    · rename_i hpath
      cases hroute
      refine .noResource hrequest hunknown ?_
      intro pigeonId leaf hpath'
      exact absurd hpath' (hpath _ _ _ _)

theorem Refusal.not_admitted {req reply : Message} {session : DeviceSession}
    (h : Refusal req session reply) (method : Method) (leaf : String) :
    ¬ Admitted req session method leaf := by
  intro hadmitted
  cases h with
  | notRequest hrequest =>
      rw [hadmitted.served.isRequest] at hrequest
      cases hrequest
  | badOption hrequest hunknown => exact hunknown hadmitted.understood
  | noResource hrequest hunderstood hnone =>
      exact (hnone _ _ hadmitted.path).2 hadmitted.served.mem_leaves
  | forbidden hrequest hunderstood hpath hother =>
      have hsame := hpath.symm.trans hadmitted.path
      simp only [List.cons.injEq, and_true, true_and] at hsame
      exact hother hsame.1
  | notAllowed hrequest hunderstood hpath hknown hnever =>
      have hsame := hpath.symm.trans hadmitted.path
      simp only [List.cons.injEq, and_true, true_and] at hsame
      subst hsame
      exact hnever method hadmitted.served

theorem Refusal.unique {req reply reply' : Message} {session : DeviceSession}
    (h : Refusal req session reply) (h' : Refusal req session reply') :
    reply = reply' := by
  cases h with
  | notRequest hrequest => cases h' <;> simp_all
  | badOption hrequest hunknown => cases h' <;> simp_all
  | noResource hrequest hunderstood hnone => cases h' <;> simp_all
  | forbidden hrequest hunderstood hpath hother => cases h' <;> simp_all
  | notAllowed hrequest hunderstood hpath hknown hnever =>
      cases h' <;> simp_all

theorem route_of_refusal {req reply : Message} {session : DeviceSession}
    (h : Refusal req session reply) : route req session = .refused reply := by
  have hasks : (route req session).asks = none := by
    rw [Option.eq_none_iff_forall_not_mem]
    intro asked hasked
    exact h.not_admitted _ _ (route_asks_iff.mp hasked)
  cases hroute : route req session with
  | refused reply' => rw [(route_refusal hroute).unique h]
  | _ => simp [hroute, Route.asks] at hasks

theorem Refusal.token {req reply : Message} {session : DeviceSession}
    (h : Refusal req session reply) : reply.token = req.token := by
  cases h <;> rfl

theorem Refusal.cls {req reply : Message} {session : DeviceSession}
    (h : Refusal req session reply) : Code.cls reply.code = 4 := by
  cases h <;> (rw [diagnostic_code]; decide)

theorem route_post {req : Message} {session : DeviceSession} {leaf : String}
    (hadmitted : Admitted req session .post leaf) :
    ∃ upload : UploadLeaf, upload.name = leaf ∧
      route req session = .post upload := by
  obtain ⟨upload, rfl⟩ : ∃ upload : UploadLeaf, upload.name = leaf := by
    have hserved := hadmitted.served
    generalize req.code = code at hserved
    cases hserved with
    | postShadow => exact ⟨.shadow, rfl⟩
    | postTelemetry => exact ⟨.telemetry, rfl⟩
    | postLogs => exact ⟨.logs, rfl⟩
  exact ⟨upload, rfl, route_eq hadmitted rfl⟩

theorem route_get {req : Message} {session : DeviceSession} {leaf : String}
    (hadmitted : Admitted req session .get leaf) :
    leaf = "shadow" ∧ route req session = .getShadow ∨
      leaf = "firmware" ∧ route req session = .getFirmware := by
  have hserved := hadmitted.served
  generalize req.code = code at hserved
  cases hserved with
  | getShadow => exact .inl ⟨rfl, route_eq hadmitted rfl⟩
  | getFirmware => exact .inr ⟨rfl, route_eq hadmitted rfl⟩

/-! Blocks of an upload. -/

def freshReassembly (now : Instant) : Reassembly where
  data := []
  nextNum := 0
  touched := now

/-- The entry that a block goes on with, and the table it is in. -/
inductive Continues (now : Instant) (map : Block1Table) (key : Block1Key)
    (b : Block) : Reassembly → Block1Table → Prop
  | restart :
      b.num = 0 → (key ∈ map ∨ map.len < maxBlock1Entries) →
      Continues now map key b (freshReassembly now)
        (map.insert key (freshReassembly now))
  | held {entry : Reassembly} :
      b.num ≠ 0 → map.lookup key = some entry → entry.nextNum = b.num →
      Continues now map key b entry map

inductive Uploading (now : Instant) (req : Message) (map : Block1Table)
    (key : Block1Key) (b : Block) : BodyState × Block1Table → Prop
  | tableFull :
      b.num = 0 → key ∉ map → maxBlock1Entries ≤ map.len →
      Uploading now req map key b
        (.interim (diagnostic req Code.serviceUnavailable
          "block1 reassembly table full"), map)
  | noContext :
      b.num ≠ 0 → map.lookup key = none →
      Uploading now req map key b
        (.interim (diagnostic req Code.requestEntityIncomplete
          "no block context"), map)
  | outOfSequence {entry : Reassembly} :
      b.num ≠ 0 → map.lookup key = some entry → entry.nextNum ≠ b.num →
      Uploading now req map key b
        (.interim (diagnostic req Code.requestEntityIncomplete
          "block out of sequence"), map.erase key)
  | tooLarge {entry : Reassembly} {current : Block1Table} :
      Continues now map key b entry current →
      maxBlock1Body < entry.data.length + req.payload.length →
      Uploading now req map key b
        (.interim (diagnostic req Code.requestEntityTooLarge
          "body too large"), current.erase key)
  | continued {entry : Reassembly} {current : Block1Table} :
      Continues now map key b entry current →
      entry.data.length + req.payload.length ≤ maxBlock1Body →
      b.more = true →
      Uploading now req map key b
        (.interim ((Message.response Code.continue_ req).setOptionUint
          OptionNumber.block1 b.encode),
          current.insert key {
            data := entry.data ++ req.payload
            nextNum := b.num + 1
            touched := now })
  | completed {entry : Reassembly} {current : Block1Table} :
      Continues now map key b entry current →
      entry.data.length + req.payload.length ≤ maxBlock1Body →
      b.more = false →
      Uploading now req map key b
        (.complete (entry.data ++ req.payload), current.erase key)

private theorem appendBlock_uploading {now : Instant} {req : Message}
    {b : Block} {key : Block1Key} {map current : Block1Table}
    {entry : Reassembly} (hentry : current.lookup key = some entry)
    (hnext : entry.nextNum = b.num)
    (hcontinues : Continues now map key b entry current) :
    Uploading now req map key b (appendBlock now req b key current) := by
  unfold appendBlock
  rw [hentry]
  dsimp only
  rw [if_neg (not_not.mpr hnext)]
  split_ifs with hlarge hmore
  · exact .tooLarge hcontinues hlarge
  · rw [hnext]
    exact .continued hcontinues (Nat.not_lt.mp hlarge) hmore
  · exact .completed hcontinues (Nat.not_lt.mp hlarge) (by simpa using hmore)

theorem assembleBody_uploading (now : Instant) (session : DeviceSession)
    (leaf : String) (map : Block1Table) {req : Message} {b : Block}
    (hblock : block1Of req = some b) :
    Uploading now req map (session.connId, leaf) b
      (assembleBody now req session leaf map) := by
  unfold assembleBody
  rw [hblock]
  dsimp only
  split_ifs with hnum hfull
  · cases hentry : map.lookup (session.connId, leaf) with
    | none =>
        rw [appendBlock, hentry]
        exact .noContext hnum hentry
    | some entry =>
        by_cases hnext : entry.nextNum = b.num
        · exact appendBlock_uploading hentry hnext (.held hnum hentry hnext)
        · simp only [appendBlock, hentry, ne_eq, hnext, not_false_eq_true,
            if_true]
          exact .outOfSequence hnum hentry hnext
  · rw [not_not] at hnum
    exact .tableFull hnum hfull.1 hfull.2
  · rw [not_not] at hnum
    rw [not_and_or, not_not, Nat.not_le] at hfull
    exact appendBlock_uploading (AList.lookup_insert map) hnum.symm
      (.restart hnum hfull)

/-- These are all the cases, and they leave no choice. -/
theorem assembleBody_of_uploading {now : Instant} {req : Message}
    {session : DeviceSession} {leaf : String} {map : Block1Table} {b : Block}
    {result : BodyState × Block1Table} (hblock : block1Of req = some b)
    (h : Uploading now req map (session.connId, leaf) b result) :
    assembleBody now req session leaf map = result := by
  have hcontinues {entry : Reassembly} {current : Block1Table}
      (h : Continues now map (session.connId, leaf) b entry current) :
      assembleBody now req session leaf map =
          appendBlock now req b (session.connId, leaf) current ∧
        current.lookup (session.connId, leaf) = some entry ∧
        entry.nextNum = b.num := by
    rw [assembleBody, hblock]
    cases h with
    | restart hnum hroom =>
        have hspace : ¬ ((session.connId, leaf) ∉ map ∧
            maxBlock1Entries ≤ map.len) := by
          rw [not_and_or, not_not, Nat.not_le]
          exact hroom
        refine ⟨?_, AList.lookup_insert map, hnum.symm⟩
        dsimp only
        rw [if_neg (not_not.mpr hnum), if_neg hspace]
        rfl
    | held hnum hentry hnext =>
        refine ⟨?_, hentry, hnext⟩
        dsimp only
        rw [if_pos hnum]
  cases h with
  | tableFull hnum habsent hfull =>
      simp only [assembleBody, hblock, hnum, ne_eq, not_true_eq_false, if_false,
        if_pos (And.intro habsent hfull)]
  | noContext hnum hentry =>
      simp only [assembleBody, hblock, ne_eq, hnum, not_false_eq_true, if_true,
        appendBlock, hentry]
  | outOfSequence hnum hentry hnext =>
      simp only [assembleBody, hblock, ne_eq, hnum, not_false_eq_true, if_true,
        appendBlock, hentry, hnext]
  | tooLarge hstart hlarge =>
      obtain ⟨hbody, hentry, hnext⟩ := hcontinues hstart
      simp only [hbody, appendBlock, hentry, hnext, ne_eq, not_true_eq_false,
        if_false, gt_iff_lt, if_pos hlarge]
  | continued hstart hroom hmore =>
      obtain ⟨hbody, hentry, hnext⟩ := hcontinues hstart
      simp only [hbody, appendBlock, hentry, hnext, ne_eq, not_true_eq_false,
        if_false, gt_iff_lt, if_neg (Nat.not_lt.mpr hroom), hmore, if_true]
  | completed hstart hroom hlast =>
      obtain ⟨hbody, hentry, hnext⟩ := hcontinues hstart
      simp only [hbody, appendBlock, hentry, hnext, ne_eq, not_true_eq_false,
        if_false, gt_iff_lt, if_neg (Nat.not_lt.mpr hroom), hlast,
        Bool.false_eq_true]

/-! What is made of upstream's answer. -/

def successCodes : List UInt8 :=
  [Code.created, Code.changed, Code.content]

def failureCodes : List UInt8 :=
  [Code.badRequest, Code.unauthorized, Code.forbidden, Code.notFound,
    Code.methodNotAllowed, Code.requestEntityTooLarge, Code.badGateway,
    Code.gatewayTimeout]

inductive Verdict (req : Message) : UpstreamResult → Message → Prop
  | succeeded {r : UpstreamResponse} {reply : Message} :
      r.status < 300 → reply.code ∈ successCodes → reply.token = req.token →
      Verdict req (.ok r) reply
  | outOfRange {r : UpstreamResponse} {reply : Message} :
      r.status < 300 → reply.code = Code.badRequest →
      reply.token = req.token → Verdict req (.ok r) reply
  | failed {resp : UpstreamResult} {reply : Message} :
      (∀ r, resp = .ok r → ¬ r.status < 300) → reply.code ∈ failureCodes →
      reply.token = req.token → Verdict req resp reply

theorem upstreamStatus_mem (status : UInt16) :
    upstreamStatus status ∈ failureCodes := by
  unfold upstreamStatus
  split
  all_goals first | decide | (split_ifs <;> decide)

theorem jsonCode_mem (method : Method) (status : UInt16) :
    jsonCode method status ∈ successCodes := by
  unfold jsonCode
  split_ifs
  · decide
  · cases method <;> decide

theorem errorResponse_verdict {req : Message} {resp : UpstreamResult}
    (hfailed : ∀ r, resp = .ok r → ¬ r.status < 300) :
    Verdict req resp (errorResponse req resp) := by
  cases resp with
  | error message =>
      refine .failed hfailed ?_ rfl
      rw [errorResponse, diagnostic_code]
      decide
  | ok r => exact .failed hfailed (upstreamStatus_mem r.status) rfl

/-- Upstream's success is answered with `success`, anything else is reported
as an error. -/
def onSuccess (req : Message) (success : UpstreamResponse → Message) :
    UpstreamResult → Message
  | .ok r =>
      if r.status < 300 then success r else errorResponse req (.ok r)
  | .error message => errorResponse req (.error message)

theorem jsonResponse_eq (h : Handler) (req : Message) (resp : UpstreamResult)
    (method : Method) (transport : Transport) :
    h.jsonResponse req resp method transport =
      onSuccess req (fun r => h.jsonSuccess req r method transport) resp := by
  cases resp <;> rfl

theorem logsResponse_eq (req : Message) (resp : UpstreamResult) :
    logsResponse req resp =
      onSuccess req (fun _ => Message.response Code.changed req) resp := by
  cases resp <;> rfl

theorem firmwareResponse_eq (req : Message) (block : Block)
    (resp : UpstreamResult) :
    firmwareResponse req block resp =
      onSuccess req (firmwareSuccess req block) resp := by
  cases resp <;> rfl

theorem onSuccess_verdict {req : Message}
    {success : UpstreamResponse → Message}
    (hsuccess : ∀ r, r.status < 300 → Verdict req (.ok r) (success r))
    (resp : UpstreamResult) : Verdict req resp (onSuccess req success resp) := by
  cases resp with
  | error message => exact errorResponse_verdict nofun
  | ok r =>
      rw [onSuccess]
      split_ifs with hstatus
      · exact hsuccess r hstatus
      · exact errorResponse_verdict (by simpa using hstatus)

theorem jsonSuccess_verdict (h : Handler) {req : Message}
    {r : UpstreamResponse} (method : Method) (transport : Transport)
    (hstatus : r.status < 300) :
    Verdict req (.ok r) (h.jsonSuccess req r method transport) := by
  unfold jsonSuccess
  dsimp only
  split
  · exact .succeeded hstatus (jsonCode_mem method r.status) rfl
  · split_ifs
    · exact .outOfRange hstatus rfl rfl
    · exact .succeeded hstatus (jsonCode_mem method r.status) rfl
    · exact .succeeded hstatus (jsonCode_mem method r.status) rfl

theorem jsonResponse_verdict (h : Handler) (req : Message)
    (resp : UpstreamResult) (method : Method) (transport : Transport) :
    Verdict req resp (h.jsonResponse req resp method transport) := by
  rw [jsonResponse_eq]
  apply onSuccess_verdict
  intro r hstatus
  exact h.jsonSuccess_verdict method transport hstatus

theorem logsResponse_verdict (req : Message) (resp : UpstreamResult) :
    Verdict req resp (logsResponse req resp) := by
  rw [logsResponse_eq]
  apply onSuccess_verdict
  intro r hstatus
  refine .succeeded hstatus ?_ rfl
  rw [Message.response_code]
  decide

@[simp] theorem firmwareContent_code (req : Message) (block : Block)
    (r : UpstreamResponse) :
    (firmwareContent req block r).code = Code.content := by
  unfold firmwareContent
  dsimp only
  split
  · split_ifs <;> rfl
  · split_ifs <;> rfl

@[simp] theorem firmwareContent_token (req : Message) (block : Block)
    (r : UpstreamResponse) :
    (firmwareContent req block r).token = req.token := by
  unfold firmwareContent
  dsimp only
  split
  · split_ifs <;> rfl
  · split_ifs <;> rfl

theorem firmwareSuccess_verdict (req : Message) (block : Block)
    {r : UpstreamResponse} (hstatus : r.status < 300) :
    Verdict req (.ok r) (firmwareSuccess req block r) := by
  rw [firmwareSuccess]
  split_ifs
  · exact .outOfRange hstatus rfl rfl
  · exact .outOfRange hstatus rfl rfl
  · refine .succeeded hstatus ?_ (firmwareContent_token req block r)
    rw [firmwareContent_code]
    decide

theorem firmwareResponse_verdict (req : Message) (block : Block)
    (resp : UpstreamResult) :
    Verdict req resp (firmwareResponse req block resp) := by
  rw [firmwareResponse_eq]
  apply onSuccess_verdict
  intro r hstatus
  exact firmwareSuccess_verdict req block hstatus

theorem Verdict.echo {req reply : Message} {resp : UpstreamResult}
    (h : Verdict req resp reply) :
    Verdict req resp (echoFinalBlock1 req reply) := by
  have hcode := echoFinalBlock1_code req reply
  have htoken := echoFinalBlock1_token req reply
  cases h with
  | succeeded hstatus hmem hsame =>
      exact .succeeded hstatus (hcode ▸ hmem) (htoken.trans hsame)
  | outOfRange hstatus hbad hsame =>
      exact .outOfRange hstatus (hcode.trans hbad) (htoken.trans hsame)
  | failed hfailed hmem hsame =>
      exact .failed hfailed (hcode ▸ hmem) (htoken.trans hsame)

/-- Whatever a call is made for, the answer tells how it went. -/
theorem dispatch_verdict {h : Handler} {now : Instant} {req : Message}
    {session : DeviceSession} {transport : Transport} {map : Block1Table}
    {request : DeviceRequest} {finish : UpstreamResult → Message}
    (hcall : (h.dispatch now req session transport map).1 =
      .call request finish) (resp : UpstreamResult) :
    Verdict req resp (finish resp) := by
  cases hroute : route req session with
  | refused reply => simp [dispatch, hroute] at hcall
  | getShadow =>
      rw [dispatch, hroute] at hcall
      cases hcall
      exact h.jsonResponse_verdict req resp .get transport
  | getFirmware =>
      rw [dispatch, hroute] at hcall
      cases hcall
      exact firmwareResponse_verdict req _ resp
  | post leaf =>
      rw [dispatch_post h now transport map hroute] at hcall
      cases hbody : (assembleBody now req session leaf.name map).1 with
      | interim msg =>
          rw [hbody] at hcall
          cases hcall
      | complete body =>
          rw [hbody] at hcall
          cases hcall
          apply Verdict.echo
          cases leaf with
          | shadow => exact h.jsonResponse_verdict req resp .post transport
          | telemetry => exact h.jsonResponse_verdict req resp .post transport
          | logs => exact logsResponse_verdict req resp

/-! Answers given at once. -/

inductive Replied (now : Instant) (req : Message) (session : DeviceSession)
    (map : Block1Table) : Message × Block1Table → Prop
  | refused {reply : Message} :
      Refusal req session reply → Replied now req session map (reply, map)
  | uploading {leaf : String} {b : Block} {reply : Message}
      {map' : Block1Table} :
      Admitted req session .post leaf → block1Of req = some b →
      Uploading now req map (session.connId, leaf) b (.interim reply, map') →
      Replied now req session map (reply, map')

theorem dispatch_replied {h : Handler} {now : Instant} {req reply : Message}
    {session : DeviceSession} {transport : Transport} {map : Block1Table}
    (hreply : (h.dispatch now req session transport map).1 = .reply reply) :
    Replied now req session map
      (reply, (h.dispatch now req session transport map).2) := by
  rw [dispatch_table]
  cases hroute : route req session with
  | getShadow => simp [dispatch, hroute] at hreply
  | getFirmware => simp [dispatch, hroute] at hreply
  | refused refusal =>
      rw [dispatch, hroute] at hreply
      cases hreply
      exact .refused (route_refusal hroute)
  | post leaf =>
      rw [dispatch_post h now transport map hroute] at hreply
      dsimp only
      cases hblock : block1Of req with
      | none => simp [assembleBody, hblock] at hreply
      | some b =>
          have hadmitted : Admitted req session .post leaf.name := by
            rw [← route_asks_iff, hroute]
            rfl
          have hresult := assembleBody_uploading now session leaf.name map hblock
          generalize assembleBody now req session leaf.name map = result
            at hresult hreply ⊢
          obtain ⟨body | interim, map'⟩ := result
          · cases hreply
          · cases hreply
            exact .uploading hadmitted hblock hresult

/-- The block of the request is in the table, at the end of what came before. -/
def Stored (req : Message) (session : DeviceSession) (map : Block1Table) :
    Prop :=
  ∃ leaf b entry, Admitted req session .post leaf ∧
    block1Of req = some b ∧ b.more = true ∧
    map.lookup (session.connId, leaf) = some entry ∧
    entry.nextNum.toNat = b.num.toNat + 1 ∧ req.payload <:+ entry.data

inductive AtOnce (req : Message) (session : DeviceSession)
    (map : Block1Table) (reply : Message) : Prop
  | refused :
      Code.cls reply.code = 4 ∨ Code.cls reply.code = 5 →
      reply.token = req.token → AtOnce req session map reply
  | continued :
      reply.code = Code.continue_ → reply.token = req.token →
      Stored req session map → AtOnce req session map reply

theorem Replied.atOnce {now : Instant} {req reply : Message}
    {session : DeviceSession} {map map' : Block1Table}
    (h : Replied now req session map (reply, map')) :
    AtOnce req session map' reply := by
  have hdiagnostic {code : UInt8} (text : String) {map'' : Block1Table}
      (hclass : Code.cls code = 4 ∨ Code.cls code = 5) :
      AtOnce req session map'' (diagnostic req code text) :=
    .refused hclass rfl
  cases h with
  | refused hrefusal => exact .refused (.inl hrefusal.cls) hrefusal.token
  | uploading hadmitted hblock hresult =>
      cases hresult with
      | continued hcontinues hroom hmore =>
          refine .continued rfl rfl ⟨_, _, _, hadmitted, hblock, hmore,
            AList.lookup_insert _, next_num hblock, ?_⟩
          exact List.suffix_append _ _
      | _ => exact hdiagnostic _ (by decide)

theorem Verdict.token {req reply : Message} {resp : UpstreamResult}
    (h : Verdict req resp reply) : reply.token = req.token := by
  cases h <;> assumption

theorem AtOnce.token {req reply : Message} {session : DeviceSession}
    {map : Block1Table} (h : AtOnce req session map reply) :
    reply.token = req.token := by
  cases h <;> assumption

theorem outcome_token (h : Handler) (upstream : DeviceRequest → UpstreamResult)
    (now : Instant) (req : Message) (session : DeviceSession)
    (transport : Transport) (map : Block1Table) :
    ((h.dispatch now req session transport map).1.outcome upstream).2.token =
      req.token := by
  cases haction : (h.dispatch now req session transport map).1 with
  | reply msg => exact (dispatch_replied haction).atOnce.token
  | call request finish => exact (dispatch_verdict haction _).token

theorem handle_token (h : Handler) (upstream : DeviceRequest → UpstreamResult)
    (now : Instant) (req : Message) (session : DeviceSession)
    (transport : Transport) (map : Block1Table) :
    (h.handle upstream now req session transport map).2.1.token =
      req.token := by
  rw [handle_eq]
  exact h.outcome_token upstream now req session transport _

theorem cls_success {code : UInt8} (hmem : code ∈ successCodes) :
    Code.cls code = 2 ∧ code ≠ Code.continue_ := by
  have hall : successCodes.all fun code =>
      Code.cls code == 2 && code != Code.continue_ := by
    decide
  simpa using List.all_eq_true.mp hall code hmem

theorem cls_failure {code : UInt8} (hmem : code ∈ failureCodes) :
    (Code.cls code = 4 ∨ Code.cls code = 5) ∧
      code ≠ Code.serviceUnavailable := by
  have hall : failureCodes.all fun code =>
      (Code.cls code == 4 || Code.cls code == 5) &&
        code != Code.serviceUnavailable := by
    decide
  simpa using List.all_eq_true.mp hall code hmem

theorem not_success_of_failed {code : UInt8}
    (hclass : Code.cls code = 4 ∨ Code.cls code = 5) :
    Code.cls code ≠ 2 ∧ code ≠ Code.continue_ := by
  constructor
  · intro hsuccess
    rw [hsuccess] at hclass
    exact absurd hclass (by decide)
  · intro hcontinue
    rw [hcontinue] at hclass
    exact absurd hclass (by decide)

/-- A success code says that upstream succeeded, 2.31 that the block is kept,
and whatever fails upstream fails here. -/
theorem success_means_success (h : Handler)
    (upstream : DeviceRequest → UpstreamResult) (now : Instant) (req : Message)
    (session : DeviceSession) (transport : Transport) (map : Block1Table) :
    let served := h.handle upstream now req session transport map
    (Code.cls served.2.1.code = 2 → served.2.1.code ≠ Code.continue_ →
      ∃ call r, served.1 = [call] ∧ upstream call = .ok r ∧ r.status < 300) ∧
    (served.2.1.code = Code.continue_ →
      served.1 = [] ∧ Stored req session served.2.2) ∧
    (∀ call ∈ served.1, (∀ r, upstream call = .ok r → 300 ≤ r.status) →
      Code.cls served.2.1.code = 4 ∨ Code.cls served.2.1.code = 5) ∧
    served.2.1.token = req.token := by
  rw [handle_eq]
  dsimp only
  cases haction : (h.dispatch now req session transport
      (sweepBlock1 now map)).1 with
  | reply msg =>
      simp only [Action.outcome, List.not_mem_nil, false_implies, implies_true,
        true_and, List.nil_eq]
      cases (dispatch_replied haction).atOnce with
      | refused hclass htoken =>
          obtain ⟨hfailure, hrefused⟩ := not_success_of_failed hclass
          exact ⟨fun hsuccess => absurd hsuccess hfailure,
            fun hcontinue => absurd hcontinue hrefused, htoken⟩
      | continued hcode htoken hstored =>
          exact ⟨fun _ hother => absurd hcode hother, fun _ => hstored, htoken⟩
  | call request finish =>
      simp only [Action.outcome, List.mem_singleton, forall_eq]
      have hverdict := dispatch_verdict haction (upstream request)
      generalize finish (upstream request) = reply at hverdict
      generalize hresp : upstream request = resp at hverdict
      cases hverdict with
      | @succeeded r reply hstatus hmem htoken =>
          obtain ⟨hclass, hother⟩ := cls_success hmem
          refine ⟨fun _ _ => ⟨request, r, rfl, hresp, hstatus⟩,
            fun hcontinue => absurd hcontinue hother, ?_, htoken⟩
          intro hfailed
          exact absurd hstatus (UInt16.not_lt.mpr (hfailed r rfl))
      | @outOfRange r reply hstatus hcode htoken =>
          rw [hcode]
          refine ⟨fun hclass => absurd hclass (by decide),
            fun hcontinue => absurd hcontinue (by decide), ?_, htoken⟩
          intro _
          exact .inl (by decide)
      | failed hfailed hmem htoken =>
          have hclass := (cls_failure hmem).1
          obtain ⟨hfailure, hrefused⟩ := not_success_of_failed hclass
          exact ⟨fun hsuccess => absurd hsuccess hfailure,
            fun hcontinue => absurd hcontinue hrefused, fun _ => hclass,
            htoken⟩

end Handler

end Loft
