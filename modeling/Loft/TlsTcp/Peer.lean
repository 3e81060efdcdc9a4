import Mathlib.Algebra.Order.BigOperators.Group.List
import Mathlib.Algebra.Order.Group.Nat
import Loft.NoPanic
import Loft.TlsTcp.Conversation

namespace Loft

open Loft.Data
open Loft.Coap
open Loft.Handler.Checked (Receivable)

/-! What the other end reads: every frame that is written can be decoded, as
long as upstream's bodies leave room for the options of a reply. -/

namespace Handler

/-- What a reply can be framed around: 40 bytes of options and the marker. -/
structure Framed (r : UpstreamResponse) : Prop where
  receivable : Receivable r
  body : r.body.length + 41 ≤ maxFrameBody

variable {h : Handler} {now : Instant} {req reply : Message}
  {session : DeviceSession} {transport : Transport} {map : Block1Table}
  {block : Block} {r : UpstreamResponse} {resp : UpstreamResult}

/-- The longest of the handler's own texts has 33 bytes. -/
def Within (limit : Nat) (msg : Message) : Prop :=
  msg.payload.length ≤ max 33 limit

theorem within_empty {limit : Nat} {msg : Message} (hempty : msg.payload = []) :
    Within limit msg := by
  rw [Within, hempty]
  exact Nat.zero_le _

theorem within_diagnostic (limit : Nat) (req : Message) {code : UInt8}
    {text : String} (htext : (asBytes text).length ≤ 33) :
    Within limit (diagnostic req code text) :=
  Nat.le_trans htext (Nat.le_max_left 33 limit)

theorem within_body {limit : Nat} {msg : Message}
    (hbody : msg.payload.length ≤ limit) : Within limit msg :=
  Nat.le_trans hbody (Nat.le_max_right 33 limit)

theorem within_refusal (limit : Nat) (hrefusal : Refusal req session reply) :
    Within limit reply := by
  cases hrefusal <;> exact within_diagnostic limit req (by decide +kernel)

theorem within_uploading (limit : Nat) {key : Block1Key} {b : Block}
    {map' : Block1Table}
    (hresult : Uploading now req map key b (.interim reply, map')) :
    Within limit reply := by
  cases hresult with
  | continued hcontinues hroom hmore => exact within_empty rfl
  | _ => exact within_diagnostic limit req (by decide +kernel)

theorem within_onSuccess {limit : Nat}
    {success : UpstreamResponse → Message}
    (hbody : ∀ r, resp = .ok r → r.body.length ≤ limit)
    (hsuccess : ∀ r, r.body.length ≤ limit → Within limit (success r)) :
    Within limit (onSuccess req success resp) := by
  cases resp with
  | error message => exact within_diagnostic limit req (by decide +kernel)
  | ok r =>
      rw [onSuccess]
      split_ifs
      · exact hsuccess r (hbody r rfl)
      · apply within_body
        have htake : (r.body.take 128).length ≤ r.body.length := by
          rw [List.length_take]
          omega
        exact Nat.le_trans htake (hbody r rfl)

theorem within_jsonSuccess {limit : Nat} (hbody : r.body.length ≤ limit)
    (method : Method) : Within limit (h.jsonSuccess req r method transport) := by
  rw [jsonSuccess]
  dsimp only
  split
  · exact within_body hbody
  · split_ifs
    · exact within_diagnostic limit req (by decide +kernel)
    all_goals
      apply within_body
      rw [List.length_drop, List.length_take]
      omega

theorem within_firmwareSuccess {limit : Nat} (hbody : r.body.length ≤ limit) :
    Within limit (firmwareSuccess req block r) := by
  rw [firmwareSuccess]
  split_ifs
  · exact within_diagnostic limit req (by decide +kernel)
  · exact within_diagnostic limit req (by decide +kernel)
  · exact within_body (Nat.le_trans (length_firmwarePayload_le block r) hbody)

theorem within_jsonResponse {limit : Nat}
    (hbody : ∀ r, resp = .ok r → r.body.length ≤ limit) (method : Method) :
    Within limit (h.jsonResponse req resp method transport) := by
  rw [jsonResponse_eq]
  exact within_onSuccess hbody fun r hr => within_jsonSuccess hr method

theorem within_postResponse {limit : Nat} {leaf : UploadLeaf}
    (hbody : ∀ r, resp = .ok r → r.body.length ≤ limit) :
    Within limit (h.postResponse req leaf transport resp) := by
  cases leaf with
  | shadow => exact within_jsonResponse hbody .post
  | telemetry => exact within_jsonResponse hbody .post
  | logs =>
      rw [postResponse, logsResponse_eq]
      exact within_onSuccess hbody fun _ _ => within_empty rfl

theorem within_echo {limit : Nat} (hreply : Within limit reply) :
    Within limit (echoFinalBlock1 req reply) := by
  rw [echoFinalBlock1]
  split
  · split_ifs
    · exact hreply
    · exact hreply
  · exact hreply

theorem within_outcome {limit : Nat}
    {upstream : DeviceRequest → UpstreamResult}
    (hbody : ∀ request r, upstream request = .ok r → r.body.length ≤ limit) :
    Within limit
      ((h.dispatch now req session transport map).1.outcome upstream).2 := by
  cases haction : (h.dispatch now req session transport map).1 with
  | reply msg =>
      have hreplied := dispatch_replied haction
      generalize (h.dispatch now req session transport map).2 = map'
        at hreplied
      cases hreplied with
      | refused hrefusal => exact within_refusal limit hrefusal
      | uploading hadmitted hblock hresult =>
          exact within_uploading limit hresult
  | call request finish =>
      cases hroute : route req session with
      | refused reply => simp [dispatch, hroute] at haction
      | getShadow =>
          rw [dispatch, hroute] at haction
          cases haction
          exact within_jsonResponse (hbody _) .get
      | getFirmware =>
          rw [dispatch, hroute] at haction
          cases haction
          rw [Action.outcome, firmwareResponse_eq]
          exact within_onSuccess (hbody _) fun r hr => within_firmwareSuccess hr
      | post leaf =>
          rw [dispatch_post h now transport map hroute] at haction
          split at haction
          · cases haction
            exact within_echo (within_postResponse (hbody _))
          · cases haction

theorem length_le_optionsWeight {options : List MessageOption}
    {option : MessageOption} (hoption : option ∈ options) :
    option.2.length ≤ optionsWeight options := by
  have hmem := List.mem_map_of_mem (f := fun option : MessageOption =>
    option.2.length + 5) hoption
  exact Nat.le_trans (Nat.le_add_right _ 5) (List.le_sum_of_mem hmem)

/-- Whatever is asked for, the answer fits a frame. -/
theorem frameable_outcome {upstream : DeviceRequest → UpstreamResult}
    (htoken : req.token.length ≤ maxTokenLen)
    (hupstream : ∀ request r, upstream request = .ok r → Framed r) :
    Frameable
      ((h.dispatch now req session transport map).1.outcome upstream).2 := by
  have hbody (request : DeviceRequest) (r : UpstreamResponse)
      (hr : upstream request = .ok r) : r.body.length ≤ maxFrameBody - 41 :=
    Nat.le_sub_of_add_le (hupstream request r hr).body
  have hmodest : Modest 40
      ((h.dispatch now req session transport map).1.outcome upstream).2 :=
    modest_outcome fun request r hr => (hupstream request r hr).receivable
  have hwithin : Within (maxFrameBody - 41)
      ((h.dispatch now req session transport map).1.outcome upstream).2 :=
    within_outcome hbody
  have hreply := h.outcome_token upstream now req session transport map
  generalize ((h.dispatch now req session transport map).1.outcome upstream).2
    = reply at hmodest hwithin hreply
  refine ⟨by rwa [hreply], ?_, ?_⟩
  · intro option hoption
    have hlength := length_le_optionsWeight hoption
    have hweight := hmodest.options
    unfold maxOptionLen
    omega
  · have hlength := length_encodeOptionsAndPayload_le reply
    have hweight := hmodest.options
    unfold Within at hwithin
    unfold maxFrameBody at hwithin ⊢
    omega

end Handler

namespace TlsTcp

open Loft.Data.Transition (run run_concat_eq_some)

/-- What a decoder makes of a message that was framed. -/
def canonical (msg : Message) : Message :=
  { msg with options := sortByNumber msg.options }

/-- The bytes handed to `write_all`. -/
def wire (s : Connection) : Octets :=
  s.written.flatMap encodeFrame

/-- A reader that has all of a pipeline of frames but its end has decoded the
first of them, and nothing malformed. -/
theorem serveFrames_of_prefix {msgs : List Message}
    (hmsgs : ∀ msg ∈ msgs, Frameable msg) {cuts : List Octets}
    (hcuts : cuts.flatten <+: msgs.flatMap encodeFrame) :
    ∃ got dec, serveFrames {} cuts = (got, .ok dec) ∧
      got <+: msgs.map canonical := by
  obtain ⟨more, hmore⟩ := hcuts
  have hwhole := drainFrames_pipeline hmsgs
  rw [← hmore] at hwhole
  rw [serveFrames_eq_drain]
  rcases hdrain : drainFrames { buf := cuts.flatten } with ⟨got, e | dec⟩
  · have hextend := drainFrames_extend_error hdrain more
    rw [FrameDecoder.extend, hwhole] at hextend
    cases hextend
  · have hextend := drainFrames_extend hdrain more
    rw [FrameDecoder.extend, hwhole] at hextend
    exact ⟨got, dec, rfl, _, (congrArg Prod.fst hextend).symm⟩

namespace Serving

/-- Upstream keeps to what a reply can be framed around. -/
def Action.Framed : Action → Prop
  | .next _ upstream _ =>
      ∀ request r, upstream request = .ok r → Handler.Framed r
  | _ => True

end Serving

theorem frameable_signal {code : UInt8} {token : Octets}
    (htoken : token.length ≤ maxTokenLen) :
    Frameable { code := code, token := token } where
  token := htoken
  values := nofun
  body := by simp [encodeOptionsAndPayload, sortByNumber, encodeOptionsFrom,
    encodePayload]

theorem frameable_of_mem_replies {msgs answers : List Message}
    (hmsgs : ∀ msg ∈ msgs, Frameable msg)
    (hanswers : ∀ answer ∈ answers, Frameable answer) :
    ∀ reply ∈ replies msgs answers, Frameable reply := by
  induction msgs generalizing answers with
  | nil => exact nofun
  | cons msg msgs ih =>
      obtain ⟨hmsg, hmsgs⟩ := List.forall_mem_cons.mp hmsgs
      intro reply hreply
      rw [replies] at hreply
      split_ifs at hreply
      · rcases List.mem_append.mp hreply with hhead | htail
        · rw [Option.mem_toList] at hhead
          exact hanswers reply (List.mem_of_mem_head? hhead)
        · exact ih hmsgs (fun answer hmem =>
            hanswers answer (List.mem_of_mem_tail hmem)) reply htail
      · rcases List.mem_cons.mp hreply with rfl | htail
        · exact frameable_signal hmsg.token
        · exact ih hmsgs hanswers reply htail
      · exact ih hmsgs hanswers reply hreply

namespace Serving

variable {h : Handler} {device : DeviceSession} {s s' : Serving}

/-- Only a request taken off the buffer is handled, and it is the handler that
answers it. -/
theorem step_handled {action : Action}
    (hstep : step h device s action = some s') :
    s'.handled = s.handled ∨ ∃ now upstream writes req,
      action = .next now upstream writes ∧ requested s.conn = some req ∧
        s'.handled = s.handled ++ [(req,
          ((h.dispatch now req device .tcp s.table).1.outcome upstream).2)] := by
  cases action with
  | read bytes =>
      obtain ⟨conn, -, rfl⟩ := Option.map_eq_some_iff.mp hstep
      exact .inl rfl
  | readError =>
      obtain ⟨conn, -, rfl⟩ := Option.map_eq_some_iff.mp hstep
      exact .inl rfl
  | elsewhere event =>
      cases hstep
      exact .inl rfl
  | next now upstream writes =>
      simp only [step] at hstep
      cases hreq : requested s.conn with
      | none =>
          rw [hreq] at hstep
          obtain ⟨conn, -, rfl⟩ := Option.map_eq_some_iff.mp hstep
          exact .inl rfl
      | some req =>
          rw [hreq] at hstep
          obtain ⟨conn, -, rfl⟩ := Option.map_eq_some_iff.mp hstep
          exact .inr ⟨now, upstream, writes, req, rfl, rfl, rfl⟩

theorem frameable_requested {conn : Connection} {req : Message}
    (hreq : requested conn = some req) : Frameable req := by
  unfold requested at hreq
  rcases hnext : conn.decoder.nextFrame with ⟨e | _ | msg, dec⟩
  · simp [hnext] at hreq
  · simp [hnext] at hreq
  · rw [hnext] at hreq
    dsimp only at hreq
    split_ifs at hreq
    cases hreq
    exact FrameDecoder.nextFrame_frameable hnext

theorem run_frameable {table : Block1Table} {writes : Bool}
    {actions : List Action} (hframed : ∀ action ∈ actions, action.Framed)
    (hrun : run (step h device) (start table writes) actions = some s) :
    ∀ x ∈ s.handled, Frameable x.2 := by
  induction actions using List.reverseRecOn generalizing s with
  | nil =>
      cases hrun
      exact nofun
  | append_singleton actions action ih =>
      obtain ⟨mid, hfront, hlast⟩ := (run_concat_eq_some _).mp hrun
      have hmid := ih (fun action hmem =>
        hframed action (List.mem_append_left _ hmem)) hfront
      rcases step_handled hlast with hsame |
        ⟨now, upstream, delivered, req, rfl, hreq, hhandled⟩
      · rw [hsame]
        exact hmid
      · rw [hhandled]
        intro x hx
        rcases List.mem_append.mp hx with hold | hnew
        · exact hmid x hold
        · rw [List.mem_singleton.mp hnew]
          have hupstream := hframed _ (List.mem_append_right _ List.mem_cons_self)
          exact Handler.frameable_outcome (frameable_requested hreq).token
            hupstream

end Serving

theorem frameable_written {chunks : List Octets} {lost : Prop} {s : Serving}
    {taken : List Message} {farewell : Option Message}
    (hs : Conversed chunks lost s taken farewell)
    (hhandled : ∀ x ∈ s.handled, Frameable x.2) :
    ∀ msg ∈ s.conn.written, Frameable msg := by
  have htaken : ∀ msg ∈ taken, Frameable msg := by
    intro msg hmsg
    have hdecoded : msg ∈ (serveFrames {} chunks).1 := by
      rw [hs.decoded]
      exact List.mem_append_left _ hmsg
    exact frameable_of_mem_serveFrames hdecoded
  have hanswers : ∀ answer ∈ s.handled.map Prod.snd, Frameable answer := by
    intro answer hmem
    obtain ⟨x, hx, rfl⟩ := List.mem_map.mp hmem
    exact hhandled x hx
  have hfarewell : ∀ msg ∈ farewell, Frameable msg := by
    have hstanding := hs.standing
    generalize s.conn.phase = phase at hstanding
    cases hstanding with
    | malformed =>
        intro msg hmsg
        cases hmsg
        exact frameable_signal (Nat.zero_le _)
    | _ => exact nofun
  rw [hs.written]
  intro msg hmsg
  rcases List.mem_append.mp hmsg with hbefore | hlast
  · rcases List.mem_cons.mp hbefore with rfl | hreply
    · exact frameable_signal (Nat.zero_le _)
    · exact frameable_of_mem_replies htaken hanswers msg hreply
  · exact hfarewell msg (Option.mem_toList.mp hlast)

theorem replies_requests {msgs answers : List Message}
    (hmsgs : ∀ msg ∈ msgs, Code.isRequest msg.code = true)
    (hlength : answers.length = msgs.length) :
    replies msgs answers = answers := by
  induction msgs generalizing answers with
  | nil => rw [List.eq_nil_of_length_eq_zero hlength, replies]
  | cons msg msgs ih =>
      obtain ⟨hmsg, hmsgs⟩ := List.forall_mem_cons.mp hmsgs
      obtain ⟨answer, answers, rfl⟩ :=
        List.exists_cons_of_length_eq_add_one hlength
      rw [replies, if_pos hmsg]
      exact congrArg (answer :: ·) (ih hmsgs (Nat.succ.inj hlength))

theorem not_dismisses_request {msg : Message}
    (hcode : Code.isRequest msg.code = true) : ¬ Dismisses msg := by
  rintro (hrelease | habort)
  · rw [hrelease] at hcode
    exact absurd hcode (by decide)
  · rw [habort] at hcode
    exact absurd hcode (by decide)

/-- With every write made, nothing but requests decoded and all of them taken,
what is written is the answers. -/
theorem Conversed.all_answered {chunks : List Octets} {lost : Prop}
    {s : Serving} {taken msgs : List Message} {farewell : Option Message}
    {dec : FrameDecoder} (hs : Conversed chunks lost s taken farewell)
    (hdecoded : serveFrames {} chunks = (msgs, .ok dec))
    (hcodes : ∀ msg ∈ msgs, Code.isRequest msg.code = true)
    (hlost : ¬ lost) (hdone : s.conn.phase ≠ .draining) :
    s.handled.map Prod.fst = msgs ∧
      s.conn.written = csm :: s.handled.map Prod.snd := by
  have hfirst : taken <+: msgs := by
    have hall := congrArg Prod.fst hs.decoded
    rw [hdecoded] at hall
    exact ⟨_, hall.symm⟩
  have hall : taken = msgs := by
    have hall := hs.standing.all_taken hdone hlost fun msg hmsg =>
      not_dismisses_request (hcodes msg (hfirst.subset hmsg))
    rwa [hdecoded] at hall
  subst hall
  have hhandled : s.handled.map Prod.fst = taken := by
    rw [hs.handled]
    exact List.filter_eq_self.mpr hcodes
  have hnone : farewell = none := by
    have hstanding := hs.standing
    rw [hdecoded] at hstanding
    generalize s.conn.phase = phase at hstanding
    cases hstanding with
    | malformed hfailed => cases hfailed
    | _ => rfl
  refine ⟨hhandled, ?_⟩
  have hlength : (s.handled.map Prod.snd).length = taken.length := by
    rw [← hhandled, List.length_map, List.length_map]
  rw [hs.written, hnone, replies_requests hcodes hlength]
  exact List.append_nil _

theorem canonical_csm : canonical csm = csm := by
  simp [canonical, csm, sortByNumber]

/-- Over a connection that no write fails on, a pipeline of requests is
answered one for one and in order, whatever else the handler is called for;
the reader of any beginning of the bytes that come back decodes the first of
these answers, and nothing malformed. -/
theorem pipeline_answered (h : Handler) (device : DeviceSession)
    (table : Block1Table) (actions : List Serving.Action) (s : Serving)
    (reqs : List Message)
    (hrun : run (Serving.step h device) (Serving.start table true) actions =
      some s)
    (hframed : ∀ action ∈ actions, action.Framed)
    (hdelivers : ∀ action ∈ actions, action.Delivers)
    (hreqs : ∀ req ∈ reqs, Frameable req ∧ Code.isRequest req.code = true)
    (hsent : (actions.filterMap Serving.Action.chunk).flatten =
      reqs.flatMap encodeFrame)
    (hdone : s.conn.phase ≠ .draining) :
    ∃ answers : List Message,
      s.handled = (reqs.map canonical).zip answers ∧
      answers.map Message.token = reqs.map Message.token ∧
      ∀ cuts : List Octets, cuts.flatten <+: wire s.conn →
        ∃ got dec, serveFrames {} cuts = (got, .ok dec) ∧
          got <+: csm :: answers.map canonical ∧
          (cuts.flatten = wire s.conn → got = csm :: answers.map canonical) := by
  obtain ⟨taken, farewell, hs⟩ := run_conversed hrun
  have hdecoded : serveFrames {} (actions.filterMap Serving.Action.chunk) =
      (reqs.map canonical, .ok {}) := by
    rw [serveFrames_eq_drain, hsent]
    exact drainFrames_pipeline fun req hreq => (hreqs req hreq).1
  have hcodes : ∀ msg ∈ reqs.map canonical, Code.isRequest msg.code = true := by
    intro msg hmsg
    obtain ⟨req, hreq, rfl⟩ := List.mem_map.mp hmsg
    exact (hreqs req hreq).2
  have hlost : ¬ Lost true actions := by
    rintro (hfalse | ⟨action, hmem, hfails⟩)
    · cases hfalse
    · exact hfails (hdelivers action hmem)
  obtain ⟨hhandled, hwritten⟩ :=
    hs.all_answered hdecoded hcodes hlost hdone
  refine ⟨s.handled.map Prod.snd, ?_, ?_, ?_⟩
  · rw [← hhandled, ← List.unzip_fst, ← List.unzip_snd, List.zip_unzip]
  · have htokens : reqs.map Message.token =
        (reqs.map canonical).map Message.token := by
      rw [List.map_map]
      rfl
    rw [htokens, ← hhandled, List.map_map, List.map_map]
    exact List.map_congr_left hs.tokens
  · intro cuts hcuts
    have hframes := frameable_written hs (Serving.run_frameable hframed hrun)
    obtain ⟨got, dec, hgot, hfirst⟩ := serveFrames_of_prefix hframes hcuts
    have hcanonical : s.conn.written.map canonical =
        csm :: (s.handled.map Prod.snd).map canonical := by
      rw [hwritten, List.map_cons, canonical_csm]
    rw [hcanonical] at hfirst
    refine ⟨got, dec, hgot, hfirst, ?_⟩
    intro hwhole
    rw [serveFrames_eq_drain, hwhole, wire, drainFrames_pipeline hframes]
      at hgot
    exact (congrArg Prod.fst hgot).symm.trans hcanonical

def postAndGet : List Message :=
  [{ code := Code.post, token := [1], options := [(OptionNumber.uriPath, [0x74])],
     payload := [0x7B, 0x7D] },
   { code := Code.get, token := [2] }]

def servedTwice : List Serving.Action :=
  [.read (postAndGet.flatMap encodeFrame), .next 1 noContent true,
    .next 1 noContent true, .next 1 noContent true]

theorem pipeline_answered_postAndGet :
    ∃ s answers, run (Serving.step (Handler.mk 6) (Handler.logsSession 1))
        (Serving.start ∅ true) servedTwice = some s ∧
      s.handled = (postAndGet.map canonical).zip answers ∧
      answers.map Message.token = [[1], [2]] ∧
      ∃ got dec, serveFrames {} [(wire s.conn).take 3] = (got, .ok dec) ∧
        got <+: csm :: answers.map canonical := by
  have hdone : (run (Serving.step (Handler.mk 6) (Handler.logsSession 1))
      (Serving.start ∅ true) servedTwice).map (fun s => s.conn.phase) =
        some .reading := by
    decide +kernel
  obtain ⟨s, hrun, hphase⟩ := Option.map_eq_some_iff.mp hdone
  have hempty (request : DeviceRequest) (r : UpstreamResponse)
      (hr : noContent request = .ok r) : Handler.Framed r := by
    cases hr
    exact ⟨⟨by decide, by simp⟩, by decide⟩
  have hframed : ∀ action ∈ servedTwice, action.Framed := by
    simpa [servedTwice, Serving.Action.Framed] using hempty
  have hdelivers : ∀ action ∈ servedTwice, action.Delivers := by
    simp [servedTwice, Serving.Action.Delivers]
  have hreqs : ∀ req ∈ postAndGet,
      Frameable req ∧ Code.isRequest req.code = true := by
    intro req hreq
    rcases List.mem_pair.mp hreq with rfl | rfl
    · exact ⟨⟨by decide, by decide, by decide +kernel⟩, by decide⟩
    · exact ⟨⟨by decide, by decide, by decide +kernel⟩, by decide⟩
  obtain ⟨answers, hhandled, htokens, hreads⟩ := pipeline_answered
    (Handler.mk 6) (Handler.logsSession 1) ∅ servedTwice s postAndGet hrun
    hframed hdelivers hreqs (by decide +kernel) (by rw [hphase]; simp)
  refine ⟨s, answers, hrun, hhandled, htokens, ?_⟩
  have hbegin : [(wire s.conn).take 3].flatten <+: wire s.conn := by
    rw [List.flatten_singleton]
    exact List.take_prefix 3 _
  obtain ⟨got, dec, hgot, hfirst, -⟩ := hreads _ hbegin
  exact ⟨got, dec, hgot, hfirst⟩

end TlsTcp

end Loft
