import Loft.Handler.Checked
import Loft.TlsTcp

namespace Loft

open Loft.Data
open Loft.Data.Checked
open Loft.Coap
open Loft.Coap.Checked
open Loft.Handler.Checked (Receivable)

/-! From the bytes that arrive to those of the reply, no step leaves the range
of its words or buffers. -/

namespace TlsTcp.Checked

/-- Each frame takes at least one byte, so that `fuel` more frames than there
are bytes are never needed. -/
def drainFrames (fuel : Nat) (dec : FrameDecoder) :
    Option (List Message × Except DecodeError FrameDecoder) :=
  match fuel with
  | 0 => none
  | fuel + 1 => do
      match ← nextFrame dec with
      | (.error e, _) => return ([], .error e)
      | (.ok none, dec') => return ([], .ok dec')
      | (.ok (some msg), dec') =>
          let rest ← drainFrames fuel dec'
          return (msg :: rest.1, rest.2)

def serveFrames (dec : FrameDecoder) (chunks : List Octets) :
    Option (List Message × Except DecodeError FrameDecoder) :=
  match chunks with
  | [] => some ([], .ok dec)
  | chunk :: chunks => do
      let extended := dec.extend chunk
      match ← drainFrames (extended.buf.length + 1) extended with
      | (msgs, .error e) => return (msgs, .error e)
      | (msgs, .ok dec') =>
          let rest ← serveFrames dec' chunks
          return (msgs ++ rest.1, rest.2)

theorem drainFrames_eq (dec : FrameDecoder) : ∀ {fuel},
    dec.buf.length ≤ fuel →
      drainFrames (fuel + 1) dec = some (TlsTcp.drainFrames dec) := by
  fun_induction TlsTcp.drainFrames dec with
  | case1 dec e dec' hnext =>
      intro fuel hfuel
      rw [drainFrames, nextFrame_eq, hnext]
      rfl
  | case2 dec dec' hnext =>
      intro fuel hfuel
      rw [drainFrames, nextFrame_eq, hnext]
      rfl
  | case3 dec msg dec' hnext rest =>
      rename_i ih
      intro fuel hfuel
      have hshrinks := FrameDecoder.nextFrame_shrinks hnext
      rw [drainFrames, nextFrame_eq, hnext]
      cases fuel with
      | zero => omega
      | succ fuel =>
          simp only [ih (by omega : dec'.buf.length ≤ fuel),
            Option.bind_eq_bind, Option.bind_some]
          rfl

theorem serveFrames_eq (dec : FrameDecoder) (chunks : List Octets) :
    serveFrames dec chunks = some (TlsTcp.serveFrames dec chunks) := by
  induction chunks generalizing dec with
  | nil => rfl
  | cons chunk chunks ih =>
      rw [serveFrames, TlsTcp.serveFrames]
      simp only [drainFrames_eq _ (Nat.le_refl _), Option.bind_eq_bind,
        Option.bind_some]
      rcases TlsTcp.drainFrames (dec.extend chunk) with ⟨msgs, e | dec'⟩
      · rfl
      · simp only [ih, Option.bind_some]
        rfl

end TlsTcp.Checked

/-! Requests as the two decoders hand them on. -/

/-- A slice of bytes has at most `isize::MAX` of them. -/
inductive Obtained : Message → Prop
  | datagram {buf : Octets} {dgram : Datagram} :
      buf.length < 2 ^ 63 → Datagram.decode buf = .ok dgram →
      Obtained dgram.message
  | frame {chunks : List Octets} {msg : Message} :
      msg ∈ (TlsTcp.serveFrames {} chunks).1 → Obtained msg

namespace Obtained

variable {req : Message}

theorem token (hreq : Obtained req) : req.token.length ≤ maxTokenLen := by
  cases hreq with
  | datagram hbuf hdecode => exact (Datagram.decode_sound hdecode).1.token
  | frame hmem => exact (TlsTcp.frameable_of_mem_serveFrames hmem).token

theorem payload (hreq : Obtained req) : req.payload.length < 2 ^ 63 := by
  have hregion := length_payload_le req
  cases hreq with
  | @datagram buf dgram hbuf hdecode =>
      have hlength := congrArg List.length (Datagram.decode_sound hdecode).2
      simp only [Datagram.encode, List.length_cons, List.length_append]
        at hlength
      omega
  | frame hmem =>
      have hbody := (TlsTcp.frameable_of_mem_serveFrames hmem).body
      unfold maxFrameBody at hbody
      omega

end Obtained

namespace Handler

/-! Replies are small: a few short options over at most upstream's body. -/

structure Modest (weight : Nat) (msg : Message) : Prop where
  options : optionsWeight msg.options ≤ weight
  payload : msg.payload.length < 2 ^ 32

variable {h : Handler} {now : Instant} {req msg : Message}
  {session : DeviceSession} {transport : Transport} {map : Block1Table}
  {block : Block} {r : UpstreamResponse} {resp : UpstreamResult}
  {weight : Nat}

namespace Modest

theorem mono {weight' : Nat} (hmsg : Modest weight msg)
    (hle : weight ≤ weight') : Modest weight' msg :=
  ⟨Nat.le_trans hmsg.options hle, hmsg.payload⟩

theorem response (code : UInt8) (req : Message) :
    Modest 0 (Message.response code req) :=
  ⟨Nat.le_refl 0, Nat.two_pow_pos 32⟩

theorem setOptionUint (hmsg : Modest weight msg) (number : UInt16)
    (value : UInt32) : Modest (weight + 9) (msg.setOptionUint number value) :=
  ⟨Nat.le_trans (optionsWeight_setOptionUint_le msg number value)
    (Nat.add_le_add_right hmsg.options 9), hmsg.payload⟩

theorem withPayload (hmsg : Modest weight msg) {payload : Octets}
    (hpayload : payload.length < 2 ^ 32) :
    Modest weight { msg with payload := payload } :=
  ⟨hmsg.options, hpayload⟩

theorem diagnostic {code : UInt8} {text : String}
    (htext : (asBytes text).length < 2 ^ 32) :
    Modest 0 (Loft.diagnostic req code text) :=
  (response code req).withPayload htext

theorem echo (hmsg : Modest weight msg) :
    Modest (weight + 9) (echoFinalBlock1 req msg) := by
  rw [echoFinalBlock1]
  split
  · split_ifs
    · exact hmsg.mono (Nat.le_add_right _ _)
    · exact hmsg.setOptionUint _ _
  · exact hmsg.mono (Nat.le_add_right _ _)

end Modest

theorem modest_refusal {reply : Message} (hrefusal : Refusal req session reply) :
    Modest 0 reply := by
  cases hrefusal <;> exact .diagnostic (by decide +kernel)

theorem modest_uploading {key : Block1Key} {b : Block} {reply : Message}
    {map' : Block1Table}
    (hresult : Uploading now req map key b (.interim reply, map')) :
    Modest 9 reply := by
  cases hresult with
  | continued hcontinues hroom hmore =>
      exact (Modest.response _ req).setOptionUint _ _
  | _ =>
      exact (Modest.diagnostic (by decide +kernel)).mono (Nat.zero_le 9)

theorem modest_errorResponse (req : Message) (resp : UpstreamResult) :
    Modest 0 (errorResponse req resp) := by
  cases resp with
  | error message => exact .diagnostic (by decide +kernel)
  | ok r =>
      apply (Modest.response _ req).withPayload
      rw [List.length_take]
      omega

theorem modest_outOfRange (req : Message) :
    Modest 0 (diagnostic req Code.badRequest "block out of range") :=
  .diagnostic (by decide +kernel)

theorem modest_jsonSuccess (hbody : r.body.length < 2 ^ 32) (method : Method) :
    Modest 27 (h.jsonSuccess req r method transport) := by
  have hout := (Modest.response (jsonCode method r.status) req).setOptionUint
    OptionNumber.contentFormat ContentFormat.json.toUInt32
  rw [jsonSuccess]
  dsimp only
  split
  · exact (hout.withPayload hbody).mono (by decide)
  · rename_i b hblock
    have hpayload : ((r.body.take (min (b.offset + b.size) r.body.length)).drop
        b.offset).length < 2 ^ 32 := by
      rw [List.length_drop, List.length_take]
      omega
    split_ifs
    · exact (modest_outOfRange req).mono (by decide)
    · exact ((hout.setOptionUint _ _).setOptionUint _ _).withPayload hpayload
    · exact ((hout.setOptionUint _ _).withPayload hpayload).mono (by decide)

theorem modest_onSuccess {success : UpstreamResponse → Message}
    (hsuccess : ∀ r, resp = .ok r → Modest weight (success r)) :
    Modest weight (onSuccess req success resp) := by
  have herror := (modest_errorResponse req resp).mono (Nat.zero_le weight)
  cases resp with
  | error message => exact herror
  | ok r =>
      rw [onSuccess]
      split_ifs
      · exact hsuccess r rfl
      · exact herror

theorem modest_jsonResponse
    (hresp : ∀ r, resp = .ok r → Receivable r) (method : Method) :
    Modest 27 (h.jsonResponse req resp method transport) := by
  rw [jsonResponse_eq]
  apply modest_onSuccess
  intro r hsame
  exact modest_jsonSuccess (hresp r hsame).body method

theorem length_hexBytes_le : ∀ {buf bytes : Octets},
    hexBytes buf = some bytes → 2 * bytes.length ≤ buf.length
  | [], bytes, hbytes => by
      cases hbytes
      exact Nat.le_refl 0
  | [_], bytes, hbytes => by
      cases hbytes
      exact Nat.zero_le 1
  | high :: low :: rest, bytes, hbytes => by
      simp only [hexBytes, Option.bind_eq_bind, Option.bind_eq_some_iff] at hbytes
      obtain ⟨byte, -, more, hmore, hcons⟩ := hbytes
      cases hcons
      have hrest := length_hexBytes_le hmore
      simp only [List.length_cons]
      omega

theorem length_etag_le {hex : String} {etag : Octets}
    (hetag : hexPrefixBytes hex 8 = some etag) : etag.length ≤ 8 := by
  unfold hexPrefixBytes at hetag
  split_ifs at hetag
  have hbytes := length_hexBytes_le hetag
  rw [List.length_take] at hbytes
  omega

theorem length_firmwarePayload_le (block : Block) (r : UpstreamResponse) :
    (firmwarePayload block r).length ≤ r.body.length := by
  unfold firmwarePayload
  dsimp only
  split_ifs
  · rw [List.length_drop, List.length_take]
    omega
  · exact Nat.le_refl _

theorem modest_firmwareContent (hbody : r.body.length < 2 ^ 32) :
    Modest 40 (firmwareContent req block r) := by
  have hpayload := Nat.lt_of_le_of_lt (length_firmwarePayload_le block r) hbody
  have hout := ((Modest.response Code.content req).setOptionUint
    OptionNumber.contentFormat ContentFormat.octetStream.toUInt32).setOptionUint
      OptionNumber.block2
        { block with more := moreAfter block (firmwareTotal r) }.encode
  have hsized {out : Message} (hsmall : Modest 18 out) :
      Modest 27 (if block.num = 0 then
        out.setOptionUint OptionNumber.size2 (UInt32.ofNat (firmwareTotal r))
      else out) := by
    split_ifs
    · exact hsmall.setOptionUint _ _
    · exact hsmall.mono (by decide)
  rw [firmwareContent]
  apply Modest.withPayload _ hpayload
  split
  · rename_i etag hetag
    obtain ⟨hex, -, hread⟩ := Option.bind_eq_some_iff.mp hetag
    have hlength := length_etag_le hread
    refine ⟨?_, (hsized hout).payload⟩
    rw [optionsWeight_pushOption]
    have hweight := (hsized hout).options
    omega
  · exact (hsized hout).mono (by decide)

theorem modest_firmwareSuccess (hbody : r.body.length < 2 ^ 32) :
    Modest 40 (firmwareSuccess req block r) := by
  rw [firmwareSuccess]
  split_ifs
  · exact (modest_outOfRange req).mono (by decide)
  · exact (modest_outOfRange req).mono (by decide)
  · exact modest_firmwareContent hbody

theorem modest_firmwareResponse
    (hresp : ∀ r, resp = .ok r → Receivable r) :
    Modest 40 (firmwareResponse req block resp) := by
  rw [firmwareResponse_eq]
  apply modest_onSuccess
  intro r hsame
  exact modest_firmwareSuccess (hresp r hsame).body

theorem modest_logsResponse (req : Message) (resp : UpstreamResult) :
    Modest 0 (logsResponse req resp) := by
  rw [logsResponse_eq]
  apply modest_onSuccess
  intro r _
  exact .response Code.changed req

theorem modest_postResponse {leaf : UploadLeaf}
    (hresp : ∀ r, resp = .ok r → Receivable r) :
    Modest 27 (h.postResponse req leaf transport resp) := by
  cases leaf with
  | shadow => exact modest_jsonResponse hresp .post
  | telemetry => exact modest_jsonResponse hresp .post
  | logs => exact (modest_logsResponse req resp).mono (Nat.zero_le 27)

theorem modest_outcome {upstream : DeviceRequest → UpstreamResult}
    (hupstream : ∀ request r, upstream request = .ok r → Receivable r) :
    Modest 40
      ((h.dispatch now req session transport map).1.outcome upstream).2 := by
  cases hroute : route req session with
  | refused reply =>
      rw [dispatch, hroute]
      exact (modest_refusal (route_refusal hroute)).mono (Nat.zero_le 40)
  | getShadow =>
      rw [dispatch, hroute]
      exact (modest_jsonResponse (hupstream _) .get).mono (by decide)
  | getFirmware =>
      rw [dispatch, hroute]
      exact modest_firmwareResponse (hupstream _)
  | post leaf =>
      rw [dispatch_post h now transport map hroute]
      cases hbody : (assembleBody now req session leaf.name map).1 with
      | complete body =>
          exact (modest_postResponse (hupstream _)).echo.mono (by decide)
      | interim msg =>
          cases hblock : block1Of req with
          | none => simp [assembleBody, hblock] at hbody
          | some b =>
              have hresult :=
                assembleBody_uploading now session leaf.name map hblock
              generalize assembleBody now req session leaf.name map = result
                at hresult hbody
              obtain ⟨state, map'⟩ := result
              cases hbody
              exact (modest_uploading hresult).mono (by decide)

end Handler

/-! The whole way. -/

def EncodesReply (reply : Message) : Prop :=
  (∀ messageType messageId,
    encodeDatagram ⟨messageType, messageId, reply⟩ =
      some (Datagram.encode ⟨messageType, messageId, reply⟩)) ∧
    Coap.Checked.encodeFrame reply = some (Coap.encodeFrame reply)

theorem encodesReply {reply : Message} (hmodest : Handler.Modest 40 reply)
    (htoken : reply.token.length ≤ maxTokenLen) : EncodesReply reply := by
  have hregion := length_encodeOptionsAndPayload_le reply
  have hoptions := hmodest.options
  have hpayload := hmodest.payload
  unfold maxTokenLen at htoken
  refine ⟨?_, ?_⟩
  · intro messageType messageId
    exact encodeDatagram_eq (Nat.lt_trans hpayload (by decide))
  · exact encodeFrame_eq (by omega) (by omega)

theorem encodes_outcome {h : Handler} {now : Instant} {req : Message}
    {session : DeviceSession} {transport : Transport} {map : Block1Table}
    {upstream : DeviceRequest → UpstreamResult} (hreq : Obtained req)
    (hupstream : ∀ request r, upstream request = .ok r → Receivable r) :
    EncodesReply
      ((h.dispatch now req session transport map).1.outcome upstream).2 := by
  apply encodesReply (Handler.modest_outcome hupstream)
  rw [Handler.outcome_token]
  exact hreq.token

/-- Decoding any bytes, handling what was decoded on any reachable table
whatever upstream answers, and encoding the reply: every step is in range. -/
theorem never_panics {h : Handler} (hceiling : h.udpMaxSzx ≤ maxSzx) :
    (∀ buf, decodeDatagram buf = some (Datagram.decode buf)) ∧
    (∀ chunks, TlsTcp.Checked.serveFrames {} chunks =
      some (TlsTcp.serveFrames {} chunks)) ∧
    ∀ events upstream now req session transport, Obtained req →
      (∀ request r, upstream request = .ok r → Receivable r) →
      let map := h.tableAfter events
      let handled := h.handle upstream now req session transport map
      let dispatched := h.dispatch now req session transport map
      let outcome := dispatched.1.outcome upstream
      (Handler.Checked.handle h upstream now req session transport map =
          some handled ∧
        EncodesReply handled.2.1) ∧
      -- other calls may come in between the sweep and the rest
      Handler.Checked.serve h upstream now req session transport map =
          some (outcome.1, outcome.2, dispatched.2) ∧
        EncodesReply outcome.2 := by
  refine ⟨decodeDatagram_eq, TlsTcp.Checked.serveFrames_eq {}, ?_⟩
  intro events upstream now req session transport hreq hupstream
  have hmap := Handler.bounded_run h events
  dsimp only
  refine ⟨⟨?_, ?_⟩, ?_, encodes_outcome hreq hupstream⟩
  · exact Handler.Checked.handle_eq hceiling hmap hreq.payload hupstream
  · rw [Handler.handle_eq]
    exact encodes_outcome hreq hupstream
  · exact Handler.Checked.serve_eq hceiling hmap hreq.payload hupstream

def firmwareGet : Datagram where
  messageType := .confirmable
  messageId := 7
  message := {
    code := Code.get
    token := [1]
    options := ["device", "pigeons", "p", "firmware"].map fun segment =>
      (OptionNumber.uriPath, asBytes segment) }

def smallImage : UpstreamResponse where
  status := 200
  body := [1, 2, 3]
  firmwareSha256 := some "00112233445566778899aabbccddeeff"

def firmwareSession : DeviceSession where
  pigeonId := "p"
  token := "secret"
  connId := 1

theorem never_panics_firmwareGet :
    let h : Handler := { udpMaxSzx := 6 }
    let handled := h.handle (fun _ => .ok smallImage) 0 firmwareGet.message
      firmwareSession .udp (h.tableAfter [.sweep 0])
    Handler.Checked.handle h (fun _ => .ok smallImage) 0 firmwareGet.message
        firmwareSession .udp (h.tableAfter [.sweep 0]) = some handled ∧
      EncodesReply handled.2.1 := by
  have hnormal : firmwareGet.Normal :=
    ⟨by decide, by decide +kernel, by decide +kernel⟩
  have hregion := length_encodeOptionsAndPayload_le firmwareGet.message
  have hweight : optionsWeight firmwareGet.message.options +
      firmwareGet.message.payload.length + 1 ≤ 100 := by
    decide +kernel
  have hlength : firmwareGet.encode.length < 2 ^ 63 := by
    have htoken : firmwareGet.message.token.length = 1 := rfl
    simp only [Datagram.encode, List.length_cons, List.length_append,
      List.length_take, Octets.length_be16, htoken]
    omega
  have hreq : Obtained firmwareGet.message :=
    .datagram hlength hnormal.decode_encode
  have hsmall : Receivable smallImage := by
    refine ⟨by decide, ?_⟩
    intro hex hsha
    cases hsha
    decide +kernel
  exact ((never_panics (by decide)).2.2 [.sweep 0] (fun _ => .ok smallImage) 0
    firmwareGet.message firmwareSession .udp hreq
    (fun _ _ hresp => by cases hresp; exact hsmall)).1

end Loft
