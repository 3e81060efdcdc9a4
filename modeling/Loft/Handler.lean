import Loft.Coap.Block
import Loft.Data.Table
import Loft.Time
import Loft.Upstream

namespace Loft

open Loft.Data
open Loft.Coap

/-! The CoAP device surface over the upstream HTTP routes. -/

def knownOptions : List UInt16 :=
  [OptionNumber.uriHost, OptionNumber.etag, OptionNumber.observe,
    OptionNumber.uriPort, OptionNumber.uriPath, OptionNumber.contentFormat,
    OptionNumber.uriQuery, OptionNumber.block2, OptionNumber.block1,
    OptionNumber.size2, OptionNumber.size1]

def maxConnections : Nat := 4096
def maxBlock1Body : Nat := 64 * 1024
def block1IdleTimeout : Nat := secs 90
def maxBlock1Entries : Nat := maxConnections

inductive Transport
  | udp
  | tcp
  deriving DecidableEq, Repr

abbrev ConnId := UInt64

structure DeviceSession where
  pigeonId : String
  token : String
  connId : ConnId
  deriving DecidableEq, Repr

structure Reassembly where
  data : Octets
  nextNum : UInt32
  touched : Instant
  deriving DecidableEq, Repr

abbrev Block1Key := ConnId × String
abbrev Block1Table := Table Block1Key Reassembly

structure Handler where
  udpMaxSzx : UInt8

def diagnostic (req : Message) (code : UInt8) (text : String) : Message :=
  { Message.response code req with payload := asBytes text }

inductive BodyState
  | complete (body : Octets)
  | interim (msg : Message)
  deriving DecidableEq, Repr

def block1Of (req : Message) : Option Block :=
  (req.optionUint OptionNumber.block1).bind Block.decode

def block2Of (req : Message) : Option Block :=
  (req.optionUint OptionNumber.block2).bind Block.decode

/-! Block1 reassembly. -/

def sweepBlock1 (now : Instant) (map : Block1Table) : Block1Table :=
  map.retain fun _ r => decide (now.durationSince r.touched < block1IdleTimeout)

/-- The part of `assemble_body` from the entry lookup on. -/
def appendBlock (now : Instant) (req : Message) (b : Block) (key : Block1Key)
    (map : Block1Table) : BodyState × Block1Table :=
  match map.lookup key with
  | none =>
      (.interim (diagnostic req Code.requestEntityIncomplete
        "no block context"), map)
  | some entry =>
      if entry.nextNum ≠ b.num then
        (.interim (diagnostic req Code.requestEntityIncomplete
          "block out of sequence"), map.erase key)
      else if entry.data.length + req.payload.length > maxBlock1Body then
        (.interim (diagnostic req Code.requestEntityTooLarge
          "body too large"), map.erase key)
      else if b.more then
        (.interim ((Message.response Code.continue_ req).setOptionUint
            OptionNumber.block1 b.encode),
          map.insert key {
            data := entry.data ++ req.payload
            nextNum := entry.nextNum + 1
            touched := now })
      else (.complete (entry.data ++ req.payload), map.erase key)

def assembleBody (now : Instant) (req : Message) (session : DeviceSession)
    (leaf : String) (map : Block1Table) : BodyState × Block1Table :=
  match block1Of req with
  | none => (.complete req.payload, map)
  | some b =>
      if b.num ≠ 0 then appendBlock now req b (session.connId, leaf) map
      -- a restart overwrites its own entry and needs no room of its own
      else if (session.connId, leaf) ∉ map ∧ maxBlock1Entries ≤ map.len then
        (.interim (diagnostic req Code.serviceUnavailable
          "block1 reassembly table full"), map)
      else
        appendBlock now req b (session.connId, leaf)
          (map.insert (session.connId, leaf)
            { data := [], nextNum := 0, touched := now })

/-! Responses. -/

def upstreamStatus (status : UInt16) : UInt8 :=
  match status with
  | 400 => Code.badRequest
  | 401 => Code.unauthorized
  | 403 => Code.forbidden
  | 404 => Code.notFound
  | 405 => Code.methodNotAllowed
  | 413 => Code.requestEntityTooLarge
  | _ =>
      if 500 ≤ status ∧ status ≤ 599 then Code.badGateway else Code.badRequest

def errorResponse (req : Message) (resp : UpstreamResult) : Message :=
  match resp with
  | .ok r =>
      { Message.response (upstreamStatus r.status) req with
        payload := r.body.take 128 }
  | .error _ => diagnostic req Code.gatewayTimeout "upstream unreachable"

def echoFinalBlock1 (req out : Message) : Message :=
  match block1Of req with
  | some b =>
      if b.more then out else out.setOptionUint OptionNumber.block1 b.encode
  | none => out

def hexDigit (byte : UInt8) : Option UInt8 :=
  if 0x30 ≤ byte ∧ byte ≤ 0x39 then some (byte - 0x30)
  else if 0x41 ≤ byte ∧ byte ≤ 0x46 then some (byte - 0x41 + 10)
  else if 0x61 ≤ byte ∧ byte ≤ 0x66 then some (byte - 0x61 + 10)
  else none

/-- `u8::from_str_radix(_, 16)` on two characters: a plus sign may lead. -/
def hexByte (high low : UInt8) : Option UInt8 :=
  if high = 0x2B then hexDigit low
  else do return (← hexDigit high) * 16 + (← hexDigit low)

def hexBytes : Octets → Option Octets
  | high :: low :: rest => do return (← hexByte high low) :: (← hexBytes rest)
  | _ => some []

/-- Header values are visible ASCII, so bytes are characters here. -/
def hexPrefixBytes (hex : String) (n : Nat) : Option Octets :=
  if (asBytes hex).length < n * 2 then none
  else hexBytes ((asBytes hex).take (n * 2))

namespace Handler

def maxSzxFor (h : Handler) (transport : Transport) : UInt8 :=
  match transport with
  | .udp => h.udpMaxSzx
  | .tcp => maxSzx

/-- The block a JSON body is cut to: the one asked for, or block 0 where the
body is too large for a datagram. -/
def jsonBlock (h : Handler) (req : Message) (transport : Transport)
    (total : Nat) : Option Block :=
  match block2Of req with
  | some b => some (b.capped (h.maxSzxFor transport))
  | none =>
      if transport = .udp ∧ sizeFor (h.maxSzxFor transport) < total then
        some { num := 0, more := false, szx := h.maxSzxFor transport }
      else none

def jsonCode (method : Method) (status : UInt16) : UInt8 :=
  if status = 201 then Code.created
  else
    match method with
    | .get => Code.content
    | .post => Code.changed

def jsonSuccess (h : Handler) (req : Message) (r : UpstreamResponse)
    (method : Method) (transport : Transport) : Message :=
  let out := (Message.response (jsonCode method r.status) req).setOptionUint
    OptionNumber.contentFormat ContentFormat.json.toUInt32
  match h.jsonBlock req transport r.body.length with
  | none => { out with payload := r.body }
  | some b =>
      if r.body.length ≤ b.offset ∧ 0 < b.num then
        diagnostic req Code.badRequest "block out of range"
      else
        let stop := min (b.offset + b.size) r.body.length
        let out := out.setOptionUint OptionNumber.block2
          { b with more := decide (stop < r.body.length) }.encode
        let out :=
          if b.num = 0 then
            out.setOptionUint OptionNumber.size2 (UInt32.ofNat r.body.length)
          else out
        { out with payload := (r.body.take stop).drop b.offset }

def jsonResponse (h : Handler) (req : Message) (resp : UpstreamResult)
    (method : Method) (transport : Transport) : Message :=
  match resp with
  | .ok r =>
      if r.status < 300 then h.jsonSuccess req r method transport
      else errorResponse req resp
  | .error _ => errorResponse req resp

def logsResponse (req : Message) (resp : UpstreamResult) : Message :=
  match resp with
  | .ok r =>
      if r.status < 300 then Message.response Code.changed req
      else errorResponse req resp
  | .error _ => errorResponse req resp

/-! Firmware: each block is one ranged GET. -/

def firmwareBlock (h : Handler) (req : Message) (transport : Transport) :
    Block :=
  match block2Of req with
  | some b => b.capped (h.maxSzxFor transport)
  | none => { num := 0, more := false, szx := h.maxSzxFor transport }

def firmwareRange (r : UpstreamResponse) : Option (Nat × Nat × Nat) :=
  r.contentRange.bind parseContentRange

def firmwareTotal (r : UpstreamResponse) : Nat :=
  match firmwareRange r with
  | some (_, _, total) => total
  | none =>
      match r.firmwareSize with
      | some size => size.toNat
      | none => r.body.length

/-- A 200 carries the whole image, out of which the block is cut. -/
def firmwarePayload (block : Block) (r : UpstreamResponse) : Octets :=
  let (start, stop) := block.byteRange
  if r.status = 200 ∧ stop - start + 1 < r.body.length then
    (r.body.take (stop + 1)).drop start
  else r.body

def firmwareContent (req : Message) (block : Block) (r : UpstreamResponse) :
    Message :=
  let total := firmwareTotal r
  let out := (Message.response Code.content req).setOptionUint
    OptionNumber.contentFormat ContentFormat.octetStream.toUInt32
  let out := out.setOptionUint OptionNumber.block2
    { block with more := moreAfter block total }.encode
  let out :=
    if block.num = 0 then
      out.setOptionUint OptionNumber.size2 (UInt32.ofNat total)
    else out
  let out :=
    match r.firmwareSha256.bind (hexPrefixBytes · 8) with
    | some etag => out.pushOption OptionNumber.etag etag
    | none => out
  { out with payload := firmwarePayload block r }

def firmwareSuccess (req : Message) (block : Block) (r : UpstreamResponse) :
    Message :=
  let start := block.byteRange.1
  if (firmwareRange r).any fun range => range.1 != start then
    -- upstream clamped an out-of-range block rather than refusing it
    diagnostic req Code.badRequest "block out of range"
  else if firmwareTotal r ≤ start ∧ 0 < firmwareTotal r then
    diagnostic req Code.badRequest "block out of range"
  else firmwareContent req block r

def firmwareResponse (req : Message) (block : Block) (resp : UpstreamResult) :
    Message :=
  match resp with
  | .ok r =>
      if r.status < 300 then firmwareSuccess req block r
      else errorResponse req resp
  | .error _ => errorResponse req resp

/-! Routing. -/

inductive UploadLeaf
  | shadow
  | telemetry
  | logs
  deriving DecidableEq, Repr

namespace UploadLeaf

def name : UploadLeaf → String
  | .shadow => "shadow"
  | .telemetry => "telemetry"
  | .logs => "logs"

def contentType : UploadLeaf → String
  | .shadow => "application/json"
  | .telemetry => "application/json"
  | .logs => "application/octet-stream"

end UploadLeaf

inductive Route
  | refused (reply : Message)
  | getShadow
  | post (leaf : UploadLeaf)
  | getFirmware
  deriving DecidableEq, Repr

def routeLeaf (req : Message) (leaf : String) : Route :=
  if leaf = "shadow" ∧ req.code = Code.get then .getShadow
  else if leaf = "shadow" ∧ req.code = Code.post then .post .shadow
  else if leaf = "telemetry" ∧ req.code = Code.post then .post .telemetry
  else if leaf = "logs" ∧ req.code = Code.post then .post .logs
  else if leaf = "firmware" ∧ req.code = Code.get then .getFirmware
  else if leaf ∈ ["shadow", "telemetry", "logs", "firmware"] then
    .refused (diagnostic req Code.methodNotAllowed "method not allowed")
  else .refused (diagnostic req Code.notFound "no such resource")

def route (req : Message) (session : DeviceSession) : Route :=
  if Code.isRequest req.code = false then
    .refused (diagnostic req Code.badRequest "not a request")
  else if (req.unknownCriticalOption knownOptions).isSome then
    .refused (diagnostic req Code.badOption "unrecognized critical option")
  else
    match req.pathSegments with
    | [segDevice, segPigeons, pigeonId, leaf] =>
        if segDevice ≠ "device" ∨ segPigeons ≠ "pigeons" then
          .refused (diagnostic req Code.notFound "no such resource")
        else if pigeonId ≠ session.pigeonId then
          .refused (diagnostic req Code.forbidden
            "pigeon id does not match identity")
        else routeLeaf req leaf
    | _ => .refused (diagnostic req Code.notFound "no such resource")

def upstreamCall (session : DeviceSession) (method : Method) (leaf : String)
    (range : Option (Nat × Nat)) (body : Option (Octets × String)) :
    DeviceRequest where
  method := method
  pigeonId := session.pigeonId
  leaf := leaf
  bearer := session.token
  range := range
  body := body

/-- What a request has come to when it is first suspended: its answer, or the
upstream call it waits for and the answer to make of the result. -/
inductive Action
  | reply (msg : Message)
  | call (request : DeviceRequest) (finish : UpstreamResult → Message)

def Action.upstream : Action → Option DeviceRequest
  | .reply _ => none
  | .call request _ => some request

def postResponse (h : Handler) (req : Message) (leaf : UploadLeaf)
    (transport : Transport) (resp : UpstreamResult) : Message :=
  match leaf with
  | .shadow | .telemetry => h.jsonResponse req resp .post transport
  | .logs => logsResponse req resp

def dispatch (h : Handler) (now : Instant) (req : Message)
    (session : DeviceSession) (transport : Transport) (map : Block1Table) :
    Action × Block1Table :=
  match route req session with
  | .refused reply => (.reply reply, map)
  | .getShadow =>
      (.call (upstreamCall session .get "shadow" none none) fun resp =>
        h.jsonResponse req resp .get transport, map)
  | .post leaf =>
      match assembleBody now req session leaf.name map with
      | (.complete body, map) =>
          (.call (upstreamCall session .post leaf.name none
              (some (body, leaf.contentType))) fun resp =>
            echoFinalBlock1 req (h.postResponse req leaf transport resp), map)
      | (.interim msg, map) => (.reply msg, map)
  | .getFirmware =>
      let block := h.firmwareBlock req transport
      (.call (upstreamCall session .get "firmware" (some block.byteRange) none)
        fun resp => firmwareResponse req block resp, map)

/-- One whole call that nothing else interrupts: the upstream calls made, the
response, and the table left. -/
def handle (h : Handler) (upstream : DeviceRequest → UpstreamResult)
    (now : Instant) (req : Message) (session : DeviceSession)
    (transport : Transport) (map : Block1Table) :
    List DeviceRequest × Message × Block1Table :=
  match h.dispatch now req session transport (sweepBlock1 now map) with
  | (.reply msg, map) => ([], msg, map)
  | (.call request finish, map) =>
      ([request], finish (upstream request), map)

end Handler

end Loft
