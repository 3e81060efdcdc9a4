import Loft.Coap.CheckedFraming
import Loft.Handler.Bounds
import Loft.Handler.Download

namespace Loft.Handler.Checked

open Loft.Data
open Loft.Data.Checked
open Loft.Coap
open Loft.Coap.Checked

/-! The handler once more, its steps on machine words and buffers checked. -/

def blockOf (req : Message) (number : UInt16) : Option (Option Block) := do
  match ← optionUint req number with
  | none => return none
  | some value => decodeBlock value

/-- `get(start..stop).unwrap_or_default()`. -/
def getOrDefault (xs : Octets) (start stop : Nat) : Octets :=
  (slice xs start stop).getD []

/-! Block1 reassembly. -/

def appendBlock (now : Instant) (req : Message) (b : Block) (key : Block1Key)
    (map : Block1Table) : Option (BodyState × Block1Table) :=
  match map.lookup key with
  | none =>
      some (.interim (diagnostic req Code.requestEntityIncomplete
        "no block context"), map)
  | some entry =>
      if entry.nextNum ≠ b.num then
        some (.interim (diagnostic req Code.requestEntityIncomplete
          "block out of sequence"), map.erase key)
      else do
        let length ← add 64 entry.data.length req.payload.length
        if length > maxBlock1Body then
          return (.interim (diagnostic req Code.requestEntityTooLarge
            "body too large"), map.erase key)
        else
          let next ← add 32 entry.nextNum.toNat 1
          if b.more then
            let bits ← encodeBlock b
            let cont ← setOptionUint (Message.response Code.continue_ req)
              OptionNumber.block1 bits
            return (.interim cont,
              map.insert key {
                data := entry.data ++ req.payload
                nextNum := UInt32.ofNat next
                touched := now })
          else return (.complete (entry.data ++ req.payload), map.erase key)

def assembleBody (now : Instant) (req : Message) (session : DeviceSession)
    (leaf : String) (map : Block1Table) :
    Option (BodyState × Block1Table) := do
  match ← blockOf req OptionNumber.block1 with
  | none => return (.complete req.payload, map)
  | some b =>
      if b.num ≠ 0 then appendBlock now req b (session.connId, leaf) map
      else if (session.connId, leaf) ∉ map ∧ maxBlock1Entries ≤ map.len then
        return (.interim (diagnostic req Code.serviceUnavailable
          "block1 reassembly table full"), map)
      else
        appendBlock now req b (session.connId, leaf)
          (map.insert (session.connId, leaf)
            { data := [], nextNum := 0, touched := now })

/-! Responses. -/

def echoFinalBlock1 (req out : Message) : Option Message := do
  match ← blockOf req OptionNumber.block1 with
  | some b =>
      if b.more then return out
      else
        let bits ← encodeBlock b
        setOptionUint out OptionNumber.block1 bits
  | none => return out

/-- `str::is_char_boundary`. -/
def charBoundary (text : Octets) (i : Nat) : Bool :=
  i == 0 || i == text.length || text[i]?.any fun byte => byte &&& 0xC0 != 0x80

/-- Slicing a string panics inside of a character, too. -/
def strSlice (text : Octets) (start stop : Nat) : Option Octets :=
  if charBoundary text start && charBoundary text stop then
    slice text start stop
  else none

def hexPair (take : Octets) (i : Nat) : Option (Option UInt8) := do
  let stop ← add 64 i 2
  match ← strSlice take i stop with
  | [high, low] => return hexByte high low
  | _ => return none

/-- Collecting stops at the first pair that is no number. -/
def hexPairs (take : Octets) : List Nat → Option (Option Octets)
  | [] => some (some [])
  | i :: rest => do
      match ← hexPair take i with
      | none => return none
      | some byte =>
          match ← hexPairs take rest with
          | none => return none
          | some bytes => return some (byte :: bytes)

def hexPrefixBytes (hex : String) (n : Nat) : Option (Option Octets) := do
  let stop ← mul 64 n 2
  if (asBytes hex).length < stop ∨ charBoundary (asBytes hex) stop = false then
    return none
  else
    let take := (asBytes hex).take stop
    -- `(0..take.len()).step_by(2)`
    hexPairs take (List.range' 0 ((take.length + 1) / 2) 2)

def jsonBlock (h : Handler) (req : Message) (transport : Transport)
    (total : Nat) : Option (Option Block) := do
  match ← blockOf req OptionNumber.block2 with
  | some b =>
      let b ← capped b (h.maxSzxFor transport)
      return some b
  | none =>
      if transport = .udp then
        let size ← Checked.sizeFor (h.maxSzxFor transport)
        if size < total then
          return some { num := 0, more := false, szx := h.maxSzxFor transport }
        else return none
      else return none

def jsonSuccess (h : Handler) (req : Message) (r : UpstreamResponse)
    (method : Method) (transport : Transport) : Option Message := do
  let out := Message.response (jsonCode method r.status) req
  match ← jsonBlock h req transport r.body.length with
  | none =>
      let out ← setOptionUint out OptionNumber.contentFormat
        ContentFormat.json.toUInt32
      return { out with payload := r.body }
  | some b =>
      let start ← offset b
      if r.body.length ≤ start ∧ 0 < b.num then
        return diagnostic req Code.badRequest "block out of range"
      else
        let size ← Checked.sizeFor b.szx
        let stop ← add 64 start size
        let stop := min stop r.body.length
        let out ← setOptionUint out OptionNumber.contentFormat
          ContentFormat.json.toUInt32
        let bits ← encodeBlock { b with more := decide (stop < r.body.length) }
        let out ← setOptionUint out OptionNumber.block2 bits
        let out ←
          if b.num = 0 then
            setOptionUint out OptionNumber.size2 (UInt32.ofNat r.body.length)
          else some out
        return { out with payload := getOrDefault r.body start stop }

def jsonResponse (h : Handler) (req : Message) (resp : UpstreamResult)
    (method : Method) (transport : Transport) : Option Message :=
  match resp with
  | .ok r =>
      if r.status < 300 then jsonSuccess h req r method transport
      else some (errorResponse req resp)
  | .error _ => some (errorResponse req resp)

/-! Firmware. -/

def firmwareBlock (h : Handler) (req : Message) (transport : Transport) :
    Option Block := do
  match ← blockOf req OptionNumber.block2 with
  | some b => capped b (h.maxSzxFor transport)
  | none => return { num := 0, more := false, szx := h.maxSzxFor transport }

def firmwarePayload (block : Block) (r : UpstreamResponse) :
    Option Octets := do
  let (start, stop) ← byteRange block
  if r.status = 200 then
    let span ← sub stop start
    let span ← add 64 span 1
    if span < r.body.length then
      let next ← add 64 stop 1
      return getOrDefault r.body (min start r.body.length)
        (min next r.body.length)
    else return r.body
  else return r.body

def firmwareEtag (r : UpstreamResponse) : Option (Option Octets) :=
  match r.firmwareSha256 with
  | some hex => hexPrefixBytes hex 8
  | none => some none

def firmwareContent (req : Message) (block : Block) (r : UpstreamResponse) :
    Option Message := do
  let total := firmwareTotal r
  let payload ← firmwarePayload block r
  let out ← setOptionUint (Message.response Code.content req)
    OptionNumber.contentFormat ContentFormat.octetStream.toUInt32
  let more ← Checked.moreAfter block total
  let bits ← encodeBlock { block with more := more }
  let out ← setOptionUint out OptionNumber.block2 bits
  let out ←
    if block.num = 0 then
      setOptionUint out OptionNumber.size2 (UInt32.ofNat total)
    else some out
  let etag ← firmwareEtag r
  let out :=
    match etag with
    | some etag => out.pushOption OptionNumber.etag etag
    | none => out
  return { out with payload := payload }

def firmwareSuccess (req : Message) (block : Block) (r : UpstreamResponse) :
    Option Message := do
  let (start, _) ← byteRange block
  if (firmwareRange r).any fun range => range.1 != start then
    return diagnostic req Code.badRequest "block out of range"
  else if firmwareTotal r ≤ start ∧ 0 < firmwareTotal r then
    return diagnostic req Code.badRequest "block out of range"
  else firmwareContent req block r

def firmwareResponse (req : Message) (block : Block) (resp : UpstreamResult) :
    Option Message :=
  match resp with
  | .ok r =>
      if r.status < 300 then firmwareSuccess req block r
      else some (errorResponse req resp)
  | .error _ => some (errorResponse req resp)

/-! Routing. -/

/-- After `is_request`, routing only compares. -/
def route (req : Message) (session : DeviceSession) : Option Route := do
  let _ ← cls req.code
  return Handler.route req session

def postResponse (h : Handler) (req : Message) (leaf : UploadLeaf)
    (transport : Transport) (resp : UpstreamResult) : Option Message :=
  match leaf with
  | .shadow | .telemetry => jsonResponse h req resp .post transport
  | .logs => some (logsResponse req resp)

/-- What follows the sweep, with the upstream calls it makes. -/
def serve (h : Handler) (upstream : DeviceRequest → UpstreamResult)
    (now : Instant) (req : Message) (session : DeviceSession)
    (transport : Transport) (map : Block1Table) :
    Option (List DeviceRequest × Message × Block1Table) := do
  match ← route req session with
  | .refused reply => return ([], reply, map)
  | .getShadow =>
      let request := upstreamCall session .get "shadow" none none
      let reply ← jsonResponse h req (upstream request) .get transport
      return ([request], reply, map)
  | .post leaf =>
      match ← assembleBody now req session leaf.name map with
      | (.complete body, map) =>
          let request := upstreamCall session .post leaf.name none
            (some (body, leaf.contentType))
          let out ← postResponse h req leaf transport (upstream request)
          let reply ← echoFinalBlock1 req out
          return ([request], reply, map)
      | (.interim msg, map) => return ([], msg, map)
  | .getFirmware =>
      let block ← firmwareBlock h req transport
      let range ← byteRange block
      let request := upstreamCall session .get "firmware" (some range) none
      let reply ← firmwareResponse req block (upstream request)
      return ([request], reply, map)

def handle (h : Handler) (upstream : DeviceRequest → UpstreamResult)
    (now : Instant) (req : Message) (session : DeviceSession)
    (transport : Transport) (map : Block1Table) :
    Option (List DeviceRequest × Message × Block1Table) :=
  serve h upstream now req session transport (sweepBlock1 now map)

/-! What the steps take in: a request whose payload fits in memory, and a
response as the HTTP client hands it over. -/

structure Receivable (r : UpstreamResponse) : Prop where
  body : r.body.length < 2 ^ 32
  /-- `HeaderValue::to_str` yields ASCII. -/
  sha : ∀ hex, r.firmwareSha256 = some hex → ∀ byte ∈ asBytes hex, byte < 0x80

variable {h : Handler} {now : Instant} {req out : Message}
  {session : DeviceSession} {transport : Transport} {map : Block1Table}
  {key : Block1Key} {b block : Block} {r : UpstreamResponse}
  {resp : UpstreamResult} {leaf : String}

theorem blockOf_eq (req : Message) (number : UInt16) :
    blockOf req number =
      some ((req.optionUint number).bind Block.decode) := by
  rw [blockOf, optionUint_eq, Option.bind_eq_bind, Option.bind_some]
  cases req.optionUint number with
  | none => rfl
  | some value => exact decodeBlock_eq value

theorem block1_eq (req : Message) :
    blockOf req OptionNumber.block1 = some (block1Of req) :=
  blockOf_eq req OptionNumber.block1

theorem block2_eq (req : Message) :
    blockOf req OptionNumber.block2 = some (block2Of req) :=
  blockOf_eq req OptionNumber.block2

theorem getOrDefault_eq {xs : Octets} {start stop : Nat}
    (hstop : stop ≤ xs.length) :
    getOrDefault xs start stop = (xs.take stop).drop start := by
  by_cases hstart : start ≤ stop
  · rw [getOrDefault, slice_of_le hstart hstop]
    rfl
  · have hnone : slice xs start stop = none :=
      if_neg fun hboth => hstart hboth.1
    rw [getOrDefault, hnone, List.drop_eq_nil_of_le]
    · rfl
    · rw [List.length_take]
      omega

theorem getOrDefault_min (xs : Octets) (start stop : Nat) :
    getOrDefault xs (min start xs.length) (min stop xs.length) =
      (xs.take stop).drop start := by
  rw [getOrDefault_eq (Nat.min_le_right stop xs.length),
    ← List.take_eq_take_min]
  rcases Nat.le_total start xs.length with hin | hpast
  · rw [Nat.min_eq_left hin]
  · rw [List.drop_eq_nil_of_le, List.drop_eq_nil_of_le]
    · rw [List.length_take]
      omega
    · rw [List.length_take]
      omega

/-! Reassembly: an entry is small and its next number is below any wrap. -/

theorem appendBlock_eq
    (hentry : ∀ entry, map.lookup key = some entry →
      entry.data.length ≤ maxBlock1Body ∧ entry.nextNum.toNat ≤ 2 ^ 28)
    (hpayload : req.payload.length < 2 ^ 63) :
    appendBlock now req b key map =
      some (Loft.appendBlock now req b key map) := by
  unfold appendBlock Loft.appendBlock
  cases hlookup : map.lookup key with
  | none => rfl
  | some entry =>
      obtain ⟨hdata, hnext⟩ := hentry entry hlookup
      unfold maxBlock1Body at hdata
      have hadd : UInt32.ofNat (entry.nextNum.toNat + 1) =
          entry.nextNum + 1 := by
        apply UInt32.toNat_inj.mp
        rw [UInt32.toNat_ofNat', UInt32.toNat_add, UInt32.toNat_one]
      dsimp only
      rw [add_of_lt (by omega), add_of_lt (by omega)]
      simp only [Option.bind_eq_bind, Option.bind_some, encodeBlock_eq,
        setOptionUint_eq, hadd]
      split_ifs <;> rfl

theorem assembleBody_eq (hmap : Bounded map)
    (hpayload : req.payload.length < 2 ^ 63) :
    assembleBody now req session leaf map =
      some (Loft.assembleBody now req session leaf map) := by
  rw [assembleBody, block1_eq, Option.bind_eq_bind, Option.bind_some,
    Loft.assembleBody]
  cases block1Of req with
  | none => rfl
  | some b =>
      dsimp only
      split_ifs with hfirst hfull
      · apply appendBlock_eq _ hpayload
        intro entry hentry
        have hwithin := hmap.entries _ entry hentry
        exact ⟨hwithin.data_le, hwithin.nextNum_le⟩
      · rfl
      · apply appendBlock_eq _ hpayload
        intro entry hentry
        rw [AList.lookup_insert] at hentry
        cases hentry
        exact ⟨Nat.zero_le _, Nat.zero_le _⟩

/-! Responses. -/

theorem echoFinalBlock1_eq (req out : Message) :
    echoFinalBlock1 req out = some (Loft.echoFinalBlock1 req out) := by
  rw [echoFinalBlock1, block1_eq, Option.bind_eq_bind, Option.bind_some,
    Loft.echoFinalBlock1]
  cases block1Of req with
  | none => rfl
  | some b =>
      dsimp only
      split_ifs
      · rfl
      · rw [encodeBlock_eq, Option.bind_eq_bind, Option.bind_some,
          setOptionUint_eq]

theorem jsonBlock_eq (hceiling : h.udpMaxSzx ≤ maxSzx) (total : Nat) :
    jsonBlock h req transport total =
      some (h.jsonBlock req transport total) := by
  rw [jsonBlock, block2_eq, Option.bind_eq_bind, Option.bind_some,
    Handler.jsonBlock]
  cases hblock : block2Of req with
  | some b =>
      dsimp only
      rw [capped_eq (block2Of_szx_le hblock)]
      rfl
  | none =>
      dsimp only
      rw [sizeFor_eq (maxSzxFor_le hceiling transport)]
      by_cases hudp : transport = .udp
      · rw [if_pos hudp, Option.bind_eq_bind, Option.bind_some]
        simp only [hudp, true_and]
        split_ifs <;> rfl
      · rw [if_neg hudp, if_neg fun hboth => hudp hboth.1]
        rfl

theorem jsonBlock_szx_le (hceiling : h.udpMaxSzx ≤ maxSzx) {total : Nat}
    (hblock : h.jsonBlock req transport total = some b) : b.szx ≤ maxSzx := by
  have hmax := maxSzxFor_le hceiling transport
  unfold Handler.jsonBlock at hblock
  split at hblock
  · cases hblock
    exact UInt8.le_trans (Block.szx_capped_le _ _) hmax
  · split_ifs at hblock
    cases hblock
    exact hmax

theorem jsonSuccess_eq (hceiling : h.udpMaxSzx ≤ maxSzx) (method : Method) :
    jsonSuccess h req r method transport =
      some (h.jsonSuccess req r method transport) := by
  rw [jsonSuccess, jsonBlock_eq hceiling, Option.bind_eq_bind, Option.bind_some,
    Handler.jsonSuccess]
  cases hblock : h.jsonBlock req transport r.body.length with
  | none =>
      dsimp only
      rw [setOptionUint_eq]
      rfl
  | some b =>
      have hszx := jsonBlock_szx_le hceiling hblock
      have hadd := blockEnd_eq hszx
      have hsize : Checked.sizeFor b.szx = some b.size := sizeFor_eq hszx
      have hpayload :
          getOrDefault r.body b.offset (min (b.offset + b.size) r.body.length) =
            (r.body.take (min (b.offset + b.size) r.body.length)).drop
              b.offset :=
        getOrDefault_eq (Nat.min_le_right _ _)
      simp only [offset_eq hszx, hsize, hadd, setOptionUint_eq,
        encodeBlock_eq, Option.bind_eq_bind, Option.bind_some, hpayload]
      split_ifs <;> rfl

theorem jsonResponse_eq (hceiling : h.udpMaxSzx ≤ maxSzx) (method : Method) :
    jsonResponse h req resp method transport =
      some (h.jsonResponse req resp method transport) := by
  cases resp with
  | error message => rfl
  | ok r =>
      simp only [jsonResponse, Handler.jsonResponse, jsonSuccess_eq hceiling]
      split_ifs <;> rfl

theorem firmwareBlock_eq (hceiling : h.udpMaxSzx ≤ maxSzx) (req : Message)
    (transport : Transport) :
    firmwareBlock h req transport = some (h.firmwareBlock req transport) ∧
      (h.firmwareBlock req transport).szx ≤ maxSzx := by
  have hmax := maxSzxFor_le hceiling transport
  rw [firmwareBlock, block2_eq, Option.bind_eq_bind, Option.bind_some,
    Handler.firmwareBlock]
  cases hblock : block2Of req with
  | some b =>
      exact ⟨capped_eq (block2Of_szx_le hblock) _,
        UInt8.le_trans (Block.szx_capped_le _ _) hmax⟩
  | none => exact ⟨rfl, hmax⟩

/-! ETags: in ASCII each byte is a character of its own. -/

section Ascii

variable {text take : Octets} {i : Nat}

theorem charBoundary_of_ascii (hascii : ∀ byte ∈ text, byte < 0x80)
    (hi : i ≤ text.length) : charBoundary text i = true := by
  rcases Nat.eq_or_lt_of_le hi with hend | hlt
  · simp [charBoundary, hend]
  · have hbyte := hascii text[i] (List.getElem_mem hlt)
    have hleading : text[i] &&& 0xC0 ≠ 0x80 := by
      intro hcontinuation
      have hle : (text[i] &&& 0xC0).toNat ≤ text[i].toNat := by
        rw [UInt8.toNat_and]
        exact Nat.and_le_left
      rw [hcontinuation] at hle
      have hnat := UInt8.lt_iff_toNat_lt.mp hbyte
      change 128 ≤ _ at hle
      change _ < 128 at hnat
      omega
    simp [charBoundary, List.getElem?_eq_getElem hlt, hleading]

theorem hexPair_eq {high low : UInt8} {rest : Octets}
    (hascii : ∀ byte ∈ take, byte < 0x80) (hlength : take.length < 2 ^ 63)
    (hdrop : take.drop i = high :: low :: rest) :
    hexPair take i = some (hexByte high low) := by
  have hfits : i + 2 ≤ take.length := by
    have hcount := congrArg List.length hdrop
    simp only [List.length_drop, List.length_cons] at hcount
    omega
  rw [hexPair, add_of_lt (by omega), Option.bind_eq_bind, Option.bind_some,
    strSlice, charBoundary_of_ascii hascii (by omega),
    charBoundary_of_ascii hascii hfits, slice_range hfits, hdrop]
  rfl

theorem hexPairs_eq (hascii : ∀ byte ∈ take, byte < 0x80)
    (hlength : take.length < 2 ^ 63) (pairs : Nat) :
    ∀ i, i + 2 * pairs = take.length →
      hexPairs take (List.range' i pairs 2) = some (hexBytes (take.drop i)) := by
  induction pairs with
  | zero =>
      intro i hi
      rw [List.drop_eq_nil_of_le (by omega)]
      rfl
  | succ pairs ih =>
      intro i hi
      have hdrop : take.drop i =
          take[i] :: take[i + 1] :: take.drop (i + 2) := by
        rw [List.drop_eq_getElem_cons (by omega),
          List.drop_eq_getElem_cons (by omega)]
      rw [List.range'_succ, hexPairs, hexPair_eq hascii hlength hdrop,
        ih (i + 2) (by omega), hdrop, hexBytes]
      cases hexByte take[i] take[i + 1] with
      | none => rfl
      | some byte => cases hexBytes (take.drop (i + 2)) <;> rfl

end Ascii

theorem hexPrefixBytes_eq {hex : String} {n : Nat} (hn : n * 2 < 2 ^ 63)
    (hascii : ∀ byte ∈ asBytes hex, byte < 0x80) :
    hexPrefixBytes hex n = some (Loft.hexPrefixBytes hex n) := by
  rw [hexPrefixBytes, mul_of_lt (by omega), Option.bind_eq_bind,
    Option.bind_some, Loft.hexPrefixBytes]
  by_cases hshort : (asBytes hex).length < n * 2
  · rw [if_pos (.inl hshort), if_pos hshort]
    rfl
  · have hlong := Nat.not_lt.mp hshort
    have hlength : ((asBytes hex).take (n * 2)).length = n * 2 :=
      List.length_take_of_le hlong
    have hpairs : (n * 2 + 1) / 2 = n := by omega
    rw [if_neg, if_neg hshort]
    · dsimp only
      rw [hlength, hpairs]
      apply hexPairs_eq
      · intro byte hbyte
        exact hascii byte (List.mem_of_mem_take hbyte)
      · omega
      · omega
    · rw [charBoundary_of_ascii hascii hlong]
      simp [hlong]

theorem firmwarePayload_eq (hszx : block.szx ≤ maxSzx)
    (r : UpstreamResponse) :
    firmwarePayload block r = some (Handler.firmwarePayload block r) := by
  have hoffset := Block.offset_lt hszx
  have hsize := Block.size_le hszx
  have hpos := block.sixteen_le_size
  rw [firmwarePayload, byteRange_eq hszx, Option.bind_eq_bind,
    Option.bind_some, Handler.firmwarePayload, Block.byteRange]
  dsimp only
  by_cases hwhole : r.status = 200
  · have hspan : block.offset ≤ block.offset + block.size - 1 := by omega
    have hcount : block.offset + block.size - 1 - block.offset + 1 < 2 ^ 64 := by
      omega
    have hnext : block.offset + block.size - 1 + 1 < 2 ^ 64 := by omega
    simp only [hwhole, if_true, true_and, sub_of_le hspan, add_of_lt hcount,
      add_of_lt hnext, Option.bind_eq_bind, Option.bind_some, getOrDefault_min]
    split_ifs <;> rfl
  · rw [if_neg hwhole, if_neg fun hboth => hwhole hboth.1]
    rfl

theorem firmwareEtag_eq (hr : Receivable r) :
    firmwareEtag r =
      some (r.firmwareSha256.bind (Loft.hexPrefixBytes · 8)) := by
  rw [firmwareEtag]
  cases hsha : r.firmwareSha256 with
  | none => rfl
  | some hex => exact hexPrefixBytes_eq (by decide) (hr.sha hex hsha)

theorem firmwareContent_eq (hszx : block.szx ≤ maxSzx) (hr : Receivable r) :
    firmwareContent req block r =
      some (Handler.firmwareContent req block r) := by
  simp only [firmwareContent, firmwarePayload_eq hszx, setOptionUint_eq,
    moreAfter_eq hszx, encodeBlock_eq, firmwareEtag_eq hr, Option.bind_eq_bind,
    Option.bind_some, Handler.firmwareContent]
  split_ifs <;> rfl

theorem firmwareSuccess_eq (hszx : block.szx ≤ maxSzx) (hr : Receivable r) :
    firmwareSuccess req block r =
      some (Handler.firmwareSuccess req block r) := by
  simp only [firmwareSuccess, byteRange_eq hszx, firmwareContent_eq hszx hr,
    Option.bind_eq_bind, Option.bind_some, Handler.firmwareSuccess]
  split_ifs <;> rfl

theorem firmwareResponse_eq (hszx : block.szx ≤ maxSzx)
    (hresp : ∀ r, resp = .ok r → Receivable r) :
    firmwareResponse req block resp =
      some (Handler.firmwareResponse req block resp) := by
  cases resp with
  | error message => rfl
  | ok r =>
      simp only [firmwareResponse, Handler.firmwareResponse,
        firmwareSuccess_eq hszx (hresp r rfl)]
      split_ifs <;> rfl

/-! Whole calls. -/

theorem postResponse_eq (hceiling : h.udpMaxSzx ≤ maxSzx) (upload : UploadLeaf) :
    postResponse h req upload transport resp =
      some (h.postResponse req upload transport resp) := by
  cases upload with
  | shadow => exact jsonResponse_eq hceiling .post
  | telemetry => exact jsonResponse_eq hceiling .post
  | logs => rfl

variable {upstream : DeviceRequest → UpstreamResult}

theorem serve_eq (hceiling : h.udpMaxSzx ≤ maxSzx) (hmap : Bounded map)
    (hpayload : req.payload.length < 2 ^ 63)
    (hupstream : ∀ request r, upstream request = .ok r → Receivable r) :
    serve h upstream now req session transport map =
      some (((h.dispatch now req session transport map).1.outcome upstream).1,
        ((h.dispatch now req session transport map).1.outcome upstream).2,
        (h.dispatch now req session transport map).2) := by
  have hroute : route req session = some (Handler.route req session) := by
    rw [route, cls_eq]
    rfl
  rw [serve, hroute, Option.bind_eq_bind, Option.bind_some, dispatch]
  cases Handler.route req session with
  | refused reply => rfl
  | getShadow =>
      dsimp only
      rw [jsonResponse_eq hceiling]
      rfl
  | post upload =>
      simp only [assembleBody_eq hmap hpayload, postResponse_eq hceiling,
        echoFinalBlock1_eq, Option.bind_eq_bind, Option.bind_some]
      rcases Loft.assembleBody now req session upload.name map with
        ⟨body | msg, map'⟩ <;> rfl
  | getFirmware =>
      obtain ⟨hblock, hszx⟩ := firmwareBlock_eq hceiling req transport
      simp only [hblock, byteRange_eq hszx,
        firmwareResponse_eq hszx (hupstream _), Option.bind_eq_bind,
        Option.bind_some]
      rfl

theorem handle_eq (hceiling : h.udpMaxSzx ≤ maxSzx) (hmap : Bounded map)
    (hpayload : req.payload.length < 2 ^ 63)
    (hupstream : ∀ request r, upstream request = .ok r → Receivable r) :
    handle h upstream now req session transport map =
      some (h.handle upstream now req session transport map) := by
  rw [handle, serve_eq hceiling (hmap.sweep now) hpayload hupstream,
    Handler.handle_eq]

end Loft.Handler.Checked
