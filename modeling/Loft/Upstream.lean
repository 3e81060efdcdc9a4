import Loft.Coap.Block
import Loft.Data.Utf8

namespace Loft

open Loft.Data

/-! The upstream HTTP client, as far as the CoAP layer sees it. -/

inductive Method
  | get
  | post
  deriving DecidableEq, Repr

structure DeviceRequest where
  method : Method
  pigeonId : String
  leaf : String
  bearer : String
  range : Option (Nat × Nat)
  body : Option (Octets × String)
  deriving DecidableEq, Repr

structure UpstreamResponse where
  status : UInt16
  body : Octets
  contentRange : Option String := none
  firmwareSize : Option UInt64 := none
  firmwareSha256 : Option String := none
  deriving DecidableEq, Repr

abbrev UpstreamResult := Except String UpstreamResponse

/-! Requests as they are put together for the HTTP clients. -/

structure HttpRequest where
  method : Method
  url : String
  headers : List (String × String)
  body : Option Octets
  deriving DecidableEq, Repr

/-- `str::trim_end_matches('/')`. -/
def trimEndSlashes (text : String) : String :=
  String.ofList (text.toList.reverse.dropWhile (· == '/')).reverse

structure Dovecote where
  baseUrl : String
  deriving DecidableEq, Repr

namespace Dovecote

def new (baseUrl : String) : Dovecote where
  baseUrl := trimEndSlashes baseUrl

def deviceRequest (dovecote : Dovecote) (call : DeviceRequest) :
    HttpRequest where
  method := call.method
  url := dovecote.baseUrl ++ "/device/pigeons/" ++ call.pigeonId ++ "/" ++
    call.leaf
  headers :=
    [("Authorization", "Bearer " ++ call.bearer)] ++
    (match call.range with
      | some (start, stop) =>
          [("Range", "bytes=" ++ toString start ++ "-" ++ toString stop)]
      | none => []) ++
    (match call.body with
      | some (_, contentType) => [("Content-Type", contentType)]
      | none => [])
  body := call.body.map Prod.fst

end Dovecote

/-! Responses as the HTTP clients hand them over. -/

structure HttpResponse where
  status : UInt16
  headers : List (String × Octets)
  body : Octets
  deriving DecidableEq, Repr

/-- `HeaderValue::to_str`: nothing but visible ASCII, spaces and tabs. -/
def headerText (value : Octets) : Option String :=
  if value.all fun byte => 0x20 ≤ byte && byte < 0x7F || byte == 0x09 then
    fromUtf8 value
  else none

/-- Header names are the same in whatever case they are written. -/
def sameHeader (name name' : String) : Bool :=
  name.toList.map Char.toLower == name'.toList.map Char.toLower

def HttpResponse.header (resp : HttpResponse) (name : String) :
    Option String :=
  (resp.headers.find? fun header => sameHeader header.1 name).bind
    fun header => headerText header.2

inductive HttpError
  | send (error : String)
  | body (error : String)
  deriving DecidableEq, Repr

namespace Dovecote

def upstreamResponse (resp : HttpResponse) : UpstreamResponse where
  status := resp.status
  body := resp.body
  contentRange := resp.header "Content-Range"
  firmwareSize := (resp.header "X-Firmware-Size").bind fun value =>
    (Coap.parseU64 value.toList).map UInt64.ofNat
  firmwareSha256 := resp.header "X-Firmware-Sha256"

/-- What `device_request` makes of the outcome of the exchange. -/
def deviceResponse : Except HttpError HttpResponse → UpstreamResult
  | .ok resp => .ok (upstreamResponse resp)
  | .error (.send error) => .error ("upstream: " ++ error)
  | .error (.body error) => .error ("upstream body: " ++ error)

end Dovecote

end Loft
