import Loft.Data.Uri
import Loft.Data.Utf8
import Loft.Handler.Outcomes
import Loft.Psk

namespace Loft.Psk

open Loft.Data
open Loft.Data.Uri (Plain resource)

/-! The PSK lookup upstream, and what the URLs that an identity is put into
name. -/

structure DovecotePskSource where
  baseUrl : String
  serviceSecret : String
  deriving DecidableEq, Repr

namespace DovecotePskSource

def new (baseUrl serviceSecret : String) : DovecotePskSource where
  baseUrl := trimEndSlashes baseUrl
  serviceSecret := serviceSecret

/-- What `fetch` asks upstream. -/
def fetchRequest (source : DovecotePskSource) (identity : String) :
    HttpRequest where
  method := .get
  url := source.baseUrl ++ "/internal/coap-psk/" ++ identity
  headers := [("Authorization", "Bearer " ++ source.serviceSecret)]
  body := none

end DovecotePskSource

/-- The body of a lookup that succeeds. -/
structure CoapPskLookup where
  identity : String
  secret : String
  token : String
  deriving DecidableEq, Repr

/-- How the HTTP call ends; a status from 400 on is an error to the client. -/
inductive CallResult
  | ok (body : Octets)
  | status (code : UInt16)
  | transport (error : String)
  deriving DecidableEq, Repr

/-- What `fetch` makes of it, the client's JSON reader being given. -/
def lookupOf (intoJson : Octets → Except String CoapPskLookup) :
    CallResult → Lookup
  | .ok body =>
      match intoJson body with
      | .ok lookup => .ok (some { psk := lookup.secret, token := lookup.token })
      | .error error => .error ("psk lookup body parse: " ++ error)
  | .status code =>
      -- no pigeon behind the identity, or no identity of a pigeon at all
      if code = 404 ∨ code = 400 then .ok none
      else .error ("psk lookup: upstream " ++ toString code.toNat)
  | .transport error => .error ("psk lookup transport: " ++ error)

/-- The configured URL, which is one that paths can be appended to. -/
structure BaseUrl where
  configured : String
  base : Uri.Base
  valid : asBytes (trimEndSlashes configured) = base.text

/-- The URL is one, of what the configured one names with these segments under
it and nothing else. -/
def Names (baseUrl : BaseUrl) (url : String) (path : List String) : Prop :=
  resource (asBytes url) =
    (resource (asBytes (trimEndSlashes baseUrl.configured))).map
      fun base => base.extend (path.map asBytes)

theorem names_iff {baseUrl : BaseUrl} {url : String} {path : List String} :
    Names baseUrl url path ↔
      resource (asBytes url) =
        some (baseUrl.base.resource.extend (path.map asBytes)) := by
  rw [Names, baseUrl.valid, baseUrl.base.resource_text, Option.map_some]

def pskPath (identity : String) : List String :=
  ["internal", "coap-psk", identity]

def devicePath (identity leaf : String) : List String :=
  ["device", "pigeons", identity, leaf]

theorem fetchRequest_url (baseUrl : BaseUrl) (secret identity : String) :
    asBytes ((DovecotePskSource.new baseUrl.configured secret).fetchRequest
        identity).url =
      baseUrl.base.below ((pskPath identity).map asBytes) := by
  have htext : asBytes "/internal/coap-psk/" = Uri.slash ::
      (asBytes "internal" ++ Uri.slash :: asBytes "coap-psk" ++
        [Uri.slash]) := by decide +kernel
  simp only [DovecotePskSource.fetchRequest, DovecotePskSource.new,
    asBytes_append, baseUrl.valid, htext, Uri.Base.below, Uri.written, pskPath,
    List.map_cons, List.map_nil, List.flatMap_cons, List.flatMap_nil,
    List.append_assoc, List.cons_append, List.nil_append, List.append_nil]

theorem deviceRequest_url (baseUrl : BaseUrl) (call : DeviceRequest) :
    asBytes ((Dovecote.new baseUrl.configured).deviceRequest call).url =
      baseUrl.base.below
        ((devicePath call.pigeonId call.leaf).map asBytes) := by
  have htext : asBytes "/device/pigeons/" = Uri.slash ::
      (asBytes "device" ++ Uri.slash :: asBytes "pigeons" ++
        [Uri.slash]) := by decide +kernel
  have hslash : asBytes "/" = [Uri.slash] := by decide +kernel
  simp only [Dovecote.deviceRequest, Dovecote.new,
    asBytes_append, baseUrl.valid, htext, hslash, Uri.Base.below, Uri.written,
    devicePath, List.map_cons, List.map_nil, List.flatMap_cons,
    List.flatMap_nil, List.append_assoc, List.cons_append, List.nil_append,
    List.append_nil]

theorem pskPath_named_iff (baseUrl : BaseUrl) (secret identity : String) :
    Names baseUrl
        ((DovecotePskSource.new baseUrl.configured secret).fetchRequest
          identity).url (pskPath identity) ↔
      Plain (asBytes identity) := by
  have hfront : ∀ segment ∈ [asBytes "internal", asBytes "coap-psk"],
      Plain segment := by decide +kernel
  rw [names_iff, fetchRequest_url]
  exact baseUrl.base.resource_below_iff hfront (asBytes identity)

theorem devicePath_named (baseUrl : BaseUrl) {call : DeviceRequest}
    (hleaf : call.leaf ∈ Handler.leaves)
    (hplain : Plain (asBytes call.pigeonId)) :
    Names baseUrl ((Dovecote.new baseUrl.configured).deviceRequest call).url
      (devicePath call.pigeonId call.leaf) := by
  have hleaves : ∀ leaf ∈ Handler.leaves, Plain (asBytes leaf) := by
    decide +kernel
  have hfront : ∀ segment ∈ [asBytes "device", asBytes "pigeons"],
      Plain segment := by decide +kernel
  rw [names_iff, deviceRequest_url]
  apply baseUrl.base.resource_below
  · intro segment hsegment
    simp only [devicePath, List.map_cons, List.map_nil, List.mem_cons,
      List.not_mem_nil, or_false] at hsegment
    rcases hsegment with rfl | rfl | rfl | rfl
    · exact hfront _ (by simp)
    · exact hfront _ (by simp)
    · exact hplain
    · exact hleaves _ hleaf
  · exact List.cons_ne_nil _ _

/-- The lookup of an identity and the device's own requests go where they are
meant to exactly if the identity is made of path characters and is not a dot
segment, and such identities do not share a lookup. -/
theorem identity_named_iff (baseUrl : BaseUrl) (secret : String)
    (call : DeviceRequest) (hleaf : call.leaf ∈ Handler.leaves) :
    let source := DovecotePskSource.new baseUrl.configured secret
    let dovecote := Dovecote.new baseUrl.configured
    (Names baseUrl (source.fetchRequest call.pigeonId).url
          (pskPath call.pigeonId) ∧
        Names baseUrl (dovecote.deviceRequest call).url
          (devicePath call.pigeonId call.leaf) ↔
      Plain (asBytes call.pigeonId)) ∧
    ∀ identity identity', Plain (asBytes identity) →
      Plain (asBytes identity') →
      resource (asBytes (source.fetchRequest identity).url) =
        resource (asBytes (source.fetchRequest identity').url) →
      identity = identity' := by
  dsimp only
  refine ⟨⟨?_, ?_⟩, ?_⟩
  · intro hboth
    exact (pskPath_named_iff baseUrl secret call.pigeonId).mp hboth.1
  · intro hplain
    exact ⟨(pskPath_named_iff baseUrl secret call.pigeonId).mpr hplain,
      devicePath_named baseUrl hleaf hplain⟩
  · intro identity identity' hplain hplain' hsame
    have hnamed := (pskPath_named_iff baseUrl secret identity).mpr hplain
    have hnamed' := (pskPath_named_iff baseUrl secret identity').mpr hplain'
    rw [names_iff.mp hnamed, names_iff.mp hnamed'] at hsame
    have hpath := Uri.Base.extend_injective (Option.some.inj hsame)
    simp only [pskPath, List.map_cons, List.map_nil, List.cons.injEq, true_and,
      and_true] at hpath
    exact asBytes_injective hpath

def defaultUrl : BaseUrl where
  configured := "https://api.pidgeiot.com"
  base := {
    scheme := asBytes "https"
    authority := asBytes "api.pidgeiot.com"
    path := []
    scheme_valid := by decide +kernel
    authority_valid := by decide +kernel
    path_valid := nofun }
  valid := by decide +kernel

def logsCall (identity : String) : DeviceRequest where
  method := .post
  pigeonId := identity
  leaf := "logs"
  bearer := "t"
  range := none
  body := some ([0xAA], "application/octet-stream")

theorem identity_named_iff_logs :
    let source := DovecotePskSource.new defaultUrl.configured "s"
    let dovecote := Dovecote.new defaultUrl.configured
    (Names defaultUrl (source.fetchRequest "p").url (pskPath "p") ∧
        Names defaultUrl (dovecote.deviceRequest (logsCall "p")).url
          (devicePath "p" "logs") ↔
      Plain (asBytes "p")) ∧
    ∀ identity identity', Plain (asBytes identity) →
      Plain (asBytes identity') →
      resource (asBytes (source.fetchRequest identity).url) =
        resource (asBytes (source.fetchRequest identity').url) →
      identity = identity' :=
  identity_named_iff defaultUrl "s" (logsCall "p") (by decide +kernel)

/-- One identity takes the lookup, and the secret in it, to a device's shadow;
another shares its lookup with a plain one. -/
theorem identity_leaves_prefix :
    let source := DovecotePskSource.new defaultUrl.configured "s"
    Names defaultUrl
        (source.fetchRequest "../../device/pigeons/q/shadow").url
        (devicePath "q" "shadow") ∧
      ¬ Names defaultUrl
        (source.fetchRequest "../../device/pigeons/q/shadow").url
        (pskPath "../../device/pigeons/q/shadow") ∧
      "./p" ≠ "p" ∧
      resource (asBytes (source.fetchRequest "./p").url) =
        resource (asBytes (source.fetchRequest "p").url) := by
  unfold Names
  decide +kernel

end Loft.Psk
