import Loft.Handler

namespace Loft

open Loft.Data
open Loft.Coap

/-! Routing as one relation: which requests are passed on, and to what. -/

namespace Handler

def Action.outcome (upstream : DeviceRequest → UpstreamResult) :
    Action → List DeviceRequest × Message
  | .reply msg => ([], msg)
  | .call request finish => ([request], finish (upstream request))

theorem handle_eq (h : Handler) (upstream : DeviceRequest → UpstreamResult)
    (now : Instant) (req : Message) (session : DeviceSession)
    (transport : Transport) (map : Block1Table) :
    h.handle upstream now req session transport map =
      let dispatched :=
        h.dispatch now req session transport (sweepBlock1 now map)
      ((dispatched.1.outcome upstream).1, (dispatched.1.outcome upstream).2,
        dispatched.2) := by
  rw [handle]
  rcases h.dispatch now req session transport (sweepBlock1 now map) with
    ⟨_ | _, _⟩ <;> rfl

@[simp] theorem outcome_fst (upstream : DeviceRequest → UpstreamResult)
    (action : Action) :
    (action.outcome upstream).1 = action.upstream.toList := by
  cases action <;> rfl

theorem dispatch_post (h : Handler) (now : Instant) {req : Message}
    {session : DeviceSession} (transport : Transport) (map : Block1Table)
    {leaf : UploadLeaf} (hroute : route req session = .post leaf) :
    (h.dispatch now req session transport map).1 =
      match (assembleBody now req session leaf.name map).1 with
      | .complete body =>
          .call (upstreamCall session .post leaf.name none
            (some (body, leaf.contentType))) fun resp =>
              echoFinalBlock1 req (h.postResponse req leaf transport resp)
      | .interim msg => .reply msg := by
  unfold dispatch
  rw [hroute]
  dsimp only
  rcases assembleBody now req session leaf.name map with ⟨_ | _, _⟩ <;> rfl

theorem dispatch_post_upstream {h : Handler} {now : Instant} {req : Message}
    {session : DeviceSession} {transport : Transport} {map : Block1Table}
    {leaf : UploadLeaf} {call : DeviceRequest}
    (hroute : route req session = .post leaf)
    (hcall : (h.dispatch now req session transport map).1.upstream =
      some call) :
    ∃ body, (assembleBody now req session leaf.name map).1 = .complete body ∧
      call = upstreamCall session .post leaf.name none
        (some (body, leaf.contentType)) := by
  rw [dispatch_post h now transport map hroute] at hcall
  cases hbody : (assembleBody now req session leaf.name map).1 with
  | complete body =>
      rw [hbody] at hcall
      cases hcall
      exact ⟨body, rfl, rfl⟩
  | interim msg =>
      rw [hbody] at hcall
      cases hcall

/-! Who may ask for what. -/

def Understood (req : Message) : Prop :=
  ∀ option ∈ req.options,
    OptionNumber.isCritical option.1 = true → option.1 ∈ knownOptions

inductive Served : UInt8 → Method → String → Prop
  | getShadow : Served Code.get .get "shadow"
  | postShadow : Served Code.post .post "shadow"
  | postTelemetry : Served Code.post .post "telemetry"
  | postLogs : Served Code.post .post "logs"
  | getFirmware : Served Code.get .get "firmware"

structure Admitted (req : Message) (session : DeviceSession) (method : Method)
    (leaf : String) : Prop where
  understood : Understood req
  path : req.pathSegments = ["device", "pigeons", session.pigeonId, leaf]
  served : Served req.code method leaf

theorem unknownCriticalOption_eq_none {req : Message} :
    req.unknownCriticalOption knownOptions = none ↔ Understood req := by
  rw [Message.unknownCriticalOption, List.find?_eq_none, Understood]
  simp only [List.mem_map, forall_exists_index, and_imp,
    forall_apply_eq_imp_iff₂, Bool.and_eq_true, Bool.not_eq_true',
    List.contains_eq_mem, decide_eq_false_iff_not, not_and, not_not]

/-- The upstream route that a request is passed on to. -/
def Route.asks : Route → Option (Method × String)
  | .refused _ => none
  | .getShadow => some (.get, "shadow")
  | .post leaf => some (.post, leaf.name)
  | .getFirmware => some (.get, "firmware")

theorem Served.isRequest {code : UInt8} {method : Method} {leaf : String}
    (hserved : Served code method leaf) : Code.isRequest code = true := by
  cases hserved <;> rfl

theorem routeLeaf_asks_iff {req : Message} {leaf leaf' : String}
    {method : Method} :
    (routeLeaf req leaf).asks = some (method, leaf') ↔
      leaf' = leaf ∧ Served req.code method leaf := by
  constructor
  · intro hasks
    unfold routeLeaf at hasks
    split_ifs at hasks with hget hshadow htelemetry hlogs hfirmware hother
    · obtain ⟨rfl, hcode⟩ := hget
      cases hasks
      exact ⟨rfl, hcode ▸ .getShadow⟩
    · obtain ⟨rfl, hcode⟩ := hshadow
      cases hasks
      exact ⟨rfl, hcode ▸ .postShadow⟩
    · obtain ⟨rfl, hcode⟩ := htelemetry
      cases hasks
      exact ⟨rfl, hcode ▸ .postTelemetry⟩
    · obtain ⟨rfl, hcode⟩ := hlogs
      cases hasks
      exact ⟨rfl, hcode ▸ .postLogs⟩
    · obtain ⟨rfl, hcode⟩ := hfirmware
      cases hasks
      exact ⟨rfl, hcode ▸ .getFirmware⟩
    · cases hasks
    · cases hasks
  · intro hboth
    obtain ⟨rfl, hserved⟩ := hboth
    generalize hcode : req.code = code at hserved
    cases hserved <;>
      simp [routeLeaf, hcode, Route.asks, UploadLeaf.name, Code.get, Code.post]

theorem route_asks_iff {req : Message} {session : DeviceSession}
    {method : Method} {leaf : String} :
    (route req session).asks = some (method, leaf) ↔
      Admitted req session method leaf := by
  constructor
  · intro hasks
    unfold route at hasks
    split_ifs at hasks with hrequest hunknown
    · cases hasks
    · cases hasks
    · rw [Bool.not_eq_true, Option.isSome_eq_false_iff,
        Option.isNone_iff_eq_none] at hunknown
      split at hasks
      · rename_i segDevice segPigeons pigeonId last hpath
        split_ifs at hasks with hroot hpigeon
        · cases hasks
        · cases hasks
        · rw [not_or, not_not, not_not] at hroot
          rw [not_not] at hpigeon
          obtain ⟨rfl, hserved⟩ := routeLeaf_asks_iff.mp hasks
          rw [hroot.1, hroot.2, hpigeon] at hpath
          exact ⟨unknownCriticalOption_eq_none.mp hunknown, hpath, hserved⟩
      · cases hasks
  · intro hadmitted
    have hrequest := hadmitted.served.isRequest
    have hunknown := unknownCriticalOption_eq_none.mpr hadmitted.understood
    have hleaf := routeLeaf_asks_iff.mpr ⟨rfl, hadmitted.served⟩
    simpa [route, hrequest, hunknown, hadmitted.path] using hleaf

theorem UploadLeaf.name_injective {leaf leaf' : UploadLeaf}
    (hname : leaf.name = leaf'.name) : leaf = leaf' := by
  cases leaf <;> cases leaf' <;> first | rfl | exact absurd hname (by decide)

theorem Route.eq_of_asks {target found : Route} {asked : Method × String}
    (htarget : target.asks = some asked) (hfound : found.asks = some asked) :
    found = target := by
  cases target with
  | refused reply => cases htarget
  | getShadow =>
      cases htarget
      cases found with
      | getShadow => rfl
      | _ => simp [Route.asks] at hfound
  | getFirmware =>
      cases htarget
      cases found with
      | getFirmware => rfl
      | _ => simp [Route.asks] at hfound
  | post leaf =>
      cases htarget
      cases found with
      | post leaf' =>
          simp only [Route.asks, Option.some.injEq, Prod.mk.injEq] at hfound
          rw [UploadLeaf.name_injective hfound.2]
      | _ => simp [Route.asks] at hfound

theorem route_eq {req : Message} {session : DeviceSession} {method : Method}
    {leaf : String} {target : Route}
    (hadmitted : Admitted req session method leaf)
    (htarget : target.asks = some (method, leaf)) :
    route req session = target :=
  Route.eq_of_asks htarget (route_asks_iff.mpr hadmitted)

theorem Served.get {code : UInt8} {leaf : String}
    (hserved : Served code .get leaf) : code = Code.get := by
  cases hserved <;> rfl

theorem dispatch_asks {h : Handler} {now : Instant} {req : Message}
    {session : DeviceSession} {transport : Transport} {map : Block1Table}
    {call : DeviceRequest}
    (hcall : (h.dispatch now req session transport map).1.upstream =
      some call) :
    (route req session).asks = some (call.method, call.leaf) ∧
      call.pigeonId = session.pigeonId ∧ call.bearer = session.token := by
  cases hroute : route req session with
  | refused reply => simp [dispatch, hroute, Action.upstream] at hcall
  | getShadow =>
      rw [dispatch, hroute] at hcall
      cases hcall
      exact ⟨rfl, rfl, rfl⟩
  | getFirmware =>
      rw [dispatch, hroute] at hcall
      cases hcall
      exact ⟨rfl, rfl, rfl⟩
  | post leaf =>
      obtain ⟨body, -, rfl⟩ := dispatch_post_upstream hroute hcall
      exact ⟨rfl, rfl, rfl⟩

theorem dispatch_refused (h : Handler) (now : Instant) {req : Message}
    {session : DeviceSession} (transport : Transport) (map : Block1Table)
    (hasks : (route req session).asks = none) :
    (h.dispatch now req session transport map).1.upstream = none ∧
      (h.dispatch now req session transport map).2 = map := by
  unfold dispatch
  cases hroute : route req session with
  | refused reply => exact ⟨rfl, rfl⟩
  | getShadow => simp [hroute, Route.asks] at hasks
  | post leaf => simp [hroute, Route.asks] at hasks
  | getFirmware => simp [hroute, Route.asks] at hasks

theorem acts_only_as_itself (h : Handler)
    (upstream : DeviceRequest → UpstreamResult) (now : Instant) (req : Message)
    (session : DeviceSession) (transport : Transport) (map : Block1Table) :
    let served := h.handle upstream now req session transport map
    served.1.length ≤ 1 ∧
      (∀ call ∈ served.1, Admitted req session call.method call.leaf ∧
        call.pigeonId = session.pigeonId ∧ call.bearer = session.token) ∧
      ((∀ method leaf, ¬ Admitted req session method leaf) →
        served.1 = [] ∧ served.2.2 = sweepBlock1 now map) := by
  rw [handle_eq]
  simp only [outcome_fst]
  refine ⟨Option.length_toList_le, ?_, ?_⟩
  · intro call hmem
    obtain ⟨hasks, hsession⟩ := dispatch_asks (Option.mem_toList.mp hmem)
    exact ⟨route_asks_iff.mp hasks, hsession⟩
  · intro hnever
    have hasks : (route req session).asks = none := by
      rw [Option.eq_none_iff_forall_not_mem]
      intro asked hasked
      exact hnever asked.1 asked.2 (route_asks_iff.mp hasked)
    have hrefused :=
      h.dispatch_refused now transport (sweepBlock1 now map) hasks
    rw [hrefused.1]
    exact ⟨rfl, hrefused.2⟩

end Handler

end Loft
