import Loft.Handler.Outcomes

namespace Loft

open Loft.Data
open Loft.Coap

/-! Block options whose value is too long to be a number. -/

namespace Handler

def TooLong (req : Message) (number : UInt16) : Prop :=
  ∃ value, req.firstOption number = some value ∧ 4 < value.length

/-- The block option that the route of the request reads is malformed. -/
inductive MalformedBlock (req : Message) : Prop
  | upload :
      req.code = Code.post → TooLong req OptionNumber.block1 →
      MalformedBlock req
  | download :
      req.code = Code.get → TooLong req OptionNumber.block2 →
      MalformedBlock req

/-- It reads as no option at all. -/
theorem TooLong.optionUint {req : Message} {number : UInt16}
    (h : TooLong req number) : req.optionUint number = none := by
  obtain ⟨value, hfirst, hlong⟩ := h
  rw [Message.optionUint, hfirst]
  exact if_pos hlong

theorem TooLong.block1Of {req : Message}
    (h : TooLong req OptionNumber.block1) : block1Of req = none := by
  rw [Loft.block1Of, h.optionUint]
  rfl

theorem Served.post {code : UInt8} {leaf : String}
    (hserved : Served code .post leaf) : code = Code.post := by
  cases hserved <;> rfl

/-- A request on one of the routes is passed on, whatever is left out of it. -/
theorem MalformedBlock.passedOn {req : Message} (hreq : MalformedBlock req)
    {session : DeviceSession} {method : Method} {leaf : String}
    (hadmitted : Admitted req session method leaf) (h : Handler)
    (now : Instant) (transport : Transport) (map : Block1Table) :
    ∃ request finish, (h.dispatch now req session transport map).1 =
      .call request finish := by
  have hserved := hadmitted.served
  cases method with
  | post =>
      have hblock : Loft.block1Of req = none := by
        cases hreq with
        | upload hcode hlong => exact hlong.block1Of
        | download hcode hlong =>
            rw [hserved.post] at hcode
            exact absurd hcode (by decide)
      obtain ⟨upload, rfl, hroute⟩ := route_post hadmitted
      rw [dispatch_post h now transport map hroute]
      simp only [assembleBody, hblock]
      exact ⟨_, _, rfl⟩
  | get =>
      rcases route_get hadmitted with ⟨-, hroute⟩ | ⟨-, hroute⟩
      · rw [dispatch, hroute]
        exact ⟨_, _, rfl⟩
      · rw [dispatch, hroute]
        exact ⟨_, _, rfl⟩

/-- A malformed block option is never what a request is rejected for: that
only happens to a request that is on none of the routes. -/
theorem malformed_rejected_iff (h : Handler)
    (upstream : DeviceRequest → UpstreamResult) (now : Instant) (req : Message)
    (session : DeviceSession) (transport : Transport) (map : Block1Table)
    (hreq : MalformedBlock req) :
    let served := h.handle upstream now req session transport map
    (served.1 = [] ∧ Code.cls served.2.1.code = 4) ↔
      ∀ method leaf, ¬ Admitted req session method leaf := by
  rw [handle_eq]
  dsimp only
  constructor
  · rintro ⟨hnone, -⟩ method leaf hadmitted
    obtain ⟨request, finish, hcall⟩ :=
      hreq.passedOn hadmitted h now transport (sweepBlock1 now map)
    rw [hcall] at hnone
    cases hnone
  · intro hnever
    cases haction : (h.dispatch now req session transport
        (sweepBlock1 now map)).1 with
    | call request finish =>
        have hcall : (h.dispatch now req session transport
            (sweepBlock1 now map)).1.upstream = some request := by
          rw [haction]
          rfl
        have hasks := (dispatch_asks hcall).1
        exact absurd (route_asks_iff.mp hasks) (hnever _ _)
    | reply msg =>
        have hreplied := dispatch_replied haction
        generalize (h.dispatch now req session transport
          (sweepBlock1 now map)).2 = map' at hreplied
        cases hreplied with
        | refused hrefusal => exact ⟨rfl, hrefusal.cls⟩
        | uploading hadmitted hblock hresult =>
            exact absurd hadmitted (hnever _ _)

/-- Block 0 of an upload, its number written in five bytes. -/
def paddedBlock : Message where
  code := Code.post
  options := ["device", "pigeons", "p", "logs"].map
      (fun segment => (OptionNumber.uriPath, asBytes segment)) ++
    [(OptionNumber.block1, [0, 0, 0, 0, 0x08])]
  payload := [0xAA]

theorem malformed_rejected_iff_paddedBlock :
    (let served := (Handler.mk 6).handle (fun _ => .error "down") 1 paddedBlock
      { logsSession 1 with pigeonId := "q" } .udp ∅
    served.1 = [] ∧ Code.cls served.2.1.code = 4) ↔
      ∀ method leaf, ¬ Admitted paddedBlock
        { logsSession 1 with pigeonId := "q" } method leaf :=
  malformed_rejected_iff (Handler.mk 6) _ 1 paddedBlock _ .udp ∅
    (.upload rfl ⟨[0, 0, 0, 0, 0x08], by decide +kernel, by decide⟩)

/-- One part of an upload is stored as the whole. -/
theorem paddedBlock_forwarded :
    let served := (Handler.mk 6).handle
      (fun _ => .ok { status := 200, body := [] }) 1 paddedBlock
      (logsSession 1) .udp ∅
    MalformedBlock paddedBlock ∧
      served.1 = [upstreamCall (logsSession 1) .post "logs" none
        (some ([0xAA], "application/octet-stream"))] ∧
      served.2.1.code = Code.changed ∧
      ¬ (served.1 = [] ∧ Code.cls served.2.1.code = 4) := by
  refine ⟨.upload rfl ⟨[0, 0, 0, 0, 0x08], by decide +kernel, by decide⟩, ?_⟩
  decide +kernel

end Handler

end Loft
