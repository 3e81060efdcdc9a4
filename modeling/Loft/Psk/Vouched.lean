import Loft.Psk.Answers

namespace Loft.Psk

open Loft.Data

/-! What a call has returned stays documented. -/

variable {r : PskResolver} {s s' : State} {action : Action}

theorem setPhase_getElem? {c : Nat} {call : Call} {phase : Phase} {c' : Nat}
    {call' : Call} (h : (s.setPhase c call phase).calls[c']? = some call') :
    c' = c ∧ call' = { call with phase := phase } ∨
      s.calls[c']? = some call' := by
  by_cases hsame : c' = c
  · subst hsame
    left
    have hlt : c' < s.calls.length := by
      obtain ⟨hlt, -⟩ := List.getElem?_eq_some_iff.mp h
      simpa [State.setPhase] using hlt
    rw [State.setPhase, List.getElem?_set_self hlt, Option.some.injEq] at h
    exact ⟨rfl, h.symm⟩
  · right
    rwa [State.setPhase, List.getElem?_set_ne (Ne.symm hsame)] at h

theorem Returns.of_setPhase {c : Nat} {call call' : Call} {phase : Phase}
    {own : Option Lookup} {result : Option PskEntry} {c' : Nat}
    (hfound : s.calls[c]? = some call) (hopen : call.phase.hasReturned = false)
    (hcalls : s'.calls = (s.setPhase c call phase).calls)
    (hcall' : s'.calls[c']? = some call')
    (hphase : call'.phase = .returned own result) :
    s.calls[c']? = some call' ∨
      ∃ earlier, Returns s s' c' earlier own result ∧
        call' = { earlier with phase := .returned own result } := by
  have hset := hcall'
  rw [hcalls] at hset
  rcases setPhase_getElem? hset with ⟨rfl, rfl⟩ | hsame
  · right
    have hreturned : phase = .returned own result := hphase
    subst hreturned
    exact ⟨call, ⟨hfound, hopen, hcall'⟩, rfl⟩
  · exact .inl hsame

/-- A call that has returned had done so before, or returns in this step. -/
theorem Stepped.returned (h : Stepped r s action s') {c : Nat} {call : Call}
    {own : Option Lookup} {result : Option PskEntry}
    (hcall : s'.calls[c]? = some call)
    (hphase : call.phase = .returned own result) :
    s.calls[c]? = some call ∨
      ∃ earlier, Returns s s' c earlier own result ∧
        call = { earlier with phase := .returned own result } := by
  cases h with
  | entered =>
      left
      rcases Nat.lt_or_ge c s.calls.length with hlt | hge
      · rwa [List.getElem?_append_left hlt] at hcall
      · rw [List.getElem?_append_right hge, List.getElem?_singleton] at hcall
        split_ifs at hcall
        cases hcall
        cases hphase
  | ticked => exact .inl hcall
  | hit hfound hentered =>
      exact Returns.of_setPhase hfound (by rw [hentered]; rfl) rfl hcall hphase
  | missed hfound hentered =>
      exact Returns.of_setPhase hfound (by rw [hentered]; rfl) rfl hcall hphase
  | fetched hfound hfetching =>
      exact Returns.of_setPhase hfound (by rw [hfetching]; rfl) rfl hcall hphase
  | settled hfound hfetched =>
      exact Returns.of_setPhase hfound (by rw [hfetched]; rfl) rfl hcall hphase

theorem Stepped.keeps_returned (h : Stepped r s action s') {c : Nat}
    {call : Call} (hcall : s.calls[c]? = some call)
    (hreturned : call.phase.hasReturned = true) : s'.calls[c]? = some call := by
  have hother : ∀ c' call' phase, s.calls[c']? = some call' →
      call'.phase.hasReturned = false →
      (s.setPhase c' call' phase).calls[c]? = some call := by
    intro c' call' phase hfound hopen
    have hne : c' ≠ c := by
      rintro rfl
      rw [hcall, Option.some.injEq] at hfound
      subst hfound
      rw [hreturned] at hopen
      cases hopen
    rwa [State.setPhase, List.getElem?_set_ne hne]
  cases h with
  | entered =>
      obtain ⟨hlt, -⟩ := List.getElem?_eq_some_iff.mp hcall
      rwa [List.getElem?_append_left hlt]
  | ticked => exact hcall
  | hit hfound hentered => exact hother _ _ _ hfound (by rw [hentered]; rfl)
  | missed hfound hentered => exact hother _ _ _ hfound (by rw [hentered]; rfl)
  | fetched hfound hfetching =>
      exact hother _ _ _ hfound (by rw [hfetching]; rfl)
  | settled hfound hfetched =>
      exact hother _ _ _ hfound (by rw [hfetched]; rfl)

theorem Documented.step {call : Call} {entry : PskEntry} {own : Option Lookup}
    (hdoc : Documented r s call entry own) (h : Stepped r s action s') :
    Documented r s' call entry own := by
  cases hdoc with
  | own => exact .own
  | fresh hearlier hidentity hown hage =>
      obtain ⟨later, hlater, hgrows⟩ := h.grows hearlier
      refine .fresh hlater (hgrows.identity.trans hidentity)
        (hgrows.own _ hown) ?_
      rwa [hgrows.now]
  | stale hearlier hidentity hown hage =>
      obtain ⟨later, hlater, hgrows⟩ := h.grows hearlier
      refine .stale hlater (hgrows.identity.trans hidentity)
        (hgrows.own _ hown) ?_
      rwa [hgrows.now]

theorem Documented.of_phase {call : Call} {entry : PskEntry}
    {own : Option Lookup} (phase : Phase)
    (hdoc : Documented r s call entry own) :
    Documented r s { call with phase := phase } entry own := by
  cases hdoc with
  | own => exact .own
  | fresh hearlier hidentity hown hage =>
      exact .fresh hearlier hidentity hown hage
  | stale hearlier hidentity hown hage =>
      exact .stale hearlier hidentity hown hage

/-- Whatever credentials a call has returned, the source answered them. -/
structure Vouched (r : PskResolver) (s : State) : Prop where
  logged : Logged s
  returned : ∀ (c : Nat) (call : Call) own entry, s.calls[c]? = some call →
    call.phase = .returned own (some entry) → Documented r s call entry own

theorem init_vouched : Vouched r init where
  logged := init_logged
  returned := nofun

theorem Vouched.step (hs : Vouched r s) (h : Stepped r s action s') :
    Vouched r s' where
  logged := hs.logged.step h
  returned := by
    intro c call own entry hcall hphase
    rcases h.returned hcall hphase with hbefore | ⟨earlier, hreturns, rfl⟩
    · exact (hs.returned c call own entry hbefore hphase).step h
    · exact ((hs.logged.documented h hreturns).of_phase _).step h

end Loft.Psk
