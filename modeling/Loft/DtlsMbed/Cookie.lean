import Loft.DtlsMbed.Steps

namespace Loft.DtlsMbed

open Loft.Data
open Loft.Data.Transition
open Loft.MbedtlsShim

/-! Whose cookie a promotion rests on. The flag is shared by every session of
the config, so within one attempt it is set by the attempt's own check or by a
check on a session thread. -/

/-- Every call of `promote` was for a source whose own ClientHello was verified
within the attempt. -/
def OwnPromotions (s : State) : Prop :=
  ∀ p ∈ s.promotions, p.own = true

/-- The source of an attempt that has cleared the flag and not yet taken it,
and whether it has verified a cookie of its own. -/
def Listener.attempt : Listener → Option (SocketAddr × Bool)
  | .stepping peer _ _ own => some (peer, own)
  | .stepped peer _ _ own => some (peer, own)
  | _ => none

/-- A cookie check that succeeds on a session thread. -/
def Action.verifiesElsewhere : Action → Bool
  | .shared _ (.cookieCheck rc) => rc == 0
  | _ => false

/-- No check succeeds on a session thread between the clearing of the flag and
its taking. -/
def UndisturbedAttempt (s : State) (a : Action) : Prop :=
  s.listener.attempt.isSome = true → a.verifiesElsewhere = false

instance (s : State) (a : Action) : Decidable (UndisturbedAttempt s a) :=
  inferInstanceAs (Decidable (_ → _))

/-- The flag speaks of the attempt under way, if there is one. -/
def OwnFlag (cookie : CookieState) : Listener → Prop
  | .stepping _ _ _ own => cookie.verified = true → own = true
  | .stepped _ _ _ own => cookie.verified = true → own = true
  | .taken _ _ _ own => own = true
  | _ => True

theorem cookieCheckTramp_verified (rc : Int) (cookie : CookieState) :
    (cookie.cookieCheckTramp rc).verified = (cookie.verified || rc == 0) := by
  unfold CookieState.cookieCheckTramp
  split_ifs with hrc
  · simp [hrc]
  · simp [hrc]

theorem OwnFlag.checkedElsewhere {s : State} (h : OwnFlag s.cookie s.listener)
    {c : Conn} {rc : Int}
    (hundisturbed : UndisturbedAttempt s (.shared c (.cookieCheck rc))) :
    OwnFlag (s.cookie.cookieCheckTramp rc) s.listener := by
  cases hattempt : s.listener.attempt with
  | none =>
      cases hlistener : s.listener with
      | stepping => simp [hlistener, Listener.attempt] at hattempt
      | stepped => simp [hlistener, Listener.attempt] at hattempt
      | taken => rwa [hlistener] at h
      | _ => trivial
  | some _ =>
      have hfails : rc ≠ 0 :=
        ne_of_beq_false (hundisturbed (by rw [hattempt]; rfl))
      rwa [CookieState.cookieCheckTramp, if_neg hfails]

theorem OwnFlag.step {env : Env} {s s' : State} {a : Action}
    (h : OwnFlag s.cookie s.listener) (hundisturbed : UndisturbedAttempt s a)
    (hstep : Stepped env s a s') : OwnFlag s'.cookie s'.listener := by
  cases hstep with
  | thread hsess hlocal => exact h
  | tick => exact h
  | nextConnId => exact h
  | shared hsess hshared =>
      cases hshared with
      | cookieCheck hpc => exact h.checkedElsewhere hundisturbed
      | _ => exact h
  | listener hlistened =>
      cases hlistened with
      | recvFrom hlistener hrouted =>
          cases hrouted with
          | byCid _ _ _ hsent => cases hsent <;> exact h
          | byAddr _ _ _ hsent => cases hsent <;> exact h
          | unroutable => exact h
          | reapedCid => exact h
          | _ => trivial
      | clear hlistener => exact nofun
      | cookieCheck hlistener =>
          rw [hlistener] at h
          simp only [OwnFlag, cookieCheckTramp_verified,
            Bool.or_eq_true] at h ⊢
          exact Or.imp_left h
      | stepped hlistener =>
          rw [hlistener] at h
          exact h
      | taken hlistener hverified =>
          rw [hlistener] at h
          exact h hverified
      | spawn hlistener hsess =>
          rename_i spawned
          cases spawned <;> trivial
      | _ => trivial

/-- What is promoted on a flag that is its own keeps all promotions so. -/
theorem OwnPromotions.step {env : Env} {s s' : State} {a : Action}
    (hown : OwnPromotions s) (h : OwnFlag s.cookie s.listener)
    (hstep : Stepped env s a s') : OwnPromotions s' := by
  cases hstep with
  | thread hsess hlocal => exact hown
  | tick => exact hown
  | nextConnId => exact hown
  | shared hsess hshared => cases hshared <;> exact hown
  | listener hlistened =>
      cases hlistened with
      | recvFrom hlistener hrouted =>
          cases hrouted with
          | byCid _ _ _ hsent => cases hsent <;> exact hown
          | byAddr _ _ _ hsent => cases hsent <;> exact hown
          | _ => exact hown
      | admitted hlistener hquota =>
          rw [hlistener] at h
          intro p hp
          rcases List.mem_append.mp hp with hbefore | hnew
          · exact hown p hbefore
          · rw [List.mem_singleton.mp hnew]
            exact h
      | spawn hlistener hsess =>
          rename_i spawned
          cases spawned <;> exact hown
      | _ => exact hown

/-! What a check on a session thread does to an attempt of another. -/

/-- The rest of an attempt whose step returns without having been fed more. -/
def attemptRest : Listener → List Action
  | .stepping _ _ _ _ =>
      [.listener (.handshakeReturns Codes.errSslWantRead),
        .listener .takeCookieVerified, .listener .tryAcquire]
  | _ => [.listener .takeCookieVerified, .listener .tryAcquire]

/-- On a flag that is set, the listener promotes the source it is at. -/
theorem promoted_unverified {env : Env} {s : State} {peer : SocketAddr}
    (hattempt : s.listener.attempt = some (peer, false))
    (hverified : s.cookie.verified = true)
    (hquota : (s.quota.tryAcquire peer.ip).isSome = true) :
    ∃ s', run (step env) s (attemptRest s.listener) = some s' ∧
      ¬ OwnPromotions s' := by
  obtain ⟨⟨permit, quota⟩, hacquired⟩ := Option.isSome_iff_exists.mp hquota
  have hforeign : ∀ s' : State,
      s'.promotions = s.promotions ++ [⟨peer, false⟩] → ¬ OwnPromotions s' := by
    intro s' hpromotions hown
    have hfalse := hown ⟨peer, false⟩ (by simp [hpromotions])
    cases hfalse
  have hstatus : handshakeStatus Codes.errSslWantRead = .wantRead := rfl
  cases hlistener : s.listener with
  | stepping peer' dgram cid own =>
      rw [hlistener] at hattempt
      cases hattempt
      simp only [attemptRest, run, step, listenerStep, hlistener, hstatus,
        Option.bind_some, CookieState.takeCookieVerified, hverified, if_true,
        hacquired, Option.some.injEq, exists_eq_left']
      exact hforeign _ rfl
  | stepped peer' dgram cid own =>
      rw [hlistener] at hattempt
      cases hattempt
      simp only [attemptRest, run, step, listenerStep, hlistener,
        Option.bind_some, CookieState.takeCookieVerified, hverified, if_true,
        hacquired, Option.some.injEq, exists_eq_left']
      exact hforeign _ rfl
  | _ => simp [hlistener, Listener.attempt] at hattempt

/-- In a run whose attempts are all undisturbed, every promotion rests on the
source's own cookie. An attempt that is disturbed before it has verified a
cookie of its own needs nothing more to end in a promotion that does not. -/
theorem own_promotions_of_undisturbed (env : Env) (quota : ConnQuota)
    (actions : List Action) (s : State)
    (hrun : run (step env) (init quota) actions = some s) :
    (Along (step env) UndisturbedAttempt (init quota) actions →
      OwnPromotions s) ∧
    ∀ c s' peer, step env s (.shared c (.cookieCheck 0)) = some s' →
      s.listener.attempt = some (peer, false) →
      (s.quota.tryAcquire peer.ip).isSome = true →
      ∃ s'', run (step env) s' (attemptRest s.listener) = some s'' ∧
        ¬ OwnPromotions s'' := by
  constructor
  · intro hundisturbed
    have hinit : OwnFlag (init quota).cookie (init quota).listener ∧
        OwnPromotions (init quota) := by
      exact ⟨trivial, by simp [OwnPromotions, init]⟩
    have hend := run_invariant_along (step env)
      (fun s a s' (hs : OwnFlag s.cookie s.listener ∧ OwnPromotions s) hguard
          hstep =>
        ⟨hs.1.step hguard (step_stepped hstep),
          hs.2.step hs.1 (step_stepped hstep)⟩) hinit hundisturbed hrun
    exact hend.2
  · intro c s' peer hcheck hattempt hquota
    obtain ⟨sess, hsess, hshared⟩ := Option.bind_eq_some_iff.mp hcheck
    cases sharedStep_shared hshared with
    | cookieCheck hpc =>
        exact promoted_unverified hattempt rfl hquota

/-- A repeated ClientHello of `clientA` is still queued on its session. -/
def repeatedHello : List Action :=
  admission clientA cidOne ++ lastFlight 1 clientA ++
    .listener (.recvFrom clientA (handshakeRecord 1)) :: startServing 1 true

def checkedOnSession : List Action :=
  [.thread 1 .callRead, .thread 1 (.recv 1500 false),
    .shared 1 (.cookieCheck 0)]

/-- The session reads it, and then `clientB` comes with a cookie. -/
def checkedBetween : List Action :=
  repeatedHello ++ checkedOnSession ++ admission clientB cidTwo

theorem own_promotions_of_undisturbed_checkedBetween :
    ∃ s, run (step directEnv) (init limits) checkedBetween = some s ∧
      s.promotions = [⟨clientA, true⟩, ⟨clientB, true⟩] ∧
      Along (step directEnv) UndisturbedAttempt (init limits) checkedBetween ∧
      OwnPromotions s := by
  have hend : (run (step directEnv) (init limits) checkedBetween).map
      State.promotions = some [⟨clientA, true⟩, ⟨clientB, true⟩] := by
    decide +kernel
  have hundisturbed : Along (step directEnv) UndisturbedAttempt (init limits)
      checkedBetween := by decide +kernel
  obtain ⟨s, hrun, hpromotions⟩ := Option.map_eq_some_iff.mp hend
  exact ⟨s, hrun, hpromotions, hundisturbed,
    (own_promotions_of_undisturbed directEnv limits checkedBetween s
      hrun).1 hundisturbed⟩

/-- The session reads it while the listener steps on garbage from `clientB`. -/
def checkedElsewhere : List Action :=
  repeatedHello ++ [.listener (.recvFrom clientB [0]),
      .listener (.begin cidTwo), .listener .clearCookieVerified] ++
    checkedOnSession ++
    [.listener (.handshakeReturns Codes.errSslWantRead),
      .listener .takeCookieVerified, .listener .tryAcquire,
      .listener .insertHandles, .listener (.spawn true)]

theorem foreign_cookie_promotes :
    ∃ s, run (step directEnv) (init limits) checkedElsewhere = some s ∧
      s.promotions = [⟨clientA, true⟩, ⟨clientB, false⟩] ∧
      s.byAddr.lookup clientB = some 2 ∧ ¬ OwnPromotions s := by
  have hend : (run (step directEnv) (init limits) checkedElsewhere).map
      (fun s => (s.promotions, s.byAddr.lookup clientB)) =
        some ([⟨clientA, true⟩, ⟨clientB, false⟩], some 2) := by
    decide +kernel
  obtain ⟨s, hrun, hpair⟩ := Option.map_eq_some_iff.mp hend
  obtain ⟨hpromotions, hentry⟩ := Prod.mk.inj hpair
  refine ⟨s, hrun, hpromotions, hentry, fun hown => ?_⟩
  have hfalse := hown ⟨clientB, false⟩ (by simp [hpromotions])
  cases hfalse

end Loft.DtlsMbed
