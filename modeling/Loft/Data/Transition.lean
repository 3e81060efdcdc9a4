import Mathlib.Data.List.Induction

namespace Loft.Data.Transition

/-! Systems that take one action at a time: `step` is the whole system, and an
action that is not enabled is `none`. -/

variable {State Action : Type} (step : State → Action → Option State)

def run : State → List Action → Option State
  | s, [] => some s
  | s, action :: actions => (step s action).bind fun s' => run s' actions

@[simp] theorem run_nil (s : State) : run step s [] = some s :=
  rfl

theorem run_cons_eq_some {s s'' : State} {action : Action}
    {actions : List Action} :
    run step s (action :: actions) = some s'' ↔
      ∃ s', step s action = some s' ∧ run step s' actions = some s'' :=
  Option.bind_eq_some_iff

theorem run_append (s : State) (front back : List Action) :
    run step s (front ++ back) =
      (run step s front).bind fun s' => run step s' back := by
  induction front generalizing s with
  | nil => rfl
  | cons action front ih =>
      rw [List.cons_append, run, run, Option.bind_assoc]
      exact congrArg _ (funext fun s' => ih s')

theorem run_append_eq_some {s s'' : State} {front back : List Action} :
    run step s (front ++ back) = some s'' ↔
      ∃ s', run step s front = some s' ∧ run step s' back = some s'' := by
  rw [run_append]
  exact Option.bind_eq_some_iff

theorem run_concat_eq_some {s s'' : State} {actions : List Action}
    {action : Action} :
    run step s (actions ++ [action]) = some s'' ↔
      ∃ s', run step s actions = some s' ∧ step s' action = some s'' := by
  rw [run_append_eq_some]
  simp [run]

/-- Every action of the run is taken where `Guard` allows it. -/
def Along (Guard : State → Action → Prop) : State → List Action → Prop
  | _, [] => True
  | s, action :: actions =>
      Guard s action ∧
        ∀ s', step s action = some s' → Along Guard s' actions

instance decidableAlong (Guard : State → Action → Prop)
    [∀ s action, Decidable (Guard s action)] :
    ∀ s actions, Decidable (Along step Guard s actions)
  | _, [] => isTrue trivial
  | s, action :: actions =>
      match hstep : step s action with
      | none => decidable_of_iff (Guard s action) (by simp [Along, hstep])
      | some s' =>
          have := decidableAlong Guard s' actions
          decidable_of_iff (Guard s action ∧ Along step Guard s' actions)
            (by simp [Along, hstep])

/-- What every allowed action preserves holds throughout. -/
theorem run_invariant_along {Inv : State → Prop}
    {Guard : State → Action → Prop}
    (hstep : ∀ s action s', Inv s → Guard s action →
      step s action = some s' → Inv s')
    {s s' : State} {actions : List Action} (hinit : Inv s)
    (hguard : Along step Guard s actions)
    (hrun : run step s actions = some s') : Inv s' := by
  induction actions generalizing s with
  | nil =>
      cases hrun
      exact hinit
  | cons action actions ih =>
      obtain ⟨mid, hfirst, hrest⟩ := (run_cons_eq_some step).mp hrun
      obtain ⟨hhere, hlater⟩ := hguard
      exact ih (hstep s action mid hinit hhere hfirst) (hlater mid hfirst) hrest

theorem run_invariant {Inv : State → Prop}
    (hstep : ∀ s action s', Inv s → step s action = some s' → Inv s')
    {s s' : State} {actions : List Action} (hinit : Inv s)
    (hrun : run step s actions = some s') : Inv s' := by
  induction actions generalizing s with
  | nil =>
      cases hrun
      exact hinit
  | cons action actions ih =>
      obtain ⟨mid, hfirst, hrest⟩ := (run_cons_eq_some step).mp hrun
      exact ih (hstep s action mid hinit hfirst) hrest

/-- What the actions of one kind preserve holds as long as they are alone. -/
theorem run_invariant_of_mem {Inv : State → Prop} {Good : Action → Prop}
    (hstep : ∀ s action s', Inv s → Good action →
      step s action = some s' → Inv s')
    {s s' : State} {actions : List Action} (hinit : Inv s)
    (hgood : ∀ action ∈ actions, Good action)
    (hrun : run step s actions = some s') : Inv s' := by
  induction actions generalizing s with
  | nil =>
      cases hrun
      exact hinit
  | cons action actions ih =>
      obtain ⟨mid, hfirst, hrest⟩ := (run_cons_eq_some step).mp hrun
      have hmid := hstep s action mid hinit (hgood action List.mem_cons_self)
        hfirst
      exact ih hmid (fun a hmem => hgood a (List.mem_cons_of_mem action hmem))
        hrest

/-- A stretch in which every call is possible, and takes `least` off the size
unless it ends the stretch, is over after enough calls, whatever they are. -/
theorem exists_run_leaves {Call : Type} {In : State → Prop}
    {size : State → Nat} {least : Nat} (act : Call → Action)
    (hstep : ∀ s call, In s → ∃ s', step s (act call) = some s' ∧
      (In s' → size s' + least ≤ size s))
    {s : State} {calls : List Call} (hin : In s)
    (hlong : size s < least * calls.length) :
    ∃ n ≤ calls.length, ∃ s',
      run step s ((calls.take n).map act) = some s' ∧ ¬ In s' := by
  induction calls generalizing s with
  | nil => exact absurd hlong (Nat.not_lt_zero _)
  | cons call calls ih =>
      obtain ⟨mid, hmid, hsize⟩ := hstep s call hin
      by_cases hstay : In mid
      · have hless := hsize hstay
        rw [List.length_cons, Nat.mul_succ] at hlong
        obtain ⟨n, hn, s', hrun, hout⟩ := ih hstay (by omega)
        refine ⟨n + 1, Nat.succ_le_succ hn, s', ?_, hout⟩
        exact (run_cons_eq_some step).mpr ⟨mid, hmid, hrun⟩
      · refine ⟨1, Nat.le_add_left .., mid, ?_, hstay⟩
        exact (run_cons_eq_some step).mpr ⟨mid, hmid, rfl⟩

/-- Where an invariant justifies them, the steps of a run are all as wanted. -/
theorem Along.mono {Inv : State → Prop} {Guard Good : State → Action → Prop}
    (hstep : ∀ s action s', Inv s → Guard s action →
      step s action = some s' → Inv s')
    (hgood : ∀ s action, Inv s → Guard s action → Good s action)
    {s : State} {actions : List Action} (hinit : Inv s)
    (hguard : Along step Guard s actions) : Along step Good s actions := by
  induction actions generalizing s with
  | nil => trivial
  | cons action actions ih =>
      obtain ⟨hhere, hlater⟩ := hguard
      refine ⟨hgood s action hinit hhere, fun s' hs' => ?_⟩
      exact ih (hstep s action s' hinit hhere hs') (hlater s' hs')

theorem along_congr {Guard Good : State → Action → Prop}
    (hsame : ∀ s action, Guard s action ↔ Good s action) {s : State}
    {actions : List Action} :
    Along step Guard s actions ↔ Along step Good s actions := by
  have heq : Guard = Good := by
    funext s action
    exact propext (hsame s action)
  rw [heq]

theorem along_congr_inv {Inv : State → Prop}
    {Guard Good : State → Action → Prop}
    (hinv : ∀ s action s', Inv s → step s action = some s' → Inv s')
    (hsame : ∀ s action, Inv s → (Guard s action ↔ Good s action)) {s : State}
    {actions : List Action} (hinit : Inv s) :
    Along step Guard s actions ↔ Along step Good s actions := by
  constructor
  · intro hguard
    exact hguard.mono step (fun s action s' hs _ => hinv s action s' hs)
      (fun s action hs => (hsame s action hs).mp) hinit
  · intro hgood
    exact hgood.mono step (fun s action s' hs _ => hinv s action s' hs)
      (fun s action hs => (hsame s action hs).mpr) hinit

theorem along_concat {Guard : State → Action → Prop} {s : State}
    {actions : List Action} {action : Action} :
    Along step Guard s (actions ++ [action]) ↔
      Along step Guard s actions ∧
        ∀ s', run step s actions = some s' → Guard s' action := by
  induction actions generalizing s with
  | nil => simp [Along]
  | cons first actions ih =>
      constructor
      · intro hboth
        obtain ⟨hfirst, hrest⟩ := hboth
        refine ⟨⟨hfirst, fun s' hs' => (ih.mp (hrest s' hs')).1⟩, ?_⟩
        intro s'' hrun
        obtain ⟨s', hs', hrun'⟩ := (run_cons_eq_some step).mp hrun
        exact (ih.mp (hrest s' hs')).2 s'' hrun'
      · intro hboth
        obtain ⟨⟨hfirst, hrest⟩, hlast⟩ := hboth
        refine ⟨hfirst, fun s' hs' => ih.mpr ⟨hrest s' hs', ?_⟩⟩
        intro s'' hrun
        exact hlast s'' ((run_cons_eq_some step).mpr ⟨s', hs', hrun⟩)

end Loft.Data.Transition
