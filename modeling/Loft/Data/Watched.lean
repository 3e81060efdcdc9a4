import Mathlib.Algebra.GroupWithZero.Nat
import Loft.Data.Transition

namespace Loft.Data.Watched

open Transition

/-! A thread that drives a protocol library over a transport, and looks at the
clock whenever the library gives control back. The library is a parameter: it
asks the transport as often as it likes before it answers a call. -/

structure Wait where
  began : Nat
  lasted : Nat
  deriving DecidableEq, Repr

def total (waits : List Wait) : Nat :=
  (waits.map Wait.lasted).sum

@[simp] theorem total_nil : total [] = 0 :=
  rfl

@[simp] theorem total_cons (wait : Wait) (waits : List Wait) :
    total (wait :: waits) = wait.lasted + total waits :=
  rfl

/-- Those that did not begin before the deadline. -/
def begunAfter (deadline : Nat) (waits : List Wait) : List Wait :=
  waits.filter fun wait => deadline ≤ wait.began

/-- Those that lasted beyond the deadline. -/
def overran (deadline : Nat) (waits : List Wait) : List Wait :=
  waits.filter fun wait =>
    0 < wait.lasted ∧ deadline < wait.began + wait.lasted

/-- One after the other since `start`, the latest first. -/
def Successive (start : Nat) : List Wait → Nat → Prop
  | [], now => start ≤ now
  | wait :: earlier, now =>
      wait.began + wait.lasted ≤ now ∧ Successive start earlier wait.began

namespace Successive

variable {start now : Nat} {waits : List Wait}

theorem mono {later : Nat} (h : Successive start waits now)
    (hle : now ≤ later) : Successive start waits later := by
  cases waits with
  | nil => exact Nat.le_trans h hle
  | cons wait earlier => exact ⟨Nat.le_trans h.1 hle, h.2⟩

theorem total_le (h : Successive start waits now) :
    start + total waits ≤ now := by
  induction waits generalizing now with
  | nil => exact h
  | cons wait earlier ih =>
      have hearlier := ih h.2
      have hlast := h.1
      rw [total_cons]
      omega

theorem ended_le (h : Successive start waits now) :
    ∀ wait ∈ waits, wait.began + wait.lasted ≤ now := by
  induction waits generalizing now with
  | nil => nofun
  | cons last earlier ih =>
      have hlast := h.1
      intro wait hmem
      rcases List.mem_cons.mp hmem with rfl | hearlier
      · exact hlast
      · have hbefore := ih h.2 wait hearlier
        omega

/-- Of successive waits that all begin in time, only one can overrun. -/
theorem length_overran_le {deadline : Nat} (h : Successive start waits now)
    (hbegan : ∀ wait ∈ waits, 0 < wait.lasted → wait.began < deadline) :
    (overran deadline waits).length ≤ 1 := by
  induction waits generalizing now with
  | nil => exact Nat.zero_le _
  | cons last earlier ih =>
      by_cases hover : 0 < last.lasted ∧ deadline < last.began + last.lasted
      · have hnone : overran deadline earlier = [] := by
          apply List.filter_eq_nil_iff.mpr
          intro wait hmem hends
          have hlast := hbegan last List.mem_cons_self hover.1
          have hended := h.2.ended_le wait hmem
          have hlate := (of_decide_eq_true hends).2
          omega
        have hone : overran deadline (last :: earlier) =
            last :: overran deadline earlier :=
          List.filter_cons_of_pos (decide_eq_true hover)
        rw [hone, hnone]
        exact Nat.le_refl _
      · have hsame : overran deadline (last :: earlier) =
            overran deadline earlier :=
          List.filter_cons_of_neg (by rw [decide_eq_true_eq]; exact hover)
        rw [hsame]
        exact ih h.2 fun wait hmem =>
          hbegan wait (List.mem_cons_of_mem last hmem)

theorem total_le_of_ended {bound : Nat} (h : Successive start waits now)
    (hstart : start ≤ bound)
    (hended : ∀ wait ∈ waits, 0 < wait.lasted →
      wait.began + wait.lasted ≤ bound) :
    start + total waits ≤ bound := by
  induction waits generalizing now with
  | nil => exact hstart
  | cons wait earlier ih =>
      rw [total_cons]
      rcases Nat.eq_zero_or_pos wait.lasted with hnone | hpos
      · have hearlier := ih h.2 fun other hmem =>
          hended other (List.mem_cons_of_mem _ hmem)
        omega
      · have hlast := hended wait List.mem_cons_self hpos
        have hearlier := h.2.total_le
        omega

end Successive

/-! The transport, and what the code expects of it. -/

structure Transport (Io Setting Request Result : Type) where
  /-- How long it has waited, what it says, and what is left of it. -/
  attempt : Io → Nat → Request → Nat × Result × Io
  configure : Io → Nat → Setting → Io
  deadline : Io → Option Nat
  refuses : Result → Prop
  silent : Result → Prop

variable {Io Setting Request Result Return : Type}

namespace Transport

variable (t : Transport Io Setting Request Result)

/-- A wait lasts for a tick at most, and is over by the deadline or, if that is
all the transport can promise, a little later. -/
structure Lawful (tick overrun : Nat) : Prop where
  bounded (io : Io) (now : Nat) (request : Request) :
    (t.attempt io now request).1 ≤ tick
  ended {io : Io} {now deadline : Nat} (request : Request) :
    t.deadline io = some deadline → now < deadline →
      now + (t.attempt io now request).1 ≤ deadline + overrun
  refused {io : Io} {now deadline : Nat} (request : Request) :
    t.deadline io = some deadline → deadline ≤ now →
      (t.attempt io now request).1 = 0 ∧
        t.refuses (t.attempt io now request).2.1
  deadline_attempt (io : Io) (now : Nat) (request : Request) :
    t.deadline (t.attempt io now request).2.2 = t.deadline io
  deadline_configure (io : Io) (now : Nat) (setting : Setting) :
    t.deadline (t.configure io now setting) = t.deadline io

end Transport

inductive Event (Result Return : Type)
  | called
  | got (result : Result)
  | returned (ret : Return)
  deriving DecidableEq, Repr

inductive Move (Return : Type)
  | ask
  | answer (ret : Return)
  deriving DecidableEq, Repr

inductive Verdict
  | progress
  | again
  | failure
  deriving DecidableEq, Repr

/-- `limit` bounds the time since the mark. A call that has made progress ends
the loop, or moves the mark where the loop is one that `serves`. -/
structure Loop (Io Setting Request Result Return : Type) where
  transport : Transport Io Setting Request Result
  lib : List (Event Result Return) → Move Return → Bool
  judge : Return → Verdict
  limit : Nat
  serves : Bool

inductive Phase
  | ready
  | inCall
  | complete
  | over
  deriving DecidableEq, Repr

def Phase.running : Phase → Bool
  | .ready | .inCall => true
  | .complete | .over => false

/-- `waits` are those for the peer, the latest first; `spent` is the time in
which the thread or the library was at work itself. -/
structure State (Io Result Return : Type) where
  io : Io
  now : Nat
  mark : Nat
  phase : Phase
  transcript : List (Event Result Return)
  waits : List Wait
  spent : Nat

def State.log (s : State Io Result Return) (event : Event Result Return) :
    State Io Result Return :=
  { s with transcript := s.transcript ++ [event] }

def start (io : Io) (now mark : Nat) : State Io Result Return where
  io := io
  now := now
  mark := mark
  phase := .ready
  transcript := []
  waits := []
  spent := 0

inductive Action (Setting Request Return : Type)
  | elapse (time : Nat)
  | configure (setting : Setting)
  | call
  | ask (request : Request)
  | answer (ret : Return)

namespace Loop

variable (l : Loop Io Setting Request Result Return)

def asked (s : State Io Result Return) (request : Request) :
    State Io Result Return :=
  let (waited, result, io) := l.transport.attempt s.io s.now request
  { s.log (.got result) with
    io := io
    now := s.now + waited
    waits := ⟨s.now, waited⟩ :: s.waits }

def returns (s : State Io Result Return) (ret : Return) :
    State Io Result Return :=
  match l.judge ret with
  | .progress =>
      if l.serves then
        { s.log (.returned ret) with phase := .ready, mark := s.now }
      else { s.log (.returned ret) with phase := .complete }
  | .again =>
      if l.limit < s.now - s.mark then
        { s.log (.returned ret) with phase := .over }
      else { s.log (.returned ret) with phase := .ready }
  | .failure => { s.log (.returned ret) with phase := .over }

def step (s : State Io Result Return) :
    Action Setting Request Return → Option (State Io Result Return)
  | .elapse time =>
      if s.phase.running then
        some { s with now := s.now + time, spent := s.spent + time }
      else none
  | .configure setting =>
      some { s with io := l.transport.configure s.io s.now setting }
  | .call =>
      if s.phase = .ready then
        some { s.log .called with phase := .inCall }
      else none
  | .ask request =>
      if s.phase = .inCall ∧ l.lib s.transcript .ask then
        some (l.asked s request)
      else none
  | .answer ret =>
      if s.phase = .inCall ∧ l.lib s.transcript (.answer ret) then
        some (l.returns s ret)
      else none

/-- The library hands on what the transport says: a refusal fails the call, and
silence ends it. -/
structure Surfaces : Prop where
  refusal {t : List (Event Result Return)} {result : Result}
    {move : Move Return} : l.transport.refuses result →
      l.lib (t ++ [.got result]) move →
      ∃ ret, move = .answer ret ∧ l.judge ret = .failure
  silence {t : List (Event Result Return)} {result : Result} :
    l.transport.silent result → ¬ l.lib (t ++ [.got result]) .ask

/-! What holds whatever the library does: the books of the thread's time, and
where its waits lie. -/

structure Booked (origin tick overrun : Nat) (deadline : Option Nat)
    (s : State Io Result Return) : Prop where
  successive : Successive origin s.waits s.now
  clock : s.now = origin + total s.waits + s.spent
  armed : l.transport.deadline s.io = deadline
  bounded : ∀ wait ∈ s.waits, wait.lasted ≤ tick
  ended : ∀ d, deadline = some d → ∀ wait ∈ s.waits, 0 < wait.lasted →
    wait.began < d ∧ wait.began + wait.lasted ≤ d + overrun

variable {l} {tick overrun : Nat}

theorem booked_start {io : Io} {now mark : Nat} :
    l.Booked now tick overrun (l.transport.deadline io)
      (start io now mark : State Io Result Return) where
  successive := Nat.le_refl now
  clock := rfl
  armed := rfl
  bounded := nofun
  ended := nofun

theorem booked_asked (hlaw : l.transport.Lawful tick overrun) {origin : Nat}
    {deadline : Option Nat} {s : State Io Result Return}
    (hs : l.Booked origin tick overrun deadline s) (request : Request) :
    l.Booked origin tick overrun deadline (l.asked s request) where
  successive := ⟨Nat.le_refl _, hs.successive⟩
  clock := by
    have hclock := hs.clock
    simp only [asked, State.log, total_cons]
    omega
  armed := (hlaw.deadline_attempt ..).trans hs.armed
  bounded := by
    intro wait hmem
    rcases List.mem_cons.mp hmem with rfl | hearlier
    · exact hlaw.bounded ..
    · exact hs.bounded wait hearlier
  ended := by
    intro d hd wait hmem hpos
    rcases List.mem_cons.mp hmem with rfl | hearlier
    · have harmed := hs.armed.trans hd
      rcases Nat.lt_or_ge s.now d with hbefore | hlate
      · exact ⟨hbefore, hlaw.ended request harmed hbefore⟩
      · have hrefused := (hlaw.refused request harmed hlate).1
        exact absurd hrefused (Nat.ne_of_gt hpos)
    · exact hs.ended d hd wait hearlier hpos

theorem booked_returns {origin : Nat} {deadline : Option Nat}
    {s : State Io Result Return} (hs : l.Booked origin tick overrun deadline s)
    (ret : Return) : l.Booked origin tick overrun deadline (l.returns s ret) := by
  unfold returns
  split
  · split_ifs <;> exact { hs with }
  · split_ifs <;> exact { hs with }
  · exact { hs with }

theorem booked_step (hlaw : l.transport.Lawful tick overrun) {origin : Nat}
    {deadline : Option Nat} {s s' : State Io Result Return}
    {action : Action Setting Request Return}
    (hs : l.Booked origin tick overrun deadline s)
    (h : l.step s action = some s') :
    l.Booked origin tick overrun deadline s' := by
  cases action with
  | elapse time =>
      simp only [step] at h
      split_ifs at h
      cases h
      exact { hs with
        successive := hs.successive.mono (Nat.le_add_right ..)
        clock := by
          have hclock := hs.clock
          dsimp only
          omega }
  | configure setting =>
      cases h
      exact { hs with
        armed := (hlaw.deadline_configure ..).trans hs.armed }
  | call =>
      simp only [step] at h
      split_ifs at h
      cases h
      exact { hs with }
  | ask request =>
      simp only [step] at h
      split_ifs at h
      cases h
      exact booked_asked hlaw hs request
  | answer ret =>
      simp only [step] at h
      split_ifs at h
      cases h
      exact booked_returns hs ret

theorem booked_run (hlaw : l.transport.Lawful tick overrun)
    {io : Io} {now mark : Nat}
    {actions : List (Action Setting Request Return)}
    {s : State Io Result Return}
    (hrun : run l.step (start io now mark) actions = some s) :
    l.Booked now tick overrun (l.transport.deadline io) s :=
  run_invariant l.step (fun _ _ _ => booked_step hlaw) booked_start hrun

namespace Booked

variable {origin deadline : Nat} {s : State Io Result Return}

/-- However the peer spaces what it sends, the thread waits for it no longer
than to the deadline and the overrun. -/
theorem total_le (hs : l.Booked origin tick overrun (some deadline) s) :
    origin + total s.waits ≤ max origin (deadline + overrun) :=
  hs.successive.total_le_of_ended (Nat.le_max_left ..) fun wait hmem hpos =>
    Nat.le_trans (hs.ended deadline rfl wait hmem hpos).2 (Nat.le_max_right ..)

theorem length_overran_le
    (hs : l.Booked origin tick overrun (some deadline) s) :
    (overran deadline s.waits).length ≤ 1 :=
  hs.successive.length_overran_le fun wait hmem hpos =>
    (hs.ended deadline rfl wait hmem hpos).1

theorem now_le (hs : l.Booked origin tick overrun (some deadline) s) :
    s.now ≤ max origin (deadline + overrun) + s.spent := by
  have hclock := hs.clock
  have htotal := hs.total_le
  omega

end Booked

/-! What holds of a library that hands on what it is told. -/

/-- The transport has been asked once at most since the deadline, and has then
left the library nothing but to fail. -/
def Spared (deadline : Nat) (s : State Io Result Return) : Prop :=
  begunAfter deadline s.waits = [] ∨
    (begunAfter deadline s.waits).length = 1 ∧
      (s.phase.running → s.phase = .inCall ∧
        ∃ t result, s.transcript = t ++ [.got result] ∧
          l.transport.refuses result)

theorem Spared.length_le {deadline : Nat} {s : State Io Result Return}
    (hs : l.Spared deadline s) : (begunAfter deadline s.waits).length ≤ 1 := by
  rcases hs with hnone | ⟨hone, -⟩
  · rw [hnone]
    exact Nat.zero_le _
  · exact Nat.le_of_eq hone

theorem spared_asked (hlaw : l.transport.Lawful tick overrun) {deadline : Nat}
    {s : State Io Result Return}
    (harmed : l.transport.deadline s.io = some deadline)
    (hnone : begunAfter deadline s.waits = []) (hphase : s.phase = .inCall)
    (request : Request) : l.Spared deadline (l.asked s request) := by
  have hwaits : begunAfter deadline (l.asked s request).waits =
      if deadline ≤ s.now then
        [⟨s.now, (l.transport.attempt s.io s.now request).1⟩] else [] := by
    unfold begunAfter at hnone ⊢
    simp only [asked, List.filter_cons, hnone, decide_eq_true_eq]
  by_cases hlate : deadline ≤ s.now
  · right
    rw [hwaits, if_pos hlate]
    refine ⟨rfl, fun _ => ⟨hphase, s.transcript, _, rfl, ?_⟩⟩
    exact (hlaw.refused request harmed hlate).2
  · left
    rw [hwaits, if_neg hlate]

theorem spared_returns {deadline : Nat} {s : State Io Result Return}
    {ret : Return} (hs : l.Spared deadline s)
    (hfail : begunAfter deadline s.waits ≠ [] → l.judge ret = .failure) :
    l.Spared deadline (l.returns s ret) := by
  have hwaits : (l.returns s ret).waits = s.waits := by
    unfold returns
    split
    · split_ifs <;> rfl
    · split_ifs <;> rfl
    · rfl
  rcases hs with hnone | ⟨hone, hrefused⟩
  · left
    rw [hwaits, hnone]
  · right
    rw [hwaits]
    refine ⟨hone, fun hrunning => ?_⟩
    have hsome : begunAfter deadline s.waits ≠ [] := by
      intro hnil
      rw [hnil] at hone
      exact absurd hone (by decide)
    rw [returns, hfail hsome] at hrunning
    exact (Bool.false_ne_true hrunning).elim

theorem spared_step (hlaw : l.transport.Lawful tick overrun) (hlib : l.Surfaces)
    {deadline : Nat} {s s' : State Io Result Return}
    {action : Action Setting Request Return}
    (harmed : l.transport.deadline s.io = some deadline)
    (hs : l.Spared deadline s) (h : l.step s action = some s') :
    l.Spared deadline s' := by
  cases action with
  | elapse time =>
      simp only [step] at h
      split_ifs at h
      cases h
      exact hs
  | configure setting =>
      cases h
      exact hs
  | call =>
      simp only [step] at h
      split_ifs at h with hready
      cases h
      rcases hs with hnone | ⟨_, hrefused⟩
      · exact .inl hnone
      · obtain ⟨hcall, -⟩ := hrefused (by rw [hready]; rfl)
        exact absurd (hready.symm.trans hcall) (by decide)
  | ask request =>
      simp only [step] at h
      split_ifs at h with hask
      cases h
      rcases hs with hnone | ⟨_, hrefused⟩
      · exact spared_asked hlaw harmed hnone hask.1 request
      · obtain ⟨-, t, result, htranscript, hrefuses⟩ :=
          hrefused (by rw [hask.1]; rfl)
        have hmove := hask.2
        rw [htranscript] at hmove
        obtain ⟨ret, hret, -⟩ := hlib.refusal hrefuses hmove
        cases hret
  | answer ret =>
      simp only [step] at h
      split_ifs at h with hanswer
      cases h
      refine spared_returns hs fun hsome => ?_
      rcases hs with hnone | ⟨_, hrefused⟩
      · exact absurd hnone hsome
      · obtain ⟨-, t, result, htranscript, hrefuses⟩ :=
          hrefused (by rw [hanswer.1]; rfl)
        have hmove := hanswer.2
        rw [htranscript] at hmove
        obtain ⟨ret', hret, hfail⟩ := hlib.refusal hrefuses hmove
        cases hret
        exact hfail

theorem spared_run (hlaw : l.transport.Lawful tick overrun) (hlib : l.Surfaces)
    {io : Io} {now mark : Nat} (deadline : Nat)
    (harmed : l.transport.deadline io = some deadline)
    {actions : List (Action Setting Request Return)}
    {s : State Io Result Return}
    (hrun : run l.step (start io now mark) actions = some s) :
    l.Spared deadline s := by
  have hstart : l.Booked now tick overrun (some deadline) (start io now mark) := by
    rw [← harmed]
    exact booked_start
  have hstep : ∀ mid action s',
      l.Booked now tick overrun (some deadline) mid ∧ l.Spared deadline mid →
      l.step mid action = some s' →
      l.Booked now tick overrun (some deadline) s' ∧ l.Spared deadline s' := by
    intro mid action s' hmid h
    exact ⟨booked_step hlaw hmid.1 h,
      spared_step hlaw hlib hmid.1.armed hmid.2 h⟩
  exact (run_invariant l.step hstep ⟨hstart, .inl rfl⟩ hrun).2

/-- What ended the loop: the call failed, or its limit had passed. -/
def Excused (s : State Io Result Return) : Prop :=
  s.phase = .over → ∃ t ret, s.transcript = t ++ [.returned ret] ∧
    (l.judge ret = .failure ∨
      l.judge ret = .again ∧ l.limit < s.now - s.mark)

theorem excused_start {io : Io} {now mark : Nat} :
    l.Excused (start io now mark : State Io Result Return) := by
  intro hover
  cases hover

theorem excused_returns (s : State Io Result Return) (ret : Return) :
    l.Excused (l.returns s ret) := by
  intro hover
  refine ⟨s.transcript, ret, ?_⟩
  unfold returns at hover ⊢
  split at hover
  · split_ifs at hover
  · next hagain =>
      split_ifs at hover ⊢ with hlimit
      exact ⟨rfl, .inr ⟨hagain, hlimit⟩⟩
  · next hfailure => exact ⟨rfl, .inl hfailure⟩

theorem excused_step {s s' : State Io Result Return}
    {action : Action Setting Request Return} (hs : l.Excused s)
    (h : l.step s action = some s') : l.Excused s' := by
  cases action with
  | elapse time =>
      simp only [step] at h
      split_ifs at h with hrunning
      cases h
      intro hover
      have hphase : s.phase = .over := hover
      rw [hphase] at hrunning
      exact (Bool.false_ne_true hrunning).elim
  | configure setting =>
      cases h
      exact hs
  | call =>
      simp only [step] at h
      split_ifs at h
      cases h
      exact nofun
  | ask request =>
      simp only [step] at h
      split_ifs at h with hask
      cases h
      intro hover
      have hphase : s.phase = .over := hover
      exact absurd (hask.1.symm.trans hphase) (by decide)
  | answer ret =>
      simp only [step] at h
      split_ifs at h
      cases h
      exact excused_returns s ret

theorem excused_run {io : Io} {now mark : Nat}
    {actions : List (Action Setting Request Return)}
    {s : State Io Result Return}
    (hrun : run l.step (start io now mark) actions = some s) : l.Excused s :=
  run_invariant l.step (fun _ _ _ => excused_step) excused_start hrun

/-! A peer that has fallen silent: nothing more comes out of the transport, and
no call makes progress. -/

def Quiet (s : State Io Result Return) :
    Action Setting Request Return → Prop
  | .ask request =>
      l.transport.silent (l.transport.attempt s.io s.now request).2.1
  | .answer ret => l.judge ret ≠ .progress
  | _ => True

/-- As long as the loop runs, it is not past its limit by more than a tick, the
time spent at work apart. -/
structure Waning (origin tick : Nat) (mark spent : Nat)
    (s : State Io Result Return) : Prop where
  mark_eq : s.mark = mark
  spent_le : spent ≤ s.spent
  running : s.phase.running →
    s.now ≤ max origin (mark + l.limit) + (s.spent - spent) ∨
      (s.phase = .inCall ∧
        (∃ t result, s.transcript = t ++ [.got result] ∧
          l.transport.silent result) ∧
        s.now ≤ max origin (mark + l.limit) + (s.spent - spent) + tick)

variable {origin mark spent : Nat}

theorem waning_returns {s : State Io Result Return} {ret : Return}
    (hs : l.Waning origin tick mark spent s)
    (hret : l.judge ret ≠ .progress) :
    l.Waning origin tick mark spent (l.returns s ret) := by
  unfold returns
  split
  · next hprogress => exact absurd hprogress hret
  · split_ifs with hlimit
    · exact ⟨hs.mark_eq, hs.spent_le, nofun⟩
    · refine ⟨hs.mark_eq, hs.spent_le, fun _ => .inl ?_⟩
      rw [hs.mark_eq] at hlimit
      simp only [State.log]
      omega
  · exact ⟨hs.mark_eq, hs.spent_le, nofun⟩

theorem waning_step (hlaw : l.transport.Lawful tick overrun) (hlib : l.Surfaces)
    {s s' : State Io Result Return} {action : Action Setting Request Return}
    (hs : l.Waning origin tick mark spent s) (hquiet : l.Quiet s action)
    (h : l.step s action = some s') : l.Waning origin tick mark spent s' := by
  have hspent := hs.spent_le
  cases action with
  | elapse time =>
      simp only [step] at h
      split_ifs at h with hrunning
      cases h
      refine ⟨hs.mark_eq, Nat.le_trans hspent (Nat.le_add_right ..), ?_⟩
      intro _
      rcases hs.running hrunning with hhead | ⟨hcall, hsilent, hasked⟩
      · left
        dsimp only
        omega
      · right
        refine ⟨hcall, hsilent, ?_⟩
        dsimp only
        omega
  | configure setting =>
      cases h
      exact { hs with }
  | call =>
      simp only [step] at h
      split_ifs at h with hready
      cases h
      refine ⟨hs.mark_eq, hspent, fun _ => ?_⟩
      rcases hs.running (by rw [hready]; rfl) with hhead | ⟨hcall, -⟩
      · exact .inl hhead
      · exact absurd (hready.symm.trans hcall) (by decide)
  | ask request =>
      simp only [step] at h
      split_ifs at h with hask
      cases h
      refine ⟨hs.mark_eq, hspent, fun _ => ?_⟩
      rcases hs.running (by rw [hask.1]; rfl) with hhead | ⟨-, hsilent, -⟩
      · right
        refine ⟨hask.1, ⟨s.transcript, _, rfl, hquiet⟩, ?_⟩
        have hwait := hlaw.bounded s.io s.now request
        change s.now + (l.transport.attempt s.io s.now request).1 ≤ _ +
          (s.spent - spent) + tick
        omega
      · obtain ⟨t, result, htranscript, hsilent⟩ := hsilent
        have hmove := hask.2
        rw [htranscript] at hmove
        exact absurd hmove (hlib.silence hsilent)
  | answer ret =>
      simp only [step] at h
      split_ifs at h
      cases h
      exact waning_returns hs hquiet

/-- Silence is not borne for longer than the limit allows, whatever point the
loop is at when it sets in. -/
theorem now_le_of_quiet (hlaw : l.transport.Lawful tick overrun)
    (hlib : l.Surfaces)
    {s s' : State Io Result Return}
    {actions : List (Action Setting Request Return)}
    (hquiet : Along l.step l.Quiet s actions)
    (hrun : run l.step s actions = some s') (hrunning : s'.phase.running) :
    s'.now ≤ max s.now (s.mark + l.limit) + tick + (s'.spent - s.spent) := by
  have hstart : l.Waning s.now tick s.mark s.spent s := by
    refine ⟨rfl, Nat.le_refl _, fun _ => .inl ?_⟩
    omega
  have hwaning := run_invariant_along l.step
    (fun _ _ _ hmid hguard h => waning_step hlaw hlib hmid hguard h) hstart
    hquiet hrun
  rcases hwaning.running hrunning with hhead | ⟨-, -, hasked⟩
  · omega
  · omega

end Loop

end Loft.Data.Watched
