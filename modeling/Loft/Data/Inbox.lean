import Loft.Data.Transition

namespace Loft.Data.Inbox

open Transition

/-! A receiver that takes what has been queued for it one item at a time, into
a buffer that may be too small. What a read returns has to tell an item from
the end of them all. -/

section Settled

variable {Item Request : Type} (fits : Request → Item → Prop)

/-- What has become of the items sent: each read has handed over the next one,
left it out for want of room, or found nothing, and the rest is waiting. -/
inductive Settled : List Item → List (Request × Option Item) → List Item → Prop
  | waiting (items : List Item) : Settled items [] items
  | delivered {request : Request} {item : Item} {sent rest : List Item}
      {log : List (Request × Option Item)} :
      fits request item → Settled sent log rest →
      Settled (item :: sent) ((request, some item) :: log) rest
  | dropped {request : Request} {item : Item} {sent rest : List Item}
      {log : List (Request × Option Item)} :
      ¬ fits request item → Settled sent log rest →
      Settled (item :: sent) ((request, none) :: log) rest
  | idle {request : Request} {sent rest : List Item}
      {log : List (Request × Option Item)} :
      Settled sent log rest → Settled sent ((request, none) :: log) rest

variable {fits} {request : Request} {item : Item} {sent rest : List Item}
  {log : List (Request × Option Item)}

theorem Settled.send (h : Settled fits sent log rest) (item : Item) :
    Settled fits (sent ++ [item]) log (rest ++ [item]) := by
  induction h with
  | waiting items => exact .waiting _
  | delivered hfits _ ih => exact .delivered hfits ih
  | dropped hfits _ ih => exact .dropped hfits ih
  | idle _ ih => exact .idle ih

theorem Settled.deliver (hfits : fits request item)
    (h : Settled fits sent log (item :: rest)) :
    Settled fits sent (log ++ [(request, some item)]) rest := by
  generalize hqueue : item :: rest = queue at h
  induction h with
  | waiting items =>
      rw [← hqueue]
      exact .delivered hfits (.waiting rest)
  | delivered hfits' _ ih => exact .delivered hfits' (ih hqueue)
  | dropped hfits' _ ih => exact .dropped hfits' (ih hqueue)
  | idle _ ih => exact .idle (ih hqueue)

theorem Settled.drop (hfits : ¬ fits request item)
    (h : Settled fits sent log (item :: rest)) :
    Settled fits sent (log ++ [(request, none)]) rest := by
  generalize hqueue : item :: rest = queue at h
  induction h with
  | waiting items =>
      rw [← hqueue]
      exact .dropped hfits (.waiting rest)
  | delivered hfits' _ ih => exact .delivered hfits' (ih hqueue)
  | dropped hfits' _ ih => exact .dropped hfits' (ih hqueue)
  | idle _ ih => exact .idle (ih hqueue)

theorem Settled.pause (h : Settled fits sent log rest) (request : Request) :
    Settled fits sent (log ++ [(request, none)]) rest := by
  induction h with
  | waiting items => exact .idle (.waiting items)
  | delivered hfits _ ih => exact .delivered hfits ih
  | dropped hfits _ ih => exact .dropped hfits ih
  | idle _ ih => exact .idle ih

end Settled

/-- A receiver and what its results mean: `closes` is the end of all items,
`tells` names one that was handed over. -/
structure Transport (Item Receiver Setting Request Result : Type) where
  waiting : Receiver → List Item
  enqueue : Receiver → Item → Receiver
  configure : Receiver → Setting → Receiver
  late : Receiver → Request → Prop
  fits : Request → Item → Prop
  read : Receiver → Bool → Request → Result × Option Item × Receiver
  closes : Result → Prop
  tells : Result → Item → Prop

structure State (Item Receiver Request : Type) where
  receiver : Receiver
  senders : Bool
  sent : List Item
  log : List (Request × Option Item)

inductive Action (Item Setting Request : Type)
  | send (item : Item)
  | hangUp
  | configure (setting : Setting)
  | read (request : Request)

namespace Transport

variable {Item Receiver Setting Request Result : Type}
  (t : Transport Item Receiver Setting Request Result)

def start (receiver : Receiver) (senders : Bool) :
    State Item Receiver Request where
  receiver := receiver
  senders := senders
  sent := t.waiting receiver
  log := []

def step (s : State Item Receiver Request) :
    Action Item Setting Request → Option (State Item Receiver Request)
  | .send item =>
      if s.senders then
        some { s with
          receiver := t.enqueue s.receiver item
          sent := s.sent ++ [item] }
      else none
  | .hangUp => some { s with senders := false }
  | .configure setting =>
      some { s with receiver := t.configure s.receiver setting }
  | .read request =>
      let (_, delivered, receiver) := t.read s.receiver s.senders request
      some { s with
        receiver := receiver
        log := s.log ++ [(request, delivered)] }

/-- What one read comes to. `Plain` are the items that a result can tell. -/
inductive Reading (Plain : Item → Prop) (r : Receiver) (senders : Bool)
    (request : Request) : Result × Option Item × Receiver → Prop
  | refused {result : Result} {r' : Receiver} :
      t.late r request → ¬ t.closes result → t.waiting r' = t.waiting r →
      Reading Plain r senders request (result, none, r')
  | delivered {result : Result} {item : Item} {r' : Receiver} :
      ¬ t.late r request → t.fits request item →
      t.waiting r = item :: t.waiting r' →
      (t.tells result item ∧ ¬ t.closes result ↔ Plain item) →
      Reading Plain r senders request (result, some item, r')
  | dropped {result : Result} {item : Item} {r' : Receiver} :
      ¬ t.late r request → ¬ t.fits request item →
      t.waiting r = item :: t.waiting r' → ¬ t.closes result →
      Reading Plain r senders request (result, none, r')
  | silent {result : Result} {r' : Receiver} :
      ¬ t.late r request → t.waiting r = [] → t.waiting r' = [] →
      senders = true → ¬ t.closes result →
      Reading Plain r senders request (result, none, r')
  | closed {result : Result} {r' : Receiver} :
      ¬ t.late r request → t.waiting r = [] → t.waiting r' = [] →
      senders = false → t.closes result →
      Reading Plain r senders request (result, none, r')

variable {t} in
/-- A read makes up no item: what it hands over, and what it leaves, was
waiting. -/
theorem Reading.mem {Plain : Item → Prop} {r r' : Receiver} {senders : Bool}
    {request : Request} {result : Result} {delivered : Option Item}
    (h : t.Reading Plain r senders request (result, delivered, r')) :
    (∀ item, delivered = some item → item ∈ t.waiting r) ∧
      t.waiting r' ⊆ t.waiting r := by
  cases h with
  | refused _ _ hsame =>
      rw [hsame]
      exact ⟨by simp, List.Subset.refl _⟩
  | delivered _ _ hqueue _ | dropped _ _ hqueue _ =>
      rw [hqueue]
      exact ⟨by simp, List.subset_cons_self _ _⟩
  | silent _ _ hempty _ _ | closed _ _ hempty _ _ =>
      rw [hempty]
      exact ⟨by simp, List.nil_subset _⟩

structure Lawful (Plain : Item → Prop) : Prop where
  waiting_enqueue : ∀ r item, t.waiting (t.enqueue r item) =
    t.waiting r ++ [item]
  waiting_configure : ∀ r setting, t.waiting (t.configure r setting) =
    t.waiting r
  reading : ∀ r senders request,
    t.Reading Plain r senders request (t.read r senders request)

/-- A read tells the end exactly where it is, unless it comes too late to look
for it, and tells each item that it hands over. -/
def Faithful (s : State Item Receiver Request) :
    Action Item Setting Request → Prop
  | .read request =>
      let (result, delivered, _) := t.read s.receiver s.senders request
      (t.closes result → s.senders = false ∧ t.waiting s.receiver = []) ∧
      (¬ t.late s.receiver request → s.senders = false →
        t.waiting s.receiver = [] → t.closes result) ∧
      ∀ item, delivered = some item → t.tells result item
  | _ => True

/-- The item that a read takes, if there is one, is plain. -/
def TakesPlain (Plain : Item → Prop) (s : State Item Receiver Request) :
    Action Item Setting Request → Prop
  | .read request => ¬ t.late s.receiver request →
      ∀ item rest, t.waiting s.receiver = item :: rest →
        t.fits request item → Plain item
  | _ => True

variable {t} {Plain : Item → Prop}

theorem Lawful.faithful_iff (h : t.Lawful Plain)
    (s : State Item Receiver Request) (action : Action Item Setting Request) :
    t.Faithful s action ↔ t.TakesPlain Plain s action := by
  cases action with
  | send item => exact Iff.rfl
  | hangUp => exact Iff.rfl
  | configure setting => exact Iff.rfl
  | read request =>
      have hreading := h.reading s.receiver s.senders request
      rw [Faithful, TakesPlain]
      generalize t.read s.receiver s.senders request = outcome at hreading ⊢
      cases hreading with
      | refused hlate hopen hsame =>
          exact iff_of_true
            ⟨fun hcloses => absurd hcloses hopen,
              fun hearly => absurd hlate hearly, nofun⟩
            fun hearly => absurd hlate hearly
      | @delivered result item r' hearly hfits hhead htold =>
          rw [hhead]
          constructor
          · intro hfaithful _ item' rest' hcons _
            cases hcons
            refine htold.mp ⟨hfaithful.2.2 item rfl, ?_⟩
            intro hcloses
            cases (hfaithful.1 hcloses).2
          · intro hplain
            obtain ⟨htells, hopen⟩ :=
              htold.mpr (hplain hearly item _ rfl hfits)
            refine ⟨fun hcloses => absurd hcloses hopen, nofun, ?_⟩
            intro item' hsame
            cases hsame
            exact htells
      | @dropped result item r' hearly hfits hhead hopen =>
          rw [hhead]
          refine iff_of_true
            ⟨fun hcloses => absurd hcloses hopen, nofun, nofun⟩ ?_
          intro _ item' rest' hcons hfits'
          cases hcons
          exact absurd hfits' hfits
      | silent hearly hnone hnone' hsenders hopen =>
          rw [hnone, hsenders]
          exact iff_of_true
            ⟨fun hcloses => absurd hcloses hopen, nofun, nofun⟩ nofun
      | closed hearly hnone hnone' hsenders hcloses =>
          rw [hnone]
          exact iff_of_true
            ⟨fun _ => ⟨hsenders, rfl⟩, fun _ _ _ => hcloses, nofun⟩ nofun

theorem Lawful.along_faithful_iff (h : t.Lawful Plain)
    (s : State Item Receiver Request)
    (actions : List (Action Item Setting Request)) :
    Along t.step t.Faithful s actions ↔
      Along t.step (t.TakesPlain Plain) s actions :=
  along_congr t.step h.faithful_iff

def Accounted (t : Transport Item Receiver Setting Request Result)
    (s : State Item Receiver Request) : Prop :=
  Settled t.fits s.sent s.log (t.waiting s.receiver)

theorem Lawful.accounted_step (h : t.Lawful Plain)
    {s s' : State Item Receiver Request}
    {action : Action Item Setting Request} (hs : t.Accounted s)
    (hstep : t.step s action = some s') : t.Accounted s' := by
  unfold Accounted at hs ⊢
  cases action with
  | send item =>
      rw [step] at hstep
      split_ifs at hstep
      cases hstep
      dsimp only
      rw [h.waiting_enqueue]
      exact hs.send item
  | hangUp =>
      cases hstep
      exact hs
  | configure setting =>
      cases hstep
      dsimp only
      rw [h.waiting_configure]
      exact hs
  | read request =>
      have hreading := h.reading s.receiver s.senders request
      rw [step] at hstep
      generalize t.read s.receiver s.senders request = outcome
        at hreading hstep
      cases hstep
      cases hreading with
      | refused hlate hopen hsame =>
          dsimp only
          rw [hsame]
          exact hs.pause request
      | delivered hearly hfits hhead htold =>
          rw [hhead] at hs
          exact hs.deliver hfits
      | dropped hearly hfits hhead hopen =>
          rw [hhead] at hs
          exact hs.drop hfits
      | silent hearly hnone hnone' hsenders hopen =>
          dsimp only
          rw [hnone']
          rw [hnone] at hs
          exact hs.pause request
      | closed hearly hnone hnone' hsenders hcloses =>
          dsimp only
          rw [hnone']
          rw [hnone] at hs
          exact hs.pause request

theorem Lawful.accounted_run (h : t.Lawful Plain) {receiver : Receiver}
    {senders : Bool} {actions : List (Action Item Setting Request)}
    {s : State Item Receiver Request}
    (hrun : run t.step (t.start receiver senders) actions = some s) :
    t.Accounted s := by
  have hstart : t.Accounted (t.start receiver senders) := .waiting _
  exact run_invariant t.step (fun _ _ _ => h.accounted_step) hstart hrun

end Transport

/-- What happens to an empty channel while its receiver is parked on it. -/
inductive Meanwhile (Item : Type)
  | silence
  | arrives (after : Nat) (item : Item)
  | hangsUp (after : Nat)
  deriving DecidableEq, Repr

/-- `recv_timeout` on an empty channel: how long it parks, whether a sender is
left, and what is in the channel then. -/
def Meanwhile.recvTimeout {Item : Type} (timeout : Nat) :
    Meanwhile Item → Nat × Bool × List Item
  | .silence => (timeout, true, [])
  | .arrives after item =>
      if after ≤ timeout then (after, true, [item]) else (timeout, true, [])
  | .hangsUp after =>
      if after ≤ timeout then (after, false, []) else (timeout, true, [])

theorem Meanwhile.recvTimeout_le {Item : Type} (timeout : Nat)
    (m : Meanwhile Item) : (m.recvTimeout timeout).1 ≤ timeout := by
  cases m with
  | silence => exact Nat.le_refl _
  | arrives after item =>
      simp only [recvTimeout]
      split_ifs with hbefore
      · exact hbefore
      · exact Nat.le_refl _
  | hangsUp after =>
      simp only [recvTimeout]
      split_ifs with hbefore
      · exact hbefore
      · exact Nat.le_refl _

end Loft.Data.Inbox
