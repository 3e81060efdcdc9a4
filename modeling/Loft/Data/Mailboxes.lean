import Mathlib.Logic.Function.Basic
import Loft.Data.Transition

namespace Loft.Data.Mailboxes

/-! Receivers with a queue each. An item that arrives is taken by one receiver
at most, and waits there until it is read or the receiver is closed. -/

structure Box (Item : Type) where
  queue : List Item
  isOpen : Bool
  deriving DecidableEq, Repr

/-- `arrived` tells of each item which receiver took it, if any. -/
structure State (Id Item : Type) where
  box : Id → Option (Box Item)
  arrived : List (Item × Option Id)
  read : List (Id × Item)

inductive Event (Id Item : Type)
  | opened (c : Id)
  | lost (item : Item)
  | taken (c : Id) (item : Item)
  | read (c : Id) (item : Item)
  | closed (c : Id)
  deriving DecidableEq, Repr

variable {Id Item : Type} [DecidableEq Id]

namespace State

def empty : State Id Item where
  box _ := none
  arrived := []
  read := []

def setBox (s : State Id Item) (c : Id) (b : Box Item) : State Id Item :=
  { s with box := Function.update s.box c (some b) }

def takenBy (s : State Id Item) (c : Id) : List Item :=
  (s.arrived.filter fun entry => entry.2 = some c).map Prod.fst

def readBy (s : State Id Item) (c : Id) : List Item :=
  (s.read.filter fun entry => entry.1 = c).map Prod.snd

end State

variable (depth : Nat)

/-- A queue holds at most `depth` items. -/
inductive Step : State Id Item → Event Id Item → State Id Item → Prop
  | opened {s : State Id Item} {c : Id} :
      s.box c = none → Step s (.opened c) (s.setBox c ⟨[], true⟩)
  | lost (s : State Id Item) (item : Item) :
      Step s (.lost item) { s with arrived := s.arrived ++ [(item, none)] }
  | taken {s : State Id Item} {c : Id} {queue : List Item} (item : Item) :
      s.box c = some ⟨queue, true⟩ → queue.length < depth →
      Step s (.taken c item) { s.setBox c ⟨queue ++ [item], true⟩ with
        arrived := s.arrived ++ [(item, some c)] }
  | read {s : State Id Item} {c : Id} {item : Item} {queue : List Item} :
      s.box c = some ⟨item :: queue, true⟩ →
      Step s (.read c item) { s.setBox c ⟨queue, true⟩ with
        read := s.read ++ [(c, item)] }
  | closed {s : State Id Item} {c : Id} {b : Box Item} :
      s.box c = some b → Step s (.closed c) (s.setBox c ⟨[], false⟩)

/-- What an open receiver has taken it has read, or it is still waiting. -/
structure Conserved (s : State Id Item) : Prop where
  kept : ∀ c queue, s.box c = some ⟨queue, true⟩ →
    s.takenBy c = s.readBy c ++ queue ∧ queue.length ≤ depth
  shut : ∀ c queue, s.box c = some ⟨queue, false⟩ →
    queue = [] ∧ s.readBy c <+: s.takenBy c
  unopened : ∀ c, s.box c = none → s.takenBy c = [] ∧ s.readBy c = []

namespace State

variable (s : State Id Item) (c c' : Id) (item : Item)

theorem box_setBox (b : Box Item) :
    (s.setBox c b).box c' = if c' = c then some b else s.box c' :=
  Function.update_apply s.box c (some b) c'

theorem takenBy_lost :
    takenBy { s with arrived := s.arrived ++ [(item, none)] } c =
      s.takenBy c := by
  simp [takenBy, List.filter_append]

theorem takenBy_taken (box : Id → Option (Box Item)) :
    takenBy { s with
      box := box, arrived := s.arrived ++ [(item, some c)] } c' =
      s.takenBy c' ++ if c' = c then [item] else [] := by
  by_cases hsame : c' = c
  · simp [takenBy, List.filter_append, hsame]
  · simp [takenBy, List.filter_append, hsame, Ne.symm hsame]

theorem readBy_read (box : Id → Option (Box Item)) :
    readBy { s with box := box, read := s.read ++ [(c, item)] } c' =
      s.readBy c' ++ if c' = c then [item] else [] := by
  by_cases hsame : c' = c
  · simp [readBy, List.filter_append, hsame]
  · simp [readBy, List.filter_append, hsame, Ne.symm hsame]

end State

variable {depth} {s s' : State Id Item} {event : Event Id Item}

theorem Conserved.empty : Conserved depth (State.empty : State Id Item) where
  kept := by simp [State.empty]
  shut := by simp [State.empty]
  unopened := by simp [State.empty, State.takenBy, State.readBy]

theorem Conserved.prefix (hs : Conserved depth s) (c : Id) :
    s.readBy c <+: s.takenBy c := by
  cases hbox : s.box c with
  | none =>
      rw [(hs.unopened c hbox).2]
      exact List.nil_prefix
  | some b =>
      obtain ⟨queue, isOpen⟩ := b
      cases isOpen with
      | true =>
          rw [(hs.kept c queue hbox).1]
          exact List.prefix_append _ _
      | false => exact (hs.shut c queue hbox).2

/-- Only the box of one receiver changes, and its books with it. -/
theorem Conserved.update (hs : Conserved depth s) {c : Id} {b : Box Item}
    (hbox : ∀ c', s'.box c' = if c' = c then some b else s.box c')
    (htaken : ∀ c' ≠ c, s'.takenBy c' = s.takenBy c')
    (hread : ∀ c' ≠ c, s'.readBy c' = s.readBy c')
    (hkept : b.isOpen = true → s'.takenBy c = s'.readBy c ++ b.queue ∧
      b.queue.length ≤ depth)
    (hshut : b.isOpen = false → b.queue = [] ∧ s'.readBy c <+: s'.takenBy c) :
    Conserved depth s' where
  kept c' queue h := by
    rw [hbox] at h
    split_ifs at h with hsame
    · cases h
      rw [hsame]
      exact hkept rfl
    · rw [htaken c' hsame, hread c' hsame]
      exact hs.kept c' queue h
  shut c' queue h := by
    rw [hbox] at h
    split_ifs at h with hsame
    · cases h
      rw [hsame]
      exact hshut rfl
    · rw [htaken c' hsame, hread c' hsame]
      exact hs.shut c' queue h
  unopened c' h := by
    rw [hbox] at h
    split_ifs at h with hsame
    rw [htaken c' hsame, hread c' hsame]
    exact hs.unopened c' h

theorem Conserved.step (hs : Conserved depth s) (h : Step depth s event s') :
    Conserved depth s' := by
  cases h with
  | @opened c hnone =>
      obtain ⟨htaken, hread⟩ := hs.unopened c hnone
      refine hs.update (s.box_setBox c · _) (fun _ _ => rfl)
        (fun _ _ => rfl) ?_ (by simp)
      intro _
      exact ⟨htaken.trans (by rw [List.append_nil]; exact hread.symm),
        Nat.zero_le _⟩
  | lost item =>
      refine ⟨?_, ?_, ?_⟩
      · intro c queue hbox
        rw [State.takenBy_lost]
        exact hs.kept c queue hbox
      · intro c queue hbox
        rw [State.takenBy_lost]
        exact hs.shut c queue hbox
      · intro c hbox
        rw [State.takenBy_lost]
        exact hs.unopened c hbox
  | @taken c queue item hbox hroom =>
      obtain ⟨hconserved, -⟩ := hs.kept c queue hbox
      refine hs.update (s.box_setBox c · _) ?_ (fun _ _ => rfl) ?_ (by simp)
      · intro c' hne
        refine (s.takenBy_taken c c' item _).trans ?_
        rw [if_neg hne, List.append_nil]
      · intro _
        refine ⟨(s.takenBy_taken c c item _).trans ?_, ?_⟩
        · rw [if_pos rfl, hconserved, List.append_assoc]
          rfl
        · rw [List.length_append, List.length_singleton]
          exact hroom
  | @read c item queue hbox =>
      obtain ⟨hconserved, hdepth⟩ := hs.kept c _ hbox
      refine hs.update (s.box_setBox c · _) (fun _ _ => rfl) ?_ ?_ (by simp)
      · intro c' hne
        refine (s.readBy_read c c' item _).trans ?_
        rw [if_neg hne, List.append_nil]
      · intro _
        refine ⟨?_, Nat.le_of_succ_le hdepth⟩
        refine hconserved.trans (Eq.trans ?_ (congrArg (· ++ queue)
          (s.readBy_read c c item _).symm))
        rw [if_pos rfl, List.append_assoc]
        rfl
  | @closed c b hbox =>
      refine hs.update (s.box_setBox c · _) (fun _ _ => rfl)
        (fun _ _ => rfl) (by simp) ?_
      intro _
      exact ⟨rfl, hs.prefix c⟩

variable (depth) in
/-- Nothing happens, or one event. -/
def Follows (s s' : State Id Item) : Prop :=
  s' = s ∨ ∃ event, Step depth s event s'

theorem Conserved.follows (hs : Conserved depth s) (h : Follows depth s s') :
    Conserved depth s' := by
  rcases h with rfl | ⟨event, hevent⟩
  · exact hs
  · exact hs.step hevent

end Loft.Data.Mailboxes
