import Mathlib.Data.List.Perm.Basic
import Mathlib.Data.List.Perm.Subperm
import Loft.Quota.Accounting

namespace Loft.Admission

open Loft.Data

/-! Components that draw on one quota. Each holds permits of its own, and what
it does to the books in one step is one admission, one release, or nothing. -/

inductive Drawn (q : ConnQuota) (live : List Holder) :
    ConnQuota → List Holder → Prop
  | kept {live' : List Holder} : live'.Perm live → Drawn q live q live'
  | acquired {ip : IpAddr} {permit : ConnPermit} {q' : ConnQuota}
      {live' : List Holder} :
      q.tryAcquire ip = some (permit, q') →
      live'.Perm (⟨ip, permit⟩ :: live) → Drawn q live q' live'
  | released {holder : Holder} {live' : List Holder} :
      live.Perm (holder :: live') →
      Drawn q live (q.release holder.permit) live'

/-- Permits held elsewhere in the component stay out. -/
theorem Drawn.frame {q q' : ConnQuota} {live live' : List Holder}
    (front : List Holder) (h : Drawn q live q' live') :
    Drawn q (front ++ live) q' (front ++ live') := by
  cases h with
  | kept hperm => exact .kept (hperm.append_left front)
  | acquired hacquire hperm =>
      exact .acquired hacquire
        ((hperm.append_left front).trans List.perm_middle)
  | released hperm =>
      exact .released ((hperm.append_left front).trans List.perm_middle)

/-! Permutations that pick out one component. -/

section Picking

variable {α β : Type} {list : List α} {i : Nat} {x : α}

theorem perm_pick (hx : list[i]? = some x) :
    list.Perm (x :: list.eraseIdx i) := by
  obtain ⟨hlt, rfl⟩ := List.getElem?_eq_some_iff.mp hx
  exact (List.getElem_cons_eraseIdx_perm hlt).symm

theorem perm_set (hx : list[i]? = some x) (x' : α) :
    (list.set i x').Perm (x' :: list.eraseIdx i) := by
  obtain ⟨hlt, -⟩ := List.getElem?_eq_some_iff.mp hx
  have hlt' : i < (list.set i x').length := by
    rwa [List.length_set]
  have hperm := (List.getElem_cons_eraseIdx_perm hlt').symm
  rwa [List.getElem_set_self, List.eraseIdx_set_eq] at hperm

theorem filterMap_set_same {f : α → Option β} (hx : list[i]? = some x) {x' : α}
    (hsame : f x' = f x) :
    ((list.set i x').filterMap f).Perm (list.filterMap f) := by
  refine ((perm_set hx x').filterMap f).trans ?_
  refine List.Perm.trans ?_ ((perm_pick hx).filterMap f).symm
  rw [List.filterMap_cons, List.filterMap_cons, hsame]

theorem filterMap_set_none {f : α → Option β} (hx : list[i]? = some x) {x' : α}
    {y : β} (hsome : f x = some y) (hnone : f x' = none) :
    (list.filterMap f).Perm (y :: (list.set i x').filterMap f) := by
  refine ((perm_pick hx).filterMap f).trans ?_
  rw [List.filterMap_cons, hsome]
  refine List.Perm.cons y (List.Perm.trans ?_
    ((perm_set hx x').filterMap f).symm)
  rw [List.filterMap_cons, hnone]

theorem flatMap_subperm {f g h : α → List β}
    (hall : ∀ x ∈ list, (f x).Subperm (g x ++ h x)) :
    (list.flatMap f).Subperm (list.flatMap g ++ list.flatMap h) := by
  induction list with
  | nil => exact List.Subperm.refl _
  | cons x list ih =>
      have hfirst := hall x List.mem_cons_self
      have hrest := ih fun y hmem => hall y (List.mem_cons_of_mem x hmem)
      have hboth := List.Subperm.append hfirst hrest
      have hperm : (g x ++ h x ++ (list.flatMap g ++ list.flatMap h)).Perm
          ((x :: list).flatMap g ++ (x :: list).flatMap h) := by
        simp only [List.flatMap_cons, List.append_assoc]
        apply List.Perm.append_left
        rw [← List.append_assoc, ← List.append_assoc]
        exact List.perm_append_comm.append_right _
      exact hboth.trans hperm.subperm

end Picking

/-- Different things found in a list stay an injection under any measure. -/
theorem map_subperm_of_subset {α β : Type} {things list : List α} (f : α → β)
    (hnodup : things.Nodup) (hsubset : things ⊆ list) :
    (things.map f).Subperm (list.map f) := by
  obtain ⟨middle, hperm, hsublist⟩ := hnodup.subperm hsubset
  exact ⟨middle.map f, hperm.map f, hsublist.map f⟩

namespace Books

variable {maxTotal maxPerIp : Nat} {q q' : ConnQuota}
  {live live' others : List Holder}

/-- The books do not tell in which order the permits were handed out. -/
theorem perm (hs : Books maxTotal maxPerIp ⟨q, live⟩)
    (hperm : live.Perm live') : Books maxTotal maxPerIp ⟨q, live'⟩ := by
  have hheld : ∀ key, heldBy live key = heldBy live' key :=
    fun key => hperm.countP_eq _
  refine ⟨hs.limits, ?_, ?_, ?_, hs.total_le, ?_⟩
  · intro holder hmem
    exact hs.permits holder (hperm.mem_iff.mpr hmem)
  · exact hs.total.trans hperm.length_eq
  · intro key n
    rw [← hheld]
    exact hs.perIp key n
  · intro key
    rw [← hheld]
    exact hs.heldBy_le key

/-- One component takes a step, and the permits of the others stay out. -/
theorem drawn (hs : Books maxTotal maxPerIp ⟨q, live ++ others⟩)
    (h : Drawn q live q' live') :
    Books maxTotal maxPerIp ⟨q', live' ++ others⟩ := by
  cases h with
  | kept hperm => exact hs.perm (hperm.symm.append_right others)
  | acquired hacquire hperm =>
      exact (hs.acquired hacquire).perm (hperm.symm.append_right others)
  | @released holder live' hperm =>
      have hfront := hs.perm (hperm.append_right others)
      rw [List.cons_append] at hfront
      have hreleased := hfront.dropped List.mem_cons_self
      rwa [List.erase_cons_head] at hreleased

/-- The component has the books to itself. -/
theorem drawn_alone (hs : Books maxTotal maxPerIp ⟨q, live⟩)
    (h : Drawn q live q' live') : Books maxTotal maxPerIp ⟨q', live'⟩ := by
  rw [← List.append_nil live] at hs
  have hdrawn := hs.drawn h
  rwa [List.append_nil] at hdrawn

/-- Whatever is injected into the live permits is within the limits. -/
theorem injected (hs : Books maxTotal maxPerIp ⟨q, live⟩) {uses : List IpAddr}
    {unbacked : List IpAddr}
    (huses : uses.Subperm (live.map Holder.source ++ unbacked)) :
    uses.length ≤ maxTotal + unbacked.length ∧
      ∀ key, uses.countP (bucket · = key) ≤
        maxPerIp + unbacked.countP (bucket · = key) := by
  constructor
  · have hlength := huses.length_le
    have htotal := hs.total
    have hle := hs.total_le
    rw [List.length_append, List.length_map] at hlength
    dsimp only at htotal hle
    omega
  · intro key
    have hcount := huses.countP_le (bucket · = key)
    have hheld : (live.map Holder.source).countP (bucket · = key) =
        heldBy live key := by
      rw [List.countP_map]
      rfl
    have hle := hs.heldBy_le key
    rw [List.countP_append, hheld] at hcount
    dsimp only at hle
    omega

end Books

end Loft.Admission
