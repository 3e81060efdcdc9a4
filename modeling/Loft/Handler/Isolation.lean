import Loft.Handler.Reassembly

namespace Loft

open Loft.Data
open Loft.Coap

/-! Connections do not see each other through the Block1 table. -/

namespace Handler

/-! What connection `c` sees of a history of whole calls. -/

structure Call where
  now : Instant
  req : Message
  session : DeviceSession
  transport : Transport
  deriving DecidableEq

section History

variable (h : Handler) (upstream : DeviceRequest → UpstreamResult)

def serve (map : Block1Table) (x : Call) :
    List DeviceRequest × Message × Block1Table :=
  h.handle upstream x.now x.req x.session x.transport map

def tables : Block1Table → List Call → List Block1Table
  | map, [] => [map]
  | map, x :: xs => map :: tables (h.serve upstream map x).2.2 xs

/-- The calls that `c` made upstream and the responses it got. -/
def observed (c : ConnId) : Block1Table → List Call →
    List (List DeviceRequest × Message)
  | _, [] => []
  | map, x :: xs =>
      let served := h.serve upstream map x
      let later := observed c served.2.2 xs
      if x.session.connId = c then (served.1, served.2.1) :: later else later

def Roomy (map : Block1Table) (xs : List Call) : Prop :=
  ∀ table ∈ h.tables upstream map xs, table.len < maxBlock1Entries

end History

def own (c : ConnId) (xs : List Call) : List Call :=
  xs.filter fun x => x.session.connId = c

def Timed (xs : List Call) : Prop :=
  xs.Pairwise fun x y => x.now ≤ y.now

/-! What the table holds for one connection. -/

def held (c : ConnId) (map : Block1Table) : String → Option Reassembly :=
  fun leaf => map.lookup (c, leaf)

theorem held_erase (c : ConnId) (leaf : String) (map : Block1Table) :
    held c (map.erase (c, leaf)) =
      Function.update (held c map) leaf none := by
  funext leaf'
  by_cases hleaf : leaf' = leaf
  · subst hleaf
    simp [held]
  · have hkey : (c, leaf') ≠ (c, leaf) := by simpa using hleaf
    simp [held, hleaf, AList.lookup_erase_ne hkey]

theorem held_insert (c : ConnId) (leaf : String) (entry : Reassembly)
    (map : Block1Table) :
    held c (map.insert (c, leaf) entry) =
      Function.update (held c map) leaf (some entry) := by
  funext leaf'
  by_cases hleaf : leaf' = leaf
  · subst hleaf
    simp [held]
  · have hkey : (c, leaf') ≠ (c, leaf) := by simpa using hleaf
    simp [held, hleaf, AList.lookup_insert_ne hkey]

theorem appendBlock_congr {c : ConnId} {map map' : Block1Table}
    (hheld : held c map = held c map') (now : Instant) (req : Message)
    (b : Block) (leaf : String) :
    (appendBlock now req b (c, leaf) map).1 =
        (appendBlock now req b (c, leaf) map').1 ∧
      held c (appendBlock now req b (c, leaf) map).2 =
        held c (appendBlock now req b (c, leaf) map').2 := by
  have hentry : map.lookup (c, leaf) = map'.lookup (c, leaf) :=
    congrFun hheld leaf
  unfold appendBlock
  rw [hentry]
  cases map'.lookup (c, leaf) with
  | none => exact ⟨rfl, hheld⟩
  | some entry =>
      dsimp only
      split_ifs <;> simp only [held_erase, held_insert, hheld, and_self]

theorem assembleBody_congr {map map' : Block1Table} (now : Instant)
    (req : Message) (session : DeviceSession) (leaf : String)
    (hheld : held session.connId map = held session.connId map')
    (hroom : map.len < maxBlock1Entries)
    (hroom' : map'.len < maxBlock1Entries) :
    (assembleBody now req session leaf map).1 =
        (assembleBody now req session leaf map').1 ∧
      held session.connId (assembleBody now req session leaf map).2 =
        held session.connId (assembleBody now req session leaf map').2 := by
  unfold assembleBody
  cases block1Of req with
  | none => exact ⟨rfl, hheld⟩
  | some b =>
      have hfull : ¬ maxBlock1Entries ≤ map.len := Nat.not_le.mpr hroom
      have hfull' : ¬ maxBlock1Entries ≤ map'.len := Nat.not_le.mpr hroom'
      simp only [hfull, hfull', and_false, if_false]
      split_ifs
      · exact appendBlock_congr hheld now req b leaf
      · apply appendBlock_congr
        rw [held_insert, held_insert, hheld]

theorem dispatch_congr (h : Handler) {map map' : Block1Table} (now : Instant)
    (req : Message) (session : DeviceSession) (transport : Transport)
    (hheld : held session.connId map = held session.connId map')
    (hroom : map.len < maxBlock1Entries)
    (hroom' : map'.len < maxBlock1Entries) :
    (h.dispatch now req session transport map).1 =
        (h.dispatch now req session transport map').1 ∧
      held session.connId (h.dispatch now req session transport map).2 =
        held session.connId (h.dispatch now req session transport map').2 := by
  cases hroute : route req session with
  | post leaf =>
      obtain ⟨hstate, htable⟩ :=
        assembleBody_congr now req session leaf.name hheld hroom hroom'
      rw [dispatch_post h now transport map hroute,
        dispatch_post h now transport map' hroute, dispatch_table,
        dispatch_table, hroute, hstate]
      exact ⟨rfl, htable⟩
  | refused reply =>
      rw [dispatch, dispatch, hroute]
      exact ⟨rfl, hheld⟩
  | getShadow =>
      rw [dispatch, dispatch, hroute]
      exact ⟨rfl, hheld⟩
  | getFirmware =>
      rw [dispatch, dispatch, hroute]
      exact ⟨rfl, hheld⟩

theorem dispatch_frame (h : Handler) (now : Instant) (req : Message)
    {session : DeviceSession} (transport : Transport) (map : Block1Table)
    {c : ConnId} (hforeign : session.connId ≠ c) :
    held c (h.dispatch now req session transport map).2 = held c map := by
  rw [dispatch_table]
  cases route req session with
  | refused reply => rfl
  | getShadow => rfl
  | getFirmware => rfl
  | post leaf =>
      funext leaf'
      exact assembleBody_frame fun hkey =>
        hforeign (congrArg Prod.fst hkey).symm

/-! What survives the sweep of a call is all that the call can see, and a
later sweep sees no more than an earlier one. -/

def visible (c : ConnId) (now : Instant) (map : Block1Table) :
    String → Option Reassembly :=
  held c (sweepBlock1 now map)

theorem visible_eq_filter (c : ConnId) (now : Instant) (map : Block1Table) :
    visible c now map = fun leaf => (held c map leaf).filter fun r =>
      decide (now.durationSince r.touched < block1IdleTimeout) := by
  funext leaf
  exact Table.lookup_retain _ map (c, leaf)

theorem sweepBlock1_sweepBlock1 {earlier later : Instant}
    (hle : earlier ≤ later) (map : Block1Table) :
    sweepBlock1 later (sweepBlock1 earlier map) = sweepBlock1 later map := by
  apply Table.retain_retain
  intro key entry hyoung
  have hlater := of_decide_eq_true hyoung
  apply decide_eq_true
  exact Nat.lt_of_le_of_lt (Nat.sub_le_sub_right hle entry.touched) hlater

theorem visible_of_held {c : ConnId} {map map' : Block1Table}
    (hheld : held c map = held c map') (now : Instant) :
    visible c now map = visible c now map' := by
  rw [visible_eq_filter, visible_eq_filter, hheld]

variable {h : Handler} {upstream : DeviceRequest → UpstreamResult}
  {c : ConnId}

theorem serve_eq (map : Block1Table) (x : Call) :
    h.serve upstream map x =
      let dispatched := h.dispatch x.now x.req x.session x.transport
        (sweepBlock1 x.now map)
      ((dispatched.1.outcome upstream).1, (dispatched.1.outcome upstream).2,
        dispatched.2) :=
  h.handle_eq upstream x.now x.req x.session x.transport map

theorem visible_serve_foreign {x : Call} {now : Instant} (map : Block1Table)
    (hforeign : x.session.connId ≠ c) (hle : x.now ≤ now) :
    visible c now (h.serve upstream map x).2.2 = visible c now map := by
  have hheld := h.dispatch_frame x.now x.req x.transport
    (sweepBlock1 x.now map) hforeign
  rw [serve_eq, visible_of_held hheld, visible,
    sweepBlock1_sweepBlock1 hle, visible]

variable (h upstream) in
theorem serve_congr {x : Call} {map map' : Block1Table}
    (hmine : x.session.connId = c)
    (hvisible : visible c x.now map = visible c x.now map')
    (hroom : map.len < maxBlock1Entries)
    (hroom' : map'.len < maxBlock1Entries) :
    (h.serve upstream map x).1 = (h.serve upstream map' x).1 ∧
      (h.serve upstream map x).2.1 = (h.serve upstream map' x).2.1 ∧
      held c (h.serve upstream map x).2.2 =
        held c (h.serve upstream map' x).2.2 := by
  subst hmine
  obtain ⟨haction, htable⟩ := h.dispatch_congr x.now x.req x.session
    x.transport hvisible
    (Nat.lt_of_le_of_lt (Table.len_retain_le _ map) hroom)
    (Nat.lt_of_le_of_lt (Table.len_retain_le _ map') hroom')
  rw [serve_eq, serve_eq]
  exact ⟨congrArg (fun a => (a.outcome upstream).1) haction,
    congrArg (fun a => (a.outcome upstream).2) haction, htable⟩

theorem observed_of_own_eq_nil {xs : List Call} (map : Block1Table)
    (hnone : own c xs = []) : h.observed upstream c map xs = [] := by
  induction xs generalizing map with
  | nil => rfl
  | cons x xs ih =>
      have hx : x.session.connId ≠ c ∧ own c xs = [] := by
        simpa [own] using hnone
      rw [observed, if_neg hx.1]
      exact ih _ hx.2

/-- Up to its next own call, a history changes nothing that `c` can see. -/
theorem observed_next {x : Call} {xs mine : List Call} {map : Block1Table}
    (htimed : Timed xs) (hroomy : h.Roomy upstream map xs)
    (hown : own c xs = x :: mine) :
    ∃ map' rest, visible c x.now map' = visible c x.now map ∧
      map'.len < maxBlock1Entries ∧
      h.observed upstream c map xs =
        ((h.serve upstream map' x).1, (h.serve upstream map' x).2.1) ::
          h.observed upstream c (h.serve upstream map' x).2.2 rest ∧
      own c rest = mine ∧ Timed rest ∧
      h.Roomy upstream (h.serve upstream map' x).2.2 rest := by
  induction xs generalizing map with
  | nil => cases hown
  | cons y ys ih =>
      obtain ⟨hlater, htimed⟩ := List.pairwise_cons.mp htimed
      have hlen := hroomy map List.mem_cons_self
      have hroomy : h.Roomy upstream (h.serve upstream map y).2.2 ys :=
        fun table hmem => hroomy table (List.mem_cons_of_mem _ hmem)
      rw [own, List.filter_cons] at hown
      by_cases hmine : y.session.connId = c
      · rw [if_pos (decide_eq_true hmine)] at hown
        injection hown with hyx hmine'
        subst hyx
        refine ⟨map, ys, rfl, hlen, ?_, hmine', htimed, hroomy⟩
        rw [observed, if_pos hmine]
      · rw [if_neg (by simpa using hmine)] at hown
        obtain ⟨map', rest, hvisible, hrest⟩ := ih htimed hroomy hown
        refine ⟨map', rest, ?_, ?_⟩
        · have hx : x ∈ ys := by
            have hx : x ∈ ys.filter fun x => x.session.connId = c := by
              rw [hown]
              exact List.mem_cons_self
            exact List.mem_of_mem_filter hx
          rw [hvisible]
          exact visible_serve_foreign map hmine (hlater x hx)
        · rw [observed, if_neg hmine]
          exact hrest

theorem observed_congr {xs ys mine : List Call} {map map' : Block1Table}
    (htimed : Timed xs) (htimed' : Timed ys)
    (hroomy : h.Roomy upstream map xs) (hroomy' : h.Roomy upstream map' ys)
    (hown : own c xs = mine) (hown' : own c ys = mine)
    (hvisible : ∀ x ∈ mine, visible c x.now map = visible c x.now map') :
    h.observed upstream c map xs = h.observed upstream c map' ys := by
  induction mine generalizing xs ys map map' with
  | nil =>
      rw [observed_of_own_eq_nil map hown, observed_of_own_eq_nil map' hown']
  | cons x mine ih =>
      have hmem : x ∈ own c xs := by
        rw [hown]
        exact List.mem_cons_self
      obtain ⟨map₁, rest, hmap₁, hlen₁, hobserved, hrest⟩ :=
        observed_next htimed hroomy hown
      obtain ⟨map₂, rest', hmap₂, hlen₂, hobserved', hrest'⟩ :=
        observed_next htimed' hroomy' hown'
      obtain ⟨hcalls, hreply, hheld⟩ := serve_congr h upstream
        (of_decide_eq_true (List.mem_filter.mp hmem).2)
        ((hmap₁.trans (hvisible x List.mem_cons_self)).trans hmap₂.symm)
        hlen₁ hlen₂
      obtain ⟨hmine, htimed, hroomy⟩ := hrest
      obtain ⟨hmine', htimed', hroomy'⟩ := hrest'
      rw [hobserved, hobserved', hcalls, hreply,
        ih htimed htimed' hroomy hroomy' hmine hmine'
          fun x' hx' => visible_of_held hheld x'.now]

theorem connections_isolated (h : Handler)
    (upstream : DeviceRequest → UpstreamResult) (c : ConnId)
    (xs ys : List Call) (htimed : Timed xs) (htimed' : Timed ys)
    (hroomy : h.Roomy upstream ∅ xs) (hroomy' : h.Roomy upstream ∅ ys)
    (hsame : own c xs = own c ys) :
    h.observed upstream c ∅ xs = h.observed upstream c ∅ ys :=
  observed_congr htimed htimed' hroomy hroomy' rfl hsame.symm fun _ _ => rfl

def noContent (_ : DeviceRequest) : UpstreamResult :=
  .ok { status := 204, body := [] }

def logsCall (now : Instant) (b : Block) (connId : ConnId) : Call where
  now := now
  req := logsBlock b [0xAA]
  session := logsSession connId
  transport := .udp

theorem connections_isolated_logsCall :
    (Handler.mk 6).observed noContent 1 ∅
        [logsCall 1 ⟨0, true, 0⟩ 1, logsCall 4 ⟨1, false, 0⟩ 1] =
      (Handler.mk 6).observed noContent 1 ∅
        [logsCall 0 ⟨0, true, 0⟩ 2, logsCall 1 ⟨0, true, 0⟩ 1,
          logsCall 3 ⟨5, true, 0⟩ 2, logsCall 4 ⟨1, false, 0⟩ 1] :=
  connections_isolated (Handler.mk 6) noContent 1
    [logsCall 1 ⟨0, true, 0⟩ 1, logsCall 4 ⟨1, false, 0⟩ 1]
    [logsCall 0 ⟨0, true, 0⟩ 2, logsCall 1 ⟨0, true, 0⟩ 1,
      logsCall 3 ⟨5, true, 0⟩ 2, logsCall 4 ⟨1, false, 0⟩ 1]
    (by unfold Timed; decide) (by unfold Timed; decide)
    (by unfold Roomy; decide +kernel) (by unfold Roomy; decide +kernel)
    (by decide +kernel)

end Handler

end Loft
