import Loft.Data.Transition
import Loft.Quota

namespace Loft.Admission

open Loft.Data
open Loft.Data.Transition

/-! Admission over whole runs. A permit is live from `try_acquire` until it is
dropped, in whatever order the connections end. -/

/-- A live permit, and the address it was handed out for. -/
structure Holder where
  source : IpAddr
  permit : ConnPermit
  deriving DecidableEq, Repr

structure State where
  quota : ConnQuota
  live : List Holder

def init (maxTotal maxPerIp : Nat) : State where
  quota := ConnQuota.new maxTotal maxPerIp
  live := []

inductive Action
  | tryAcquire (ip : IpAddr)
  | drop (holder : Holder)
  deriving DecidableEq, Repr

def step (s : State) : Action → Option State
  | .tryAcquire ip =>
      match s.quota.tryAcquire ip with
      | none => some s
      | some (permit, quota) =>
          some { quota := quota, live := ⟨ip, permit⟩ :: s.live }
  | .drop holder =>
      if holder ∈ s.live then
        some {
          quota := s.quota.release holder.permit
          live := s.live.erase holder }
      else none

/-- How many permits of one bucket are live. -/
def heldBy (live : List Holder) (key : IpAddr) : Nat :=
  live.countP fun holder => bucket holder.source = key

/-- IPv4-mapped IPv6 addresses are the IPv4 addresses they embed. -/
def fold : IpAddr → IpAddr
  | .v4 bits => .v4 bits
  | .v6 bits =>
      match toIpv4Mapped bits with
      | some mapped => .v4 mapped
      | none => .v6 bits

/-- The same IPv4 address, or the same IPv6 /64. -/
def SameShare (a b : IpAddr) : Prop :=
  match fold a, fold b with
  | .v4 x, .v4 y => x = y
  | .v6 x, .v6 y => x >>> 64 = y >>> 64
  | _, _ => False

private theorem getLsbD_mask (x : BitVec 128) (i : Nat) :
    (x &&& (BitVec.allOnes 128 <<< 64)).getLsbD i =
      (decide (64 ≤ i) && x.getLsbD i) := by
  rw [BitVec.getLsbD_and, BitVec.getLsbD_shiftLeft, BitVec.getLsbD_allOnes]
  by_cases hi : i < 128
  · by_cases hlow : 64 ≤ i
    · have hlt : i - 64 < 128 := by omega
      simp [hi, hlow, Nat.not_lt.mpr hlow, hlt]
    · simp [hlow, Nat.lt_of_not_le hlow]
  · simp [BitVec.getLsbD_of_ge x i (Nat.le_of_not_lt hi)]

theorem mask_eq_iff_shift_eq (x y : BitVec 128) :
    x &&& (BitVec.allOnes 128 <<< 64) = y &&& (BitVec.allOnes 128 <<< 64) ↔
      x >>> 64 = y >>> 64 := by
  constructor
  · intro hmask
    apply BitVec.eq_of_getLsbD_eq
    intro i _
    have hbit := congrArg (fun bits => bits.getLsbD (64 + i)) hmask
    simp only [getLsbD_mask] at hbit
    simpa using hbit
  · intro hshift
    apply BitVec.eq_of_getLsbD_eq
    intro i _
    rw [getLsbD_mask, getLsbD_mask]
    by_cases hlow : 64 ≤ i
    · have hbit := congrArg (fun bits => bits.getLsbD (i - 64)) hshift
      simp only [BitVec.getLsbD_ushiftRight, Nat.add_sub_of_le hlow] at hbit
      rw [hbit]
    · simp [hlow]

/-- Buckets are shared by exactly the addresses that count as one source. -/
theorem bucket_eq_iff (a b : IpAddr) :
    bucket a = bucket b ↔ SameShare a b := by
  have hfold : ∀ ip, bucket ip = match fold ip with
      | .v4 bits => .v4 bits
      | .v6 bits => .v6 (bits &&& (BitVec.allOnes 128 <<< 64)) := by
    intro ip
    cases ip with
    | v4 bits => rfl
    | v6 bits =>
        simp only [bucket, fold]
        cases toIpv4Mapped bits <;> rfl
  rw [hfold a, hfold b, SameShare]
  cases fold a with
  | v4 x =>
      cases fold b with
      | v4 y => simp
      | v6 y => simp
  | v6 x =>
      cases fold b with
      | v4 y => simp
      | v6 y => simp only [IpAddr.v6.injEq, mask_eq_iff_shift_eq]

/-! The books: what the counters say of the permits that are out. -/

structure Books (maxTotal maxPerIp : Nat) (s : State) : Prop where
  limits : s.quota.maxTotal = maxTotal ∧ s.quota.maxPerIp = maxPerIp
  permits : ∀ holder ∈ s.live, holder.permit.ip = bucket holder.source
  total : s.quota.total = s.live.length
  perIp : ∀ key n, s.quota.perIp.lookup key = some n ↔
    0 < n ∧ n = heldBy s.live key
  total_le : s.quota.total ≤ maxTotal
  heldBy_le : ∀ key, heldBy s.live key ≤ maxPerIp

theorem tryAcquire_eq_some {q q' : ConnQuota} {ip : IpAddr}
    {permit : ConnPermit} :
    q.tryAcquire ip = some (permit, q') ↔
      q.total < q.maxTotal ∧ q.held (bucket ip) < q.maxPerIp ∧
        permit = ⟨bucket ip⟩ ∧ q' = {
          q with
          perIp := q.perIp.insert (bucket ip) (q.held (bucket ip) + 1)
          total := q.total + 1 } := by
  unfold ConnQuota.tryAcquire
  split_ifs with htotal hshare
  · simp [Nat.not_lt.mpr htotal]
  · simp [Nat.not_lt.mpr hshare]
  · simp [Nat.lt_of_not_le htotal, Nat.lt_of_not_le hshare, eq_comm]

theorem heldBy_cons (holder : Holder) (live : List Holder) (key : IpAddr) :
    heldBy (holder :: live) key =
      heldBy live key + if bucket holder.source = key then 1 else 0 := by
  simp [heldBy, List.countP_cons]

theorem heldBy_erase {holder : Holder} {live : List Holder}
    (hmem : holder ∈ live) (key : IpAddr) :
    heldBy live key =
      heldBy (live.erase holder) key +
        if bucket holder.source = key then 1 else 0 := by
  rw [← heldBy_cons]
  exact (List.perm_cons_erase hmem).countP_eq _

theorem init_books (maxTotal maxPerIp : Nat) :
    Books maxTotal maxPerIp (init maxTotal maxPerIp) where
  limits := ⟨rfl, rfl⟩
  permits := nofun
  total := rfl
  perIp key n := by
    constructor
    · intro hentry
      cases hentry
    · intro hboth
      obtain ⟨hpos, rfl⟩ := hboth
      exact absurd hpos (lt_irrefl 0)
  total_le := Nat.zero_le _
  heldBy_le _ := Nat.zero_le _

namespace Books

variable {maxTotal maxPerIp : Nat} {s : State}

theorem held (hs : Books maxTotal maxPerIp s) (key : IpAddr) :
    s.quota.held key = heldBy s.live key := by
  unfold ConnQuota.held
  cases hentry : s.quota.perIp.lookup key with
  | some n => exact ((hs.perIp key n).mp hentry).2
  | none =>
      apply Eq.symm
      apply Nat.eq_zero_of_not_pos
      intro hpos
      rw [(hs.perIp key _).mpr ⟨hpos, rfl⟩] at hentry
      cases hentry

/-- What dropping a live permit subtracts from is there. -/
theorem entry (hs : Books maxTotal maxPerIp s) {holder : Holder}
    (hmem : holder ∈ s.live) :
    0 < heldBy s.live (bucket holder.source) ∧
      s.quota.perIp.lookup holder.permit.ip =
        some (heldBy s.live (bucket holder.source)) := by
  have hpos : 0 < heldBy s.live (bucket holder.source) :=
    List.countP_pos_iff.mpr ⟨holder, hmem, by simp⟩
  refine ⟨hpos, ?_⟩
  rw [hs.permits holder hmem]
  exact (hs.perIp _ _).mpr ⟨hpos, rfl⟩

theorem acquired (hs : Books maxTotal maxPerIp s) {ip : IpAddr}
    {permit : ConnPermit} {quota : ConnQuota}
    (hacquire : s.quota.tryAcquire ip = some (permit, quota)) :
    Books maxTotal maxPerIp
      { quota := quota, live := ⟨ip, permit⟩ :: s.live } := by
  obtain ⟨htotal, hshare, rfl, rfl⟩ := tryAcquire_eq_some.mp hacquire
  rw [hs.held, hs.limits.2] at hshare
  rw [hs.limits.1] at htotal
  refine ⟨hs.limits, ?_, ?_, ?_, htotal, ?_⟩
  · intro holder hmem
    rcases List.mem_cons.mp hmem with rfl | hold
    · rfl
    · exact hs.permits holder hold
  · simp [hs.total]
  · intro key n
    rw [heldBy_cons, Table.lookup_insert_eq_some, hs.held, hs.perIp]
    by_cases hsame : key = bucket ip
    · subst hsame
      simp only [true_and, ne_eq, not_true_eq_false, false_and, or_false,
        if_true]
      omega
    · simp [hsame, Ne.symm hsame]
  · intro key
    rw [heldBy_cons]
    split_ifs with hsame
    · subst hsame
      exact hshare
    · exact hs.heldBy_le key

theorem dropped (hs : Books maxTotal maxPerIp s) {holder : Holder}
    (hmem : holder ∈ s.live) :
    Books maxTotal maxPerIp {
      quota := s.quota.release holder.permit
      live := s.live.erase holder } := by
  obtain ⟨hpos, hentry⟩ := hs.entry hmem
  have hown := heldBy_erase hmem (bucket holder.source)
  rw [if_pos rfl] at hown
  have hrelease : s.quota.release holder.permit = {
      s.quota with
      total := s.quota.total - 1
      perIp :=
        if heldBy (s.live.erase holder) (bucket holder.source) = 0 then
          s.quota.perIp.erase (bucket holder.source)
        else s.quota.perIp.insert (bucket holder.source)
          (heldBy (s.live.erase holder) (bucket holder.source)) } := by
    rw [ConnQuota.release, hentry, hown, hs.permits holder hmem]
    rfl
  rw [hrelease]
  refine ⟨hs.limits, ?_, ?_, ?_, ?_, ?_⟩
  · intro other hother
    exact hs.permits other (List.mem_of_mem_erase hother)
  · rw [List.length_erase_of_mem hmem, hs.total]
  · intro key n
    by_cases hsame : key = bucket holder.source
    · subst hsame
      dsimp only
      split_ifs with hzero
      · rw [AList.lookup_erase, hzero]
        simp
        omega
      · rw [AList.lookup_insert, Option.some.injEq]
        omega
    · have hother := heldBy_erase hmem key
      rw [if_neg (Ne.symm hsame), Nat.add_zero] at hother
      rw [← hother, ← hs.perIp]
      dsimp only
      split_ifs
      · rw [AList.lookup_erase_ne hsame]
      · rw [AList.lookup_insert_ne hsame]
  · exact le_trans (Nat.sub_le _ _) hs.total_le
  · intro key
    have hother := heldBy_erase hmem key
    exact le_trans (Nat.le.intro hother.symm) (hs.heldBy_le key)

theorem step (hs : Books maxTotal maxPerIp s) {s' : State} {action : Action}
    (h : Admission.step s action = some s') : Books maxTotal maxPerIp s' := by
  cases action with
  | tryAcquire ip =>
      cases hacquire : s.quota.tryAcquire ip with
      | none =>
          simp only [Admission.step, hacquire, Option.some.injEq] at h
          subst h
          exact hs
      | some admitted =>
          simp only [Admission.step, hacquire, Option.some.injEq] at h
          subst h
          exact hs.acquired hacquire
  | drop holder =>
      simp only [Admission.step] at h
      split_ifs at h with hmem
      cases h
      exact hs.dropped hmem

end Books

theorem books_run {maxTotal maxPerIp : Nat} {actions : List Action} {s : State}
    (hrun : run step (init maxTotal maxPerIp) actions = some s) :
    Books maxTotal maxPerIp s :=
  run_invariant step (fun _ _ _ hs h => hs.step h)
    (init_books maxTotal maxPerIp) hrun

/-- The counters are the live permits, nothing underflows, and admission is
decided by the permits that are out. -/
structure Exact (maxTotal maxPerIp : Nat) (s : State) : Prop where
  total : s.quota.total = s.live.length
  perIp : ∀ key n, s.quota.perIp.lookup key = some n ↔
    0 < n ∧ n = heldBy s.live key
  total_le : s.quota.total ≤ maxTotal
  heldBy_le : ∀ key, heldBy s.live key ≤ maxPerIp
  droppable : ∀ holder ∈ s.live, 1 ≤ s.quota.total ∧
    ∃ held, s.quota.perIp.lookup holder.permit.ip = some held ∧ 1 ≤ held
  refused : ∀ ip, s.quota.tryAcquire ip = none →
    step s (.tryAcquire ip) = some s
  admitted : ∀ ip, (s.quota.tryAcquire ip).isSome = true ↔
    s.quota.total < maxTotal ∧ heldBy s.live (bucket ip) < maxPerIp

/-- In every state of every run the accounting is exact, and two addresses are
counted together if and only if they share an IPv4 address or an IPv6 /64. -/
theorem accounting_exact (maxTotal maxPerIp : Nat) (actions : List Action)
    (s : State) (hrun : run step (init maxTotal maxPerIp) actions = some s) :
    Exact maxTotal maxPerIp s ∧
      ∀ a b, bucket a = bucket b ↔ SameShare a b := by
  have hs := books_run hrun
  refine ⟨⟨hs.total, hs.perIp, hs.total_le, hs.heldBy_le, ?_, ?_, ?_⟩,
    bucket_eq_iff⟩
  · intro holder hmem
    obtain ⟨hpos, hentry⟩ := hs.entry hmem
    refine ⟨?_, _, hentry, hpos⟩
    rw [hs.total]
    exact List.length_pos_of_mem hmem
  · intro ip hrefused
    rw [step, hrefused]
  · intro ip
    rw [← hs.held, ← hs.limits.1, ← hs.limits.2, Option.isSome_iff_exists]
    constructor
    · intro hadmitted
      obtain ⟨⟨permit, quota⟩, hacquire⟩ := hadmitted
      obtain ⟨htotal, hshare, -⟩ := tryAcquire_eq_some.mp hacquire
      exact ⟨htotal, hshare⟩
    · intro hroom
      exact ⟨(⟨bucket ip⟩, _),
        tryAcquire_eq_some.mpr ⟨hroom.1, hroom.2, rfl, rfl⟩⟩

def mappedAndPlain : List Action :=
  [.tryAcquire (.v6 0xFFFFC0000201), .tryAcquire (.v4 0xC0000201),
    .tryAcquire (.v4 0xC0000201),
    .drop ⟨.v6 0xFFFFC0000201, ⟨.v4 0xC0000201⟩⟩]

theorem accounting_exact_mappedAndPlain :
    ∃ s, run step (init 3 2) mappedAndPlain = some s ∧ Exact 3 2 s ∧
      ∀ a b, bucket a = bucket b ↔ SameShare a b := by
  have hsome : (run step (init 3 2) mappedAndPlain).isSome = true := by
    decide
  obtain ⟨s, hrun⟩ := Option.isSome_iff_exists.mp hsome
  exact ⟨s, hrun, accounting_exact 3 2 mappedAndPlain s hrun⟩

end Loft.Admission
