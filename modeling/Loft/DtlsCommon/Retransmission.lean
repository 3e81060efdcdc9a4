import Mathlib.Data.List.Induction
import Loft.DtlsCommon

namespace Loft.DtlsCommon

open Loft.Data
open Loft.Coap

/-! Retransmitted requests leave no trace: a run with extra copies in it and
the same run without them, compared call by call. -/

/-- The clock never stands still from one call to the next. -/
structure Clocked (arrivals : List Arrival) : Prop where
  within : ∀ a ∈ arrivals, a.got ≤ a.recorded
  between : arrivals.Pairwise fun a b => a.recorded < b.got

theorem Clocked.sublist {arrivals arrivals' : List Arrival}
    (hclock : Clocked arrivals) (hsub : arrivals'.Sublist arrivals) :
    Clocked arrivals' :=
  ⟨fun a ha => hclock.within a (hsub.subset ha), hclock.between.sublist hsub⟩

theorem Clocked.concat {arrivals : List Arrival} {a : Arrival}
    (hclock : Clocked (arrivals ++ [a])) :
    Clocked arrivals ∧ a.got ≤ a.recorded ∧
      ∀ b ∈ arrivals, b.recorded < a.got := by
  refine ⟨hclock.sublist (List.sublist_append_left _ _),
    hclock.within a (by simp), ?_⟩
  intro b hb
  exact (List.pairwise_append.mp hclock.between).2.2 b hb a (by simp)

theorem Clocked.bounded {arrivals : List Arrival} (hclock : Clocked arrivals) :
    ∃ now, ∀ a ∈ arrivals, a.recorded < now := by
  rcases List.eq_nil_or_concat' arrivals with rfl | ⟨front, a, rfl⟩
  · exact ⟨0, by simp⟩
  · obtain ⟨-, hwithin, hbefore⟩ := hclock.concat
    refine ⟨a.recorded + 1, fun b hb => ?_⟩
    rcases List.mem_append.mp hb with hfront | hlast
    · exact Nat.lt_succ_of_le
        (Nat.le_trans (Nat.le_of_lt (hbefore b hfront)) hwithin)
    · rw [List.mem_singleton.mp hlast]
      exact Nat.lt_succ_self _

theorem after_concat (answer : Answer) (s : Session) (arrivals : List Arrival)
    (a : Arrival) :
    after answer s (arrivals ++ [a]) =
      (processDatagram answer (after answer s arrivals) a).2 := by
  simp [after]

theorem after_limits (answer : Answer) (s : Session) (arrivals : List Arrival) :
    (after answer s arrivals).dedup.ttl = s.dedup.ttl ∧
      (after answer s arrivals).dedup.cap = s.dedup.cap := by
  induction arrivals using List.reverseRecOn with
  | nil => exact ⟨rfl, rfl⟩
  | append_singleton arrivals a ih =>
      rw [after_concat]
      have hstep := processDatagram_step answer (after answer s arrivals) a
      generalize processDatagram answer (after answer s arrivals) a = result
        at hstep ⊢
      cases hstep <;> exact ih

/-! What the cache holds of the executions so far. -/

/-- Before any clock reading `now` or later: every entry is an execution's,
and an execution's entry is there until `cap` others or `ttl` have passed. -/
structure Recorded (s : Session) (now : Instant) : Prop where
  ascending : s.history.Pairwise fun x y => x.recorded < y.recorded
  past : ∀ x ∈ s.history, x.recorded < now
  sound : ∀ mid entry, s.dedup.entries.lookup mid = some entry →
    ∃ x ∈ s.history, x.messageId = mid ∧ x.reply = entry.1 ∧
      x.recorded = entry.2
  kept : ∀ front x since, s.history = front ++ x :: since →
    since.length < s.dedup.cap →
      s.dedup.entries.lookup x.messageId = some (x.reply, x.recorded) ∨
        s.dedup.ttl ≤ now.durationSince x.recorded

namespace Recorded

theorem new (seed : UInt16) (now : Instant) :
    Recorded (Session.new seed) now where
  ascending := List.Pairwise.nil
  past := by simp [Session.new]
  sound := by simp [Session.new, DedupCache.new]
  kept := by simp [Session.new]

theorem mono {s : Session} {now later : Instant} (hs : Recorded s now)
    (hle : now ≤ later) : Recorded s later where
  ascending := hs.ascending
  past x hx := Nat.lt_of_lt_of_le (hs.past x hx) hle
  sound := hs.sound
  kept front x since hsplit hlen := by
    rcases hs.kept front x since hsplit hlen with hentry | hexpired
    · exact .inl hentry
    · exact .inr (Nat.le_trans hexpired (Nat.sub_le_sub_right hle x.recorded))

theorem prune {s : Session} {now : Instant} (hs : Recorded s now) :
    Recorded { s with dedup := s.dedup.prune now } now where
  ascending := hs.ascending
  past := hs.past
  sound mid entry hentry := by
    rw [DedupCache.prune_lookup, Option.filter_eq_some_iff] at hentry
    exact hs.sound mid entry hentry.1
  kept front x since hsplit hlen := by
    rcases hs.kept front x since hsplit hlen with hentry | hexpired
    · by_cases hlive : now.durationSince x.recorded < s.dedup.ttl
      · exact .inl (DedupCache.prune_lookup_of_live hentry hlive)
      · exact .inr (Nat.not_lt.mp hlive)
    · exact .inr hexpired

/-- If nothing in the cache is older than `x`, there is no more in it than has
been executed since. -/
theorem len_le {s : Session} {now : Instant} (hs : Recorded s now)
    {front since : List Execution} {x : Execution}
    (hsplit : s.history = front ++ x :: since)
    (hyoung : ∀ mid entry, s.dedup.entries.lookup mid = some entry →
      x.recorded ≤ entry.2) :
    s.dedup.entries.len ≤ since.length + 1 := by
  have hasc := hs.ascending
  rw [hsplit, List.pairwise_append] at hasc
  have hkeys : s.dedup.entries.keys ⊆
      (x :: since).map Execution.messageId := by
    intro mid hmid
    obtain ⟨entry, hentry⟩ := Option.isSome_iff_exists.mp
      (AList.lookup_isSome.mpr (AList.mem_keys.mpr hmid))
    obtain ⟨y, hy, hmessage, -, hrecorded⟩ := hs.sound mid entry hentry
    rw [hsplit, List.mem_append] at hy
    rcases hy with hfront | hlate
    · have hlt := hasc.2.2 y hfront x List.mem_cons_self
      have hle := hyoung mid entry hentry
      rw [hrecorded] at hlt
      exact absurd hle (Nat.not_le.mpr hlt)
    · exact List.mem_map.mpr ⟨y, hlate, hmessage⟩
  have hcount :=
    (List.subperm_of_subset s.dedup.entries.keys_nodup hkeys).length_le
  simpa [Table.len, AList.keys, List.keys] using hcount

theorem older {s : Session} {now : Instant} (hs : Recorded s now)
    {front since : List Execution} {x : Execution}
    (hsplit : s.history = front ++ x :: since)
    (hlen : since.length + 1 < s.dedup.cap)
    (hfull : s.dedup.cap ≤ s.dedup.entries.len) :
    ∃ mid entry, s.dedup.entries.lookup mid = some entry ∧
      entry.2 < x.recorded := by
  by_contra hnone
  have hcount := hs.len_le hsplit fun mid entry hentry => by
    by_contra hlt
    exact hnone ⟨mid, entry, hentry, Nat.not_le.mp hlt⟩
  omega

theorem insert {s : Session} {now later recorded : Instant} {mid : UInt16}
    {x : Execution} {nextMid : UInt16} (hs : Recorded s now)
    (hmid : x.messageId = mid) (hrecorded : x.recorded = recorded)
    (hnow : now ≤ recorded) (hlater : recorded < later)
    (hnone : s.dedup.entries.lookup mid = none) :
    Recorded {
      dedup := s.dedup.insert recorded mid x.reply
      nextMid := nextMid
      history := s.history ++ [x] } later where
  ascending := by
    rw [List.pairwise_append]
    refine ⟨hs.ascending, List.pairwise_singleton _ _, ?_⟩
    intro y hy z hz
    rw [List.mem_singleton.mp hz, hrecorded]
    exact Nat.lt_of_lt_of_le (hs.past y hy) hnow
  past y hy := by
    rcases List.mem_append.mp hy with hold | hnew
    · exact Nat.lt_of_lt_of_le (hs.past y hold)
        (Nat.le_trans hnow (Nat.le_of_lt hlater))
    · rw [List.mem_singleton.mp hnew, hrecorded]
      exact hlater
  sound mid' entry hentry := by
    by_cases hsame : mid' = mid
    · rw [hsame, DedupCache.insert_lookup_self, Option.some.injEq] at hentry
      subst hentry
      exact ⟨x, by simp, hmid.trans hsame.symm, rfl, hrecorded⟩
    · rw [DedupCache.insert_lookup_ne _ _ _ hsame] at hentry
      obtain ⟨y, hy, hrest⟩ :=
        hs.sound mid' entry (DedupCache.makeRoom_lookup_some hentry)
      exact ⟨y, List.mem_append_left _ hy, hrest⟩
  kept front y since hsplit hlen := by
    rcases List.eq_nil_or_concat' since with rfl | ⟨since', z, rfl⟩
    · obtain ⟨-, hyx⟩ := List.append_inj' hsplit rfl
      cases hyx
      rw [hmid, hrecorded]
      exact .inl (DedupCache.insert_lookup_self _ _ _ _)
    · rw [← List.cons_append, ← List.append_assoc] at hsplit
      obtain ⟨hhistory, -⟩ := List.append_inj' hsplit rfl
      rw [List.length_append, List.length_singleton] at hlen
      rcases hs.kept front y since' hhistory (by
        exact Nat.lt_of_succ_lt hlen) with hentry | hexpired
      · have hne : y.messageId ≠ mid := by
          intro hsame
          rw [hsame, hnone] at hentry
          cases hentry
        apply Or.inl
        rw [DedupCache.insert_lookup_ne _ _ _ hne]
        exact DedupCache.makeRoom_lookup hentry fun hfull =>
          hs.older hhistory hlen hfull
      · have hle : now ≤ later := Nat.le_trans hnow (Nat.le_of_lt hlater)
        exact .inr (Nat.le_trans hexpired
          (Nat.sub_le_sub_right hle y.recorded))

theorem step {answer : Answer} {s : Session} {a : Arrival} {later : Instant}
    (hs : Recorded s a.got) (hwithin : a.got ≤ a.recorded)
    (hlater : a.recorded < later) :
    Recorded (processDatagram answer s a).2 later := by
  have hstep := processDatagram_step answer s a
  generalize processDatagram answer s a = result at hstep ⊢
  have hle : a.got ≤ later := Nat.le_trans hwithin (Nat.le_of_lt hlater)
  cases hstep with
  | ignored hother => exact hs.mono hle
  | replayed hreq hentry => exact hs.prune.mono hle
  | @executed dgram hreq hnone =>
      exact hs.prune.insert (x := execution answer s dgram a) rfl rfl hwithin
        hlater hnone

theorem run (answer : Answer) (seed : UInt16) {arrivals : List Arrival}
    (hclock : Clocked arrivals) {now : Instant}
    (hnow : ∀ a ∈ arrivals, a.recorded < now) :
    Recorded (after answer (Session.new seed) arrivals) now := by
  induction arrivals using List.reverseRecOn generalizing now with
  | nil => exact new seed now
  | append_singleton arrivals a ih =>
      obtain ⟨hclock', hwithin, hbefore⟩ := hclock.concat
      rw [after_concat]
      exact (ih hclock' hbefore).step hwithin (hnow a (by simp))

end Recorded

/-! Two runs side by side. -/

/-- Nothing that happens at `now` or later can tell the sessions apart. -/
structure Alike (s s' : Session) (now : Instant) : Prop where
  history : s.history = s'.history
  nextMid : s.nextMid = s'.nextMid
  dedup : ∀ later, now ≤ later → s.dedup.prune later = s'.dedup.prune later

namespace Alike

theorem refl (s : Session) (now : Instant) : Alike s s now :=
  ⟨rfl, rfl, fun _ _ => rfl⟩

theorem mono {s s' : Session} {now later : Instant} (h : Alike s s' now)
    (hle : now ≤ later) : Alike s s' later :=
  ⟨h.history, h.nextMid, fun t ht => h.dedup t (Nat.le_trans hle ht)⟩

theorem processRequest_eq {answer : Answer} {s s' : Session} {dgram : Datagram}
    {a : Arrival} (h : Alike s s' a.got) :
    processRequest answer s dgram a = processRequest answer s' dgram a := by
  have hdedup := h.dedup a.got (Nat.le_refl _)
  obtain ⟨dedup, nextMid, history⟩ := s
  obtain ⟨dedup', nextMid', history'⟩ := s'
  obtain rfl : history = history' := h.history
  obtain rfl : nextMid = nextMid' := h.nextMid
  simp only [processRequest, DedupCache.get, hdedup, respond, execution]

theorem both {answer : Answer} {s s' : Session} {a : Arrival}
    {later : Instant} (h : Alike s s' a.got) (hlater : a.got ≤ later) :
    (processDatagram answer s' a).1 = (processDatagram answer s a).1 ∧
      Alike (processDatagram answer s a).2 (processDatagram answer s' a).2
        later := by
  by_cases hreq : ∃ dgram, RequestArrival a.bytes dgram
  · obtain ⟨dgram, hreq⟩ := hreq
    rw [processDatagram_request hreq, processDatagram_request hreq,
      h.processRequest_eq]
    exact ⟨rfl, refl _ later⟩
  · rw [not_exists] at hreq
    obtain ⟨hs, hreply⟩ := processDatagram_other answer s hreq
    obtain ⟨hs', -⟩ := processDatagram_other answer s' hreq
    rw [hs, hs']
    exact ⟨hreply s', h.mono hlater⟩

end Alike

/-- An execution under `mid` was answered with `reply`, less than `ttl` before
`now`, and fewer than `cap` requests have been recorded since. -/
def Live (ttl cap : Nat) (history : List Execution) (mid : UInt16)
    (reply : Octets) (now : Instant) : Prop :=
  ∃ front x since, history = front ++ x :: since ∧
    x.messageId = mid ∧ x.reply = reply ∧
    now.durationSince x.recorded < ttl ∧ since.length < cap

theorem Recorded.lookup_of_live {s : Session} {mid : UInt16} {reply : Octets}
    {now : Instant} (hs : Recorded s now)
    (hlive : Live s.dedup.ttl s.dedup.cap s.history mid reply now) :
    ∃ recorded, (s.dedup.prune now).entries.lookup mid =
      some (reply, recorded) := by
  obtain ⟨front, x, since, hsplit, rfl, rfl, hyoung, hlen⟩ := hlive
  rcases hs.kept front x since hsplit hlen with hentry | hexpired
  · exact ⟨x.recorded, DedupCache.prune_lookup_of_live hentry hyoung⟩
  · exact absurd hyoung (Nat.not_lt.mpr hexpired)

/-- Only the session in the second run gets the copy. -/
theorem Alike.copy {answer : Answer} {s s' : Session} {a : Arrival}
    {dgram : Datagram} {reply : Octets} {later : Instant}
    (h : Alike s s' a.got) (hs : Recorded s a.got)
    (hreq : RequestArrival a.bytes dgram)
    (hlive : Live s.dedup.ttl s.dedup.cap s.history dgram.messageId reply a.got)
    (hlater : a.got ≤ later) :
    (processDatagram answer s' a).1 = some reply ∧
      Alike s (processDatagram answer s' a).2 later := by
  obtain ⟨recorded, hentry⟩ := hs.lookup_of_live hlive
  rw [h.dedup a.got (Nat.le_refl _)] at hentry
  rw [processDatagram_request hreq, processRequest, DedupCache.get, hentry]
  refine ⟨rfl, h.history, h.nextMid, fun t ht => ?_⟩
  have hle : a.got ≤ t := Nat.le_trans hlater ht
  rw [h.dedup t hle]
  exact (DedupCache.prune_prune s'.dedup hle).symm

/-! Runs with copies put in. -/

inductive Item
  | original (a : Arrival)
  | copy (a : Arrival)
  deriving DecidableEq, Repr

namespace Item

def arrival : Item → Arrival
  | .original a => a
  | .copy a => a

def asOriginal : Item → Option Arrival
  | .original a => some a
  | .copy _ => none

end Item

def arrivals (items : List Item) : List Arrival :=
  items.map Item.arrival

def originals (items : List Item) : List Arrival :=
  items.filterMap Item.asOriginal

theorem originals_sublist (items : List Item) :
    (originals items).Sublist (arrivals items) := by
  induction items with
  | nil => exact List.Sublist.refl []
  | cons item items ih =>
      cases item with
      | original a => exact ih.cons_cons a
      | copy a => exact ih.cons a

/-- `a` repeats the bytes of a datagram in `past` that was answered `reply`,
and the cache entry of that answer is still live when `a` comes. -/
def CopyOf (answer : Answer) (s : Session) (past : List Arrival) (a : Arrival)
    (reply : Octets) : Prop :=
  ∃ front b back dgram, past = front ++ b :: back ∧ b.bytes = a.bytes ∧
    RequestArrival a.bytes dgram ∧
    (processDatagram answer (after answer s front) b).1 = some reply ∧
    Live (secs 150) 256 (after answer s past).history dgram.messageId reply
      a.got

/-- Every copy repeats an answered request within its window. -/
def Copies (answer : Answer) (s : Session) (items : List Item) : Prop :=
  ∀ front a back, items = front ++ .copy a :: back →
    ∃ reply, CopyOf answer s (originals front) a reply

theorem Copies.front {answer : Answer} {s : Session} {front back : List Item}
    (hcopies : Copies answer s (front ++ back)) : Copies answer s front := by
  intro front' a back' hsame
  subst hsame
  exact hcopies front' a (back' ++ back) (by simp)

private theorem live_limits {answer : Answer} {seed : UInt16}
    {past : List Arrival} {mid : UInt16} {reply : Octets} {now : Instant}
    (hlive : Live (secs 150) 256
      (after answer (Session.new seed) past).history mid reply now) :
    Live (after answer (Session.new seed) past).dedup.ttl
      (after answer (Session.new seed) past).dedup.cap
      (after answer (Session.new seed) past).history mid reply now := by
  obtain ⟨httl, hcap⟩ := after_limits answer (Session.new seed) past
  rw [httl, hcap]
  exact hlive

theorem alike_run (answer : Answer) (seed : UInt16) {items : List Item}
    (hclock : Clocked (arrivals items))
    (hcopies : Copies answer (Session.new seed) items) {now : Instant}
    (hnow : ∀ a ∈ arrivals items, a.recorded < now) :
    Alike (after answer (Session.new seed) (originals items))
      (after answer (Session.new seed) (arrivals items)) now := by
  induction items using List.reverseRecOn generalizing now with
  | nil => exact Alike.refl _ _
  | append_singleton items item ih =>
      have harrivals : arrivals (items ++ [item]) =
          arrivals items ++ [item.arrival] := by simp [arrivals]
      rw [harrivals] at hclock hnow ⊢
      obtain ⟨hclock', hwithin, hbefore⟩ := hclock.concat
      have hlater : item.arrival.got ≤ now :=
        Nat.le_trans hwithin (Nat.le_of_lt (hnow _ (by simp)))
      have halike := ih hclock' hcopies.front hbefore
      rw [after_concat]
      cases item with
      | original a =>
          have horiginals : originals (items ++ [.original a]) =
              originals items ++ [a] := by simp [originals, Item.asOriginal]
          rw [horiginals, after_concat]
          exact (halike.both hlater).2
      | copy a =>
          have horiginals : originals (items ++ [.copy a]) =
              originals items := by simp [originals, Item.asOriginal]
          obtain ⟨reply, -, -, -, dgram, -, -, hreq, -, hlive⟩ :=
            hcopies items a [] rfl
          rw [horiginals]
          have hs := Recorded.run answer seed
            (hclock'.sublist (originals_sublist items))
            fun b hb => hbefore b ((originals_sublist items).subset hb)
          exact (halike.copy hs hreq (live_limits hlive) hlater).2

private theorem clocked_front {front back : List Item} {item : Item}
    (hclock : Clocked (arrivals (front ++ item :: back))) :
    Clocked (arrivals front) ∧ item.arrival.got ≤ item.arrival.recorded ∧
      ∀ a ∈ arrivals front, a.recorded < item.arrival.got := by
  have hsub : (arrivals front ++ [item.arrival]).Sublist
      (arrivals (front ++ item :: back)) := by
    simp [arrivals]
  exact (hclock.sublist hsub).concat

/-- Copies of answered requests, put into a run within their windows, neither
reach the handler nor change any other reply; each is answered with the bytes
of the original reply. -/
theorem retransmission_insensitive (answer : Answer) (seed : UInt16)
    (items : List Item) (hclock : Clocked (arrivals items))
    (hcopies : Copies answer (Session.new seed) items) :
    (after answer (Session.new seed) (arrivals items)).history =
        (after answer (Session.new seed) (originals items)).history ∧
      (∀ front a back, items = front ++ .original a :: back →
        (processDatagram answer
            (after answer (Session.new seed) (arrivals front)) a).1 =
          (processDatagram answer
            (after answer (Session.new seed) (originals front)) a).1) ∧
      (∀ front a back reply, items = front ++ .copy a :: back →
        CopyOf answer (Session.new seed) (originals front) a reply →
          (processDatagram answer
            (after answer (Session.new seed) (arrivals front)) a).1 =
              some reply) ∧
      ∀ front back, items = front ++ back →
        (after answer (Session.new seed)
          (arrivals front)).dedup.entries.len ≤ 256 := by
  refine ⟨?_, ?_, ?_, ?_⟩
  · obtain ⟨now, hnow⟩ := hclock.bounded
    exact (alike_run answer seed hclock hcopies hnow).history.symm
  · intro front a back hsame
    subst hsame
    obtain ⟨hclock', hwithin, hbefore⟩ := clocked_front hclock
    exact ((alike_run answer seed hclock' hcopies.front hbefore).both
      (Nat.le_refl _)).1
  · intro front a back reply hsame hboth
    subst hsame
    obtain ⟨-, -, -, dgram, -, -, hreq, -, hlive⟩ := hboth
    obtain ⟨hclock', hwithin, hbefore⟩ := clocked_front hclock
    have hs := Recorded.run answer seed
      (hclock'.sublist (originals_sublist front))
      fun b hb => hbefore b ((originals_sublist front).subset hb)
    exact ((alike_run answer seed hclock' hcopies.front hbefore).copy hs hreq
      (live_limits hlive) (Nat.le_refl _)).1
  · intro front back hsame
    subst hsame
    exact after_len_le answer (Session.new seed) _ (Nat.zero_lt_succ _)
      (Nat.zero_le _)

def retransmittedGet : List Item :=
  [.original ⟨[0x50, 0x01, 0x00, 0x07], 1, 2, 3⟩,
    .copy ⟨[0x50, 0x01, 0x00, 0x07], 4, 4, 4⟩,
    .original ⟨[0x50, 0x01, 0x00, 0x08], 5, 6, 7⟩]

def contentAnswer : Answer :=
  fun _ => { code := Code.content }

private theorem retransmittedGet_copies :
    Copies contentAnswer (Session.new 0) retransmittedGet := by
  intro front a back hsplit
  obtain ⟨rfl, rfl⟩ : front = retransmittedGet.take 1 ∧
      a = ⟨[0x50, 0x01, 0x00, 0x07], 4, 4, 4⟩ := by
    match front with
    | [] => simp [retransmittedGet] at hsplit
    | [x] => simp_all [retransmittedGet]
    | [x, y] => simp [retransmittedGet] at hsplit
    | x :: y :: z :: rest => simp [retransmittedGet] at hsplit
  refine ⟨[0x50, 0x45, 0x00, 0x01], [], _, [],
    { messageType := .nonConfirmable, messageId := 7,
      message := { code := Code.get } }, rfl, rfl, ⟨?_, ?_⟩, ?_, ?_⟩
  · decide +kernel
  · decide +kernel
  · decide +kernel
  · exact ⟨[], ⟨7, { code := Code.get }, 2, [0x50, 0x45, 0x00, 0x01], 3⟩, [],
      by decide +kernel, rfl, rfl, by decide, by decide⟩

theorem retransmission_insensitive_get :
    (after contentAnswer (Session.new 0) (arrivals retransmittedGet)).history =
        (after contentAnswer (Session.new 0)
          (originals retransmittedGet)).history ∧
      (∀ front a back, retransmittedGet = front ++ .original a :: back →
        (processDatagram contentAnswer
            (after contentAnswer (Session.new 0) (arrivals front)) a).1 =
          (processDatagram contentAnswer
            (after contentAnswer (Session.new 0) (originals front)) a).1) ∧
      (∀ front a back reply, retransmittedGet = front ++ .copy a :: back →
        CopyOf contentAnswer (Session.new 0) (originals front) a reply →
          (processDatagram contentAnswer
            (after contentAnswer (Session.new 0) (arrivals front)) a).1 =
              some reply) ∧
      ∀ front back, retransmittedGet = front ++ back →
        (after contentAnswer (Session.new 0)
          (arrivals front)).dedup.entries.len ≤ 256 :=
  retransmission_insensitive contentAnswer 0 retransmittedGet
    ⟨by decide, by decide⟩ retransmittedGet_copies

end Loft.DtlsCommon
