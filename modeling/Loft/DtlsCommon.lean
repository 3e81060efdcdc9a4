import Mathlib.Data.List.MinMax
import Loft.Coap.Udp
import Loft.Handler

namespace Loft.DtlsCommon

open Loft.Data
open Loft.Coap

/-! Messaging-layer semantics shared by the DTLS listeners: what one decrypted
datagram is answered with, and duplicate detection with response replay. -/

structure DedupCache where
  entries : Table UInt16 (Octets × Instant)
  ttl : Nat
  cap : Nat

namespace DedupCache

def new : DedupCache where
  entries := ∅
  ttl := secs 150
  cap := 256

def prune (c : DedupCache) (now : Instant) : DedupCache :=
  { c with
    entries := c.entries.retain fun _ entry =>
      decide (now.durationSince entry.2 < c.ttl) }

def get (c : DedupCache) (now : Instant) (mid : UInt16) :
    Option Octets × DedupCache :=
  (((c.prune now).entries.lookup mid).map Prod.fst, c.prune now)

def oldest (c : DedupCache) : Option UInt16 :=
  (c.entries.entries.argmin fun entry => entry.2.2).map Sigma.fst

def makeRoom (c : DedupCache) : DedupCache :=
  if c.cap ≤ c.entries.len then
    match c.oldest with
    | some mid => { c with entries := c.entries.erase mid }
    | none => c
  else c

def insert (c : DedupCache) (now : Instant) (mid : UInt16)
    (response : Octets) : DedupCache :=
  { c with entries := c.makeRoom.entries.insert mid (response, now) }

end DedupCache

/-- One request that reached the handler: the reply and when it was put into
the cache. -/
structure Execution where
  messageId : UInt16
  request : Message
  served : Instant
  reply : Octets
  recorded : Instant
  deriving DecidableEq, Repr

/-- The handler, as a function of everything it was invoked on and when, the
request at hand last. -/
abbrev Answer := List (Message × Instant) → Message

structure Session where
  dedup : DedupCache
  nextMid : UInt16
  history : List Execution

def Session.new (seed : UInt16) : Session where
  dedup := DedupCache.new
  nextMid := seed
  history := []

/-- A datagram and the clock readings of the call that handles it: in `get`,
in the handler, and in `insert`. -/
structure Arrival where
  bytes : Octets
  got : Instant
  served : Instant
  recorded : Instant
  deriving DecidableEq, Repr

def replyHeader (dgram : Datagram) (nextMid : UInt16) :
    MessageType × UInt16 × UInt16 :=
  match dgram.messageType with
  | .confirmable => (.acknowledgement, dgram.messageId, nextMid)
  | _ => (.nonConfirmable, nextMid + 1, nextMid + 1)

def respond (answer : Answer) (s : Session) (dgram : Datagram) (a : Arrival) :
    Octets :=
  Datagram.encode {
    messageType := (replyHeader dgram s.nextMid).1
    messageId := (replyHeader dgram s.nextMid).2.1
    message := answer (s.history.map (fun x => (x.request, x.served)) ++
      [(dgram.message, a.served)]) }

def execution (answer : Answer) (s : Session) (dgram : Datagram)
    (a : Arrival) : Execution where
  messageId := dgram.messageId
  request := dgram.message
  served := a.served
  reply := respond answer s dgram a
  recorded := a.recorded

/-- The request branch: answered from the cache, or executed and recorded. -/
def processRequest (answer : Answer) (s : Session) (dgram : Datagram)
    (a : Arrival) : Option Octets × Session :=
  match s.dedup.get a.got dgram.messageId with
  | (some cached, dedup) => (some cached, { s with dedup := dedup })
  | (none, dedup) =>
      (some (respond answer s dgram a), {
        dedup := dedup.insert a.recorded dgram.messageId
          (respond answer s dgram a)
        nextMid := (replyHeader dgram s.nextMid).2.2
        history := s.history ++ [execution answer s dgram a] })

def processDatagram (answer : Answer) (s : Session) (a : Arrival) :
    Option Octets × Session :=
  match Datagram.decode a.bytes with
  | .error _ => (none, s)
  | .ok dgram =>
      -- an empty CON is a ping; its RST carries the message id
      if dgram.message.code = Code.empty then
        if dgram.messageType = .confirmable then
          (some (Datagram.encode {
            messageType := .reset
            messageId := dgram.messageId
            message := {} }), s)
        else (none, s)
      else if Code.isRequest dgram.message.code = false then (none, s)
      else processRequest answer s dgram a

def after (answer : Answer) (s : Session) (arrivals : List Arrival) : Session :=
  arrivals.foldl (fun s a => (processDatagram answer s a).2) s

/-! The cache. -/

namespace DedupCache

@[simp] theorem prune_ttl (c : DedupCache) (now : Instant) :
    (c.prune now).ttl = c.ttl :=
  rfl

@[simp] theorem prune_cap (c : DedupCache) (now : Instant) :
    (c.prune now).cap = c.cap :=
  rfl

@[simp] theorem insert_ttl (c : DedupCache) (now : Instant) (mid : UInt16)
    (response : Octets) : (c.insert now mid response).ttl = c.ttl :=
  rfl

@[simp] theorem insert_cap (c : DedupCache) (now : Instant) (mid : UInt16)
    (response : Octets) : (c.insert now mid response).cap = c.cap :=
  rfl

theorem prune_lookup (c : DedupCache) (now : Instant) (mid : UInt16) :
    (c.prune now).entries.lookup mid =
      (c.entries.lookup mid).filter fun entry =>
        decide (now.durationSince entry.2 < c.ttl) :=
  Table.lookup_retain _ _ _

theorem prune_lookup_of_live {c : DedupCache} {now at_ : Instant}
    {mid : UInt16} {reply : Octets}
    (hentry : c.entries.lookup mid = some (reply, at_))
    (hlive : now.durationSince at_ < c.ttl) :
    (c.prune now).entries.lookup mid = some (reply, at_) := by
  rw [prune_lookup, hentry, Option.filter_some, if_pos (by simpa using hlive)]

theorem prune_prune (c : DedupCache) {early late : Instant}
    (hle : early ≤ late) : (c.prune early).prune late = c.prune late := by
  have hmono (entry : Octets × Instant)
      (hlate : decide (late.durationSince entry.2 < c.ttl) = true) :
      decide (early.durationSince entry.2 < c.ttl) = true := by
    have hle : early.durationSince entry.2 ≤ late.durationSince entry.2 :=
      Nat.sub_le_sub_right hle entry.2
    exact decide_eq_true (Nat.lt_of_le_of_lt hle (of_decide_eq_true hlate))
  unfold prune
  dsimp only
  rw [Table.retain_retain _ _ _ fun _ => hmono]

theorem prune_len_le (c : DedupCache) (now : Instant) :
    (c.prune now).entries.len ≤ c.entries.len :=
  Table.len_retain_le _ _

theorem oldest_isSome {c : DedupCache} (hpos : 0 < c.entries.len) :
    ∃ mid entry, c.oldest = some mid ∧ c.entries.lookup mid = some entry ∧
      ∀ mid' entry', c.entries.lookup mid' = some entry' →
        entry.2 ≤ entry'.2 := by
  cases hmin : c.entries.entries.argmin fun entry => entry.2.2 with
  | none =>
      rw [List.argmin_eq_none] at hmin
      simp [Table.len, hmin] at hpos
  | some entry =>
      refine ⟨entry.1, entry.2, ?_, ?_, ?_⟩
      · rw [oldest, hmin, Option.map_some]
      · exact (Table.mem_entries_iff_lookup _ entry).mp (List.argmin_mem hmin)
      · intro mid' entry' hentry'
        have hmem := (Table.mem_entries_iff_lookup c.entries
          ⟨mid', entry'⟩).mpr hentry'
        exact List.le_of_mem_argmin (a := ⟨mid', entry'⟩) hmem hmin

theorem makeRoom_len_lt {c : DedupCache} (hcap : 0 < c.cap)
    (hlen : c.entries.len ≤ c.cap) : c.makeRoom.entries.len < c.cap := by
  unfold makeRoom
  split_ifs with hfull
  · obtain ⟨mid, entry, holdest, hentry, -⟩ :=
      oldest_isSome (Nat.lt_of_lt_of_le hcap hfull)
    have hmem : mid ∈ c.entries :=
      AList.lookup_isSome.mp (by rw [hentry]; rfl)
    have herase := Table.len_erase_of_mem hmem
    rw [holdest]
    dsimp only
    omega
  · omega

/-- An entry survives the eviction as long as an older one is there to go. -/
theorem makeRoom_lookup {c : DedupCache} {mid : UInt16}
    {entry : Octets × Instant} (hentry : c.entries.lookup mid = some entry)
    (holder : c.cap ≤ c.entries.len → ∃ mid' entry',
      c.entries.lookup mid' = some entry' ∧ entry'.2 < entry.2) :
    c.makeRoom.entries.lookup mid = some entry := by
  unfold makeRoom
  split_ifs with hfull
  · obtain ⟨mid', entry', hentry', hlt⟩ := holder hfull
    have hpos : 0 < c.entries.len :=
      List.length_pos_of_mem ((Table.mem_entries_iff_lookup c.entries
        ⟨mid', entry'⟩).mpr hentry')
    obtain ⟨old, oldEntry, holdest, hold, hmin⟩ := oldest_isSome hpos
    have hne : mid ≠ old := by
      intro hsame
      subst hsame
      rw [hentry, Option.some.injEq] at hold
      subst hold
      exact absurd (hmin mid' entry' hentry') (Nat.not_le.mpr hlt)
    rw [holdest]
    exact (AList.lookup_erase_ne hne).trans hentry
  · exact hentry

theorem makeRoom_lookup_some {c : DedupCache} {mid : UInt16}
    {entry : Octets × Instant}
    (hentry : c.makeRoom.entries.lookup mid = some entry) :
    c.entries.lookup mid = some entry := by
  unfold makeRoom at hentry
  split_ifs at hentry with hfull
  · cases holdest : c.oldest with
    | none => rwa [holdest] at hentry
    | some old =>
        rw [holdest] at hentry
        by_cases hold : mid = old
        · subst hold
          exact absurd hentry (by simp [AList.lookup_erase])
        · exact (AList.lookup_erase_ne hold).symm.trans hentry
  · exact hentry

theorem insert_lookup_self (c : DedupCache) (now : Instant) (mid : UInt16)
    (response : Octets) :
    (c.insert now mid response).entries.lookup mid = some (response, now) :=
  AList.lookup_insert _

theorem insert_lookup_ne (c : DedupCache) (now : Instant) {mid mid' : UInt16}
    (response : Octets) (hmid : mid' ≠ mid) :
    (c.insert now mid response).entries.lookup mid' =
      c.makeRoom.entries.lookup mid' :=
  AList.lookup_insert_ne hmid

theorem insert_len_le {c : DedupCache} (now : Instant) (mid : UInt16)
    (response : Octets) (hcap : 0 < c.cap) (hlen : c.entries.len ≤ c.cap) :
    (c.insert now mid response).entries.len ≤ c.cap :=
  Nat.le_trans (Table.len_insert_le _ _ _) (makeRoom_len_lt hcap hlen)

end DedupCache

/-! Which branch a datagram takes. -/

def RequestArrival (bytes : Octets) (dgram : Datagram) : Prop :=
  Datagram.decode bytes = .ok dgram ∧
    Code.isRequest dgram.message.code = true

theorem processDatagram_request {answer : Answer} {s : Session} {a : Arrival}
    {dgram : Datagram} (hreq : RequestArrival a.bytes dgram) :
    processDatagram answer s a = processRequest answer s dgram a := by
  obtain ⟨hdecode, hcode⟩ := hreq
  have hempty : dgram.message.code ≠ Code.empty := by
    intro hempty
    rw [hempty] at hcode
    exact absurd hcode (by decide)
  rw [processDatagram, hdecode]
  simp only [if_neg hempty, hcode, Bool.true_eq_false, if_false]

theorem processDatagram_other (answer : Answer) (s : Session) {a : Arrival}
    (hother : ∀ dgram, ¬ RequestArrival a.bytes dgram) :
    (processDatagram answer s a).2 = s ∧
      ∀ s', (processDatagram answer s' a).1 = (processDatagram answer s a).1 := by
  unfold processDatagram
  cases hdecode : Datagram.decode a.bytes with
  | error e => exact ⟨rfl, fun _ => rfl⟩
  | ok dgram =>
      have hcode : Code.isRequest dgram.message.code = false :=
        Bool.eq_false_iff.mpr fun hcode => hother dgram ⟨hdecode, hcode⟩
      simp only [hcode, if_true]
      split_ifs <;> exact ⟨rfl, fun _ => rfl⟩

/-- Everything that handling one datagram can do. -/
inductive Step (answer : Answer) (s : Session) (a : Arrival) :
    Option Octets × Session → Prop
  | ignored {reply : Option Octets} :
      (∀ dgram, ¬ RequestArrival a.bytes dgram) →
      Step answer s a (reply, s)
  | replayed {dgram : Datagram} {cached : Octets} {recorded : Instant} :
      RequestArrival a.bytes dgram →
      (s.dedup.prune a.got).entries.lookup dgram.messageId =
        some (cached, recorded) →
      Step answer s a
        (some cached, { s with dedup := s.dedup.prune a.got })
  | executed {dgram : Datagram} :
      RequestArrival a.bytes dgram →
      (s.dedup.prune a.got).entries.lookup dgram.messageId = none →
      Step answer s a
        (some (respond answer s dgram a), {
          dedup := (s.dedup.prune a.got).insert a.recorded dgram.messageId
            (respond answer s dgram a)
          nextMid := (replyHeader dgram s.nextMid).2.2
          history := s.history ++ [execution answer s dgram a] })

theorem processDatagram_step (answer : Answer) (s : Session) (a : Arrival) :
    Step answer s a (processDatagram answer s a) := by
  by_cases hreq : ∃ dgram, RequestArrival a.bytes dgram
  · obtain ⟨dgram, hreq⟩ := hreq
    rw [processDatagram_request hreq, processRequest, DedupCache.get]
    cases hentry : (s.dedup.prune a.got).entries.lookup dgram.messageId with
    | none => exact .executed hreq hentry
    | some entry => exact .replayed hreq hentry
  · rw [not_exists] at hreq
    rw [← Prod.eta (processDatagram answer s a),
      (processDatagram_other answer s hreq).1]
    exact .ignored hreq

/-- The cache stays within its cap, whatever arrives and when. -/
theorem after_len_le (answer : Answer) (s : Session) (arrivals : List Arrival)
    (hcap : 0 < s.dedup.cap) (hlen : s.dedup.entries.len ≤ s.dedup.cap) :
    (after answer s arrivals).dedup.entries.len ≤ s.dedup.cap := by
  induction arrivals generalizing s with
  | nil => exact hlen
  | cons a arrivals ih =>
      rw [after, List.foldl_cons, ← after]
      have hstep := processDatagram_step answer s a
      generalize processDatagram answer s a = result at hstep ⊢
      have hprune := Nat.le_trans (s.dedup.prune_len_le a.got) hlen
      cases hstep with
      | ignored hother => exact ih s hcap hlen
      | replayed hreq hentry => exact ih _ hcap hprune
      | executed hreq hnone =>
          exact ih _ hcap (DedupCache.insert_len_le _ _ _ hcap hprune)

end Loft.DtlsCommon
