import Loft.Data.Transition
import Loft.DtlsCommon.Retransmission
import Loft.Handler.Isolation
import Loft.Handler.Outcomes

namespace Loft.DtlsCommon

open Loft.Data
open Loft.Data.Transition (run Along run_concat_eq_some along_concat)
open Loft.Coap
open Loft.Handler (Route UploadLeaf route dispatch_table)

/-! A blockwise upload over a link that loses, repeats and delays datagrams,
with the handler behind the messaging layer and other connections at its
table: each block is kept once, and the whole is passed on once. -/

/-- A session with the table its handler shares; `asked` are the calls made
upstream for the session. -/
structure Link where
  session : Session
  table : Block1Table
  asked : List DeviceRequest := []

namespace Link

/-- The request that a datagram brings to the handler. -/
def brings (s : Link) (a : Arrival) : Option Message :=
  match Datagram.decode a.bytes with
  | .error _ => none
  | .ok dgram =>
      if Code.isRequest dgram.message.code = true ∧
          (s.session.dedup.prune a.got).entries.lookup dgram.messageId =
            none then
        some dgram.message
      else none

def receive (h : Handler) (device : DeviceSession) (s : Link) (a : Arrival)
    (upstream : DeviceRequest → UpstreamResult) : Option Octets × Link :=
  match s.brings a with
  | none =>
      let handled := processDatagram (fun _ => {}) s.session a
      (handled.1, { s with session := handled.2 })
  | some req =>
      let called := h.dispatch a.served req device .udp s.table
      let outcome := called.1.outcome upstream
      let handled := processDatagram (fun _ => outcome.2) s.session a
      (handled.1, {
        session := handled.2
        table := called.2
        asked := s.asked ++ outcome.1 })

variable {h : Handler} {device : DeviceSession} {s : Link} {a : Arrival}
  {upstream : DeviceRequest → UpstreamResult} {dgram : Datagram}

theorem brings_request (hreq : RequestArrival a.bytes dgram)
    (hnone : (s.session.dedup.prune a.got).entries.lookup dgram.messageId =
      none) : s.brings a = some dgram.message := by
  rw [brings, hreq.1]
  exact if_pos ⟨hreq.2, hnone⟩

theorem brings_eq_some {req : Message} (hbrings : s.brings a = some req) :
    ∃ dgram, RequestArrival a.bytes dgram ∧ req = dgram.message := by
  unfold brings at hbrings
  split at hbrings
  · cases hbrings
  · rename_i dgram hdecode
    split_ifs at hbrings with hnew
    cases hbrings
    exact ⟨dgram, ⟨hdecode, hnew.1⟩, rfl⟩

/-- Whatever the datagram, the session is as after `process_datagram`. -/
theorem receive_session (h : Handler) (device : DeviceSession) (s : Link)
    (a : Arrival) (upstream : DeviceRequest → UpstreamResult) :
    ∃ answer, (s.receive h device a upstream).1 =
        (processDatagram answer s.session a).1 ∧
      (s.receive h device a upstream).2.session =
        (processDatagram answer s.session a).2 := by
  unfold receive
  split
  · exact ⟨_, rfl, rfl⟩
  · exact ⟨_, rfl, rfl⟩

theorem receive_executed (h : Handler) (device : DeviceSession)
    (upstream : DeviceRequest → UpstreamResult)
    (hreq : RequestArrival a.bytes dgram)
    (hnone : (s.session.dedup.prune a.got).entries.lookup dgram.messageId =
      none) :
    let called := h.dispatch a.served dgram.message device .udp s.table
    let outcome := called.1.outcome upstream
    let answer : Answer := fun _ => outcome.2
    s.receive h device a upstream =
      (some (respond answer s.session dgram a), {
        session := {
          dedup := (s.session.dedup.prune a.got).insert a.recorded
            dgram.messageId (respond answer s.session dgram a)
          nextMid := (replyHeader dgram s.session.nextMid).2.2
          history := s.session.history ++ [execution answer s.session dgram a] }
        table := called.2
        asked := s.asked ++ outcome.1 }) := by
  rw [receive, brings_request hreq hnone]
  simp only [processDatagram_request hreq, processRequest, DedupCache.get,
    hnone, Option.map_none]

theorem receive_replayed {cached : Octets} {recorded : Instant}
    (hreq : RequestArrival a.bytes dgram)
    (hentry : (s.session.dedup.prune a.got).entries.lookup dgram.messageId =
      some (cached, recorded)) :
    s.receive h device a upstream =
      (some cached, { s with
        session := { s.session with dedup := s.session.dedup.prune a.got } }) := by
  have hbrings : s.brings a = none := by
    rw [brings, hreq.1]
    exact if_neg (by simp [hentry])
  rw [receive, hbrings]
  simp only [processDatagram_request hreq, processRequest, DedupCache.get,
    hentry, Option.map_some]

/-- Everything that one datagram can do. -/
inductive Received (h : Handler) (device : DeviceSession) (s : Link)
    (a : Arrival) (upstream : DeviceRequest → UpstreamResult) :
    Option Octets × Link → Prop
  | ignored {reply : Option Octets} :
      (∀ dgram, ¬ RequestArrival a.bytes dgram) →
      Received h device s a upstream (reply, s)
  | replayed {dgram : Datagram} {cached : Octets} {recorded : Instant} :
      RequestArrival a.bytes dgram →
      (s.session.dedup.prune a.got).entries.lookup dgram.messageId =
        some (cached, recorded) →
      Received h device s a upstream (some cached, { s with
        session := { s.session with dedup := s.session.dedup.prune a.got } })
  | executed {dgram : Datagram} {reply : Octets} {s' : Link} :
      RequestArrival a.bytes dgram →
      s'.session.history = s.session.history ++ [{
        messageId := dgram.messageId
        request := dgram.message
        served := a.served
        reply := reply
        recorded := a.recorded }] →
      s'.table = (h.dispatch a.served dgram.message device .udp s.table).2 →
      s'.asked = s.asked ++ ((h.dispatch a.served dgram.message device .udp
        s.table).1.outcome upstream).1 →
      Received h device s a upstream (some reply, s')

theorem receive_received (h : Handler) (device : DeviceSession) (s : Link)
    (a : Arrival) (upstream : DeviceRequest → UpstreamResult) :
    Received h device s a upstream (s.receive h device a upstream) := by
  by_cases hreq : ∃ dgram, RequestArrival a.bytes dgram
  · obtain ⟨dgram, hreq⟩ := hreq
    cases hentry :
        (s.session.dedup.prune a.got).entries.lookup dgram.messageId with
    | none =>
        rw [receive_executed h device upstream hreq hentry]
        exact .executed hreq rfl rfl rfl
    | some entry =>
        rw [receive_replayed hreq hentry]
        exact .replayed hreq hentry
  · rw [not_exists] at hreq
    have hnone : s.brings a = none := by
      cases hbrings : s.brings a with
      | none => rfl
      | some req =>
          obtain ⟨dgram, harrives, -⟩ := brings_eq_some hbrings
          exact absurd harrives (hreq dgram)
    rw [receive, hnone]
    dsimp only
    rw [(processDatagram_other _ s.session hreq).1]
    exact .ignored hreq

theorem receive_recorded {later : Instant} (hs : Recorded s.session a.got)
    (hwithin : a.got ≤ a.recorded) (hlater : a.recorded < later) :
    Recorded (s.receive h device a upstream).2.session later := by
  obtain ⟨answer, -, hsession⟩ := s.receive_session h device a upstream
  rw [hsession]
  exact hs.step hwithin hlater

theorem receive_limits (h : Handler) (device : DeviceSession) (s : Link)
    (a : Arrival) (upstream : DeviceRequest → UpstreamResult) :
    (s.receive h device a upstream).2.session.dedup.ttl =
        s.session.dedup.ttl ∧
      (s.receive h device a upstream).2.session.dedup.cap =
        s.session.dedup.cap := by
  obtain ⟨answer, -, hsession⟩ := s.receive_session h device a upstream
  rw [hsession]
  have hstep := processDatagram_step answer s.session a
  generalize processDatagram answer s.session a = result at hstep ⊢
  cases hstep <;> exact ⟨rfl, rfl⟩

end Link

/-! What the client sends: confirmable requests for one leaf, numbered from 0
on, all but the last with the more bit, under message ids of their own. -/

def bodyOf (blocks : List Datagram) : Octets :=
  blocks.flatMap fun dgram => dgram.message.payload

structure Upload (device : DeviceSession) where
  leaf : UploadLeaf
  blocks : List Datagram
  nonempty : blocks ≠ []
  small : (bodyOf blocks).length ≤ maxBlock1Body
  confirmable : ∀ dgram ∈ blocks, dgram.messageType = .confirmable
  routed : ∀ dgram ∈ blocks, route dgram.message device = .post leaf
  numbered : ∀ (i : Nat) (dgram : Datagram), blocks[i]? = some dgram →
    ∃ b, block1Of dgram.message = some b ∧ b.num.toNat = i ∧
      (b.more = true ↔ i + 1 < blocks.length)
  distinct : ∀ (i j : Nat) (dgram dgram' : Datagram),
    blocks[i]? = some dgram → blocks[j]? = some dgram' →
      dgram.messageId = dgram'.messageId → i = j

namespace Upload

variable {device : DeviceSession}

def key (up : Upload device) : Block1Key :=
  (device.connId, up.leaf.name)

/-- The call that the whole upload comes to. -/
def post (up : Upload device) : DeviceRequest :=
  Handler.upstreamCall device .post up.leaf.name none
    (some (bodyOf up.blocks, up.leaf.contentType))

/-- Calls for what the upload is for, whatever their body. -/
def concerns (up : Upload device) (request : DeviceRequest) : Bool :=
  request.method == .post && request.leaf == up.leaf.name

/-- What an acknowledgement of block `i` may say. -/
def Acknowledges (up : Upload device) (h : Handler) (i : Nat)
    (dgram : Datagram) (reply : Octets) : Prop :=
  ∃ msg, reply = Datagram.encode ⟨.acknowledgement, dgram.messageId, msg⟩ ∧
    msg.token = dgram.message.token ∧
    (i + 1 < up.blocks.length → msg.code = Code.continue_) ∧
    (i + 1 = up.blocks.length → ∃ upstream : DeviceRequest → UpstreamResult,
      msg = echoFinalBlock1 dgram.message (h.postResponse dgram.message
        up.leaf .udp (upstream up.post)))

/-! One block at the handler. -/

theorem isRequest_of_post {req : Message} {leaf : UploadLeaf}
    (hroute : route req device = .post leaf) :
    Code.isRequest req.code = true := by
  by_contra hnot
  rw [route, if_pos (Bool.eq_false_iff.mpr hnot)] at hroute
  cases hroute

theorem bodyOf_take_succ {blocks : List Datagram} {i : Nat} {dgram : Datagram}
    (hdgram : blocks[i]? = some dgram) :
    bodyOf (blocks.take (i + 1)) =
      bodyOf (blocks.take i) ++ dgram.message.payload := by
  rw [bodyOf, List.take_add_one, hdgram, List.flatMap_append]
  simp [bodyOf]

theorem length_bodyOf_take_le (blocks : List Datagram) (i : Nat) :
    (bodyOf (blocks.take i)).length ≤ (bodyOf blocks).length := by
  have hsplit : bodyOf blocks =
      bodyOf (blocks.take i) ++ bodyOf (blocks.drop i) :=
    calc
      bodyOf blocks = bodyOf (blocks.take i ++ blocks.drop i) := by
        rw [List.take_append_drop]
      _ = _ := List.flatMap_append
  rw [hsplit, List.length_append]
  exact Nat.le_add_right _ _

variable {up : Upload device} {map : Block1Table} {i : Nat} {dgram : Datagram}
  {touched : Instant}

/-- What is in the table before block `i`. -/
def Before (up : Upload device) (map : Block1Table) (i : Nat)
    (touched : Instant) : Prop :=
  (i = 0 → up.key ∈ map ∨ map.len < maxBlock1Entries) ∧
    (0 < i → map.lookup up.key = some {
      data := bodyOf (up.blocks.take i)
      nextNum := UInt32.ofNat i
      touched := touched })

theorem continues (now : Instant) (hbefore : up.Before map i touched)
    {b : Block} (hnum : b.num.toNat = i) :
    ∃ entry current, Handler.Continues now map up.key b entry current ∧
      entry.data = bodyOf (up.blocks.take i) := by
  rcases Nat.eq_zero_or_pos i with rfl | hpos
  · have hzero : b.num = 0 := UInt32.toNat_inj.mp hnum
    exact ⟨_, _, .restart hzero (hbefore.1 rfl), rfl⟩
  · have hne : b.num ≠ 0 := by
      intro hzero
      rw [hzero] at hnum
      exact absurd hnum (Nat.ne_of_lt hpos)
    refine ⟨_, map, .held hne (hbefore.2 hpos) ?_, rfl⟩
    rw [← hnum, UInt32.ofNat_toNat]

/-- The block goes to the end of the upload; the last one completes it. -/
theorem assembled (now : Instant) (hdgram : up.blocks[i]? = some dgram)
    (hbefore : up.Before map i touched) :
    (i + 1 < up.blocks.length → ∃ msg,
      assembleBody now dgram.message device up.leaf.name map =
        (.interim msg, (assembleBody now dgram.message device up.leaf.name
          map).2) ∧
      msg.code = Code.continue_ ∧ msg.token = dgram.message.token ∧
      (assembleBody now dgram.message device up.leaf.name map).2.lookup
        up.key = some {
          data := bodyOf (up.blocks.take (i + 1))
          nextNum := UInt32.ofNat (i + 1)
          touched := now }) ∧
    (i + 1 = up.blocks.length →
      (assembleBody now dgram.message device up.leaf.name map).1 =
        .complete (bodyOf up.blocks)) := by
  obtain ⟨b, hblock, hnum, hmore⟩ := up.numbered i dgram hdgram
  obtain ⟨entry, current, hcontinues, hdata⟩ := continues now hbefore hnum
  have hroom : entry.data.length + dgram.message.payload.length ≤
      maxBlock1Body := by
    have hsmall := length_bodyOf_take_le up.blocks (i + 1)
    rw [bodyOf_take_succ hdgram, List.length_append] at hsmall
    rw [hdata]
    exact Nat.le_trans hsmall up.small
  constructor
  · intro hlater
    have hresult := Handler.assembleBody_of_uploading hblock
      (.continued hcontinues hroom (hmore.mpr hlater))
    rw [hresult]
    refine ⟨_, rfl, rfl, rfl, ?_⟩
    have hnext : b.num + 1 = UInt32.ofNat (i + 1) := by
      rw [UInt32.ofNat_add, ← hnum, UInt32.ofNat_toNat]
      rfl
    dsimp only [key]
    rw [AList.lookup_insert, hdata, ← bodyOf_take_succ hdgram, hnext]
  · intro hlast
    have hno : b.more = false := by
      rw [← Bool.not_eq_true, hmore, hlast]
      exact lt_irrefl _
    have hresult := Handler.assembleBody_of_uploading hblock
      (.completed hcontinues hroom hno)
    rw [hresult, hdata, ← bodyOf_take_succ hdgram, hlast, List.take_length]

/-- What the handler answers block `i`, what it asks of upstream, and what it
keeps. -/
theorem called (h : Handler) (now : Instant)
    (upstream : DeviceRequest → UpstreamResult)
    (hdgram : up.blocks[i]? = some dgram)
    (hbefore : up.Before map i touched) :
    let called := h.dispatch now dgram.message device .udp map
    let outcome := called.1.outcome upstream
    outcome.1 = (if i + 1 = up.blocks.length then [up.post] else []) ∧
      (i + 1 < up.blocks.length → outcome.2.code = Code.continue_ ∧
        called.2.lookup up.key = some {
          data := bodyOf (up.blocks.take (i + 1))
          nextNum := UInt32.ofNat (i + 1)
          touched := now }) ∧
      (i + 1 = up.blocks.length →
        outcome.2 = echoFinalBlock1 dgram.message (h.postResponse
          dgram.message up.leaf .udp (upstream up.post))) := by
  have hroute := up.routed dgram (List.mem_of_getElem? hdgram)
  have haction := h.dispatch_post now .udp map hroute
  have htable := h.dispatch_table now dgram.message device .udp map
  rw [hroute] at htable
  obtain ⟨hlater, hlast⟩ := assembled now hdgram hbefore
  dsimp only
  by_cases hend : i + 1 = up.blocks.length
  · rw [hlast hend] at haction
    rw [if_pos hend, haction]
    exact ⟨rfl, fun hlt => absurd hend (Nat.ne_of_lt hlt), fun _ => rfl⟩
  · have hlt : i + 1 < up.blocks.length := by
      obtain ⟨hi, -⟩ := List.getElem?_eq_some_iff.mp hdgram
      omega
    obtain ⟨msg, hmsg, hcode, -, hentry⟩ := hlater hlt
    rw [hmsg] at haction
    rw [if_neg hend, haction, htable]
    exact ⟨rfl, fun _ => ⟨hcode, hentry⟩, fun heq => absurd heq hend⟩

/-- What is not for the leaf of the upload asks for something else. -/
theorem not_concerns {h : Handler} {now : Instant} {req : Message}
    {upstream : DeviceRequest → UpstreamResult}
    (hother : route req device ≠ .post up.leaf) :
    (((h.dispatch now req device .udp map).1.outcome upstream).1.filter
      up.concerns) = [] := by
  rw [List.filter_eq_nil_iff]
  intro request hrequest hconcerns
  rw [Handler.outcome_fst, Option.mem_toList] at hrequest
  cases hroute : route req device with
  | refused reply =>
      rw [Handler.dispatch, hroute] at hrequest
      cases hrequest
  | getShadow =>
      rw [Handler.dispatch, hroute] at hrequest
      cases hrequest
      cases hconcerns
  | getFirmware =>
      rw [Handler.dispatch, hroute] at hrequest
      cases hrequest
      cases hconcerns
  | post leaf =>
      obtain ⟨body, -, rfl⟩ := Handler.dispatch_post_upstream hroute hrequest
      have hname : leaf.name = up.leaf.name := by
        simpa [concerns, Handler.upstreamCall] using hconcerns
      rw [hroute, Handler.UploadLeaf.name_injective hname] at hother
      exact hother rfl

theorem entry_kept {h : Handler} {now : Instant} {req : Message}
    (hother : route req device ≠ .post up.leaf) :
    (h.dispatch now req device .udp map).2.lookup up.key =
      map.lookup up.key := by
  rw [dispatch_table]
  cases hroute : route req device with
  | post leaf =>
      apply Handler.assembleBody_frame
      intro hkey
      have hname := congrArg Prod.snd hkey
      rw [hroute, Handler.UploadLeaf.name_injective hname] at hother
      exact hother rfl
  | refused reply => rfl
  | getShadow => rfl
  | getFirmware => rfl

end Upload

/-- An upload under way: `done` blocks of it have come, the last of them served
at `touched`; `answered` are the replies to its datagrams. -/
structure Course where
  link : Link
  done : Nat := 0
  touched : Instant := 0
  now : Instant := 0
  answered : List (Nat × Octets) := []

inductive Delivery
  -- a datagram with block `i`, for the first time or again
  | block (i : Nat) (a : Arrival) (upstream : DeviceRequest → UpstreamResult)
  -- whatever else the device sends
  | other (a : Arrival) (upstream : DeviceRequest → UpstreamResult)
  -- a sweep, or a call for another connection
  | elsewhere (event : Handler.Event)

def Delivery.index : Delivery → Option Nat
  | .block i _ _ => some i
  | _ => none

namespace Course

def start (seed : UInt16) (table : Block1Table) : Course where
  link := { session := Session.new seed, table := table }

def step (h : Handler) (device : DeviceSession) (s : Course) :
    Delivery → Option Course
  | .block i a upstream =>
      let received := s.link.receive h device a upstream
      some {
        link := received.2
        done := if i = s.done then s.done + 1 else s.done
        touched := if i = s.done then a.served else s.touched
        now := a.recorded + 1
        answered := s.answered ++ received.1.toList.map fun reply => (i, reply) }
  | .other a upstream =>
      some { s with
        link := (s.link.receive h device a upstream).2
        now := a.recorded + 1 }
  | .elsewhere event =>
      some { s with
        link := { s.link with table := h.step s.link.table event } }

/-- Calls come one after the other. -/
def Clocked (s : Course) (a : Arrival) : Prop :=
  s.now ≤ a.got ∧ a.got ≤ a.recorded

variable {device : DeviceSession}

/-- A block comes when those before it have come, or again within the window
of its answer; there is room for the first one; and no sweep finds the upload
idle for too long. -/
def Allowed (up : Upload device) (s : Course) : Delivery → Prop
  | .block i a _ => s.Clocked a ∧ ∃ dgram, up.blocks[i]? = some dgram ∧
      Datagram.decode a.bytes = .ok dgram ∧
      (i = s.done ∧ (i = 0 → up.key ∈ s.link.table ∨
          s.link.table.len < maxBlock1Entries) ∨
        i < s.done ∧ ∃ reply, Live (secs 150) 256 s.link.session.history
          dgram.messageId reply a.got)
  | .other a _ => s.Clocked a ∧ ∀ dgram, RequestArrival a.bytes dgram →
      (∀ block ∈ up.blocks, dgram.messageId ≠ block.messageId) ∧
        route dgram.message device ≠ .post up.leaf
  | .elsewhere (.sweep now) => 0 < s.done → s.done < up.blocks.length →
      now.durationSince s.touched < block1IdleTimeout
  | .elsewhere (.serve _ _ session _) => session.connId ≠ device.connId

/-- The invariant. -/
structure Carried (h : Handler) (up : Upload device) (s : Course) : Prop where
  recorded : Recorded s.link.session s.now
  limits : s.link.session.dedup.ttl = secs 150 ∧ s.link.session.dedup.cap = 256
  within : s.done ≤ up.blocks.length
  entry : 0 < s.done → s.done < up.blocks.length →
    s.link.table.lookup up.key = some {
      data := bodyOf (up.blocks.take s.done)
      nextNum := UInt32.ofNat s.done
      touched := s.touched }
  own : ∀ x ∈ s.link.session.history, ∀ i dgram, up.blocks[i]? = some dgram →
    x.messageId = dgram.messageId → i < s.done ∧
      up.Acknowledges h i dgram x.reply
  alike : ∀ x ∈ s.link.session.history, ∀ y ∈ s.link.session.history,
    (∃ dgram ∈ up.blocks, x.messageId = dgram.messageId) →
      x.messageId = y.messageId → x.reply = y.reply
  asked : s.link.asked.filter up.concerns =
    if s.done = up.blocks.length then [up.post] else []
  replies : ∀ p ∈ s.answered, ∃ x ∈ s.link.session.history,
    ∃ dgram, up.blocks[p.1]? = some dgram ∧ x.messageId = dgram.messageId ∧
      x.reply = p.2
  come : ∀ i, i < s.done ↔ i ∈ s.answered.map Prod.fst

namespace Carried

variable {h : Handler} {up : Upload device} {s s' : Course} {a : Arrival}
  {upstream : DeviceRequest → UpstreamResult} {dgram : Datagram}

theorem start (h : Handler) (up : Upload device) (seed : UInt16)
    (table : Block1Table) : Carried h up (Course.start seed table) where
  recorded := Recorded.new seed 0
  limits := ⟨rfl, rfl⟩
  within := Nat.zero_le _
  entry := fun hpos => absurd hpos (lt_irrefl 0)
  own := nofun
  alike := nofun
  asked := by
    have hsome : 0 ≠ up.blocks.length :=
      (List.length_pos_of_ne_nil up.nonempty).ne
    exact (if_neg hsome).symm
  replies := nofun
  come := by simp [Course.start]

theorem elsewhere (hs : Carried h up s) {event : Handler.Event}
    (hallowed : Allowed up s (.elsewhere event)) :
    Carried h up { s with
      link := { s.link with table := h.step s.link.table event } } := by
  refine { hs with entry := ?_ }
  intro hpos hlater
  have hentry := hs.entry hpos hlater
  cases event with
  | sweep now =>
      have hyoung := hallowed hpos hlater
      show (sweepBlock1 now s.link.table).lookup up.key = _
      rw [sweepBlock1, Table.lookup_retain, hentry, Option.filter_some,
        if_pos (decide_eq_true hyoung)]
  | serve now req session transport =>
      have hheld := h.dispatch_frame now req transport s.link.table hallowed
      exact (congrFun hheld up.leaf.name).trans hentry

/-- Where no block is new to the history twice, all its executions under a
block's message id have the one reply. -/
theorem alike_concat (hs : Carried h up s) {x : Execution}
    (hnew : ∀ y ∈ s.link.session.history,
      (∃ dgram ∈ up.blocks, x.messageId = dgram.messageId) →
        y.messageId ≠ x.messageId) :
    ∀ y ∈ s.link.session.history ++ [x], ∀ z ∈ s.link.session.history ++ [x],
      (∃ dgram ∈ up.blocks, y.messageId = dgram.messageId) →
        y.messageId = z.messageId → y.reply = z.reply := by
  intro y hy z hz hblock hsame
  rcases List.mem_append.mp hy with hy | hy
  · rcases List.mem_append.mp hz with hz | hz
    · exact hs.alike y hy z hz hblock hsame
    · rw [List.mem_singleton.mp hz] at hsame
      rw [hsame] at hblock
      exact absurd hsame (hnew y hy hblock)
  · rw [List.mem_singleton.mp hy] at hsame hblock ⊢
    rcases List.mem_append.mp hz with hz | hz
    · exact absurd hsame.symm (hnew z hz hblock)
    · rw [List.mem_singleton.mp hz]

theorem replies_concat (hs : Carried h up s) (x : Execution) :
    ∀ p ∈ s.answered, ∃ y ∈ s.link.session.history ++ [x],
      ∃ dgram, up.blocks[p.1]? = some dgram ∧ y.messageId = dgram.messageId ∧
        y.reply = p.2 := by
  intro p hp
  obtain ⟨y, hy, hrest⟩ := hs.replies p hp
  exact ⟨y, List.mem_append_left _ hy, hrest⟩

theorem other (hs : Carried h up s)
    (hallowed : Allowed up s (.other a upstream)) :
    Carried h up { s with
      link := (s.link.receive h device a upstream).2
      now := a.recorded + 1 } := by
  obtain ⟨⟨hnow, hwithin⟩, hforeign⟩ := hallowed
  have hrecorded : Recorded (s.link.receive h device a upstream).2.session
      (a.recorded + 1) :=
    Link.receive_recorded (hs.recorded.mono hnow) hwithin (Nat.lt_succ_self _)
  have hlimits := s.link.receive_limits h device a upstream
  have hreceived := s.link.receive_received h device a upstream
  generalize s.link.receive h device a upstream = received
    at hrecorded hlimits hreceived ⊢
  cases hreceived with
  | ignored hnone => exact { hs with recorded := hrecorded }
  | replayed hreq hentry => exact { hs with recorded := hrecorded }
  | @executed dgram reply link hreq hhistory htable hasked =>
      obtain ⟨hmids, hroute⟩ := hforeign dgram hreq
      refine ⟨hrecorded, ?_, hs.within, ?_, ?_, ?_, ?_, ?_, hs.come⟩
      · exact ⟨hlimits.1.trans hs.limits.1, hlimits.2.trans hs.limits.2⟩
      · intro hpos hlater
        dsimp only
        rw [htable, Upload.entry_kept hroute]
        exact hs.entry hpos hlater
      · dsimp only
        rw [hhistory]
        intro x hx i block hblock hsame
        rcases List.mem_append.mp hx with hold | hnew
        · exact hs.own x hold i block hblock hsame
        · rw [List.mem_singleton.mp hnew] at hsame
          exact absurd hsame (hmids block (List.mem_of_getElem? hblock))
      · dsimp only
        rw [hhistory]
        apply hs.alike_concat
        rintro y - ⟨block, hblock, hsame⟩
        exact absurd hsame (hmids block hblock)
      · dsimp only
        rw [hasked, List.filter_append, Upload.not_concerns hroute,
          List.append_nil]
        exact hs.asked
      · dsimp only
        rw [hhistory]
        exact hs.replies_concat _

/-- A block that comes again is answered as before, and changes nothing. -/
theorem again (hs : Carried h up s) {i : Nat} (hclock : s.Clocked a)
    (hdgram : up.blocks[i]? = some dgram)
    (hdecode : Datagram.decode a.bytes = .ok dgram) (hdone : i < s.done)
    (hlive : ∃ reply, Live (secs 150) 256 s.link.session.history
      dgram.messageId reply a.got)
    (hstep : Course.step h device s (.block i a upstream) = some s') :
    Carried h up s' ∧ s'.answered.map Prod.fst =
      s.answered.map Prod.fst ++ [i] := by
  obtain ⟨hnow, hwithin⟩ := hclock
  obtain ⟨reply, hlive⟩ := hlive
  have hrequest : RequestArrival a.bytes dgram :=
    ⟨hdecode, Upload.isRequest_of_post
      (up.routed dgram (List.mem_of_getElem? hdgram))⟩
  have hrec := hs.recorded.mono hnow
  have hrecorded : Recorded (s.link.receive h device a upstream).2.session
      (a.recorded + 1) :=
    Link.receive_recorded hrec hwithin (Nat.lt_succ_self _)
  have hsame := hlive
  rw [← hs.limits.1, ← hs.limits.2] at hsame
  obtain ⟨recorded, hentry⟩ := hrec.lookup_of_live hsame
  rw [Link.receive_replayed hrequest hentry] at hrecorded
  simp only [Course.step, Link.receive_replayed hrequest hentry,
    if_neg hdone.ne, Option.some.injEq] at hstep
  subst hstep
  refine ⟨{ hs with
    recorded := hrecorded
    replies := ?_
    come := ?_ }, by simp⟩
  · intro p hp
    rcases List.mem_append.mp hp with hold | hnew
    · exact hs.replies p hold
    · obtain rfl : p = (i, reply) := by simpa using hnew
      obtain ⟨front, x, since, hsplit, hmid, hreply, -⟩ := hlive
      refine ⟨x, ?_, dgram, hdgram, hmid, hreply⟩
      rw [hsplit]
      exact List.mem_append_right _ List.mem_cons_self
  · intro j
    rw [hs.come j]
    have hi := (hs.come i).mp hdone
    simp only [List.map_append, List.mem_append]
    constructor
    · exact .inl
    · rintro (hold | hnew)
      · exact hold
      · obtain rfl : j = i := by simpa using hnew
        exact hi

/-- The next block has not been executed. -/
theorem not_held (hs : Carried h up s)
    (hdgram : up.blocks[s.done]? = some dgram) (hnow : s.now ≤ a.got) :
    (s.link.session.dedup.prune a.got).entries.lookup dgram.messageId =
      none := by
  by_contra hheld
  obtain ⟨entry, hentry⟩ := Option.ne_none_iff_exists'.mp hheld
  obtain ⟨x, hx, hmid, -⟩ :=
    (hs.recorded.mono hnow).prune.sound dgram.messageId entry hentry
  exact absurd (hs.own x hx s.done dgram hdgram hmid).1 (lt_irrefl _)

/-- The next block is executed, acknowledged, and kept or passed on. -/
theorem first (hs : Carried h up s) (hclock : s.Clocked a)
    (hdgram : up.blocks[s.done]? = some dgram)
    (hdecode : Datagram.decode a.bytes = .ok dgram)
    (hroom : s.done = 0 → up.key ∈ s.link.table ∨
      s.link.table.len < maxBlock1Entries)
    (hstep : Course.step h device s (.block s.done a upstream) = some s') :
    Carried h up s' ∧ s'.answered.map Prod.fst =
      s.answered.map Prod.fst ++ [s.done] := by
  obtain ⟨hnow, hwithin⟩ := hclock
  have hmem := List.mem_of_getElem? hdgram
  obtain ⟨hinside, -⟩ := List.getElem?_eq_some_iff.mp hdgram
  have hrequest : RequestArrival a.bytes dgram :=
    ⟨hdecode, Upload.isRequest_of_post (up.routed dgram hmem)⟩
  have hrecorded : Recorded (s.link.receive h device a upstream).2.session
      (a.recorded + 1) :=
    Link.receive_recorded (hs.recorded.mono hnow) hwithin (Nat.lt_succ_self _)
  have hlimits := s.link.receive_limits h device a upstream
  have hbefore : up.Before s.link.table s.done s.touched :=
    ⟨hroom, fun hpos => hs.entry hpos hinside⟩
  obtain ⟨hasked, hlater, hlast⟩ :=
    Upload.called h a.served upstream hdgram hbefore
  have hfresh : ∀ x ∈ s.link.session.history,
      x.messageId ≠ dgram.messageId := by
    intro x hx hmid
    exact absurd (hs.own x hx s.done dgram hdgram hmid).1 (lt_irrefl _)
  have hexecuted := Link.receive_executed h device upstream hrequest
    (hs.not_held hdgram hnow)
  dsimp only at hexecuted
  rw [hexecuted] at hrecorded hlimits
  simp only [Course.step, hexecuted, if_true, Option.some.injEq] at hstep
  have hacknowledges : up.Acknowledges h s.done dgram
      (respond (fun _ => ((h.dispatch a.served dgram.message device .udp
        s.link.table).1.outcome upstream).2) s.link.session dgram a) := by
    refine ⟨((h.dispatch a.served dgram.message device .udp
      s.link.table).1.outcome upstream).2, ?_,
      h.outcome_token upstream a.served dgram.message device .udp _,
      fun hlt => (hlater hlt).1, fun hend => ⟨upstream, hlast hend⟩⟩
    rw [respond, replyHeader, up.confirmable dgram hmem]
  subst hstep
  refine ⟨⟨hrecorded, ?_, hinside, ?_, ?_, ?_, ?_, ?_, ?_⟩, by simp⟩
  · exact ⟨hlimits.1.trans hs.limits.1, hlimits.2.trans hs.limits.2⟩
  · intro _ hmore
    exact (hlater hmore).2
  · intro x hx j block hblock hsame
    rcases List.mem_append.mp hx with hold | hnew
    · obtain ⟨hj, hreply⟩ := hs.own x hold j block hblock hsame
      exact ⟨Nat.lt_succ_of_lt hj, hreply⟩
    · rw [List.mem_singleton.mp hnew] at hsame ⊢
      obtain rfl := up.distinct _ _ _ _ hdgram hblock hsame
      rw [hdgram, Option.some.injEq] at hblock
      subst hblock
      exact ⟨Nat.lt_succ_self _, hacknowledges⟩
  · apply hs.alike_concat
    exact fun y hy _ => hfresh y hy
  · dsimp only
    rw [List.filter_append, hs.asked, if_neg hinside.ne, hasked,
      List.nil_append]
    split_ifs with hend
    · simp [Upload.concerns, Upload.post, Handler.upstreamCall]
    · rfl
  · intro p hp
    rcases List.mem_append.mp hp with hold | hnew
    · exact hs.replies_concat _ p hold
    · rw [Option.toList_some, List.map_singleton, List.mem_singleton] at hnew
      subst hnew
      exact ⟨_, List.mem_append_right _ List.mem_cons_self, dgram, hdgram,
        rfl, rfl⟩
  · intro j
    have hcome := hs.come j
    simp only [List.map_append, List.mem_append, ← hcome]
    simp only [Option.toList_some, List.map_singleton, List.mem_singleton]
    exact Nat.lt_succ_iff_lt_or_eq

theorem step (hs : Carried h up s) {delivery : Delivery}
    (hallowed : Allowed up s delivery)
    (hstep : Course.step h device s delivery = some s') :
    Carried h up s' ∧ s'.answered.map Prod.fst =
      s.answered.map Prod.fst ++ delivery.index.toList := by
  cases delivery with
  | other a upstream =>
      cases hstep
      exact ⟨hs.other hallowed, (List.append_nil _).symm⟩
  | elsewhere event =>
      cases hstep
      exact ⟨hs.elsewhere hallowed, (List.append_nil _).symm⟩
  | block i a upstream =>
      obtain ⟨hclock, dgram, hdgram, hdecode, ⟨rfl, hroom⟩ | ⟨hdone, hlive⟩⟩ :=
        hallowed
      · exact hs.first hclock hdgram hdecode hroom hstep
      · exact hs.again hclock hdgram hdecode hdone hlive hstep

end Carried

theorem run_carried {h : Handler} {up : Upload device} {seed : UInt16}
    {table : Block1Table} {items : List Delivery} {s : Course}
    (hallowed : Along (step h device) (Allowed up) (start seed table) items)
    (hrun : run (step h device) (start seed table) items = some s) :
    Carried h up s ∧
      s.answered.map Prod.fst = items.filterMap Delivery.index := by
  induction items using List.reverseRecOn generalizing s with
  | nil =>
      cases hrun
      exact ⟨Carried.start h up seed table, rfl⟩
  | append_singleton items item ih =>
      obtain ⟨mid, hfront, hlast⟩ := (run_concat_eq_some _).mp hrun
      obtain ⟨hbefore, hhere⟩ := (along_concat _).mp hallowed
      obtain ⟨hmid, hanswered⟩ := ih hbefore hfront
      obtain ⟨hs, hmore⟩ := hmid.step (hhere mid hfront) hlast
      refine ⟨hs, ?_⟩
      rw [hmore, hanswered, List.filterMap_append]
      cases item <;> rfl

/-- However often the blocks come, and whatever else is served in between: all
datagrams of the upload are answered, those of one block alike, with 2.31
until the last; and upstream is asked once, for the whole body, as soon as all
blocks have come. -/
theorem uploaded_exactly_once (h : Handler) (up : Upload device)
    (seed : UInt16) (table : Block1Table) (items : List Delivery) (s : Course)
    (hallowed : Along (step h device) (Allowed up) (start seed table) items)
    (hrun : run (step h device) (start seed table) items = some s) :
    s.answered.map Prod.fst = items.filterMap Delivery.index ∧
      (∀ p ∈ s.answered, ∃ dgram, up.blocks[p.1]? = some dgram ∧
        up.Acknowledges h p.1 dgram p.2) ∧
      (∀ p ∈ s.answered, ∀ q ∈ s.answered, p.1 = q.1 → p.2 = q.2) ∧
      (∀ i, i < s.done ↔ i ∈ items.filterMap Delivery.index) ∧
      s.link.asked.filter up.concerns =
        if s.done = up.blocks.length then [up.post] else [] := by
  obtain ⟨hs, hanswered⟩ := run_carried hallowed hrun
  refine ⟨hanswered, ?_, ?_, ?_, hs.asked⟩
  · intro p hp
    obtain ⟨x, hx, dgram, hdgram, hmid, hreply⟩ := hs.replies p hp
    refine ⟨dgram, hdgram, ?_⟩
    rw [← hreply]
    exact (hs.own x hx p.1 dgram hdgram hmid).2
  · intro p hp q hq hsame
    obtain ⟨x, hx, dgram, hdgram, hmid, hreply⟩ := hs.replies p hp
    obtain ⟨y, hy, dgram', hdgram', hmid', hreply'⟩ := hs.replies q hq
    rw [← hsame, hdgram, Option.some.injEq] at hdgram'
    subst hdgram'
    rw [← hreply, ← hreply']
    exact hs.alike x hx y hy ⟨dgram, List.mem_of_getElem? hdgram, hmid⟩
      (hmid.trans hmid'.symm)
  · intro i
    rw [hs.come i, hanswered]

def logsDatagram (messageId : UInt16) (b : Block) (payload : Octets) :
    Datagram where
  messageType := .confirmable
  messageId := messageId
  message := Handler.logsBlock b payload

def twoBlocks : Upload (Handler.logsSession 1) where
  leaf := .logs
  blocks := [logsDatagram 1 ⟨0, true, 0⟩ [0xAA],
    logsDatagram 2 ⟨1, false, 0⟩ [0xBB]]
  nonempty := nofun
  small := by decide
  confirmable := by decide
  routed := by decide +kernel
  numbered := by
    intro i dgram hdgram
    match i with
    | 0 =>
        cases hdgram
        exact ⟨⟨0, true, 0⟩, by decide +kernel, rfl, by decide⟩
    | 1 =>
        cases hdgram
        exact ⟨⟨1, false, 0⟩, by decide +kernel, rfl, by decide⟩
    | i + 2 => cases hdgram
  distinct := by
    intro i j dgram dgram' hi hj hsame
    match i, j with
    | 0, 0 => rfl
    | 1, 1 => rfl
    | 0, 1 =>
        cases hi
        cases hj
        cases hsame
    | 1, 0 =>
        cases hi
        cases hj
        cases hsame
    | i + 2, _ => cases hi
    | _, j + 2 => cases hj

/-- The datagrams of the two blocks as they arrive. -/
def logsBytes (messageId block payload : UInt8) : Octets :=
  [64, 2, 0, messageId, 182, 100, 101, 118, 105, 99, 101, 7, 112, 105, 103, 101,
    111, 110, 115, 1, 112, 4, 108, 111, 103, 115, 209, 3, block, 255, payload]

def noContent (_ : DeviceRequest) : UpstreamResult :=
  .ok { status := 204, body := [] }

/-- The first block twice, then the second. -/
def repeatedFirst : List Delivery :=
  [.block 0 ⟨logsBytes 1 8 0xAA, 1, 2, 3⟩ noContent,
    .block 0 ⟨logsBytes 1 8 0xAA, 5, 5, 5⟩ noContent,
    .block 1 ⟨logsBytes 2 16 0xBB, 7, 8, 9⟩ noContent]

theorem repeatedFirst_allowed :
    Along (step (Handler.mk 6) (Handler.logsSession 1)) (Allowed twoBlocks)
      (start 0 ∅) repeatedFirst := by
  refine ⟨⟨⟨by decide, by decide⟩, logsDatagram 1 ⟨0, true, 0⟩ [0xAA], rfl,
    by decide +kernel, .inl ⟨rfl, fun _ => .inr (by decide)⟩⟩, ?_⟩
  intro s hs
  cases hs
  refine ⟨⟨⟨by decide, by decide⟩, logsDatagram 1 ⟨0, true, 0⟩ [0xAA], rfl,
    by decide +kernel, .inr ⟨by decide, ?_⟩⟩, ?_⟩
  · exact ⟨[96, 95, 0, 1, 209, 14, 8], [], ⟨1, Handler.logsBlock ⟨0, true, 0⟩
      [0xAA], 2, [96, 95, 0, 1, 209, 14, 8], 3⟩, [], by decide +kernel, rfl,
      rfl, by decide, by decide⟩
  intro s hs
  cases hs
  refine ⟨⟨⟨by decide, by decide⟩, logsDatagram 2 ⟨1, false, 0⟩ [0xBB], rfl,
    by decide +kernel, .inl ⟨rfl, nofun⟩⟩, ?_⟩
  exact fun _ _ => trivial

theorem uploaded_exactly_once_repeatedFirst :
    ∃ s, run (step (Handler.mk 6) (Handler.logsSession 1)) (start 0 ∅)
        repeatedFirst = some s ∧
      s.answered.map Prod.fst = [0, 0, 1] ∧
      s.link.asked.filter twoBlocks.concerns = [twoBlocks.post] := by
  have hdone : (run (step (Handler.mk 6) (Handler.logsSession 1)) (start 0 ∅)
      repeatedFirst).map (fun s => s.done) = some 2 := by
    decide +kernel
  obtain ⟨s, hrun, hall⟩ := Option.map_eq_some_iff.mp hdone
  obtain ⟨hanswered, -, -, -, hasked⟩ := uploaded_exactly_once (Handler.mk 6)
    twoBlocks 0 ∅ repeatedFirst s repeatedFirst_allowed hrun
  exact ⟨s, hrun, hanswered, hasked.trans (if_pos hall)⟩

end Course

end Loft.DtlsCommon
