import Loft.Data.Transition
import Loft.DtlsCommon
import Loft.Handler.Outcomes

namespace Loft.DtlsCommon

open Loft.Data
open Loft.Data.Transition
open Loft.Coap

/-! The messaging layer's rules: which datagrams are answered, with which type,
message id and token. -/

/-- The handler on all that it was invoked on so far; what upstream does and
what other connections leave in the table is open. -/
def handlerAnswer (h : Handler) (session : DeviceSession)
    (upstream : List (Message × Instant) → DeviceRequest → UpstreamResult)
    (table : List (Message × Instant) → Block1Table) : Answer :=
  fun past =>
    match past.getLast? with
    | some (req, now) =>
        (h.handle (upstream past) now req session .udp (table past)).2.1
    | none => {}

def KeepsToken (answer : Answer) : Prop :=
  ∀ past req now, (answer (past ++ [(req, now)])).token = req.token

theorem handlerAnswer_keepsToken (h : Handler) (session : DeviceSession)
    (upstream : List (Message × Instant) → DeviceRequest → UpstreamResult)
    (table : List (Message × Instant) → Block1Table) :
    KeepsToken (handlerAnswer h session upstream table) := by
  intro past req now
  simp only [handlerAnswer, List.getLast?_concat]
  exact h.handle_token _ now req session .udp _

/-! What the rules ask of one datagram. -/

def Asks (dgram : Datagram) : Prop :=
  dgram.messageType = .confirmable ∨ dgram.messageType = .nonConfirmable

/-- To these there is no answer. -/
def Silent (bytes : Octets) : Prop :=
  ∀ dgram, Datagram.decode bytes = .ok dgram →
    ¬ Asks dgram ∨
    dgram.message.code = Code.empty ∧ dgram.messageType ≠ .confirmable ∨
    dgram.message.code ≠ Code.empty ∧
      Code.isRequest dgram.message.code = false

/-- What is held of the request's message id when the datagram is looked up. -/
def Session.held (s : Session) (a : Arrival) (dgram : Datagram) :
    Option (Octets × Instant) :=
  (s.dedup.prune a.got).entries.lookup dgram.messageId

structure Disciplined (s : Session) (a : Arrival) (reply : Option Octets)
    (s' : Session) : Prop where
  calls : s'.history = s.history ∨
    ∃ dgram x, RequestArrival a.bytes dgram ∧ Asks dgram ∧
      s.held a dgram = none ∧ s'.history = s.history ++ [x] ∧
      x.request = dgram.message
  confirmable : ∀ dgram, RequestArrival a.bytes dgram →
    dgram.messageType = .confirmable →
      (∃ bytes, reply = some bytes ∧ Datagram.header bytes =
        some (.acknowledgement, dgram.messageId, dgram.message.token)) ∧
      s'.nextMid = s.nextMid
  nonConfirmable : ∀ dgram, RequestArrival a.bytes dgram →
    dgram.messageType = .nonConfirmable →
      ∃ bytes mid, reply = some bytes ∧ Datagram.header bytes =
          some (.nonConfirmable, mid, dgram.message.token) ∧
        (s.held a dgram = none → mid = s.nextMid + 1 ∧ s'.nextMid = mid) ∧
        (s.held a dgram ≠ none → s'.nextMid = s.nextMid)
  ping : ∀ dgram, Datagram.decode a.bytes = .ok dgram →
    dgram.message.code = Code.empty → dgram.messageType = .confirmable →
      reply = some (Datagram.encode ⟨.reset, dgram.messageId, {}⟩) ∧ s' = s
  silent : Silent a.bytes → reply = none ∧
    (s' = s ∨ s' = { s with dedup := s.dedup.prune a.got })

theorem RequestArrival.unique {bytes : Octets} {dgram dgram' : Datagram}
    (h : RequestArrival bytes dgram) (h' : RequestArrival bytes dgram') :
    dgram' = dgram := by
  have hsame := h'.1.symm.trans h.1
  cases hsame
  rfl

theorem RequestArrival.not_empty {bytes : Octets} {dgram : Datagram}
    (h : RequestArrival bytes dgram) : dgram.message.code ≠ Code.empty := by
  intro hempty
  have hcode := h.2
  rw [hempty] at hcode
  exact absurd hcode (by decide)

theorem RequestArrival.decoded_not_empty {bytes : Octets}
    {dgram dgram' : Datagram} (h : RequestArrival bytes dgram)
    (hdecode : Datagram.decode bytes = .ok dgram') :
    dgram'.message.code ≠ Code.empty := by
  have hsame := hdecode.symm.trans h.1
  cases hsame
  exact h.not_empty

/-! A session and the requests that were executed in it, so that what the
cache holds can be told apart by what it was recorded for. -/

structure Traced where
  session : Session
  executed : List Datagram

namespace Traced

def start (seed : UInt16) : Traced where
  session := Session.new seed
  executed := []

/-- The request that handling this datagram brings to the handler. -/
def brings (s : Traced) (a : Arrival) : List Datagram :=
  match Datagram.decode a.bytes with
  | .error _ => []
  | .ok dgram =>
      if Code.isRequest dgram.message.code ∧ s.session.held a dgram = none then
        [dgram]
      else []

def step (answer : Answer) (s : Traced) (a : Arrival) : Option Traced :=
  some {
    session := (processDatagram answer s.session a).2
    executed := s.executed ++ s.brings a }

def recordedUnder (s : Traced) (mid : UInt16) : Option Datagram :=
  s.executed.reverse.find? fun dgram => dgram.messageId = mid

def Obeys (answer : Answer) (s : Traced) (a : Arrival) : Prop :=
  Disciplined s.session a (processDatagram answer s.session a).1
    (processDatagram answer s.session a).2

/-- A request code only comes in a Confirmable or Non-confirmable datagram, and
a message id in use only with a repetition of its request. -/
def Proper (s : Traced) (a : Arrival) : Prop :=
  ∀ dgram, RequestArrival a.bytes dgram → Asks dgram ∧
    ∀ recorded, s.session.held a dgram ≠ none →
      s.recordedUnder dgram.messageId = some recorded →
        (recorded.messageType = .confirmable ↔
          dgram.messageType = .confirmable) ∧
        recorded.message.token = dgram.message.token

/-- Each reply held is the one that the request last executed under its
message id was given. -/
def Filed (s : Traced) : Prop :=
  ∀ mid entry, s.session.dedup.entries.lookup mid = some entry →
    ∃ dgram nextMid, s.recordedUnder mid = some dgram ∧
      dgram.messageId = mid ∧
      Datagram.header entry.1 = some ((replyHeader dgram nextMid).1,
        (replyHeader dgram nextMid).2.1, dgram.message.token)

variable {answer : Answer}

theorem start_filed (seed : UInt16) : Filed (start seed) := by
  intro mid entry hentry
  cases hentry

theorem respond_header (hanswer : KeepsToken answer) (s : Session)
    {a : Arrival} {dgram : Datagram} (hreq : RequestArrival a.bytes dgram) :
    Datagram.header (respond answer s dgram a) =
      some ((replyHeader dgram s.nextMid).1,
        (replyHeader dgram s.nextMid).2.1, dgram.message.token) := by
  have hlength := (Datagram.decode_sound hreq.1).1.token
  have htoken := hanswer (s.history.map fun x => (x.request, x.served))
    dgram.message a.served
  rw [respond, Datagram.header_encode (by rwa [htoken]), htoken]

theorem brings_of_held {s : Traced} {a : Arrival} {dgram : Datagram}
    (hreq : RequestArrival a.bytes dgram)
    (hheld : s.session.held a dgram ≠ none) : s.brings a = [] := by
  simp only [brings, hreq.1, hheld, and_false, if_false]

theorem brings_of_new {s : Traced} {a : Arrival} {dgram : Datagram}
    (hreq : RequestArrival a.bytes dgram)
    (hheld : s.session.held a dgram = none) : s.brings a = [dgram] := by
  simp only [brings, hreq.1, hreq.2, hheld, and_true, if_true]

theorem brings_of_other {s : Traced} {a : Arrival}
    (hother : ∀ dgram, ¬ RequestArrival a.bytes dgram) : s.brings a = [] := by
  unfold brings
  cases hdecode : Datagram.decode a.bytes with
  | error e => rfl
  | ok dgram =>
      refine if_neg fun hboth => ?_
      exact hother dgram ⟨hdecode, hboth.1⟩

theorem Filed.step {s s' : Traced} {a : Arrival} (hanswer : KeepsToken answer)
    (hs : Filed s) (hstep : step answer s a = some s') : Filed s' := by
  cases hstep
  have hprune {mid : UInt16} {entry : Octets × Instant}
      (hentry : (s.session.dedup.prune a.got).entries.lookup mid =
        some entry) :
      s.session.dedup.entries.lookup mid = some entry := by
    rw [DedupCache.prune_lookup, Option.filter_eq_some_iff] at hentry
    exact hentry.1
  have hcases := processDatagram_step answer s.session a
  generalize processDatagram answer s.session a = result at hcases
  intro mid entry hentry
  cases hcases with
  | ignored hother =>
      rw [recordedUnder, brings_of_other hother, List.append_nil]
      exact hs mid entry hentry
  | @replayed dgram cached recorded hreq hheld =>
      have hne : s.session.held a dgram ≠ none := by
        rw [Session.held, hheld]
        nofun
      rw [recordedUnder, brings_of_held hreq hne, List.append_nil]
      exact hs mid entry (hprune hentry)
  | @executed dgram hreq hheld =>
      rw [recordedUnder, brings_of_new hreq hheld, List.reverse_append,
        List.reverse_singleton, List.singleton_append, List.find?_cons]
      by_cases hsame : mid = dgram.messageId
      · subst hsame
        rw [DedupCache.insert_lookup_self, Option.some.injEq] at hentry
        subst hentry
        refine ⟨dgram, s.session.nextMid, by simp, rfl, ?_⟩
        exact respond_header hanswer s.session hreq
      · have hother : ¬ dgram.messageId = mid := fun heq => hsame heq.symm
        rw [DedupCache.insert_lookup_ne _ _ _ hsame] at hentry
        simp only [hother, decide_false]
        exact hs mid entry
          (hprune (DedupCache.makeRoom_lookup_some hentry))

/-! One datagram: the rules are kept where it is proper. -/

theorem disciplined_other (answer : Answer) (s : Session) {a : Arrival}
    (hother : ∀ dgram, ¬ RequestArrival a.bytes dgram) :
    Disciplined s a (processDatagram answer s a).1
      (processDatagram answer s a).2 := by
  have hsame := (processDatagram_other answer s hother).1
  constructor
  case calls => exact .inl (by rw [hsame])
  case confirmable =>
    intro dgram hreq
    exact absurd hreq (hother dgram)
  case nonConfirmable =>
    intro dgram hreq
    exact absurd hreq (hother dgram)
  case ping =>
    intro dgram hdecode hempty hconfirmable
    refine ⟨?_, hsame⟩
    simp only [processDatagram, hdecode, hempty, hconfirmable, if_true]
  case silent =>
    intro hsilent
    refine ⟨?_, .inl hsame⟩
    unfold processDatagram
    cases hdecode : Datagram.decode a.bytes with
    | error e => rfl
    | ok dgram =>
        have hcode : Code.isRequest dgram.message.code = false :=
          Bool.eq_false_iff.mpr fun hcode => hother dgram ⟨hdecode, hcode⟩
        simp only [hcode, if_true]
        split_ifs with hempty hconfirmable
        · rcases hsilent dgram hdecode with hasks | hother | hother
          · exact absurd (.inl hconfirmable) hasks
          · exact absurd hconfirmable hother.2
          · exact absurd hempty hother.1
        · rfl
        · rfl

theorem not_silent {a : Arrival} {dgram : Datagram}
    (hreq : RequestArrival a.bytes dgram) (hasks : Asks dgram) :
    ¬ Silent a.bytes := by
  intro hsilent
  rcases hsilent dgram hreq.1 with hother | hempty | hcode
  · exact hother hasks
  · exact hreq.not_empty hempty.1
  · rw [hreq.2] at hcode
    exact absurd hcode.2 (by decide)

theorem silent_of_not_asks {a : Arrival} {dgram : Datagram}
    (hreq : RequestArrival a.bytes dgram) (hasks : ¬ Asks dgram) :
    Silent a.bytes := by
  intro dgram' hdecode
  have hsame := hdecode.symm.trans hreq.1
  cases hsame
  exact .inl hasks

/-- A reply to a request carries what it was made for. -/
theorem disciplined_executed_iff (hanswer : KeepsToken answer) (s : Session)
    {a : Arrival} {dgram : Datagram} (hreq : RequestArrival a.bytes dgram)
    (hheld : s.held a dgram = none) :
    Disciplined s a (processDatagram answer s a).1
        (processDatagram answer s a).2 ↔ Asks dgram := by
  have hheader := respond_header hanswer s hreq
  have hprocess : processDatagram answer s a =
      (some (respond answer s dgram a), {
        dedup := (s.dedup.prune a.got).insert a.recorded dgram.messageId
          (respond answer s dgram a)
        nextMid := (replyHeader dgram s.nextMid).2.2
        history := s.history ++ [execution answer s dgram a] }) := by
    rw [Session.held] at hheld
    rw [processDatagram_request hreq, processRequest, DedupCache.get, hheld]
    rfl
  rw [hprocess]
  constructor
  · intro hdisciplined
    by_contra hasks
    have hnone := (hdisciplined.silent (silent_of_not_asks hreq hasks)).1
    cases hnone
  · intro hasks
    constructor
    case calls =>
      exact .inr ⟨dgram, _, hreq, hasks, hheld, rfl, rfl⟩
    case confirmable =>
      intro dgram' hreq' hconfirmable
      rw [hreq.unique hreq'] at hconfirmable ⊢
      rw [replyHeader, hconfirmable] at hheader
      refine ⟨⟨_, rfl, hheader⟩, ?_⟩
      rw [replyHeader, hconfirmable]
    case nonConfirmable =>
      intro dgram' hreq' hnonConfirmable
      rw [hreq.unique hreq'] at hnonConfirmable ⊢
      rw [replyHeader, hnonConfirmable] at hheader
      refine ⟨_, _, rfl, hheader, fun _ => ⟨rfl, ?_⟩, absurd hheld⟩
      rw [replyHeader, hnonConfirmable]
    case ping =>
      intro dgram' hdecode hempty
      exact absurd hempty (hreq.decoded_not_empty hdecode)
    case silent => exact fun hsilent => absurd hsilent (not_silent hreq hasks)

theorem disciplined_replayed_iff {s : Traced} (hs : Filed s) {a : Arrival}
    {dgram : Datagram} (hreq : RequestArrival a.bytes dgram)
    (hheld : s.session.held a dgram ≠ none) :
    Obeys answer s a ↔ Asks dgram ∧
      ∀ recorded, s.recordedUnder dgram.messageId = some recorded →
        (recorded.messageType = .confirmable ↔
          dgram.messageType = .confirmable) ∧
        recorded.message.token = dgram.message.token := by
  obtain ⟨⟨cached, at_⟩, hentry⟩ := Option.ne_none_iff_exists'.mp hheld
  have hprocess : processDatagram answer s.session a = (some cached,
      { s.session with dedup := s.session.dedup.prune a.got }) := by
    rw [Session.held] at hentry
    rw [processDatagram_request hreq, processRequest, DedupCache.get, hentry]
    rfl
  have hfiled : ∃ recorded nextMid,
      s.recordedUnder dgram.messageId = some recorded ∧
        recorded.messageId = dgram.messageId ∧
        Datagram.header cached = some ((replyHeader recorded nextMid).1,
          (replyHeader recorded nextMid).2.1, recorded.message.token) := by
    rw [Session.held, DedupCache.prune_lookup,
      Option.filter_eq_some_iff] at hentry
    exact hs _ _ hentry.1
  obtain ⟨recorded, nextMid, hrecorded, hmid, hheader⟩ := hfiled
  simp only [hrecorded, Option.some.injEq, forall_eq']
  rw [Obeys, hprocess]
  constructor
  · intro hdisciplined
    have hasks : Asks dgram := by
      by_contra hasks
      have hnone := (hdisciplined.silent (silent_of_not_asks hreq hasks)).1
      cases hnone
    refine ⟨hasks, ?_⟩
    rcases hasks with hconfirmable | hnonConfirmable
    · obtain ⟨⟨bytes, hbytes, hcarried⟩, -⟩ :=
        hdisciplined.confirmable dgram hreq hconfirmable
      cases hbytes
      rw [hheader, replyHeader] at hcarried
      cases htype : recorded.messageType <;> simp_all
    · obtain ⟨bytes, mid, hbytes, hcarried, -⟩ :=
        hdisciplined.nonConfirmable dgram hreq hnonConfirmable
      cases hbytes
      rw [hheader, replyHeader] at hcarried
      cases htype : recorded.messageType <;> simp_all
  · intro hproper
    obtain ⟨hasks, htype, htoken⟩ := hproper
    constructor
    case calls => exact .inl rfl
    case confirmable =>
      intro dgram' hreq' hconfirmable
      rw [hreq.unique hreq'] at hconfirmable ⊢
      rw [replyHeader, htype.mpr hconfirmable, hmid, htoken] at hheader
      exact ⟨⟨cached, rfl, hheader⟩, rfl⟩
    case nonConfirmable =>
      intro dgram' hreq' hnonConfirmable
      rw [hreq.unique hreq'] at hnonConfirmable ⊢
      have hother : recorded.messageType ≠ .confirmable := by
        rw [ne_eq, htype, hnonConfirmable]
        decide
      have hreply : (replyHeader recorded nextMid).1 = .nonConfirmable := by
        unfold replyHeader
        cases hrecordedType : recorded.messageType with
        | confirmable => exact absurd hrecordedType hother
        | _ => rfl
      rw [hreply, htoken] at hheader
      exact ⟨cached, _, rfl, hheader, fun hnone => absurd hnone hheld,
        fun _ => rfl⟩
    case ping =>
      intro dgram' hdecode hempty
      exact absurd hempty (hreq.decoded_not_empty hdecode)
    case silent => exact fun hsilent => absurd hsilent (not_silent hreq hasks)

theorem Filed.obeys_iff {s : Traced} (hanswer : KeepsToken answer)
    (hs : Filed s) (a : Arrival) : Obeys answer s a ↔ Proper s a := by
  by_cases hreq : ∃ dgram, RequestArrival a.bytes dgram
  · obtain ⟨dgram, hreq⟩ := hreq
    have hproper : Proper s a ↔ Asks dgram ∧
        ∀ recorded, s.session.held a dgram ≠ none →
          s.recordedUnder dgram.messageId = some recorded →
            (recorded.messageType = .confirmable ↔
              dgram.messageType = .confirmable) ∧
            recorded.message.token = dgram.message.token := by
      constructor
      · exact fun h => h dgram hreq
      · intro h dgram' hreq'
        rwa [hreq.unique hreq']
    rw [hproper]
    by_cases hheld : s.session.held a dgram = none
    · rw [Obeys, disciplined_executed_iff hanswer s.session hreq hheld]
      exact ⟨fun hasks => ⟨hasks, fun _ hne => absurd hheld hne⟩, And.left⟩
    · rw [disciplined_replayed_iff hs hreq hheld]
      simp only [hheld, ne_eq, not_false_eq_true, true_implies]
  · rw [not_exists] at hreq
    refine iff_of_true (disciplined_other answer s.session hreq) ?_
    exact fun dgram hreq' => absurd hreq' (hreq dgram)

/-- In every session of every run, whatever upstream and the other connections
do: all datagrams are answered by the rules exactly if all of them are proper. -/
theorem obeys_iff_proper (h : Handler) (session : DeviceSession)
    (upstream : List (Message × Instant) → DeviceRequest → UpstreamResult)
    (table : List (Message × Instant) → Block1Table) (seed : UInt16)
    (arrivals : List Arrival) :
    let answer := handlerAnswer h session upstream table
    Along (step answer) (Obeys answer) (start seed) arrivals ↔
      Along (step answer) Proper (start seed) arrivals := by
  have hanswer := handlerAnswer_keepsToken h session upstream table
  dsimp only
  exact along_congr_inv _ (fun s a s' hs => hs.step hanswer)
    (fun s a hs => hs.obeys_iff hanswer a) (start_filed seed)

def requestInAck : Arrival where
  bytes := [0x60, 0x01, 0x00, 0x07]
  got := 1
  served := 2
  recorded := 3

def getInAck : Datagram where
  messageType := .acknowledgement
  messageId := 7
  message := { code := Code.get }

/-- An Acknowledgement with a request code is executed and answered. -/
theorem requestInAck_executed :
    let answer := handlerAnswer (Handler.mk 6) (Handler.logsSession 1)
      (fun _ _ => .error "down") fun _ => ∅
    let result := processDatagram answer (Session.new 0) requestInAck
    Datagram.decode requestInAck.bytes = .ok getInAck ∧
      result.1.bind Datagram.header = some (.nonConfirmable, 1, []) ∧
      result.2.history.length = 1 ∧
      ¬ Along (step answer) (Obeys answer) (start 0) [requestInAck] := by
  intro answer result
  have hdecode : Datagram.decode requestInAck.bytes = .ok getInAck := by
    decide +kernel
  have hheader : result.1.bind Datagram.header =
      some (.nonConfirmable, 1, []) := by decide +kernel
  refine ⟨hdecode, hheader, by decide +kernel, ?_⟩
  intro hobeys
  have hasks : ¬ Asks getInAck := by
    unfold Asks
    decide
  have hnone : result.1 = none :=
    (hobeys.1.silent (silent_of_not_asks ⟨hdecode, by decide⟩ hasks)).1
  rw [hnone] at hheader
  cases hheader

end Traced

end Loft.DtlsCommon
