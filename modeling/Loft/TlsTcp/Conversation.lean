import Loft.Handler.Outcomes
import Loft.Handler.Reassembly
import Loft.TlsTcp.Connection

namespace Loft.TlsTcp

open Loft.Data
open Loft.Data.Transition (run run_concat_eq_some)
open Loft.Coap

/-! A connection together with the handler it calls, among all the other
connections that share the handler's table: what is written is a function of
the messages read and of the handler's answers. -/

/-- The settings frame that `connection_thread` opens with. -/
def csm : Message where
  code := Code.csm

/-- `connection_thread` past the handshake, up to `serve_frames`. -/
def opened (writes : Bool) : Connection where
  phase := if writes then .reading else .returned
  written := [csm]

/-- The request that the next call takes to the handler. -/
def requested (s : Connection) : Option Message :=
  match s.decoder.nextFrame.1 with
  | .ok (some msg) => if Code.isRequest msg.code then some msg else none
  | _ => none

/-- `handled` are the requests of this connection, with their answers. -/
structure Serving where
  conn : Connection
  table : Block1Table := ∅
  handled : List (Message × Message) := []

namespace Serving

inductive Action
  | read (bytes : Octets)
  | readError
  | next (now : Instant) (upstream : DeviceRequest → UpstreamResult)
      (writes : Bool)
  -- the sweep of a call, or a call for another connection
  | elsewhere (event : Handler.Event)

def start (table : Block1Table) (writes : Bool) : Serving where
  conn := opened writes
  table := table

def step (h : Handler) (device : DeviceSession) (s : Serving) :
    Action → Option Serving
  | .read bytes =>
      (TlsTcp.step s.conn (.read bytes)).map fun conn => { s with conn := conn }
  | .readError =>
      (TlsTcp.step s.conn .readError).map fun conn => { s with conn := conn }
  | .next now upstream writes =>
      match requested s.conn with
      | none =>
          (TlsTcp.step s.conn (.next {} writes)).map fun conn =>
            { s with conn := conn }
      | some req =>
          let called := h.dispatch now req device .tcp s.table
          let answer := (called.1.outcome upstream).2
          (TlsTcp.step s.conn (.next answer writes)).map fun conn => {
            conn := conn
            table := called.2
            handled := s.handled ++ [(req, answer)] }
  | .elsewhere event => some { s with table := h.step s.table event }

def Action.chunk : Action → Option Octets
  | .read bytes => some bytes
  | _ => none

/-- Whether a write that the action makes, if any, succeeds. -/
def Action.Delivers : Action → Prop
  | .next _ _ writes => writes = true
  | _ => True

end Serving

/-- What a peer is due for its messages, the handler's answers in turn. -/
def replies : List Message → List Message → List Message
  | [], _ => []
  | msg :: msgs, answers =>
      if Code.isRequest msg.code then
        answers.head?.toList ++ replies msgs answers.tail
      else if msg.code = Code.ping then
        { code := Code.pong, token := msg.token } :: replies msgs answers
      else replies msgs answers

/-- The messages that `serve_frames` calls the handler for. -/
def requests (msgs : List Message) : List Message :=
  msgs.filter fun msg => Code.isRequest msg.code

def Dismisses (msg : Message) : Prop :=
  msg.code = Code.release ∨ msg.code = Code.abort

/-- Where the connection stands with `taken` of the messages decoded, `lost`
being whether a write has failed, and what it has written in parting. -/
inductive Standing
    (decoded : List Message × Except DecodeError FrameDecoder)
    (taken : List Message) (lost : Prop) : Phase → Option Message → Prop
  | serving {phase : Phase} : phase ≠ .returned →
      (phase = .reading → taken = decoded.1) →
      Standing decoded taken lost phase none
  | ended {dec : FrameDecoder} : decoded = (taken, .ok dec) →
      Standing decoded taken lost .returned none
  | dismissed {msg : Message} : msg ∈ taken.getLast? → Dismisses msg →
      Standing decoded taken lost .returned none
  | malformed {e : DecodeError} : decoded = (taken, .error e) →
      Standing decoded taken lost .returned (some { code := Code.abort })
  | unwritten : lost → Standing decoded taken lost .returned none

/-! The reaction to one message. -/

theorem react_request {msg : Message} (hcode : Code.isRequest msg.code = true)
    (answer : Message) : react msg answer = .proceed (some answer) := by
  have hsignal : msg.code ≠ Code.csm ∧ msg.code ≠ Code.ping ∧
      msg.code ≠ Code.pong ∧ msg.code ≠ Code.release ∧
        msg.code ≠ Code.abort := by
    refine ⟨?_, ?_, ?_, ?_, ?_⟩
    all_goals
      intro hsame
      rw [hsame] at hcode
      exact absurd hcode (by decide)
  obtain ⟨hcsm, hping, hpong, hrelease, habort⟩ := hsignal
  rw [react, if_neg hcsm, if_neg hping, if_neg hpong,
    if_neg (not_or.mpr ⟨hrelease, habort⟩), if_pos hcode]

/-- What is due for a message that the handler never sees. -/
def signalReply (msg : Message) : Option Message :=
  if msg.code = Code.ping then some { code := Code.pong, token := msg.token }
  else none

theorem react_signal {msg : Message} (hcode : Code.isRequest msg.code = false)
    (answer : Message) :
    (Dismisses msg ∧ react msg answer = .leave ∨
      ¬ Dismisses msg ∧ react msg answer = .proceed (signalReply msg)) := by
  unfold react signalReply Dismisses
  by_cases hcsm : msg.code = Code.csm
  · rw [if_pos hcsm, hcsm]
    exact .inr ⟨by decide, rfl⟩
  by_cases hping : msg.code = Code.ping
  · rw [if_neg hcsm, if_pos hping, if_pos hping, hping]
    exact .inr ⟨by decide, rfl⟩
  rw [if_neg hcsm, if_neg hping, if_neg hping]
  by_cases hpong : msg.code = Code.pong
  · rw [if_pos hpong, hpong]
    exact .inr ⟨by decide, rfl⟩
  rw [if_neg hpong]
  by_cases hleave : msg.code = Code.release ∨ msg.code = Code.abort
  · rw [if_pos hleave]
    exact .inl ⟨hleave, rfl⟩
  · rw [if_neg hleave, hcode]
    exact .inr ⟨hleave, rfl⟩

/-! Replies come in the order of the messages. -/

theorem requests_append (msgs more : List Message) :
    requests (msgs ++ more) = requests msgs ++ requests more :=
  List.filter_append ..

theorem replies_append {msgs : List Message} (more : List Message)
    {answers : List Message} (later : List Message)
    (hlength : answers.length = (requests msgs).length) :
    replies (msgs ++ more) (answers ++ later) =
      replies msgs answers ++ replies more later := by
  induction msgs generalizing answers with
  | nil =>
      rw [List.eq_nil_of_length_eq_zero hlength]
      rfl
  | cons msg msgs ih =>
      rw [requests, List.filter_cons] at hlength
      rw [List.cons_append, replies, replies]
      by_cases hcode : Code.isRequest msg.code = true
      · rw [if_pos hcode] at hlength
        obtain ⟨answer, answers, rfl⟩ :=
          List.exists_cons_of_length_eq_add_one hlength
        have hrest := ih (Nat.succ.inj hlength)
        rw [if_pos hcode, if_pos hcode]
        exact congrArg (answer :: ·) hrest
      · rw [if_neg hcode] at hlength
        rw [if_neg hcode, if_neg hcode, ih hlength]
        split_ifs <;> rfl

theorem replies_request {msg : Message}
    (hcode : Code.isRequest msg.code = true) (answer : Message) :
    replies [msg] [answer] = [answer] := by
  rw [replies, if_pos hcode]
  rfl

theorem replies_signal {msg : Message}
    (hcode : Code.isRequest msg.code = false) :
    replies [msg] [] = (signalReply msg).toList := by
  rw [replies, signalReply, if_neg (Bool.not_eq_true _ ▸ hcode)]
  split_ifs <;> rfl

/-! What one call of the inner loop does. -/

namespace Serving

variable {h : Handler} {device : DeviceSession} {s s' : Serving}

/-- The outcomes of `.next`, with the messages it takes off the buffer. -/
inductive Took (writes : Bool) (s s' : Serving) : List Message → Prop
  | malformed {e : DecodeError} :
      drainFrames s.conn.decoder = ([], .error e) →
      s'.handled = s.handled →
      s'.conn = {
        decoder := s.conn.decoder
        phase := .returned
        written := s.conn.written ++ [{ code := Code.abort }] } →
      Took writes s s' []
  | waits :
      drainFrames s.conn.decoder = ([], .ok s.conn.decoder) →
      s'.handled = s.handled →
      s'.conn = { s.conn with phase := .reading } →
      Took writes s s' []
  | answered {msg answer : Message} :
      drainFrames s.conn.decoder =
        (msg :: (drainFrames s'.conn.decoder).1,
          (drainFrames s'.conn.decoder).2) →
      Code.isRequest msg.code = true → answer.token = msg.token →
      s'.handled = s.handled ++ [(msg, answer)] →
      s'.conn.written = s.conn.written ++ [answer] →
      s'.conn.phase = (if writes then s.conn.phase else .returned) →
      Took writes s s' [msg]
  | dismissed {msg : Message} :
      drainFrames s.conn.decoder =
        (msg :: (drainFrames s'.conn.decoder).1,
          (drainFrames s'.conn.decoder).2) →
      Code.isRequest msg.code = false → Dismisses msg →
      s'.handled = s.handled →
      s'.conn.written = s.conn.written → s'.conn.phase = .returned →
      Took writes s s' [msg]
  | signalled {msg : Message} :
      drainFrames s.conn.decoder =
        (msg :: (drainFrames s'.conn.decoder).1,
          (drainFrames s'.conn.decoder).2) →
      Code.isRequest msg.code = false → ¬ Dismisses msg →
      s'.handled = s.handled →
      s'.conn.written = s.conn.written ++ (signalReply msg).toList →
      s'.conn.phase = s.conn.phase ∨
        writes = false ∧ s'.conn.phase = .returned →
      Took writes s s' [msg]

theorem requested_of_none {conn : Connection} (hmsg : ∀ msg dec,
    conn.decoder.nextFrame ≠ (.ok (some msg), dec)) :
    requested conn = none := by
  unfold requested
  rcases hnext : conn.decoder.nextFrame with ⟨e | _ | msg, dec⟩
  · rfl
  · rfl
  · exact absurd hnext (hmsg msg dec)

theorem requested_of_some {conn : Connection} {msg : Message}
    {dec : FrameDecoder}
    (hnext : conn.decoder.nextFrame = (.ok (some msg), dec)) :
    requested conn =
      if Code.isRequest msg.code then some msg else none := by
  rw [requested, hnext]

theorem step_next {now : Instant} {upstream : DeviceRequest → UpstreamResult}
    {writes : Bool}
    (hstep : step h device s (.next now upstream writes) = some s') :
    s.conn.phase = .draining ∧ ∃ msgs, Took writes s s' msgs := by
  simp only [step] at hstep
  rcases hnext : s.conn.decoder.nextFrame with ⟨e | _ | msg, dec⟩
  · rw [requested_of_none (by simp [hnext])] at hstep
    obtain ⟨conn, hconn, rfl⟩ := Option.map_eq_some_iff.mp hstep
    have hdrain := (TlsTcp.step_next hconn).1
    have hsame := FrameDecoder.nextFrame_fails hnext
    rw [TlsTcp.step, if_pos hdrain, hnext, hsame] at hconn
    cases hconn
    exact ⟨hdrain, [], .malformed (drainFrames_of_error hnext) rfl rfl⟩
  · rw [requested_of_none (by simp [hnext])] at hstep
    obtain ⟨conn, hconn, rfl⟩ := Option.map_eq_some_iff.mp hstep
    have hdrain := (TlsTcp.step_next hconn).1
    obtain ⟨hsame, -⟩ := FrameDecoder.nextFrame_waits hnext
    rw [hsame] at hnext
    rw [TlsTcp.step, if_pos hdrain, hnext] at hconn
    cases hconn
    exact ⟨hdrain, [], .waits (drainFrames_of_none hnext) rfl rfl⟩
  · have htaken := drainFrames_of_some hnext
    rw [requested_of_some hnext] at hstep
    cases hcode : Code.isRequest msg.code with
    | true =>
        rw [if_pos hcode] at hstep
        obtain ⟨conn, hconn, rfl⟩ := Option.map_eq_some_iff.mp hstep
        have hdrain := (TlsTcp.step_next hconn).1
        rw [TlsTcp.step, if_pos hdrain, hnext] at hconn
        simp only [serveMessage, react_request hcode,
          Option.some.injEq] at hconn
        subst hconn
        exact ⟨hdrain, [msg], .answered htaken hcode
          (h.outcome_token upstream now msg device .tcp s.table) rfl rfl rfl⟩
    | false =>
        rw [if_neg (by simp [hcode])] at hstep
        obtain ⟨conn, hconn, rfl⟩ := Option.map_eq_some_iff.mp hstep
        have hdrain := (TlsTcp.step_next hconn).1
        rw [TlsTcp.step, if_pos hdrain, hnext] at hconn
        obtain ⟨hdismisses, hreact⟩ | ⟨hstays, hreact⟩ := react_signal hcode {}
        · simp only [serveMessage, hreact, Option.some.injEq] at hconn
          subst hconn
          exact ⟨hdrain, [msg],
            .dismissed htaken hcode hdismisses rfl rfl rfl⟩
        · simp only [serveMessage, hreact, Option.some.injEq] at hconn
          refine ⟨hdrain, [msg], ?_⟩
          cases hreply : signalReply msg with
          | none =>
              rw [hreply] at hconn
              subst hconn
              refine .signalled htaken hcode hstays rfl ?_ (.inl rfl)
              rw [hreply]
              exact (List.append_nil _).symm
          | some reply =>
              rw [hreply] at hconn
              subst hconn
              refine .signalled htaken hcode hstays rfl ?_ ?_
              · rw [hreply]
                rfl
              · cases writes with
                | false => exact .inr ⟨rfl, rfl⟩
                | true => exact .inl rfl

end Serving

/-! The invariant, over any number of actions. -/

namespace Standing

variable {decoded : List Message × Except DecodeError FrameDecoder}
  {taken : List Message} {lost lost' : Prop} {phase : Phase}
  {farewell : Option Message}

theorem mono (hstanding : Standing decoded taken lost phase farewell)
    (hlost : lost → lost') : Standing decoded taken lost' phase farewell := by
  cases hstanding with
  | serving hopen hall => exact .serving hopen hall
  | ended hdecoded => exact .ended hdecoded
  | dismissed hlast hmsg => exact .dismissed hlast hmsg
  | malformed hdecoded => exact .malformed hdecoded
  | unwritten hhere => exact .unwritten (hlost hhere)

theorem farewell_none (hstanding : Standing decoded taken lost phase farewell)
    (hopen : phase ≠ .returned) : farewell = none := by
  cases hstanding with
  | malformed => exact absurd rfl hopen
  | _ => rfl

/-- Nothing decoded is left unanswered for no reason. -/
theorem all_taken (hstanding : Standing decoded taken lost phase farewell)
    (hphase : phase ≠ .draining) (hlost : ¬ lost)
    (hnone : ∀ msg ∈ taken, ¬ Dismisses msg) : taken = decoded.1 := by
  cases hstanding with
  | serving hopen hall =>
      cases phase with
      | reading => exact hall rfl
      | draining => exact absurd rfl hphase
      | returned => exact absurd rfl hopen
  | ended hdecoded => rw [hdecoded]
  | dismissed hlast hmsg =>
      exact absurd hmsg (hnone _ (List.mem_of_getLast? hlast))
  | malformed hdecoded => rw [hdecoded]
  | unwritten hhere => exact absurd hhere hlost

end Standing

/-- What the chunks read have come to: `taken` are the messages that are off
the buffer. -/
structure Conversed (chunks : List Octets) (lost : Prop) (s : Serving)
    (taken : List Message) (farewell : Option Message) : Prop where
  decoded : serveFrames {} chunks =
    (taken ++ (drainFrames s.conn.decoder).1, (drainFrames s.conn.decoder).2)
  waits : s.conn.phase = .reading →
    drainFrames s.conn.decoder = ([], .ok s.conn.decoder)
  kept : s.conn.phase ≠ .returned → ∀ msg ∈ taken, ¬ Dismisses msg
  before : ∀ msg ∈ taken.dropLast, ¬ Dismisses msg
  handled : s.handled.map Prod.fst = requests taken
  tokens : ∀ x ∈ s.handled, x.2.token = x.1.token
  written : s.conn.written =
    csm :: replies taken (s.handled.map Prod.snd) ++ farewell.toList
  standing : Standing (serveFrames {} chunks) taken lost s.conn.phase farewell

theorem drainFrames_fresh : drainFrames {} = ([], .ok {}) :=
  drainFrames_of_none rfl

namespace Conversed

variable {h : Handler} {device : DeviceSession} {s s' : Serving}
  {chunks : List Octets} {lost : Prop} {taken : List Message}
  {farewell : Option Message}

theorem start (table : Block1Table) (writes : Bool) :
    Conversed [] (writes = false) (Serving.start table writes) [] none where
  decoded := by
    rw [Serving.start, opened, drainFrames_fresh]
    rfl
  waits := fun _ => drainFrames_fresh
  kept := nofun
  before := nofun
  handled := rfl
  tokens := nofun
  written := rfl
  standing := by
    cases writes with
    | true => exact .serving nofun fun _ => rfl
    | false => exact .unwritten rfl

theorem mono {lost' : Prop} (hs : Conversed chunks lost s taken farewell)
    (hlost : lost → lost') : Conversed chunks lost' s taken farewell :=
  { hs with standing := hs.standing.mono hlost }

theorem decoded_waiting (hs : Conversed chunks lost s taken farewell)
    (hreading : s.conn.phase = .reading) :
    serveFrames {} chunks = (taken, .ok s.conn.decoder) := by
  rw [hs.decoded, hs.waits hreading, List.append_nil]

theorem read (hs : Conversed chunks lost s taken farewell) {bytes : Octets}
    (hstep : Serving.step h device s (.read bytes) = some s') :
    Conversed (chunks ++ [bytes]) lost s' taken none := by
  obtain ⟨conn, hconn, rfl⟩ := Option.map_eq_some_iff.mp hstep
  obtain ⟨hreading, -, hread⟩ := TlsTcp.step_read hconn
  have hopen : s.conn.phase ≠ .returned := by
    rw [hreading]
    simp
  obtain rfl := hs.standing.farewell_none hopen
  have hwaits := hs.waits hreading
  have hmore := serveFrames_concat (hs.decoded_waiting hreading) bytes
  obtain ⟨rfl, rfl⟩ | rfl := hread
  · have hsame : s.conn.decoder.extend [] = s.conn.decoder := by
      rw [FrameDecoder.extend, List.append_nil]
    rw [hsame] at hmore
    refine ⟨hmore, by simp, fun hnot => absurd rfl hnot, hs.before, hs.handled,
      hs.tokens, hs.written, ?_⟩
    rw [hwaits, List.append_nil] at hmore
    exact .ended hmore
  · exact ⟨hmore, by simp, fun _ => hs.kept hopen, hs.before, hs.handled,
      hs.tokens, hs.written, .serving (by simp) (by simp)⟩

theorem readError (hs : Conversed chunks lost s taken farewell)
    (hstep : Serving.step h device s .readError = some s') :
    Conversed chunks lost s' taken none := by
  obtain ⟨conn, hconn, rfl⟩ := Option.map_eq_some_iff.mp hstep
  obtain ⟨hreading, rfl⟩ := TlsTcp.step_readError hconn
  obtain rfl := hs.standing.farewell_none (by rw [hreading]; nofun)
  exact ⟨hs.decoded, nofun, fun hnot => absurd rfl hnot, hs.before,
    hs.handled, hs.tokens, hs.written, .ended (hs.decoded_waiting hreading)⟩

/-- The messages taken, and with them the replies, grow by what a call takes. -/
theorem advance (hs : Conversed chunks lost s taken none) {lost' : Prop}
    (hopen : s.conn.phase ≠ .returned)
    (msgs : List Message) (answers : List (Message × Message))
    {farewell' : Option Message}
    (hdecoded : drainFrames s.conn.decoder =
      (msgs ++ (drainFrames s'.conn.decoder).1,
        (drainFrames s'.conn.decoder).2))
    (hwaits : s'.conn.phase = .reading →
      drainFrames s'.conn.decoder = ([], .ok s'.conn.decoder))
    (hsingle : msgs.length ≤ 1)
    (hkept : s'.conn.phase ≠ .returned → ∀ msg ∈ msgs, ¬ Dismisses msg)
    (hhandled : s'.handled = s.handled ++ answers)
    (hrequests : answers.map Prod.fst = requests msgs)
    (htokens : ∀ x ∈ answers, x.2.token = x.1.token)
    (hwritten : s'.conn.written = s.conn.written ++
      replies msgs (answers.map Prod.snd) ++ farewell'.toList)
    (hstanding : Standing (serveFrames {} chunks) (taken ++ msgs) lost'
      s'.conn.phase farewell') :
    Conversed chunks lost' s' (taken ++ msgs) farewell' where
  decoded := by
    rw [hs.decoded, hdecoded, List.append_assoc]
  waits := hwaits
  kept := by
    intro hstays msg hmsg
    exact (List.mem_append.mp hmsg).elim (hs.kept hopen msg)
      (hkept hstays msg)
  before := by
    intro msg hmsg
    cases msgs with
    | nil =>
        rw [List.append_nil] at hmsg
        exact hs.before msg hmsg
    | cons last none =>
        rw [List.eq_nil_of_length_eq_zero
          (Nat.le_zero.mp (Nat.le_of_succ_le_succ hsingle)),
          List.dropLast_concat] at hmsg
        exact hs.kept hopen msg hmsg
  handled := by
    rw [hhandled, List.map_append, hs.handled, hrequests, requests_append]
  tokens := by
    intro x hx
    rw [hhandled] at hx
    exact (List.mem_append.mp hx).elim (hs.tokens x) (htokens x)
  written := by
    have hlength : (s.handled.map Prod.snd).length =
        (requests taken).length := by
      rw [List.length_map, ← hs.handled, List.length_map]
    rw [hwritten, hs.written, hhandled, List.map_append,
      replies_append msgs (answers.map Prod.snd) hlength]
    simp
  standing := hstanding

theorem next (hs : Conversed chunks lost s taken farewell) {writes : Bool}
    {msgs : List Message} (hdrain : s.conn.phase = .draining)
    (htook : Serving.Took writes s s' msgs) :
    ∃ farewell', Conversed chunks (lost ∨ writes = false) s' (taken ++ msgs)
      farewell' := by
  have hopen : s.conn.phase ≠ .returned := by
    rw [hdrain]
    exact nofun
  have hbusy : s.conn.phase ≠ .reading := by
    rw [hdrain]
    exact nofun
  obtain rfl := hs.standing.farewell_none hopen
  have hdecoded := hs.decoded
  cases htook with
  | @malformed e herror hhandled hconn =>
      rw [herror] at hdecoded
      rw [← List.append_nil s.handled] at hhandled
      refine ⟨some { code := Code.abort },
        hs.advance hopen [] [] ?_ ?_ (Nat.zero_le 1) nofun hhandled rfl nofun
          ?_ ?_⟩
      · rw [hconn]
        rfl
      · rw [hconn]
        exact nofun
      · rw [hconn]
        simp [replies]
      · rw [hconn]
        exact .malformed hdecoded
  | waits hdrained hhandled hconn =>
      rw [hdrained] at hdecoded
      rw [← List.append_nil s.handled] at hhandled
      refine ⟨none,
        hs.advance hopen [] [] ?_ ?_ (Nat.zero_le 1) nofun hhandled rfl nofun
          ?_ ?_⟩
      · rw [hconn]
        rfl
      · rw [hconn]
        exact fun _ => hdrained
      · rw [hconn]
        simp [replies]
      · rw [hconn]
        exact .serving nofun fun _ => (congrArg Prod.fst hdecoded).symm
  | @answered msg answer htaken hcode htoken hhandled hwrote hphase =>
      refine ⟨none,
        hs.advance hopen [msg] [(msg, answer)] htaken ?_ (Nat.le_refl 1) ?_
          hhandled ?_ ?_ ?_ ?_⟩
      · rw [hphase, hdrain]
        cases writes <;> exact nofun
      · intro _ msg' hmem hdismisses
        rw [List.mem_singleton.mp hmem] at hdismisses
        rcases hdismisses with hrelease | habort
        · rw [hrelease] at hcode
          exact absurd hcode (by decide)
        · rw [habort] at hcode
          exact absurd hcode (by decide)
      · simp [requests, hcode]
      · simpa using htoken
      · simp [hwrote, replies_request hcode]
      · cases writes with
        | false =>
            rw [hphase]
            exact .unwritten (.inr rfl)
        | true =>
            rw [hphase, if_pos rfl]
            exact .serving hopen fun hreading => absurd hreading hbusy
  | @dismissed msg htaken hcode hdismisses hhandled hwrote hphase =>
      have hsilent : signalReply msg = none := by
        apply if_neg
        intro hping
        rw [Dismisses, hping] at hdismisses
        exact absurd hdismisses (by decide)
      rw [← List.append_nil s.handled] at hhandled
      refine ⟨none,
        hs.advance hopen [msg] [] htaken ?_ (Nat.le_refl 1)
          (fun hstays => absurd hphase hstays) hhandled ?_ nofun ?_ ?_⟩
      · rw [hphase]
        exact nofun
      · simp [requests, hcode]
      · simp [hwrote, replies_signal hcode, hsilent]
      · rw [hphase]
        exact .dismissed (by simp) hdismisses
  | @signalled msg htaken hcode hstays hhandled hwrote hphase =>
      rw [← List.append_nil s.handled] at hhandled
      refine ⟨none,
        hs.advance hopen [msg] [] htaken ?_ (Nat.le_refl 1)
          (fun _ => by simpa using hstays) hhandled ?_ nofun ?_ ?_⟩
      · rcases hphase with hsame | ⟨-, hreturned⟩
        · rw [hsame]
          exact fun hreading => absurd hreading hbusy
        · rw [hreturned]
          exact nofun
      · simp [requests, hcode]
      · simp [hwrote, replies_signal hcode]
      · rcases hphase with hsame | ⟨hfailed, hreturned⟩
        · rw [hsame]
          exact .serving hopen fun hreading => absurd hreading hbusy
        · rw [hreturned]
          exact .unwritten (.inr hfailed)

end Conversed

/-- Whether a write of the connection has failed. -/
def Lost (writes : Bool) (actions : List Serving.Action) : Prop :=
  writes = false ∨ ∃ action ∈ actions, ¬ action.Delivers

theorem lost_concat {writes : Bool} {actions : List Serving.Action}
    {action : Serving.Action} :
    Lost writes (actions ++ [action]) ↔
      Lost writes actions ∨ ¬ action.Delivers := by
  simp [Lost, or_and_right, exists_or, or_assoc]

theorem run_conversed {h : Handler} {device : DeviceSession}
    {table : Block1Table} {writes : Bool} {actions : List Serving.Action}
    {s : Serving}
    (hrun : run (Serving.step h device) (Serving.start table writes) actions =
      some s) :
    ∃ taken farewell, Conversed (actions.filterMap Serving.Action.chunk)
      (Lost writes actions) s taken farewell := by
  induction actions using List.reverseRecOn generalizing s with
  | nil =>
      cases hrun
      exact ⟨[], none, (Conversed.start table writes).mono .inl⟩
  | append_singleton actions action ih =>
      obtain ⟨mid, hfront, hlast⟩ := (run_concat_eq_some _).mp hrun
      obtain ⟨taken, farewell, hmid⟩ := ih hfront
      have hkept (hlost : Lost writes actions) :
          Lost writes (actions ++ [action]) :=
        lost_concat.mpr (.inl hlost)
      rw [List.filterMap_append]
      cases action with
      | read bytes => exact ⟨taken, none, (hmid.read hlast).mono hkept⟩
      | readError =>
          rw [List.filterMap_cons_none rfl, List.filterMap_nil, List.append_nil]
          exact ⟨taken, none, (hmid.readError hlast).mono hkept⟩
      | next now upstream delivered =>
          obtain ⟨hdrain, msgs, htook⟩ := Serving.step_next hlast
          obtain ⟨farewell', hnext⟩ := hmid.next hdrain htook
          rw [List.filterMap_cons_none rfl, List.filterMap_nil, List.append_nil]
          refine ⟨taken ++ msgs, farewell', hnext.mono fun hlost => ?_⟩
          apply lost_concat.mpr
          simpa [Serving.Action.Delivers] using hlost
      | elsewhere event =>
          cases hlast
          rw [List.filterMap_cons_none rfl, List.filterMap_nil, List.append_nil]
          exact ⟨taken, farewell, { hmid.mono hkept with }⟩

def noContent (_ : DeviceRequest) : UpstreamResult :=
  .ok { status := 204, body := [] }

end Loft.TlsTcp
