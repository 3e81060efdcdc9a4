import Loft.TlsTcp
import Loft.Data.Transition

namespace Loft.TlsTcp

open Loft.Data
open Loft.Data.Transition (run run_invariant exists_run_leaves)
open Loft.Coap

/-! One connection, call by call: a read fills the decoder's buffer, then
frames are taken off it and answered until one is incomplete. -/

/-- The length of the slice that `serve_frames` reads into. -/
def readBufLen : Nat := 16 * 1024

inductive Reaction
  | leave
  | proceed (reply : Option Message)
  deriving DecidableEq, Repr

/-- The `match` of `serve_frames` on the code of a message; `answer` is what
the handler makes of it. -/
def react (msg answer : Message) : Reaction :=
  if msg.code = Code.csm then .proceed none
  else if msg.code = Code.ping then
    .proceed (some { code := Code.pong, token := msg.token })
  else if msg.code = Code.pong then .proceed none
  else if msg.code = Code.release ∨ msg.code = Code.abort then .leave
  else if Code.isRequest msg.code then .proceed (some answer)
  else .proceed none

inductive Phase
  -- at `stream.read`
  | reading
  -- at `decoder.next_frame`
  | draining
  | returned
  deriving DecidableEq, Repr

/-- `written` are the frames handed to `write_all`, in order. -/
structure Connection where
  decoder : FrameDecoder := {}
  phase : Phase := .reading
  written : List Message := []
  deriving DecidableEq, Repr

inductive Action
  | read (bytes : Octets)
  | readError
  | next (answer : Message) (writes : Bool)
  deriving DecidableEq, Repr

/-- The inner loop past `next_frame`; `writes` is whether the reply goes out. -/
def serveMessage (s : Connection) (msg answer : Message) (writes : Bool) :
    Connection :=
  match react msg answer with
  | .leave => { s with phase := .returned }
  | .proceed none => s
  | .proceed (some reply) =>
      { s with
        phase := if writes then s.phase else .returned
        written := s.written ++ [reply] }

def step (s : Connection) : Action → Option Connection
  | .read bytes =>
      if s.phase = .reading ∧ bytes.length ≤ readBufLen then
        -- a read of no bytes is the end of the stream
        if bytes = [] then some { s with phase := .returned }
        else some { s with
          decoder := s.decoder.extend bytes
          phase := .draining }
      else none
  | .readError =>
      if s.phase = .reading then some { s with phase := .returned } else none
  | .next answer writes =>
      if s.phase = .draining then
        match s.decoder.nextFrame with
        | (.error _, decoder) => some {
            decoder := decoder
            phase := .returned
            written := s.written ++ [{ code := Code.abort }] }
        | (.ok none, decoder) =>
            some { s with decoder := decoder, phase := .reading }
        | (.ok (some msg), decoder) =>
            some (serveMessage { s with decoder := decoder } msg answer writes)
      else none

/-! What each action can do. -/

@[simp] theorem serveMessage_decoder (s : Connection) (msg answer : Message)
    (writes : Bool) : (serveMessage s msg answer writes).decoder = s.decoder := by
  unfold serveMessage
  split <;> rfl

theorem serveMessage_phase (s : Connection) (msg answer : Message)
    (writes : Bool) :
    (serveMessage s msg answer writes).phase = s.phase ∨
      (serveMessage s msg answer writes).phase = .returned := by
  unfold serveMessage
  split
  · exact .inr rfl
  · exact .inl rfl
  · cases writes with
    | false => exact .inr rfl
    | true => exact .inl rfl

theorem step_read {s s' : Connection} {bytes : Octets}
    (h : step s (.read bytes) = some s') :
    s.phase = .reading ∧ bytes.length ≤ readBufLen ∧
      (bytes = [] ∧ s' = { s with phase := .returned } ∨
        s' = { s with decoder := s.decoder.extend bytes, phase := .draining }) := by
  simp only [step] at h
  split_ifs at h with hread hempty
  · cases h
    exact ⟨hread.1, hread.2, .inl ⟨hempty, rfl⟩⟩
  · cases h
    exact ⟨hread.1, hread.2, .inr rfl⟩

theorem step_readError {s s' : Connection} (h : step s .readError = some s') :
    s.phase = .reading ∧ s' = { s with phase := .returned } := by
  simp only [step] at h
  split_ifs at h with hread
  cases h
  exact ⟨hread, rfl⟩

/-- Either the loop is left, for good or to read on, or a frame is taken. -/
theorem step_next {s s' : Connection} {answer : Message} {writes : Bool}
    (h : step s (.next answer writes) = some s') :
    s.phase = .draining ∧
      ((s'.decoder = s.decoder ∧ s'.phase = .returned) ∨
        (tryDecodeFrame s.decoder.buf = .ok none ∧
          s' = { s with phase := .reading }) ∨
        ∃ msg, s.decoder.nextFrame = (.ok (some msg), s'.decoder) ∧
          (s'.phase = .draining ∨ s'.phase = .returned)) := by
  simp only [step] at h
  split_ifs at h with hdrain
  refine ⟨hdrain, ?_⟩
  split at h
  · rename_i e decoder hnext
    cases h
    exact .inl ⟨FrameDecoder.nextFrame_fails hnext, rfl⟩
  · rename_i decoder hnext
    cases h
    obtain ⟨hsame, hscan⟩ := FrameDecoder.nextFrame_waits hnext
    exact .inr (.inl ⟨hscan, by rw [hsame]⟩)
  · rename_i msg decoder hnext
    cases h
    refine .inr (.inr ⟨msg, ?_, ?_⟩)
    · rw [hnext, serveMessage_decoder]
    · rw [← hdrain]
      exact serveMessage_phase { s with decoder := decoder } msg answer writes

theorem step_next_isSome {s : Connection} (hdrain : s.phase = .draining)
    (answer : Message) (writes : Bool) :
    (step s (.next answer writes)).isSome := by
  simp only [step, if_pos hdrain]
  split <;> rfl

/-! What the decoder holds. -/

/-- Between two reads the buffer is an incomplete frame, and what is buffered
is never more than that and one read. -/
structure Bounded (s : Connection) : Prop where
  waits : s.phase = .reading → tryDecodeFrame s.decoder.buf = .ok none
  held : s.decoder.buf.length < maxFrameBody + 14 + readBufLen

theorem Bounded.start : Bounded {} where
  waits := fun _ => rfl
  held := by decide

theorem Bounded.step_read {s s' : Connection} {bytes : Octets}
    (hs : Bounded s) (h : step s (.read bytes) = some s') : Bounded s' := by
  obtain ⟨hreading, hbytes, ⟨-, rfl⟩ | rfl⟩ := TlsTcp.step_read h
  · exact ⟨nofun, hs.held⟩
  · have hleft := tryDecodeFrame_none_length_lt (hs.waits hreading)
    refine ⟨nofun, ?_⟩
    rw [FrameDecoder.extend, List.length_append]
    omega

theorem Bounded.step_next {s s' : Connection} {answer : Message}
    {writes : Bool} (hs : Bounded s)
    (h : step s (.next answer writes) = some s') : Bounded s' := by
  obtain ⟨-, ⟨hsame, hphase⟩ | ⟨hscan, rfl⟩ | ⟨msg, hnext, hphase⟩⟩ :=
    TlsTcp.step_next h
  · refine ⟨?_, ?_⟩
    · rw [hphase]
      exact nofun
    · rw [hsame]
      exact hs.held
  · exact ⟨fun _ => hscan, hs.held⟩
  · refine ⟨?_, ?_⟩
    · intro hreading
      rw [hreading] at hphase
      rcases hphase with hdrain | hreturned
      · cases hdrain
      · cases hreturned
    · exact (FrameDecoder.nextFrame_shrinks hnext).trans hs.held

theorem Bounded.step {s : Connection} {action : Action} {s' : Connection}
    (hs : Bounded s) (h : step s action = some s') : Bounded s' := by
  cases action with
  | read bytes => exact hs.step_read h
  | readError =>
      obtain ⟨-, rfl⟩ := step_readError h
      exact ⟨nofun, hs.held⟩
  | next answer writes => exact hs.step_next h

theorem run_bounded {actions : List Action} {s : Connection}
    (hrun : run step {} actions = some s) : Bounded s :=
  run_invariant step (fun _ _ _ => Bounded.step) Bounded.start hrun

/-! The inner loop comes to an end. -/

/-- Every call either leaves the loop or takes two octets off the buffer. -/
theorem step_next_progress {s : Connection} (hdrain : s.phase = .draining)
    (answer : Message) (writes : Bool) :
    ∃ s', step s (.next answer writes) = some s' ∧
      (s'.phase = .draining →
        s'.decoder.buf.length + 2 ≤ s.decoder.buf.length) := by
  obtain ⟨s', hstep⟩ :=
    Option.isSome_iff_exists.mp (step_next_isSome hdrain answer writes)
  refine ⟨s', hstep, ?_⟩
  intro hstays
  obtain ⟨-, ⟨-, hphase⟩ | ⟨-, rfl⟩ | ⟨msg, hnext, -⟩⟩ := step_next hstep
  · rw [hphase] at hstays
    cases hstays
  · cases hstays
  · obtain ⟨consumed, htwo, hle, hdrop⟩ := FrameDecoder.nextFrame_takes hnext
    rw [hdrop, List.length_drop]
    omega

/-- Whatever the handler answers and however the writes go, half as many calls
as there are octets, and one more, end the inner loop. -/
theorem drain_ends {s : Connection} (hdrain : s.phase = .draining)
    {calls : List (Message × Bool)}
    (hcalls : s.decoder.buf.length < 2 * calls.length) :
    ∃ n ≤ calls.length, ∃ s',
      run step s ((calls.take n).map fun call => .next call.1 call.2) =
        some s' ∧ s'.phase ≠ .draining :=
  exists_run_leaves step (fun call : Message × Bool => .next call.1 call.2)
    (fun _ call hin => step_next_progress hin call.1 call.2) hdrain hcalls

/-! How much one connection makes the decoder hold. -/

/-- A call takes two octets at least, so that the inner loop ends; it ends with
less than the largest frame in the buffer, and a read adds one slice to that. -/
theorem connection_bounded :
    (∀ (dec dec' : FrameDecoder) (msg : Message),
      dec.nextFrame = (.ok (some msg), dec') →
        ∃ consumed, 2 ≤ consumed ∧ consumed ≤ dec.buf.length ∧
          dec'.buf = dec.buf.drop consumed) ∧
    (∀ (s : Connection) (calls : List (Message × Bool)),
      s.phase = .draining → s.decoder.buf.length < 2 * calls.length →
        ∃ n ≤ calls.length, ∃ s',
          run step s ((calls.take n).map fun call => .next call.1 call.2) =
            some s' ∧ s'.phase ≠ .draining) ∧
    (∀ (actions : List Action) (s : Connection),
      run step {} actions = some s →
        (s.phase = .reading → s.decoder.buf.length < maxFrameBody + 14) ∧
          s.decoder.buf.length ≤ maxFrameBody + 14 + readBufLen) ∧
    (∀ (chunks : List Octets) (msgs : List Message) (dec : FrameDecoder),
      serveFrames {} chunks = (msgs, .ok dec) →
        dec.buf.length < maxFrameBody + 14 ∧
          ∀ chunk : Octets, chunk.length ≤ readBufLen →
            (dec.extend chunk).buf.length ≤ maxFrameBody + 14 + readBufLen ∧
            2 * (drainFrames (dec.extend chunk)).1.length ≤
              (dec.extend chunk).buf.length) := by
  refine ⟨?_, ?_, ?_, ?_⟩
  · intro dec dec' msg hnext
    exact FrameDecoder.nextFrame_takes hnext
  · intro s calls hdrain hcalls
    exact drain_ends hdrain hcalls
  · intro actions s hrun
    have hs := run_bounded hrun
    refine ⟨?_, hs.held.le⟩
    intro hreading
    exact tryDecodeFrame_none_length_lt (hs.waits hreading)
  · intro chunks msgs dec hserved
    rw [serveFrames_eq_drain] at hserved
    have hleft := drainFrames_left_lt hserved
    refine ⟨hleft, fun chunk hchunk => ⟨?_, drainFrames_count_le _⟩⟩
    rw [FrameDecoder.extend, List.length_append]
    omega

/-- The octets of a ping, then of a frame cut before its code. -/
def pingAndHead : List Action :=
  [.read [0x01, 0xE2, 0x07, 0xD0], .next {} true, .next {} true,
    .read [0x05], .next {} true]

theorem connection_bounded_pingAndHead :
    (∃ consumed, 2 ≤ consumed ∧ consumed ≤ 4 ∧
      [0xD0] = ([0x01, 0xE2, 0x07, 0xD0] : Octets).drop consumed) ∧
    (∃ n ≤ 3, ∃ s', run step
        { decoder := { buf := [0x01, 0xE2, 0x07, 0xD0] }, phase := .draining }
        ((([({}, true), ({}, true), ({}, true)] :
          List (Message × Bool)).take n).map
            fun call => .next call.1 call.2) = some s' ∧
      s'.phase ≠ .draining) ∧
    (∃ s, run step {} pingAndHead = some s ∧
      s.decoder.buf.length < maxFrameBody + 14) ∧
    ([0xD0, 0x05] : Octets).length < maxFrameBody + 14 := by
  obtain ⟨htakes, hends, hholds, hserves⟩ := connection_bounded
  refine ⟨?_, ?_, ?_, ?_⟩
  · exact htakes { buf := [0x01, 0xE2, 0x07, 0xD0] } { buf := [0xD0] }
      { code := Code.ping, token := [0x07] } (by decide +kernel)
  · exact hends _ [({}, true), ({}, true), ({}, true)] rfl (by decide)
  · refine ⟨{
      decoder := { buf := [0xD0, 0x05] }
      written := [{ code := Code.pong, token := [0x07] }] }, ?_, ?_⟩
    · decide +kernel
    · exact (hholds pingAndHead _ (by decide +kernel)).1 rfl
  · exact (hserves [[0xD0, 0x05]] [] { buf := [0xD0, 0x05] }
      (by decide +kernel)).1

end Loft.TlsTcp
