import Loft.Coap.Tcp

namespace Loft.TlsTcp

open Loft.Data
open Loft.Coap

/-! The read loop of the TCP listener: bytes as they arrive are buffered, and
every complete frame is taken off before the next read. -/

/-- The inner loop of `serve_frames`: `next_frame` until `Ok(None)` or an
error. -/
def drainFrames (dec : FrameDecoder) :
    List Message × Except DecodeError FrameDecoder :=
  match _hnext : dec.nextFrame with
  | (.error e, _) => ([], .error e)
  | (.ok none, dec') => ([], .ok dec')
  | (.ok (some msg), dec') =>
      let rest := drainFrames dec'
      (msg :: rest.1, rest.2)
termination_by dec.buf.length
decreasing_by exact FrameDecoder.nextFrame_shrinks _hnext

/-- The outer loop over the chunks `read` returns: the messages decoded, in
order, and the decoder left over or the error that ended the connection. -/
def serveFrames :
    FrameDecoder → List Octets → List Message × Except DecodeError FrameDecoder
  | dec, [] => ([], .ok dec)
  | dec, chunk :: chunks =>
      match drainFrames (dec.extend chunk) with
      | (msgs, .error e) => (msgs, .error e)
      | (msgs, .ok dec') =>
          let rest := serveFrames dec' chunks
          (msgs ++ rest.1, rest.2)

theorem drainFrames_of_error {dec dec' : FrameDecoder} {e : DecodeError}
    (h : dec.nextFrame = (.error e, dec')) :
    drainFrames dec = ([], .error e) := by
  rw [drainFrames]
  split <;> simp_all

theorem drainFrames_of_none {dec dec' : FrameDecoder}
    (h : dec.nextFrame = (.ok none, dec')) :
    drainFrames dec = ([], .ok dec') := by
  rw [drainFrames]
  split <;> simp_all

theorem drainFrames_of_some {dec dec' : FrameDecoder} {msg : Message}
    (h : dec.nextFrame = (.ok (some msg), dec')) :
    drainFrames dec =
      (msg :: (drainFrames dec').1, (drainFrames dec').2) := by
  rw [drainFrames]
  split <;> simp_all

private def withDecoder :
    List Message × Except DecodeError Octets →
      List Message × Except DecodeError FrameDecoder
  | (msgs, outcome) => (msgs, outcome.map FrameDecoder.mk)

private theorem drainFrames_eq_drain (buf : Octets) :
    drainFrames { buf := buf } = withDecoder (frameScanner.drain buf) := by
  induction buf using Scanner.drain.induct frameScanner with
  | case1 buf e hscan =>
      have hnext : FrameDecoder.nextFrame { buf := buf } = _ :=
        FrameDecoder.nextFrame_of_error hscan
      rw [frameScanner.drain_of_error hscan, drainFrames_of_error hnext]
      rfl
  | case2 buf hscan =>
      have hnext : FrameDecoder.nextFrame { buf := buf } = _ :=
        FrameDecoder.nextFrame_of_none hscan
      rw [frameScanner.drain_of_none hscan, drainFrames_of_none hnext]
      rfl
  | case3 buf msg consumed hscan ih =>
      have hnext : FrameDecoder.nextFrame { buf := buf } = _ :=
        FrameDecoder.nextFrame_of_some hscan
      rw [frameScanner.drain_of_item hscan, drainFrames_of_some hnext, ih]
      rfl

private theorem serveFrames_eq_feed (chunks : List Octets) (buf : Octets) :
    serveFrames { buf := buf } chunks =
      withDecoder (frameScanner.feed buf chunks) := by
  induction chunks generalizing buf with
  | nil => rfl
  | cons chunk chunks ih =>
      rw [serveFrames, Scanner.feed, FrameDecoder.extend, drainFrames_eq_drain]
      rcases frameScanner.drain (buf ++ chunk) with ⟨msgs, e | rest⟩
      · rfl
      · simp only [withDecoder, Except.map, ih]

theorem serveFrames_eq_drain (chunks : List Octets) :
    serveFrames {} chunks = drainFrames { buf := chunks.flatten } := by
  rw [drainFrames_eq_drain, ← frameScanner.feed_nil_eq_drain,
    ← serveFrames_eq_feed]

/-- The inner loop ends: a frame takes two octets at least. -/
theorem drainFrames_count_le (dec : FrameDecoder) :
    2 * (drainFrames dec).1.length ≤ dec.buf.length := by
  have hcount := frameScanner_bounds.drain_count_le dec.buf
  rwa [drainFrames_eq_drain dec.buf]

theorem drain_of_drainFrames {dec left : FrameDecoder} {msgs : List Message}
    (h : drainFrames dec = (msgs, .ok left)) :
    frameScanner.drain dec.buf = (msgs, .ok left.buf) := by
  rw [drainFrames_eq_drain dec.buf] at h
  cases hdrain : frameScanner.drain dec.buf with
  | mk items outcome =>
      rw [hdrain] at h
      cases outcome with
      | error e => cases h
      | ok rest =>
          cases h
          rfl

theorem drainFrames_left_lt {dec left : FrameDecoder} {msgs : List Message}
    (h : drainFrames dec = (msgs, .ok left)) :
    left.buf.length < maxFrameBody + 14 :=
  frameScanner_bounds.drain_left_lt (drain_of_drainFrames h)

theorem drainFrames_extend {dec left : FrameDecoder} {msgs : List Message}
    (h : drainFrames dec = (msgs, .ok left)) (chunk : Octets) :
    drainFrames (dec.extend chunk) =
      (msgs ++ (drainFrames (left.extend chunk)).1,
        (drainFrames (left.extend chunk)).2) := by
  rw [FrameDecoder.extend, FrameDecoder.extend, drainFrames_eq_drain,
    drainFrames_eq_drain, frameScanner.drain_append, drain_of_drainFrames h]
  rfl

theorem drainFrames_extend_error {dec : FrameDecoder} {msgs : List Message}
    {e : DecodeError} (h : drainFrames dec = (msgs, .error e))
    (chunk : Octets) : drainFrames (dec.extend chunk) = (msgs, .error e) := by
  rw [drainFrames_eq_drain dec.buf] at h
  rw [FrameDecoder.extend, drainFrames_eq_drain, frameScanner.drain_append]
  cases hdrain : frameScanner.drain dec.buf with
  | mk items outcome =>
      rw [hdrain] at h
      cases outcome with
      | error e => exact h
      | ok rest => cases h

theorem serveFrames_concat {chunks : List Octets} {msgs : List Message}
    {dec : FrameDecoder} (h : serveFrames {} chunks = (msgs, .ok dec))
    (chunk : Octets) :
    serveFrames {} (chunks ++ [chunk]) =
      (msgs ++ (drainFrames (dec.extend chunk)).1,
        (drainFrames (dec.extend chunk)).2) := by
  rw [serveFrames_eq_drain] at h
  rw [serveFrames_eq_drain, List.flatten_concat]
  exact drainFrames_extend h chunk

theorem frameable_of_mem_drainFrames {dec : FrameDecoder} {msg : Message} :
    msg ∈ (drainFrames dec).1 → Frameable msg := by
  fun_induction drainFrames dec with
  | case1 dec e dec' hnext => exact nofun
  | case2 dec dec' hnext => exact nofun
  | case3 dec frame dec' hnext rest ih =>
      intro hmem
      rcases List.mem_cons.mp hmem with rfl | hlater
      · exact FrameDecoder.nextFrame_frameable hnext
      · exact ih hlater

theorem frameable_of_mem_serveFrames {chunks : List Octets} {msg : Message}
    (hmem : msg ∈ (serveFrames {} chunks).1) : Frameable msg := by
  rw [serveFrames_eq_drain] at hmem
  exact frameable_of_mem_drainFrames hmem

theorem drainFrames_accounts (buf : Octets) :
    ∃ rest, buf = (drainFrames { buf := buf }).1.flatMap encodeFrame ++ rest ∧
      match (drainFrames { buf := buf }).2 with
      | .error e => tryDecodeFrame rest = .error e
      | .ok dec => dec.buf = rest := by
  obtain ⟨rest, hsplit, hrest⟩ := frameScanner.drain_accounts encodeFrame
    (fun h => (tryDecodeFrame_sound h).2.2.2) buf
  rw [drainFrames_eq_drain]
  refine ⟨rest, hsplit, ?_⟩
  cases hdrain : frameScanner.drain buf with
  | mk msgs outcome =>
      rw [hdrain] at hrest
      cases outcome with
      | error e => exact hrest
      | ok left => exact hrest

theorem drainFrames_pipeline {msgs : List Message}
    (hmsgs : ∀ msg ∈ msgs, Frameable msg) :
    drainFrames { buf := msgs.flatMap encodeFrame } =
      (msgs.map fun msg => { msg with options := sortByNumber msg.options },
        .ok { buf := [] }) := by
  rw [drainFrames_eq_drain, frameScanner.drain_flatMap_encode encodeFrame
    Frameable (fun msg => { msg with options := sortByNumber msg.options })
    (fun msg more hmsg => tryDecodeFrame_encodeFrame hmsg more) msgs hmsgs]
  rfl

/-- How the byte stream is cut is invisible, every frame re-encodes to the
bytes it took, and a pipeline of frames comes out whole. -/
theorem serveFrames_stream :
    (∀ chunks chunks' : List Octets, chunks.flatten = chunks'.flatten →
      serveFrames {} chunks = serveFrames {} chunks') ∧
    (∀ (dec dec' : FrameDecoder) (msg : Message),
      dec.nextFrame = (.ok (some msg), dec') →
        dec.buf = encodeFrame msg ++ dec'.buf) ∧
    (∀ chunks : List Octets, ∃ rest,
      chunks.flatten =
          (serveFrames {} chunks).1.flatMap encodeFrame ++ rest ∧
        match (serveFrames {} chunks).2 with
        | .error e => tryDecodeFrame rest = .error e
        | .ok dec => dec.buf = rest) ∧
    (∀ (chunks : List Octets) (msgs : List Message),
      (∀ msg ∈ msgs, msg.token.length ≤ maxTokenLen ∧
        (∀ option ∈ msg.options, option.2.length ≤ maxOptionLen) ∧
        (encodeOptionsAndPayload msg).length ≤ maxFrameBody) →
      chunks.flatten = msgs.flatMap encodeFrame →
        ∃ yielded, serveFrames {} chunks = (yielded, .ok { buf := [] }) ∧
          List.Forall₂ (fun msg out => ∃ sorted,
            StablySorted msg.options sorted ∧
              out = { msg with options := sorted }) msgs yielded) := by
  refine ⟨?_, ?_, ?_, ?_⟩
  · intro chunks chunks' hflatten
    rw [serveFrames_eq_drain, serveFrames_eq_drain, hflatten]
  · intro dec dec' msg hnext
    exact FrameDecoder.nextFrame_consumes hnext
  · intro chunks
    rw [serveFrames_eq_drain]
    exact drainFrames_accounts chunks.flatten
  · intro chunks msgs hmsgs hflatten
    refine ⟨msgs.map fun msg =>
      { msg with options := sortByNumber msg.options }, ?_, ?_⟩
    · rw [serveFrames_eq_drain, hflatten, drainFrames_pipeline]
      intro msg hmsg
      obtain ⟨htoken, hvalues, hbody⟩ := hmsgs msg hmsg
      exact ⟨htoken, hvalues, hbody⟩
    · rw [List.forall₂_map_right_iff, List.forall₂_same]
      intro msg _
      exact ⟨sortByNumber msg.options,
        sortByNumber_stablySorted msg.options, rfl⟩

def pingAndPost : List Message :=
  [{ code := 0xE2, token := [1] },
   { code := Code.post, options := [(OptionNumber.uriPath, [0x74])],
     payload := [0x7B, 0x7D] }]

theorem serveFrames_stream_pingAndPost :
    ∃ yielded,
      serveFrames {} [(pingAndPost.flatMap encodeFrame).take 5,
        (pingAndPost.flatMap encodeFrame).drop 5] =
          (yielded, .ok { buf := [] }) ∧
      List.Forall₂ (fun msg out => ∃ sorted,
        StablySorted msg.options sorted ∧
          out = { msg with options := sorted }) pingAndPost yielded :=
  serveFrames_stream.2.2.2 _ pingAndPost (by decide +kernel)
    (by simp [List.take_append_drop])

end Loft.TlsTcp
