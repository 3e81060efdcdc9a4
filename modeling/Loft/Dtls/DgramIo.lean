import Loft.Data.Inbox
import Loft.Dtls
import Loft.Time

namespace Loft.Dtls

open Loft.Data

/-! The adapter between the demux channel of a connection and OpenSSL, which
reads datagrams as if they were a stream. -/

inductive ErrorKind
  | timedOut
  | wouldBlock
  deriving DecidableEq, Repr

structure IoError where
  kind : ErrorKind
  text : String
  deriving DecidableEq, Repr

abbrev ReadResult := Except IoError Nat

structure DgramIo where
  rx : List Octets
  deadline : Option Instant
  deriving DecidableEq, Repr

namespace DgramIo

/-- Into a buffer of `cap` bytes; `senders` tells whether the channel still
has one once the tick is over. -/
def read (io : DgramIo) (now : Instant) (senders : Bool) (cap : Nat) :
    ReadResult × Option Octets × DgramIo :=
  if io.deadline.any fun deadline => decide (deadline ≤ now) then
    (.error ⟨.timedOut, "handshake deadline exceeded"⟩, none, io)
  else
    match io.rx with
    | dgram :: rest =>
        if cap < dgram.length then
          (.error ⟨.wouldBlock, "oversized"⟩, none, { io with rx := rest })
        else (.ok dgram.length, some dgram, { io with rx := rest })
    | [] =>
        if senders then (.error ⟨.wouldBlock, "tick"⟩, none, io)
        else (.ok 0, none, io)

structure Request where
  now : Instant
  cap : Nat
  deriving DecidableEq, Repr

def transport :
    Inbox.Transport Octets DgramIo (Option Instant) Request ReadResult where
  waiting := rx
  enqueue io dgram := { io with rx := io.rx ++ [dgram] }
  configure io deadline := { io with deadline := deadline }
  late io request := ∃ deadline, io.deadline = some deadline ∧
    deadline ≤ request.now
  fits request dgram := dgram.length ≤ request.cap
  read io senders request := io.read request.now senders request.cap
  closes result := result = .ok 0
  tells result dgram := result = .ok dgram.length

theorem lawful : transport.Lawful fun dgram => dgram ≠ [] where
  waiting_enqueue io dgram := rfl
  waiting_configure io deadline := rfl
  reading io senders request := by
    have hlate : (io.deadline.any fun deadline =>
        decide (deadline ≤ request.now)) = true ↔
          transport.late io request := by
      simp [transport, Option.any_eq_true]
    have hread : transport.read io senders request =
        io.read request.now senders request.cap := rfl
    rw [hread, read]
    by_cases hdeadline : (io.deadline.any fun deadline =>
        decide (deadline ≤ request.now)) = true
    · rw [if_pos hdeadline]
      exact .refused (hlate.mp hdeadline) nofun rfl
    · rw [if_neg hdeadline]
      rw [hlate] at hdeadline
      cases hqueue : io.rx with
      | cons dgram rest =>
          dsimp only
          split_ifs with hlong
          · exact .dropped hdeadline (Nat.not_le.mpr hlong) hqueue nofun
          · refine .delivered hdeadline (Nat.not_lt.mp hlong) hqueue ?_
            simp [transport]
      | nil =>
          dsimp only
          split_ifs with hsenders
          · exact .silent hdeadline hqueue hqueue hsenders nofun
          · exact .closed hdeadline hqueue hqueue (by simpa using hsenders) rfl

end DgramIo

end Loft.Dtls
