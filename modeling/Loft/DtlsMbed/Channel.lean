import Loft.Dtls.DgramIo
import Loft.DtlsMbed

namespace Loft.DtlsMbed

open Loft.Data
open Loft.Data.Transition
open Loft.MbedtlsShim
open Loft.Dtls (DgramIo)

/-! What the transport of a session tells the library of its channel, in the
one number that `recv_tramp` returns. -/

namespace ConnState

structure Request where
  now : Instant
  cap : Nat
  expired : Bool
  deriving DecidableEq, Repr

inductive Setting
  | deadline (deadline : Option Instant)
  | takeMigration

/-- A datagram that was fed comes before those of the channel. -/
def waiting (io : ConnState) : List Delivery :=
  io.pending.toList ++ io.queue

def configure (io : ConnState) : Setting → ConnState
  | .deadline deadline => { io with deadline := deadline }
  | .takeMigration => io.takeMigration

def transport : Inbox.Transport Delivery ConnState Setting Request Int where
  waiting := waiting
  enqueue io delivery := { io with queue := io.queue ++ [delivery] }
  configure := configure
  late io request := ∃ deadline, io.deadline = some deadline ∧
    deadline ≤ request.now
  fits request delivery := delivery.1.length ≤ request.cap
  read io senders request :=
    let (outcome, delivered, io) :=
      io.recv request.now senders request.cap request.expired
    (recvTramp outcome, delivered, io)
  closes rc := rc = 0
  tells rc delivery := rc = delivery.1.length

/-- A datagram whose length is a positive `c_int`. -/
def Countable (delivery : Delivery) : Prop :=
  delivery.1 ≠ [] ∧ delivery.1.length ≤ cIntMax

theorem waiting_configure (io : ConnState) (setting : Setting) :
    (io.configure setting).waiting = io.waiting := by
  cases setting with
  | deadline deadline => rfl
  | takeMigration =>
      unfold configure takeMigration
      dsimp only
      split_ifs <;> rfl

theorem recvTramp_data_iff (delivery : Delivery) :
    recvTramp (.data delivery.1.length) = delivery.1.length ∧
        recvTramp (.data delivery.1.length) ≠ 0 ↔
      Countable delivery := by
  simp only [recvTramp, Countable, ne_eq, ← List.length_eq_zero_iff]
  omega

theorem not_closes {outcome : RecvOutcome} (hopen : outcome ≠ .closed)
    (hdata : ∀ n, outcome ≠ .data n) :
    ¬ transport.closes (recvTramp outcome) := by
  intro hzero
  rcases recvTramp_eq_zero.mp hzero with hclosed | hnone
  · exact hopen hclosed
  · exact hdata 0 hnone

/-- A datagram taken is handed over, or dropped for want of room. -/
theorem reading_deliver {io io' : ConnState} {delivery : Delivery}
    {request : Request} {senders : Bool}
    (hearly : ¬ transport.late io request)
    (hhead : io.waiting = delivery :: io'.waiting) :
    transport.Reading Countable io senders request
      (let (outcome, delivered, after) := io'.deliver request.cap delivery
      (recvTramp outcome, delivered, after)) := by
  unfold deliver
  split_ifs with hlong
  · exact .dropped hearly (Nat.not_le.mpr hlong) hhead
      (not_closes nofun nofun)
  · exact .delivered hearly (Nat.not_lt.mp hlong) hhead
      (recvTramp_data_iff delivery)

theorem lawful : transport.Lawful Countable where
  waiting_enqueue io delivery := (List.append_assoc _ _ _).symm
  waiting_configure := waiting_configure
  reading io senders request := by
    have hlate : (io.deadline.any fun deadline =>
        decide (deadline ≤ request.now)) = true ↔
          transport.late io request := by
      simp [transport, Option.any_eq_true]
    have hread : transport.read io senders request =
        let (outcome, delivered, after) :=
          io.recv request.now senders request.cap request.expired
        (recvTramp outcome, delivered, after) := rfl
    rw [hread, recv]
    by_cases hdeadline : (io.deadline.any fun deadline =>
        decide (deadline ≤ request.now)) = true
    · rw [if_pos hdeadline]
      exact .refused (hlate.mp hdeadline) (not_closes nofun nofun) rfl
    · rw [if_neg hdeadline]
      rw [hlate] at hdeadline
      cases hpending : io.pending with
      | some fed =>
          refine reading_deliver hdeadline ?_
          rw [waiting, hpending]
          rfl
      | none =>
          cases hqueue : io.queue with
          | cons delivery rest =>
              refine reading_deliver hdeadline ?_
              rw [waiting, waiting, hpending, hqueue]
              rfl
          | nil =>
              have hnone : io.waiting = [] := by
                rw [waiting, hpending, hqueue]
                rfl
              cases senders with
              | true =>
                  refine .silent hdeadline hnone hnone rfl ?_
                  cases request.expired with
                  | true => exact not_closes nofun nofun
                  | false => exact not_closes nofun nofun
              | false => exact .closed hdeadline hnone hnone rfl rfl

/-- Both transports, whatever is queued, read, armed and hung up: they tell
the end where it is exactly if no read takes a datagram whose length does not
tell it, and they lose nothing that fits. -/
theorem end_told_iff (io : ConnState) (dgramIo : DgramIo) (senders : Bool)
    (actions : List (Inbox.Action Delivery Setting Request))
    (dgramActions :
      List (Inbox.Action Octets (Option Instant) DgramIo.Request)) :
    (Along transport.step transport.Faithful (transport.start io senders)
        actions ↔
      Along transport.step (transport.TakesPlain Countable)
        (transport.start io senders) actions) ∧
    (∀ s, run transport.step (transport.start io senders) actions = some s →
      transport.Accounted s) ∧
    (Along DgramIo.transport.step DgramIo.transport.Faithful
        (DgramIo.transport.start dgramIo senders) dgramActions ↔
      Along DgramIo.transport.step
        (DgramIo.transport.TakesPlain fun dgram => dgram ≠ [])
        (DgramIo.transport.start dgramIo senders) dgramActions) ∧
    (∀ s, run DgramIo.transport.step
        (DgramIo.transport.start dgramIo senders) dgramActions = some s →
      DgramIo.transport.Accounted s) :=
  ⟨lawful.along_faithful_iff _ actions, fun _ => lawful.accounted_run,
    DgramIo.lawful.along_faithful_iff _ dgramActions,
    fun _ => DgramIo.lawful.accounted_run⟩

def quiet : ConnState where
  queue := []
  committedPeer := clientA
  stagedPeer := clientA
  pending := none
  deadline := none

/-- The senders are there, and the read says that they are not. -/
theorem emptyDatagram_reads_as_end :
    recvTramp ({ quiet with queue := [([], clientA)] }.recv 0 true 1500
        false).1 = 0 ∧
    (DgramIo.read { rx := [[]], deadline := none } 0 true 1500).1 = .ok 0 ∧
    ¬ Along transport.step transport.Faithful (transport.start quiet true)
      [.send ([], clientA), .read ⟨0, 1500, false⟩] ∧
    ¬ Along DgramIo.transport.step DgramIo.transport.Faithful
      (DgramIo.transport.start { rx := [], deadline := none } true)
      [.send [], .read ⟨0, 1500⟩] := by
  refine ⟨by decide, by decide, ?_, ?_⟩
  · intro hfaithful
    have hread := (hfaithful.2 _ rfl).1
    exact absurd (hread.1 rfl).1 (by decide)
  · intro hfaithful
    have hread := (hfaithful.2 _ rfl).1
    exact absurd (hread.1 rfl).1 (by decide)

end ConnState

end Loft.DtlsMbed
