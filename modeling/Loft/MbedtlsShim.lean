import Loft.Data.Octets
import Loft.Quota

namespace Loft.MbedtlsShim

open Loft.Data

/-! What the safe wrapper makes of the library's return codes, and what the
library is told by the transport. -/

namespace Codes

def errSslWantRead : Int := -0x6900
def errSslWantWrite : Int := -0x6880
def errSslTimeout : Int := -0x6800
def errSslHelloVerifyRequired : Int := -0x6A80
def errSslPeerCloseNotify : Int := -0x7880
def errSslConnEof : Int := -0x7280
def errNetRecvFailed : Int := -0x004C

end Codes

/-- `c_int::MAX`. -/
def cIntMax : Nat := 2 ^ 31 - 1

inductive RecvOutcome
  | data (n : Nat)
  | wantRead
  | timerExpired
  | closed
  | failed
  deriving DecidableEq, Repr

def recvTramp : RecvOutcome → Int
  | .data n => (min n cIntMax : Nat)
  | .wantRead => Codes.errSslWantRead
  | .timerExpired => Codes.errSslTimeout
  | .closed => 0
  | .failed => Codes.errNetRecvFailed

inductive HandshakeStatus
  | done
  | wantRead
  | wantWrite
  | helloVerifyRequired
  | failed (rc : Int)
  deriving DecidableEq, Repr

def handshakeStatus (rc : Int) : HandshakeStatus :=
  if rc = 0 then .done
  else if rc = Codes.errSslWantRead then .wantRead
  else if rc = Codes.errSslWantWrite then .wantWrite
  else if rc = Codes.errSslHelloVerifyRequired then .helloVerifyRequired
  else .failed rc

inductive ReadStatus
  | data (n : Nat)
  | wantRead
  | wantWrite
  | peerClosed
  | failed (rc : Int)
  deriving DecidableEq, Repr

def readStatus (rc : Int) : ReadStatus :=
  if 0 ≤ rc then .data rc.toNat
  else if rc = Codes.errSslWantRead then .wantRead
  else if rc = Codes.errSslWantWrite then .wantWrite
  else if rc = Codes.errSslPeerCloseNotify ∨ rc = Codes.errSslConnEof then
    .peerClosed
  else .failed rc

/-! The cookie flag that every session of one config shares. -/

structure CookieState where
  verified : Bool := false
  deriving DecidableEq, Repr

namespace CookieState

def clearCookieVerified (_ : CookieState) : CookieState where
  verified := false

def takeCookieVerified (cookie : CookieState) : Bool × CookieState :=
  (cookie.verified, { verified := false })

/-- `cookie_check_tramp`, given what the library's own check returned. -/
def cookieCheckTramp (rc : Int) (cookie : CookieState) : CookieState :=
  if rc = 0 then { verified := true } else cookie

end CookieState

/-! The library itself is a parameter: after what has passed between it and
one session so far, it may ask the transport for a datagram or answer the call
it is in. -/

abbrev Delivery := Octets × SocketAddr

inductive LibEvent
  | handshakeCalled
  | readCalled
  | received (rc : Int) (delivered : Option Delivery)
  | returned (rc : Int) (at_ : Nat)
  | replied (ok : Bool)
  deriving DecidableEq, Repr

abbrev Transcript := List LibEvent

inductive LibMove
  | askTransport
  | answer (rc : Int)
  deriving DecidableEq, Repr

abbrev Library := Transcript → LibMove → Bool

/-- The datagram the transport delivered last, and where it came from. -/
def lastDelivered (t : Transcript) : Option Delivery :=
  t.foldl (fun last event =>
    match event with
    | .received _ (some delivery) => some delivery
    | _ => last) none

@[simp] theorem lastDelivered_concat (t : Transcript) (event : LibEvent) :
    lastDelivered (t ++ [event]) =
      match event with
      | .received _ (some delivery) => some delivery
      | _ => lastDelivered t := by
  simp [lastDelivered]

theorem recvTramp_eq_zero {outcome : RecvOutcome} :
    recvTramp outcome = 0 ↔ outcome = .closed ∨ outcome = .data 0 := by
  cases outcome with
  | data n =>
      simp only [recvTramp, cIntMax, reduceCtorEq, RecvOutcome.data.injEq,
        false_or]
      omega
  | closed => simp [recvTramp]
  | wantRead => simp [recvTramp, Codes.errSslWantRead]
  | timerExpired => simp [recvTramp, Codes.errSslTimeout]
  | failed => simp [recvTramp, Codes.errNetRecvFailed]

theorem readStatus_data {rc : Int} {n : Nat} (h : readStatus rc = .data n) :
    rc = n := by
  unfold readStatus at h
  split_ifs at h with hpos
  · cases h
    omega

theorem readStatus_of_nonneg {rc : Int} (h : 0 ≤ rc) :
    readStatus rc = .data rc.toNat :=
  if_pos h

end Loft.MbedtlsShim
