import Loft.Coap.BlockCodec
import Loft.Data.Chunks
import Loft.Handler.Isolation

namespace Loft

open Loft.Data
open Loft.Coap

/-! Downloads: a client that asks for block after block, the handler's table
and upstream being whatever they are at each request. -/

namespace Handler

structure Get extends Call where
  map : Block1Table
  upstream : DeviceRequest → UpstreamResult

def Get.reply (h : Handler) (g : Get) : Message :=
  (h.serve g.upstream g.map g.toCall).2.1

/-- Without Block2 a request asks for the beginning and a reply is it. -/
def offsetNamed (msg : Message) : Nat :=
  match block2Of msg with
  | some b => b.offset
  | none => 0

def moreSet (reply : Message) : Bool :=
  (block2Of reply).any Block.more

/-- The requests of one client, each of which meets what `Served` says. -/
inductive Download (h : Handler) (Served : Get → Prop) : List Get → Prop
  | start {g : Get} : Served g → offsetNamed g.req = 0 → Download h Served [g]
  | next {gs : List Get} {last g : Get} :
      Download h Served (gs ++ [last]) → moreSet (last.reply h) = true →
      Served g → offsetNamed g.req =
        offsetNamed (last.reply h) + (last.reply h).payload.length →
      Download h Served (gs ++ [last] ++ [g])

structure Complete (h : Handler) (whole : Octets) (gs : List Get) : Prop where
  bounded : gs.length ≤ whole.length + 1
  /-- While the more bit is set, there is a block to ask for. -/
  continuable : ∀ g ∈ gs, moreSet (g.reply h) = true →
    ∃ b : Block, Block.decode b.encode = some b ∧
      b.offset = offsetNamed (g.reply h) + (g.reply h).payload.length
  ends : ∀ front last, gs = front ++ [last] → moreSet (last.reply h) = false →
    (gs.flatMap fun g => (g.reply h).payload) = whole

/-- The reply is the block that begins at `offset`, or all there is. -/
inductive Carries (whole : Octets) (offset : Nat) (reply : Message) : Prop
  | all : block2Of reply = none → offset = 0 → reply.payload = whole →
      Carries whole offset reply
  | part {b : Block} : block2Of reply = some b → b.offset = offset →
      b.szx ≤ maxSzx → offset ≤ whole.length →
      reply.payload = (whole.drop offset).take b.size →
      (b.more = true ↔ offset + reply.payload.length < whole.length) →
      Carries whole offset reply

namespace Carries

variable {whole : Octets} {offset : Nat} {reply : Message}

theorem offsetNamed_eq (hcarries : Carries whole offset reply) :
    offsetNamed reply = offset := by
  cases hcarries with
  | all hnone hzero hpayload => rw [offsetNamed, hnone, hzero]
  | part hblock hoffset hszx hle hpayload hmore =>
      rw [offsetNamed, hblock]
      exact hoffset

theorem sits (hcarries : Carries whole offset reply) :
    SitsAt offset reply.payload whole := by
  cases hcarries with
  | all hnone hzero hpayload =>
      rw [hpayload, hzero]
      exact SitsAt.at_end [] whole
  | @part b hblock hoffset hszx hle hpayload hmore =>
      rw [hpayload]
      exact SitsAt.of_slice b.size hle

theorem moreSet_iff (hcarries : Carries whole offset reply) :
    moreSet reply = true ↔ offset + reply.payload.length < whole.length := by
  cases hcarries with
  | all hnone hzero hpayload =>
      rw [moreSet, hnone, hpayload, hzero]
      simp
  | part hblock hoffset hszx hle hpayload hmore =>
      rw [moreSet, hblock]
      exact hmore

/-- A reply that leaves something out is as long as its block. -/
theorem full (hcarries : Carries whole offset reply)
    (hmore : moreSet reply = true) :
    ∃ b : Block, b.offset = offset ∧ b.szx ≤ maxSzx ∧
      reply.payload.length = b.size := by
  have hleft := hcarries.moreSet_iff.mp hmore
  cases hcarries with
  | all hnone hzero hpayload =>
      rw [hpayload, hzero] at hleft
      omega
  | @part b hblock hoffset hszx hle hpayload hmore =>
      refine ⟨b, hoffset, hszx, ?_⟩
      rw [hpayload, List.length_take, List.length_drop] at hleft ⊢
      omega

theorem payload_ne_nil (hcarries : Carries whole offset reply)
    (hmore : moreSet reply = true) : reply.payload ≠ [] := by
  obtain ⟨b, -, -, hlength⟩ := hcarries.full hmore
  have hsize := b.sixteen_le_size
  apply List.ne_nil_of_length_pos
  omega

theorem continuable (hcarries : Carries whole offset reply)
    (hwhole : whole.length < 2 ^ 32) (hmore : moreSet reply = true) :
    ∃ b : Block, Block.decode b.encode = some b ∧
      b.offset = offset + reply.payload.length := by
  obtain ⟨b, hoffset, hszx, hlength⟩ := hcarries.full hmore
  have hleft := hcarries.moreSet_iff.mp hmore
  have hsize := b.sixteen_le_size
  have hnext : (b.num.toNat + 1) * b.size = offset + reply.payload.length := by
    rw [Nat.add_mul, Nat.one_mul, hlength, ← hoffset]
    rfl
  have hnum : b.num.toNat + 1 < 2 ^ 28 := by
    have hmul := Nat.mul_le_mul_left (b.num.toNat + 1) hsize
    omega
  have htoNat : (b.num + 1).toNat = b.num.toNat + 1 := by
    rw [UInt32.toNat_add, UInt32.toNat_one]
    omega
  refine ⟨{ b with num := b.num + 1 }, Block.decode_encode ?_ hszx, ?_⟩
  · rw [htoNat]
    exact hnum
  · rw [← hnext, ← htoNat]
    rfl

end Carries

namespace Download

variable {h : Handler} {Served : Get → Prop} {gs : List Get} {whole : Octets}

def Asked (whole : Octets) (g : Get) : Prop :=
  offsetNamed g.req = 0 ∨ offsetNamed g.req < whole.length

def Answered (h : Handler) (Served : Get → Prop) (whole : Octets) (g : Get) :
    Prop :=
  Served g ∧ Asked whole g ∧ Carries whole (offsetNamed g.req) (g.reply h)

abbrev Pieces (h : Handler) : List Get → Prop :=
  Walk (fun g => offsetNamed (g.reply h)) (fun g => (g.reply h).payload)
    fun g => moreSet (g.reply h)

theorem Asked.lt {g : Get} (hasked : Asked whole g)
    (hwhole : whole.length < 2 ^ 32) : offsetNamed g.req < 2 ^ 32 := by
  unfold Asked at hasked
  omega

theorem Answered.cut {g : Get} (hg : Answered h Served whole g) :
    Cut (fun g => offsetNamed (g.reply h)) (fun g => (g.reply h).payload)
      (fun g => moreSet (g.reply h)) whole g := by
  obtain ⟨-, -, hcarries⟩ := hg
  refine ⟨?_, ?_, hcarries.payload_ne_nil⟩
  · rw [hcarries.offsetNamed_eq]
    exact hcarries.sits
  · rw [hcarries.offsetNamed_eq]
    exact hcarries.moreSet_iff

theorem pieces (hgs : Download h Served gs)
    (hserve : ∀ g, Served g → Asked whole g →
      Carries whole (offsetNamed g.req) (g.reply h)) :
    Pieces h gs ∧ ∀ g ∈ gs, Answered h Served whole g := by
  induction hgs with
  | @start g hserved hasks =>
      have hcarries := hserve g hserved (.inl hasks)
      refine ⟨.start (hcarries.offsetNamed_eq.trans hasks), ?_⟩
      intro g' hmem
      rw [List.mem_singleton.mp hmem]
      exact ⟨hserved, .inl hasks, hcarries⟩
  | @next gs last g hgs hmore hserved hasks ih =>
      obtain ⟨hwalk, hall⟩ := ih
      have hlast := (hall last (by simp)).cut
      have hrange : Asked whole g := by
        right
        rw [hasks]
        exact hlast.more_iff.mp hmore
      have hcarries := hserve g hserved hrange
      refine ⟨.next hwalk hmore (hcarries.offsetNamed_eq.trans hasks), ?_⟩
      intro g' hmem
      rcases List.mem_append.mp hmem with hold | hnew
      · exact hall g' hold
      · rw [List.mem_singleton.mp hnew]
        exact ⟨hserved, hrange, hcarries⟩

/-- Where every request in range gets its piece, the client gets it all. -/
theorem complete (hgs : Download h Served gs) (hwhole : whole.length < 2 ^ 32)
    (hserve : ∀ g, Served g → Asked whole g →
      Carries whole (offsetNamed g.req) (g.reply h)) : Complete h whole gs := by
  obtain ⟨hwalk, hall⟩ := hgs.pieces hserve
  refine ⟨hwalk.length_le fun g hmem => (hall g hmem).cut, ?_, ?_⟩
  · intro g hmem hmore
    obtain ⟨-, -, hcarries⟩ := hall g hmem
    rw [hcarries.offsetNamed_eq]
    exact hcarries.continuable hwhole hmore
  · intro front last hgs' hlast
    subst hgs'
    exact hwalk.eq_whole (fun g hmem => (hall g hmem).cut) hlast

end Download

/-! The block option of a reply, and what it names. -/

theorem block2Of_payload (msg : Message) (payload : Octets) :
    block2Of { msg with payload := payload } = block2Of msg :=
  rfl

theorem block2Of_setOptionUint_ne (msg : Message) {number : UInt16}
    (value : UInt32) (hne : OptionNumber.block2 ≠ number) :
    block2Of (msg.setOptionUint number value) = block2Of msg := by
  rw [block2Of, Message.optionUint_setOptionUint_ne msg value hne]
  rfl

theorem block2Of_pushOption_ne (msg : Message) {number : UInt16}
    (value : Octets) (hne : OptionNumber.block2 ≠ number) :
    block2Of (msg.pushOption number value) = block2Of msg := by
  rw [block2Of, Message.optionUint_pushOption_ne msg value hne]
  rfl

theorem block2Of_setOptionUint_self (msg : Message) {b : Block}
    (hnum : b.num.toNat < 2 ^ 28) (hszx : b.szx ≤ maxSzx) :
    block2Of (msg.setOptionUint OptionNumber.block2 b.encode) = some b := by
  rw [block2Of, Message.optionUint_setOptionUint_self]
  exact Block.decode_encode hnum hszx

theorem block2Of_szx_le {req : Message} {b : Block}
    (hblock : block2Of req = some b) : b.szx ≤ maxSzx := by
  obtain ⟨value, -, hdecode⟩ := Option.bind_eq_some_iff.mp hblock
  exact Block.decode_szx_le hdecode

theorem maxSzxFor_le {h : Handler} (hceiling : h.udpMaxSzx ≤ maxSzx)
    (transport : Transport) : h.maxSzxFor transport ≤ maxSzx := by
  cases transport with
  | udp => exact hceiling
  | tcp => exact UInt8.le_refl maxSzx

/-- What the request asked for, at no more than the ceiling. -/
theorem offset_capped_asked {req : Message} {b : Block}
    (hblock : block2Of req = some b) (hfits : offsetNamed req < 2 ^ 32)
    (ceiling : UInt8) : (b.capped ceiling).offset = offsetNamed req := by
  rw [offsetNamed, hblock] at hfits ⊢
  exact Block.offset_capped_of_lt (block2Of_szx_le hblock) ceiling hfits

end Handler

end Loft
