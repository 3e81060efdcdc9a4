import Mathlib.Data.List.Dedup
import Mathlib.Data.List.DropRight
import Loft.Handler.Malformed

namespace Loft

open Loft.Data
open Loft.Coap

/-! Which request completes an upload, told from what the devices have sent and
which of it was answered 2.31: reassembly without its table. -/

namespace Handler

/-- A block as it came in. `continued` tells of the answer 2.31, and `idled`
whether a sweep has found the block too old. -/
structure SentBlock where
  key : Block1Key
  block : Block
  size : Nat
  sentAt : Instant
  continued : Bool
  idled : Bool
  deriving DecidableEq, Repr

namespace SentBlock

def num (x : SentBlock) : Nat :=
  x.block.num.toNat

def alive (x : SentBlock) : Bool :=
  x.continued && !x.idled

def aged (now : Instant) (x : SentBlock) : SentBlock :=
  { x with
    idled := x.idled ||
      decide (block1IdleTimeout ≤ now.durationSince x.sentAt) }

end SentBlock

def sentOn (sent : List SentBlock) (key : Block1Key) : List SentBlock :=
  sent.filter fun x => x.key = key

/-- The last block on the key was acknowledged, and is not too old. -/
def underWay (sent : List SentBlock) (key : Block1Key) : Bool :=
  (sentOn sent key).getLast?.any SentBlock.alive

def uploadsUnderWay (sent : List SentBlock) : List Block1Key :=
  (sent.map SentBlock.key).dedup.filter (underWay sent)

def hasRoom (sent : List SentBlock) (key : Block1Key) : Bool :=
  underWay sent key ||
    decide ((uploadsUnderWay sent).length < maxBlock1Entries)

def totalSize (blocks : List SentBlock) : Nat :=
  (blocks.map SentBlock.size).sum

/-- Numbered from 0 on, none of them the last, each of them acknowledged. -/
def InSequence (blocks : List SentBlock) : Prop :=
  blocks.map SentBlock.num = List.range blocks.length ∧
    ∀ x ∈ blocks, x.block.more = true ∧ x.continued = true

instance (blocks : List SentBlock) : Decidable (InSequence blocks) :=
  inferInstanceAs (Decidable (_ ∧ _))

/-- The last `count` blocks on the key. -/
def latest (sent : List SentBlock) (key : Block1Key) (count : Nat) :
    List SentBlock :=
  (sentOn sent key).rtake count

/-- A block of `size` bytes is the last of an upload whose other blocks have
just been acknowledged, and the upload is neither too old nor too large. One
that is an upload by itself needs room for it. -/
def Completes (sent : List SentBlock) (key : Block1Key) (b : Block)
    (size : Nat) : Prop :=
  let front := latest sent key b.num.toNat
  b.more = false ∧ front.length = b.num.toNat ∧ InSequence front ∧
    (if b.num = 0 then hasRoom sent key else underWay sent key) = true ∧
    totalSize front + size ≤ maxBlock1Body

instance (sent : List SentBlock) (key : Block1Key) (b : Block) (size : Nat) :
    Decidable (Completes sent key b size) :=
  inferInstanceAs (Decidable (_ ∧ _))

/-! The books of one key. -/

theorem sentOn_concat_self (sent : List SentBlock) (x : SentBlock) :
    sentOn (sent ++ [x]) x.key = sentOn sent x.key ++ [x] := by
  simp [sentOn, List.filter_append]

theorem sentOn_concat_ne {x : SentBlock} {key : Block1Key} (hkey : x.key ≠ key)
    (sent : List SentBlock) : sentOn (sent ++ [x]) key = sentOn sent key := by
  simp [sentOn, List.filter_append, hkey]

theorem sentOn_aged (now : Instant) (sent : List SentBlock) (key : Block1Key) :
    sentOn (sent.map (SentBlock.aged now)) key =
      (sentOn sent key).map (SentBlock.aged now) := by
  simp only [sentOn, List.filter_map]
  rfl

theorem underWay_concat_self (sent : List SentBlock) (x : SentBlock) :
    underWay (sent ++ [x]) x.key = x.alive := by
  rw [underWay, sentOn_concat_self, List.getLast?_concat]
  rfl

theorem underWay_concat_ne {x : SentBlock} {key : Block1Key}
    (hkey : x.key ≠ key) (sent : List SentBlock) :
    underWay (sent ++ [x]) key = underWay sent key := by
  rw [underWay, sentOn_concat_ne hkey, underWay]

theorem mem_keys_of_underWay {sent : List SentBlock} {key : Block1Key}
    (h : underWay sent key = true) : key ∈ sent.map SentBlock.key := by
  obtain ⟨x, hlast, -⟩ := (Option.any_eq_true _ _).mp h
  obtain ⟨hmem, hkey⟩ := List.mem_filter.mp (List.mem_of_getLast? hlast)
  exact List.mem_map.mpr ⟨x, hmem, of_decide_eq_true hkey⟩

theorem latest_concat_self (sent : List SentBlock) (x : SentBlock)
    (count : Nat) :
    latest (sent ++ [x]) x.key (count + 1) = latest sent x.key count ++ [x] := by
  rw [latest, sentOn_concat_self, List.rtake_concat_succ, latest]

theorem latest_concat_ne {x : SentBlock} {key : Block1Key}
    (hkey : x.key ≠ key) (sent : List SentBlock) (count : Nat) :
    latest (sent ++ [x]) key count = latest sent key count := by
  rw [latest, sentOn_concat_ne hkey, latest]

theorem latest_aged (now : Instant) (sent : List SentBlock) (key : Block1Key)
    (count : Nat) :
    latest (sent.map (SentBlock.aged now)) key count =
      (latest sent key count).map (SentBlock.aged now) := by
  rw [latest, sentOn_aged, latest, List.rtake, List.rtake, List.length_map,
    List.map_drop]

theorem totalSize_concat (blocks : List SentBlock) (x : SentBlock) :
    totalSize (blocks ++ [x]) = totalSize blocks + x.size := by
  simp [totalSize]

theorem totalSize_aged (now : Instant) (blocks : List SentBlock) :
    totalSize (blocks.map (SentBlock.aged now)) = totalSize blocks := by
  simp only [totalSize, List.map_map]
  rfl

theorem InSequence.nil : InSequence [] :=
  ⟨rfl, nofun⟩

theorem InSequence.concat {blocks : List SentBlock} (h : InSequence blocks)
    {x : SentBlock} (hnum : x.num = blocks.length) (hmore : x.block.more = true)
    (hcontinued : x.continued = true) : InSequence (blocks ++ [x]) := by
  refine ⟨?_, ?_⟩
  · rw [List.map_append, h.1, List.length_append, List.length_singleton,
      List.range_succ, ← hnum]
    rfl
  · intro y hy
    rcases List.mem_append.mp hy with hbefore | hnew
    · exact h.2 y hbefore
    · rw [List.mem_singleton.mp hnew]
      exact ⟨hmore, hcontinued⟩

theorem InSequence.aged {blocks : List SentBlock} (h : InSequence blocks)
    (now : Instant) : InSequence (blocks.map (SentBlock.aged now)) := by
  refine ⟨?_, ?_⟩
  · rw [List.length_map, ← h.1, List.map_map]
    rfl
  · exact List.forall_mem_map.mpr h.2

/-- The last block of a sequence tells how long it is. -/
theorem InSequence.last {sent : List SentBlock} {key : Block1Key} {count : Nat}
    (h : InSequence (latest sent key count))
    (hlength : (latest sent key count).length = count) (hpos : 0 < count) :
    ∃ x, (sentOn sent key).getLast? = some x ∧ x.num + 1 = count := by
  obtain ⟨count, rfl⟩ := Nat.exists_eq_add_one.mpr hpos
  have hnums := congrArg List.getLast? h.1
  rw [List.getLast?_map, hlength, List.range_succ,
    List.getLast?_concat] at hnums
  obtain ⟨x, hlast, hnum⟩ := Option.map_eq_some_iff.mp hnums
  refine ⟨x, ?_, congrArg (· + 1) hnum⟩
  rw [← hlast, latest]
  rcases List.eq_nil_or_concat' (sentOn sent key) with hnil | ⟨front, last, hs⟩
  · rw [latest, hnil] at hlength
    simp at hlength
  · rw [hs, List.rtake_concat_succ, List.getLast?_concat, List.getLast?_concat]

/-! The table keeps these books. -/

/-- An entry is what the latest blocks on its key come to. -/
structure Held (sent : List SentBlock) (key : Block1Key) (entry : Reassembly) :
    Prop where
  length : (latest sent key entry.nextNum.toNat).length = entry.nextNum.toNat
  sequence : InSequence (latest sent key entry.nextNum.toNat)
  size : totalSize (latest sent key entry.nextNum.toNat) = entry.data.length
  started : 0 < entry.nextNum.toNat
  last : ∃ x, (sentOn sent key).getLast? = some x ∧ x.alive = true ∧
    x.sentAt = entry.touched

structure Tracks (sent : List SentBlock) (map : Block1Table) : Prop where
  held : ∀ key entry, map.lookup key = some entry → Held sent key entry
  gone : ∀ key, map.lookup key = none → underWay sent key = false

theorem Held.underWay {sent : List SentBlock} {key : Block1Key}
    {entry : Reassembly} (h : Held sent key entry) :
    underWay sent key = true := by
  obtain ⟨x, hlast, halive, -⟩ := h.last
  rw [Handler.underWay, hlast]
  exact halive

theorem Held.concat_ne {sent : List SentBlock} {key : Block1Key}
    {entry : Reassembly} (h : Held sent key entry) {x : SentBlock}
    (hkey : x.key ≠ key) : Held (sent ++ [x]) key entry where
  length := by
    rw [latest_concat_ne hkey]
    exact h.length
  sequence := by
    rw [latest_concat_ne hkey]
    exact h.sequence
  size := by
    rw [latest_concat_ne hkey]
    exact h.size
  started := h.started
  last := by
    rw [sentOn_concat_ne hkey]
    exact h.last

namespace Tracks

variable {sent : List SentBlock} {map : Block1Table}

theorem empty : Tracks [] ∅ where
  held := by simp
  gone key _ := rfl

theorem underWay_iff (hs : Tracks sent map) (key : Block1Key) :
    underWay sent key = true ↔ key ∈ map := by
  constructor
  · intro hunder
    by_contra hnone
    rw [hs.gone key (AList.lookup_eq_none.mpr hnone)] at hunder
    cases hunder
  · intro hmem
    obtain ⟨entry, hentry⟩ := Option.isSome_iff_exists.mp
      (AList.lookup_isSome.mpr hmem)
    exact (hs.held key entry hentry).underWay

theorem length_uploadsUnderWay (hs : Tracks sent map) :
    (uploadsUnderWay sent).length = map.len := by
  have hperm : (uploadsUnderWay sent).Perm map.keys := by
    apply (List.perm_ext_iff_of_nodup ((List.nodup_dedup _).filter _)
      map.keys_nodup).mpr
    intro key
    rw [List.mem_filter, List.mem_dedup, hs.underWay_iff, ← AList.mem_keys]
    refine and_iff_right_of_imp fun hmem => ?_
    exact mem_keys_of_underWay ((hs.underWay_iff key).mpr hmem)
  rw [hperm.length_eq]
  exact List.length_map ..

theorem hasRoom_iff (hs : Tracks sent map) (key : Block1Key) :
    hasRoom sent key = true ↔ key ∈ map ∨ map.len < maxBlock1Entries := by
  rw [hasRoom, Bool.or_eq_true, hs.underWay_iff, hs.length_uploadsUnderWay,
    decide_eq_true_eq]

theorem sweep (hs : Tracks sent map) (now : Instant) :
    Tracks (sent.map (SentBlock.aged now)) (sweepBlock1 now map) where
  held key entry hentry := by
    rw [sweepBlock1, Table.lookup_retain, Option.filter_eq_some_iff] at hentry
    obtain ⟨hbefore, hyoung⟩ := hentry
    have hheld := hs.held key entry hbefore
    obtain ⟨x, hlast, halive, hsentAt⟩ := hheld.last
    refine ⟨?_, ?_, ?_, hheld.started, x.aged now, ?_, ?_, hsentAt⟩
    · rw [latest_aged, List.length_map]
      exact hheld.length
    · rw [latest_aged]
      exact hheld.sequence.aged now
    · rw [latest_aged, totalSize_aged]
      exact hheld.size
    · rw [sentOn_aged, List.getLast?_map, hlast]
      rfl
    · have hfresh : ¬ block1IdleTimeout ≤ now.durationSince x.sentAt := by
        rw [hsentAt]
        exact Nat.not_le.mpr (of_decide_eq_true hyoung)
      rw [SentBlock.alive, SentBlock.aged]
      dsimp only
      rw [decide_eq_false hfresh, Bool.or_false]
      exact halive
  gone key hnone := by
    rw [underWay, sentOn_aged, List.getLast?_map]
    cases hlast : (sentOn sent key).getLast? with
    | none => rfl
    | some x =>
        rw [Option.map_some, Option.any_some, SentBlock.alive, SentBlock.aged]
        dsimp only
        cases hentry : map.lookup key with
        | none =>
            have hdead := hs.gone key hentry
            rw [underWay, hlast, Option.any_some, SentBlock.alive] at hdead
            revert hdead
            cases x.continued <;> cases x.idled <;> simp
        | some entry =>
            obtain ⟨y, hlast', -, hsentAt⟩ := (hs.held key entry hentry).last
            obtain rfl := Option.some.inj (hlast.symm.trans hlast')
            have hold : block1IdleTimeout ≤ now.durationSince x.sentAt := by
              rw [sweepBlock1, Table.lookup_retain, hentry] at hnone
              rw [hsentAt]
              simpa using hnone
            rw [decide_eq_true hold, Bool.or_true]
            simp

/-! What one block does. -/

theorem front_of_continues (hs : Tracks sent map) {now : Instant}
    {key : Block1Key} {b : Block} {entry : Reassembly} {current : Block1Table}
    (h : Continues now map key b entry current) :
    (latest sent key b.num.toNat).length = b.num.toNat ∧
      InSequence (latest sent key b.num.toNat) ∧
      totalSize (latest sent key b.num.toNat) = entry.data.length ∧
      (if b.num = 0 then hasRoom sent key else underWay sent key) = true := by
  cases h with
  | restart hnum hroom =>
      have hnone : latest sent key b.num.toNat = [] := by
        rw [hnum]
        exact List.rtake_zero _
      rw [hnone, if_pos hnum, hnum]
      exact ⟨rfl, .nil, rfl, (hs.hasRoom_iff key).mpr hroom⟩
  | held hnum hentry hnext =>
      have hheld := hs.held key entry hentry
      rw [if_neg hnum, ← hnext]
      exact ⟨hheld.length, hheld.sequence, hheld.size, hheld.underWay⟩

/-- The other way round, a front that is under way is what the table holds. -/
theorem continues_of_front (hs : Tracks sent map) (now : Instant)
    {key : Block1Key} {b : Block}
    (hlength : (latest sent key b.num.toNat).length = b.num.toNat)
    (hsequence : InSequence (latest sent key b.num.toNat))
    (hopen : (if b.num = 0 then hasRoom sent key
      else underWay sent key) = true) :
    ∃ entry current, Continues now map key b entry current := by
  split_ifs at hopen with hnum
  · exact ⟨_, _, .restart hnum ((hs.hasRoom_iff key).mp hopen)⟩
  · cases hentry : map.lookup key with
    | none =>
        rw [hs.gone key hentry] at hopen
        cases hopen
    | some entry =>
        have hheld := hs.held key entry hentry
        have hpos : 0 < b.num.toNat := by
          rw [Nat.pos_iff_ne_zero]
          exact fun hzero => hnum (UInt32.toNat_inj.mp hzero)
        obtain ⟨x, hlast, hnum'⟩ := hsequence.last hlength hpos
        obtain ⟨y, hlast', hnext⟩ := hheld.sequence.last hheld.length
          hheld.started
        obtain rfl := Option.some.inj (hlast.symm.trans hlast')
        exact ⟨entry, map, .held hnum hentry
          (UInt32.toNat_inj.mp (hnext.symm.trans hnum'))⟩

/-- `assemble_body` takes a block for the last of an upload exactly if it is. -/
theorem assembleBody_complete_iff (hs : Tracks sent map) (now : Instant)
    (session : DeviceSession) (leaf : String) {req : Message} {b : Block}
    (hblock : block1Of req = some b) :
    (∃ body, (assembleBody now req session leaf map).1 = .complete body) ↔
      Completes sent (session.connId, leaf) b req.payload.length := by
  constructor
  · intro hcomplete
    obtain ⟨body, hbody⟩ := hcomplete
    have hresult := assembleBody_uploading now session leaf map hblock
    generalize assembleBody now req session leaf map = result at hbody hresult
    cases hresult with
    | completed hcontinues hsize hlast =>
        obtain ⟨hlength, hsequence, htotal, hopen⟩ :=
          hs.front_of_continues hcontinues
        refine ⟨hlast, hlength, hsequence, hopen, ?_⟩
        rw [htotal]
        exact hsize
    | _ => cases hbody
  · intro hcompletes
    obtain ⟨hlast, hlength, hsequence, hopen, hsize⟩ := hcompletes
    obtain ⟨entry, current, hcontinues⟩ :=
      hs.continues_of_front now hlength hsequence hopen
    rw [(hs.front_of_continues hcontinues).2.2.1] at hsize
    rw [assembleBody_of_uploading hblock (.completed hcontinues hsize hlast)]
    exact ⟨_, rfl⟩

end Tracks

/-- What the device hears of a block that is taken on its own. -/
def acknowledges : BodyState → Bool
  | .complete _ => false
  | .interim msg => msg.code == Code.continue_

namespace Tracks

variable {sent : List SentBlock} {map : Block1Table}

theorem held_of_continued (hs : Tracks sent map) {now : Instant}
    {req : Message} {x : SentBlock} (hblock : block1Of req = some x.block)
    {entry : Reassembly} {current : Block1Table}
    (hcontinues : Continues now map x.key x.block entry current)
    (hsize : x.size = req.payload.length) (hsentAt : x.sentAt = now)
    (hmore : x.block.more = true) (hcontinued : x.continued = true)
    (hidled : x.idled = false) :
    Held (sent ++ [x]) x.key {
      data := entry.data ++ req.payload
      nextNum := x.block.num + 1
      touched := now } := by
  obtain ⟨hlength, hsequence, htotal, -⟩ := hs.front_of_continues hcontinues
  have hnext := next_num hblock
  refine ⟨?_, ?_, ?_, ?_, x, ?_, ?_, hsentAt⟩
  · dsimp only
    rw [hnext, latest_concat_self, List.length_append, hlength]
    rfl
  · dsimp only
    rw [hnext, latest_concat_self]
    exact hsequence.concat hlength.symm hmore hcontinued
  · dsimp only
    rw [hnext, latest_concat_self, totalSize_concat, htotal, hsize,
      List.length_append]
  · dsimp only
    rw [hnext]
    exact Nat.succ_pos _
  · rw [sentOn_concat_self, List.getLast?_concat]
  · rw [SentBlock.alive, hcontinued, hidled]
    rfl

/-- The key of a block has an entry afterwards exactly if it was acknowledged,
and then one that the block is in. -/
theorem own (hs : Tracks sent map) {now : Instant} {req : Message}
    {x : SentBlock} (hblock : block1Of req = some x.block)
    {result : BodyState × Block1Table}
    (h : Uploading now req map x.key x.block result)
    (hsize : x.size = req.payload.length) (hsentAt : x.sentAt = now)
    (hcontinued : x.continued = acknowledges result.1)
    (hidled : x.idled = false) :
    (result.2.lookup x.key = none ∧ x.continued = false) ∨
      ∃ entry, result.2.lookup x.key = some entry ∧
        Held (sent ++ [x]) x.key entry := by
  cases h with
  | tableFull hnum hfree hfull =>
      exact .inl ⟨AList.lookup_eq_none.mpr hfree, hcontinued⟩
  | noContext hnum hnone => exact .inl ⟨hnone, hcontinued⟩
  | outOfSequence hnum hentry hnext =>
      exact .inl ⟨AList.lookup_erase _ _, hcontinued⟩
  | tooLarge hcontinues hlarge =>
      exact .inl ⟨AList.lookup_erase _ _, hcontinued⟩
  | completed hcontinues hfits hlast =>
      exact .inl ⟨AList.lookup_erase _ _, hcontinued⟩
  | continued hcontinues hfits hmore =>
      exact .inr ⟨_, AList.lookup_insert _, hs.held_of_continued hblock
        hcontinues hsize hsentAt hmore hcontinued hidled⟩

theorem block (hs : Tracks sent map) (now : Instant) {req : Message}
    {session : DeviceSession} {leaf : String} {b : Block}
    (hblock : block1Of req = some b) :
    Tracks
      (sent ++ [{
        key := (session.connId, leaf)
        block := b
        size := req.payload.length
        sentAt := now
        continued := acknowledges (assembleBody now req session leaf map).1
        idled := false }])
      (assembleBody now req session leaf map).2 := by
  have hframe : ∀ key, key ≠ (session.connId, leaf) →
      (assembleBody now req session leaf map).2.lookup key = map.lookup key :=
    fun key hkey => assembleBody_frame hkey
  have hresult := assembleBody_uploading now session leaf map hblock
  generalize assembleBody now req session leaf map = result at hframe hresult ⊢
  have hown := hs.own (x := {
    key := (session.connId, leaf)
    block := b
    size := req.payload.length
    sentAt := now
    continued := acknowledges result.1
    idled := false }) hblock hresult rfl rfl rfl rfl
  refine ⟨?_, ?_⟩
  · intro key entry hentry
    by_cases hsame : key = (session.connId, leaf)
    · subst hsame
      rcases hown with ⟨hnone, -⟩ | ⟨entry', hsome, hheld⟩
      · rw [hnone] at hentry
        cases hentry
      · rw [hsome, Option.some.injEq] at hentry
        rwa [← hentry]
    · rw [hframe key hsame] at hentry
      exact (hs.held key entry hentry).concat_ne (Ne.symm hsame)
  · intro key hnone
    by_cases hsame : key = (session.connId, leaf)
    · subst hsame
      rcases hown with ⟨-, hrefused⟩ | ⟨entry, hsome, -⟩
      · refine (underWay_concat_self sent _).trans ?_
        rw [SentBlock.alive, hrefused]
        rfl
      · rw [hsome] at hnone
        cases hnone
    · rw [hframe key hsame] at hnone
      rw [underWay_concat_ne (Ne.symm hsame)]
      exact hs.gone key hnone

end Tracks

end Handler

end Loft
