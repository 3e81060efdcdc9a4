import Loft.Data.Chunks
import Loft.Data.Transition
import Loft.Handler.Outcomes

namespace Loft

open Loft.Data
open Loft.Coap

/-! Where the bytes of a Block1 upload land in the body that is sent upstream,
against where their blocks say they belong. -/

def BodyState.Refused : BodyState → Prop
  | .complete _ => False
  | .interim msg => 4 ≤ Code.cls msg.code

namespace Handler

structure Ledger where
  log : List Assembly
  map : Block1Table

def Ledger.start : Ledger where
  log := []
  map := ∅

def record (h : Handler) (s : Ledger) (event : Event) : Ledger where
  log := s.log ++ (assemblyOf s.map event).toList
  map := h.step s.map event

def recordStep (h : Handler) (s : Ledger) (event : Event) : Option Ledger :=
  some (h.record s event)

theorem run_recordStep (h : Handler) (events : List Event) :
    Transition.run h.recordStep Ledger.start events =
      some { log := h.assemblies events, map := h.tableAfter events } := by
  induction events using List.reverseRecOn with
  | nil => rfl
  | append_singleton events event ih =>
      rw [Transition.run_append, ih, assemblies_concat, tableAfter_concat]
      rfl

def Assembly.offset (a : Assembly) : Nat :=
  a.block.offset

abbrev Seated : List Assembly → Octets → Prop :=
  Laid Assembly.offset Assembly.payload

def Action.Refused : Action → Prop
  | .reply msg => 4 ≤ Code.cls msg.code
  | .call _ _ => False

/-- The bytes of the upload that are in when `b` arrives; block 0 restarts. -/
def accumulated (map : Block1Table) (key : Block1Key) (b : Block) : Nat :=
  if b.num = 0 then 0
  else
    match map.lookup key with
    | some entry => entry.data.length
    | none => 0

/-- The blocks of an upload that ends with number `n` are the last `n + 1`
assemblies on its key. -/
def UploadOf (log : List Assembly) (key : Block1Key) (b : Block)
    (blocks : List Assembly) : Prop :=
  blocks <:+ (log.filter fun a => a.key = key) ∧
    blocks.length = b.num.toNat + 1

def Placed (h : Handler) (s : Ledger) : Event → Prop
  | .sweep _ => True
  | .serve now req session transport =>
      ∀ (leaf : UploadLeaf) (b : Block),
        route req session = .post leaf → block1Of req = some b →
        let key := (session.connId, leaf.name)
        let action := (h.dispatch now req session transport s.map).1
        (b.offset ≠ accumulated s.map key b → action.Refused) ∧
          ∀ call body contentType blocks, action.upstream = some call →
            call.body = some (body, contentType) →
            UploadOf (h.record s (.serve now req session transport)).log key b
              blocks →
            ∀ a ∈ blocks, SitsAt a.block.offset a.payload body

/-- If its upload would go on with `b`, then `b` names the offset at which the
block before it ended. -/
def FollowsOn (s : Ledger) (key : Block1Key) (payload : Octets) (b : Block) :
    Prop :=
  ∀ (entry : Reassembly) (last : Assembly), b.num ≠ 0 →
    s.map.lookup key = some entry → entry.nextNum = b.num →
    entry.data.length + payload.length ≤ maxBlock1Body →
    (s.log.filter fun a => a.key = key).getLast? = some last →
    b.offset = last.block.offset + last.payload.length

def Seamless (s : Ledger) : Event → Prop
  | .sweep _ => True
  | .serve _ req session _ =>
      ∀ (leaf : UploadLeaf) (b : Block),
        route req session = .post leaf → block1Of req = some b →
        FollowsOn s (session.connId, leaf.name) req.payload b

structure Aligned (s : Ledger) : Prop where
  seated : ∀ key entry, s.map.lookup key = some entry →
    ∃ blocks, blocks <:+ (s.log.filter fun a => a.key = key) ∧
      blocks.length = entry.nextNum.toNat ∧ Seated blocks entry.data

/-! What becomes of a block, as far as its place is concerned. -/

variable {now : Instant} {req : Message} {session : DeviceSession}
  {leaf : String} {map : Block1Table} {b : Block} {entry : Reassembly}

theorem assembleBody_next (now : Instant) (hblock : block1Of req = some b)
    (hnum : b.num ≠ 0)
    (hentry : map.lookup (session.connId, leaf) = some entry)
    (hnext : entry.nextNum = b.num) :
    (assembleBody now req session leaf map).1 =
      if maxBlock1Body < entry.data.length + req.payload.length then
        .interim (diagnostic req Code.requestEntityTooLarge "body too large")
      else if b.more then
        .interim ((Message.response Code.continue_ req).setOptionUint
          OptionNumber.block1 b.encode)
      else .complete (entry.data ++ req.payload) := by
  have hsequence : ¬ entry.nextNum ≠ b.num := not_not.mpr hnext
  unfold assembleBody appendBlock
  simp only [hblock, hnum, hentry, hsequence, ne_eq, not_false_eq_true,
    if_true, if_false, gt_iff_lt]
  split_ifs <;> rfl

private theorem diagnostic_refused {code : UInt8} {text : String}
    (hclass : 4 ≤ Code.cls code) :
    4 ≤ Code.cls (diagnostic req code text).code :=
  hclass

theorem assembleBody_interim {msg : Message}
    (hinterim : (assembleBody now req session leaf map).1 = .interim msg)
    (hnone : (assembleBody now req session leaf map).2.lookup
      (session.connId, leaf) = none) : 4 ≤ Code.cls msg.code := by
  cases hblock : block1Of req with
  | none =>
      rw [assembleBody, hblock] at hinterim
      cases hinterim
  | some b =>
      have hresult := assembleBody_uploading now session leaf map hblock
      generalize assembleBody now req session leaf map = result
        at hinterim hnone hresult
      obtain ⟨state, map'⟩ := result
      cases hinterim
      cases hresult with
      | continued hcontinues hroom hmore => simp at hnone
      | _ => exact diagnostic_refused (by decide)

theorem Aligned.prior {s : Ledger} (hs : Aligned s) {key : Block1Key}
    (hprior : Prior s.map key b entry) :
    ∃ blocks, blocks <:+ (s.log.filter fun a => a.key = key) ∧
      blocks.length = b.num.toNat ∧ Seated blocks entry.data ∧
      entry.data.length = accumulated s.map key b := by
  obtain ⟨hnext, hheld | ⟨hzero, hdata⟩⟩ := hprior
  · obtain ⟨blocks, hsuffix, hlength, hseated⟩ := hs.seated key entry hheld
    rw [hnext] at hlength
    refine ⟨blocks, hsuffix, hlength, hseated, ?_⟩
    unfold accumulated
    split_ifs with hnum
    · rw [hnum] at hlength
      rw [List.length_eq_zero_iff.mp hlength] at hseated
      rw [hseated.eq_flatMap]
      rfl
    · rw [hheld]
  · rw [hzero] at hnext
    refine ⟨[], List.nil_suffix, ?_, ?_, ?_⟩
    · rw [← hnext]
      rfl
    · rw [hdata]
      exact .nil
    · rw [hdata, accumulated, if_pos hnext.symm]
      rfl

/-- What the held bytes amount to, read off the last block. -/
theorem Aligned.last {s : Ledger} (hs : Aligned s) {key : Block1Key}
    (hnum : b.num ≠ 0) (hentry : s.map.lookup key = some entry)
    (hnext : entry.nextNum = b.num) :
    ∃ last, (s.log.filter fun a => a.key = key).getLast? = some last ∧
      accumulated s.map key b = last.block.offset + last.payload.length := by
  obtain ⟨blocks, ⟨front, hsuffix⟩, hlength, hseated, hdata⟩ :=
    hs.prior ⟨hnext, .inl hentry⟩
  rcases List.eq_nil_or_concat' blocks with hnil | ⟨blocks, last, hblocks⟩
  · have hzero : b.num.toNat = 0 := by rw [← hlength, hnil]; rfl
    exact absurd (UInt32.toNat_inj.mp hzero) hnum
  · subst hblocks
    refine ⟨last, ?_, ?_⟩
    · rw [← hsuffix, ← List.append_assoc, List.getLast?_concat]
    · rw [← hdata, hseated.length_concat]
      rfl

variable {h : Handler} {s : Ledger} {transport : Transport}
  {uploadLeaf : UploadLeaf}

/-- What an accepted block continues: all seated, and it has its own place. -/
structure Extends (s : Ledger) (key : Block1Key) (b : Block)
    (entry : Reassembly) (blocks : List Assembly) : Prop where
  suffix : blocks <:+ (s.log.filter fun a => a.key = key)
  count : blocks.length = b.num.toNat
  seated : Seated blocks entry.data
  offset : b.offset = entry.data.length

theorem Extends.concat {key : Block1Key} {entry : Reassembly}
    {blocks : List Assembly} (hextends : Extends s key b entry blocks)
    (payload : Octets) (outcome : BodyState) :
    let a : Assembly := {
      key := key, block := b, payload := payload, outcome := outcome }
    blocks ++ [a] <:+ ((s.log ++ [a]).filter fun a => a.key = key) ∧
      (blocks ++ [a]).length = b.num.toNat + 1 ∧
      Seated (blocks ++ [a]) (entry.data ++ payload) := by
  intro a
  refine ⟨?_, ?_, .concat hextends.seated hextends.offset⟩
  · have hfilter := filter_concat_key s.log a
    rw [hfilter]
    exact suffix_concat a hextends.suffix
  · rw [List.length_append, hextends.count]
    rfl

theorem Aligned.extends (hs : Aligned s) {key : Block1Key}
    (hprior : Prior s.map key b entry)
    (hoffset : b.offset = accumulated s.map key b) :
    ∃ blocks, Extends s key b entry blocks := by
  obtain ⟨blocks, hsuffix, hcount, hseated, hlength⟩ := hs.prior hprior
  exact ⟨blocks, hsuffix, hcount, hseated, hoffset.trans hlength.symm⟩

inductive Landed (now : Instant) (s : Ledger) (key : Block1Key) (b : Block)
    (payload : Octets) : BodyState × Block1Table → Prop
  | refused {msg : Message} {map' : Block1Table} :
      map'.lookup key = none → Landed now s key b payload (.interim msg, map')
  | continued {entry : Reassembly} {blocks : List Assembly} {msg : Message}
      {map' : Block1Table} :
      Extends s key b entry blocks →
      map'.lookup key = some {
        data := entry.data ++ payload
        nextNum := b.num + 1
        touched := now } →
      Landed now s key b payload (.interim msg, map')
  | completed {entry : Reassembly} {blocks : List Assembly}
      {map' : Block1Table} :
      Extends s key b entry blocks → map'.lookup key = none →
      Landed now s key b payload (.complete (entry.data ++ payload), map')

theorem assembleBody_landed (hs : Aligned s) (hblock : block1Of req = some b)
    (hplaced : b.offset ≠ accumulated s.map (session.connId, leaf) b →
      (assembleBody now req session leaf s.map).1.Refused) :
    Landed now s (session.connId, leaf) b req.payload
      (assembleBody now req session leaf s.map) := by
  have hresult := assembleBody_assembled now session leaf s.map hblock
  generalize assembleBody now req session leaf s.map = result
    at hplaced hresult
  cases hresult with
  | refused hnone => exact .refused hnone
  | continued hmore hprior hcode hsome =>
      have hoffset : b.offset = accumulated s.map (session.connId, leaf) b := by
        by_contra hmoved
        have hclass := hplaced hmoved
        rw [BodyState.Refused, hcode] at hclass
        exact absurd hclass (by decide)
      obtain ⟨blocks, hextends⟩ := hs.extends hprior hoffset
      exact .continued hextends hsome
  | completed hlast hprior hnone =>
      have hoffset : b.offset = accumulated s.map (session.connId, leaf) b := by
        by_contra hmoved
        exact hplaced hmoved
      obtain ⟨blocks, hextends⟩ := hs.extends hprior hoffset
      exact .completed hextends hnone

theorem followsOn_of_refused (hs : Aligned s) (hblock : block1Of req = some b)
    (hrefused : b.offset ≠ accumulated s.map (session.connId, leaf) b →
      (assembleBody now req session leaf s.map).1.Refused) :
    FollowsOn s (session.connId, leaf) req.payload b := by
  intro entry last hnum hentry hnext hroom hlast
  obtain ⟨last', hlast', hamount⟩ := hs.last hnum hentry hnext
  cases hlast.symm.trans hlast'
  by_contra hmoved
  rw [← hamount] at hmoved
  have hrefused := hrefused hmoved
  rw [assembleBody_next now hblock hnum hentry hnext,
    if_neg (Nat.not_lt.mpr hroom)] at hrefused
  split_ifs at hrefused
  · have hclass : 4 ≤ Code.cls Code.continue_ := hrefused
    exact absurd hclass (by decide)
  · exact hrefused

/-- A block that is not where the held bytes end is not accepted. -/
theorem refused_of_prior (now : Instant) (hs : Aligned s)
    (hblock : block1Of req = some b)
    (hfollows : FollowsOn s (session.connId, leaf) req.payload b)
    (hmoved : b.offset ≠ accumulated s.map (session.connId, leaf) b)
    (hprior : Prior s.map (session.connId, leaf) b entry) :
    (assembleBody now req session leaf s.map).1.Refused := by
  obtain ⟨hnext, hheld⟩ := hprior
  by_cases hnum : b.num = 0
  · rw [accumulated, if_pos hnum, Block.offset_of_num_eq_zero hnum] at hmoved
    exact absurd rfl hmoved
  rcases hheld with hentry | ⟨hzero, -⟩
  · rw [assembleBody_next now hblock hnum hentry hnext]
    by_cases hroom : entry.data.length + req.payload.length ≤ maxBlock1Body
    · obtain ⟨last, hlast, hamount⟩ := hs.last hnum hentry hnext
      rw [hamount] at hmoved
      exact absurd (hfollows entry last hnum hentry hnext hroom hlast) hmoved
    · rw [if_pos (Nat.lt_of_not_le hroom)]
      exact diagnostic_refused (by decide)
  · exact absurd (hnext.symm.trans hzero) hnum

/-- An offset that is not the next one goes unnoticed exactly where the block
number is the next one all the same. -/
theorem refused_iff (now : Instant) (hs : Aligned s)
    (hblock : block1Of req = some b) :
    (b.offset ≠ accumulated s.map (session.connId, leaf) b →
        (assembleBody now req session leaf s.map).1.Refused) ↔
      FollowsOn s (session.connId, leaf) req.payload b := by
  refine ⟨followsOn_of_refused hs hblock, ?_⟩
  intro hfollows hmoved
  have hresult := assembleBody_assembled now session leaf s.map hblock
  have hinterim := @assembleBody_interim now req session leaf s.map
  have hrefused : ∀ {entry : Reassembly},
      Prior s.map (session.connId, leaf) b entry →
        (assembleBody now req session leaf s.map).1.Refused :=
    fun hprior => refused_of_prior now hs hblock hfollows hmoved hprior
  generalize assembleBody now req session leaf s.map = result
    at hresult hinterim hrefused ⊢
  cases hresult with
  | refused hnone => exact hinterim rfl hnone
  | continued hmore hheld hcode hsome => exact hrefused hheld
  | completed hlast hheld hnone => exact hrefused hheld

theorem dispatch_refused_iff (now : Instant) (transport : Transport)
    (hroute : route req session = .post uploadLeaf) :
    (h.dispatch now req session transport map).1.Refused ↔
      (assembleBody now req session uploadLeaf.name map).1.Refused := by
  rw [dispatch_post h now transport map hroute]
  cases (assembleBody now req session uploadLeaf.name map).1 <;> rfl

theorem record_serve (hroute : route req session = .post uploadLeaf)
    (hblock : block1Of req = some b) :
    h.record s (.serve now req session transport) = {
      log := s.log ++ [{
        key := (session.connId, uploadLeaf.name)
        block := b
        payload := req.payload
        outcome :=
          (assembleBody now req session uploadLeaf.name s.map).1 }]
      map := (assembleBody now req session uploadLeaf.name s.map).2 } := by
  rw [record, step, dispatch_table, assemblyOf, hroute, hblock]
  rfl

theorem placed_iff_seamless (h : Handler) (hs : Aligned s) (event : Event) :
    Placed h s event ↔ Seamless s event := by
  cases event with
  | sweep now => exact Iff.rfl
  | serve now req session transport =>
      constructor
      · intro hplaced leaf b hroute hblock
        have hchecked := (hplaced leaf b hroute hblock).1
        rw [dispatch_refused_iff now transport hroute] at hchecked
        exact (refused_iff now hs hblock).mp hchecked
      · intro hseamless leaf b hroute hblock
        have hchecked := (refused_iff now hs hblock).mpr
          (hseamless leaf b hroute hblock)
        refine ⟨?_, ?_⟩
        · rw [dispatch_refused_iff now transport hroute]
          exact hchecked
        · intro call body contentType blocks hcall hbody hblocks a hmem
          rw [record_serve hroute hblock] at hblocks
          rw [dispatch_post h now transport s.map hroute] at hcall
          have hlanded := assembleBody_landed hs hblock hchecked
          generalize assembleBody now req session leaf.name s.map = result
            at hblocks hcall hlanded
          cases hlanded with
          | refused hnone => cases hcall
          | continued hextends hsome => cases hcall
          | completed hextends hnone =>
              cases hcall
              cases hbody
              obtain ⟨hsuffix, hcount, hseated⟩ := hextends.concat req.payload _
              have hsame := (List.suffix_of_suffix_length_le hblocks.1 hsuffix
                (hblocks.2.trans hcount.symm).le).eq_of_length
                  (hblocks.2.trans hcount.symm)
              rw [hsame] at hmem
              exact hseated.sitsAt hmem

theorem Aligned.start : Aligned Ledger.start where
  seated := fun key entry hentry => by simp [Ledger.start] at hentry

private theorem Aligned.assemble (hs : Aligned s)
    (hblock : block1Of req = some b)
    (hplaced : b.offset ≠ accumulated s.map (session.connId, leaf) b →
      (assembleBody now req session leaf s.map).1.Refused) :
    Aligned {
      log := s.log ++ [{
        key := (session.connId, leaf)
        block := b
        payload := req.payload
        outcome := (assembleBody now req session leaf s.map).1 }]
      map := (assembleBody now req session leaf s.map).2 } where
  seated := by
    intro key' entry' hentry'
    by_cases hkey : key' = (session.connId, leaf)
    · subst hkey
      have hlanded := assembleBody_landed hs hblock hplaced
      generalize assembleBody now req session leaf s.map = result
        at hentry' hlanded
      cases hlanded with
      | refused hnone => simp [hnone] at hentry'
      | completed hextends hnone => simp [hnone] at hentry'
      | @continued entry blocks msg map' hextends hsome =>
          rw [hsome, Option.some.injEq] at hentry'
          subst hentry'
          obtain ⟨hsuffix, hcount, hseated⟩ :=
            hextends.concat req.payload (.interim msg)
          refine ⟨_, hsuffix, ?_, hseated⟩
          rw [hcount, next_num hblock]
    · rw [assembleBody_frame hkey] at hentry'
      obtain ⟨blocks, hsuffix, hrest⟩ := hs.seated key' entry' hentry'
      refine ⟨blocks, ?_, hrest⟩
      simpa [List.filter_append, Ne.symm hkey] using hsuffix

theorem Aligned.record (hs : Aligned s) {event : Event}
    (hplaced : Placed h s event) : Aligned (h.record s event) := by
  cases event with
  | sweep now =>
      refine ⟨fun key entry hentry => ?_⟩
      rw [Handler.record, step, sweepBlock1, Table.lookup_retain,
        Option.filter_eq_some_iff] at hentry
      simpa [Handler.record, assemblyOf] using hs.seated key entry hentry.1
  | serve now req session transport =>
      cases hroute : route req session with
      | refused reply =>
          simpa [Handler.record, step, dispatch_table, assemblyOf, hroute]
            using hs
      | getShadow =>
          simpa [Handler.record, step, dispatch_table, assemblyOf, hroute]
            using hs
      | getFirmware =>
          simpa [Handler.record, step, dispatch_table, assemblyOf, hroute]
            using hs
      | post leaf =>
          cases hblock : block1Of req with
          | none =>
              simpa [Handler.record, step, dispatch_table, assemblyOf, hroute,
                hblock, assembleBody] using hs
          | some b =>
              have hchecked := (hplaced leaf b hroute hblock).1
              rw [dispatch_refused_iff now transport hroute] at hchecked
              rw [record_serve hroute hblock]
              exact hs.assemble hblock hchecked

/-- Over any history, every byte lands where its block says exactly if each
block that continues an upload begins where the one before it ended. -/
theorem placed_iff_seamless_run (h : Handler) (events : List Event) :
    Transition.Along h.recordStep (Placed h) Ledger.start events ↔
      Transition.Along h.recordStep Seamless Ledger.start events := by
  have hrecord : ∀ s event s', Aligned s → Placed h s event →
      h.recordStep s event = some s' → Aligned s' := by
    intro s event s' hs hplaced hstep
    cases hstep
    exact hs.record hplaced
  constructor
  · exact Transition.Along.mono _ hrecord
      (fun s event hs => (placed_iff_seamless h hs event).mp) Aligned.start
  · intro hseamless
    have hstep : ∀ s event s', Aligned s → Seamless s event →
        h.recordStep s event = some s' → Aligned s' := by
      intro s event s' hs hevent
      exact hrecord s event s' hs ((placed_iff_seamless h hs event).mpr hevent)
    exact Transition.Along.mono _ hstep
      (fun s event hs => (placed_iff_seamless h hs event).mpr) Aligned.start
      hseamless

def rawBlock (value : UInt32) (payload : Octets) : Message where
  code := Code.post
  options := ["device", "pigeons", "p", "logs"].map
      (fun segment => (OptionNumber.uriPath, asBytes segment)) ++
    [(OptionNumber.block1, encodeUint value)]
  payload := payload

def bertStart : Message :=
  rawBlock 0x0F (List.replicate 1024 0xAA ++ List.replicate 1024 0xBB)

def bertRest : Message :=
  rawBlock 0x16 (List.replicate 1024 0xBB)

/-- A block of SZX 7 is taken whole, but acknowledged at SZX 6: the client
goes on at byte 1024, and what it sends is put at byte 2048. -/
def bertUpload : List Event :=
  [.serve 1 bertStart (logsSession 1) .tcp,
    .serve 2 bertRest (logsSession 1) .tcp]

theorem bertUpload_misplaced :
    ¬ Transition.Along (Handler.mk 6).recordStep (Placed (Handler.mk 6))
      Ledger.start bertUpload := by
  intro hplaced
  obtain ⟨-, hrest⟩ := hplaced
  obtain ⟨hsecond, -⟩ := hrest _ rfl
  have hroute : route bertRest (logsSession 1) = .post .logs := by
    decide +kernel
  have hrefused := (hsecond .logs ⟨1, false, 6⟩ hroute (by decide +kernel)).1
    (by decide +kernel)
  rw [dispatch_refused_iff 2 .tcp hroute] at hrefused
  have hbody : (assembleBody 2 bertRest (logsSession 1) UploadLeaf.logs.name
      ((Handler.mk 6).record Ledger.start
        (.serve 1 bertStart (logsSession 1) .tcp)).map).1 =
      .complete (bertStart.payload ++ bertRest.payload) := by
    decide +kernel
  rw [hbody] at hrefused
  exact hrefused

end Handler

end Loft
