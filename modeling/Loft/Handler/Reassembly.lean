import Mathlib.Data.List.Induction
import Loft.Handler.Routing

namespace Loft

open Loft.Data
open Loft.Coap

/-! Block1 reassembly over whole histories: sweeps and requests of any
connections in any order. The log keeps, for every request with a decodable
Block1 option that reached `assemble_body`, what it carried and what it got. -/

namespace Handler

inductive Event
  | sweep (now : Instant)
  | serve (now : Instant) (req : Message) (session : DeviceSession)
      (transport : Transport)

def step (h : Handler) (map : Block1Table) : Event → Block1Table
  | .sweep now => sweepBlock1 now map
  | .serve now req session transport =>
      (h.dispatch now req session transport map).2

def tableAfter (h : Handler) (events : List Event) : Block1Table :=
  events.foldl h.step ∅

structure Assembly where
  key : Block1Key
  block : Block
  payload : Octets
  outcome : BodyState
  deriving DecidableEq, Repr

namespace Assembly

def Continued (a : Assembly) : Prop :=
  ∃ msg, a.outcome = .interim msg ∧ msg.code = Code.continue_

def num (a : Assembly) : Nat :=
  a.block.num.toNat

end Assembly

def assemblyOf (map : Block1Table) : Event → Option Assembly
  | .sweep _ => none
  | .serve now req session _ =>
      match route req session, block1Of req with
      | .post leaf, some b =>
          some {
            key := (session.connId, leaf.name)
            block := b
            payload := req.payload
            outcome := (assembleBody now req session leaf.name map).1 }
      | _, _ => none

def assembliesFrom (h : Handler) : Block1Table → List Event → List Assembly
  | _, [] => []
  | map, event :: events =>
      (assemblyOf map event).toList ++ h.assembliesFrom (h.step map event) events

def assemblies (h : Handler) (events : List Event) : List Assembly :=
  h.assembliesFrom ∅ events

theorem tableAfter_concat (h : Handler) (events : List Event) (event : Event) :
    h.tableAfter (events ++ [event]) = h.step (h.tableAfter events) event := by
  simp [tableAfter]

/-- An uninterrupted call is its sweep followed by its one atomic rest. -/
theorem handle_eq_steps (h : Handler)
    (upstream : DeviceRequest → UpstreamResult) (now : Instant)
    (req : Message) (session : DeviceSession) (transport : Transport)
    (map : Block1Table) :
    (h.handle upstream now req session transport map).1 =
        (h.dispatch now req session transport
          (sweepBlock1 now map)).1.upstream.toList ∧
      (h.handle upstream now req session transport map).2.2 =
        [.sweep now, .serve now req session transport].foldl h.step map := by
  rw [handle_eq]
  exact ⟨outcome_fst upstream _, rfl⟩

theorem assembliesFrom_concat (h : Handler) (map : Block1Table)
    (events : List Event) (event : Event) :
    h.assembliesFrom map (events ++ [event]) =
      h.assembliesFrom map events ++
        (assemblyOf (events.foldl h.step map) event).toList := by
  induction events generalizing map with
  | nil => simp [assembliesFrom]
  | cons first events ih =>
      simp only [List.cons_append, assembliesFrom, ih, List.foldl_cons,
        List.append_assoc]

theorem assemblies_concat (h : Handler) (events : List Event) (event : Event) :
    h.assemblies (events ++ [event]) =
      h.assemblies events ++ (assemblyOf (h.tableAfter events) event).toList :=
  h.assembliesFrom_concat ∅ events event

/-! What one `assemble_body` does to its key, and to no other. -/

theorem appendBlock_frame {now : Instant} {req : Message} {b : Block}
    {key key' : Block1Key} {map : Block1Table} (hkey : key' ≠ key) :
    (appendBlock now req b key map).2.lookup key' = map.lookup key' := by
  unfold appendBlock
  cases map.lookup key with
  | none => rfl
  | some entry =>
      dsimp only
      split_ifs <;>
        simp [AList.lookup_erase_ne hkey, AList.lookup_insert_ne hkey]

theorem assembleBody_frame {now : Instant} {req : Message}
    {session : DeviceSession} {leaf : String} {key' : Block1Key}
    {map : Block1Table} (hkey : key' ≠ (session.connId, leaf)) :
    (assembleBody now req session leaf map).2.lookup key' =
      map.lookup key' := by
  unfold assembleBody
  cases block1Of req with
  | none => rfl
  | some b =>
      dsimp only
      split_ifs
      · rw [appendBlock_frame hkey]
      · rfl
      · rw [appendBlock_frame hkey, AList.lookup_insert_ne hkey]

/-- The entry that block `b` continues: the one held, or a fresh one. -/
def Prior (map : Block1Table) (key : Block1Key) (b : Block)
    (entry : Reassembly) : Prop :=
  entry.nextNum = b.num ∧
    (map.lookup key = some entry ∨ entry.nextNum = 0 ∧ entry.data = [])

inductive Assembled (now : Instant) (map : Block1Table) (key : Block1Key)
    (b : Block) (payload : Octets) : BodyState × Block1Table → Prop
  | refused {msg : Message} {map' : Block1Table} :
      map'.lookup key = none →
      Assembled now map key b payload (.interim msg, map')
  | continued {entry : Reassembly} {msg : Message} {map' : Block1Table} :
      b.more = true → Prior map key b entry → msg.code = Code.continue_ →
      map'.lookup key = some {
        data := entry.data ++ payload
        nextNum := b.num + 1
        touched := now } →
      Assembled now map key b payload (.interim msg, map')
  | completed {entry : Reassembly} {map' : Block1Table} :
      b.more = false → Prior map key b entry → map'.lookup key = none →
      Assembled now map key b payload
        (.complete (entry.data ++ payload), map')

private theorem appendBlock_assembled {now : Instant} {req : Message}
    {b : Block} {key : Block1Key} {map current : Block1Table}
    (hprior : ∀ entry, current.lookup key = some entry →
      entry.nextNum = b.num → Prior map key b entry) :
    Assembled now map key b req.payload (appendBlock now req b key current) := by
  unfold appendBlock
  cases hentry : current.lookup key with
  | none => exact .refused hentry
  | some entry =>
      dsimp only
      split_ifs with hnum hlarge hmore
      · exact .refused (AList.lookup_erase key current)
      · exact .refused (AList.lookup_erase key current)
      · rw [not_not] at hnum
        refine .continued hmore (hprior entry hentry hnum) rfl ?_
        rw [AList.lookup_insert, hnum]
      · rw [not_not] at hnum
        exact .completed (by simpa using hmore) (hprior entry hentry hnum)
          (AList.lookup_erase key current)

theorem assembleBody_assembled (now : Instant) (session : DeviceSession)
    (leaf : String) (map : Block1Table) {req : Message} {b : Block}
    (hblock : block1Of req = some b) :
    Assembled now map (session.connId, leaf) b req.payload
      (assembleBody now req session leaf map) := by
  unfold assembleBody
  rw [hblock]
  dsimp only
  split_ifs with hnum hfull
  · exact appendBlock_assembled fun entry hentry hnext => ⟨hnext, .inl hentry⟩
  · exact .refused (AList.lookup_eq_none.mpr hfull.1)
  · apply appendBlock_assembled
    intro entry hentry hnext
    rw [AList.lookup_insert, Option.some.injEq] at hentry
    subst hentry
    exact ⟨hnext, .inr ⟨rfl, rfl⟩⟩

/-! The invariant: an entry is exactly the tail of its key's own log. -/

/-- `data` is what the last `count` assemblies on `key` carried, each of them
answered 2.31, with block numbers from 0 on. -/
def Uploaded (log : List Assembly) (key : Block1Key) (count : Nat)
    (data : Octets) : Prop :=
  ∃ blocks, blocks <:+ (log.filter fun a => a.key = key) ∧
    blocks.map Assembly.num = List.range count ∧
    (∀ a ∈ blocks, a.Continued) ∧
    data = blocks.flatMap Assembly.payload

def Faithful (log : List Assembly) (map : Block1Table) : Prop :=
  ∀ key entry, map.lookup key = some entry →
    Uploaded log key entry.nextNum.toNat entry.data

theorem Uploaded.nothing (log : List Assembly) (key : Block1Key) :
    Uploaded log key 0 [] :=
  ⟨[], List.nil_suffix, rfl, by simp, rfl⟩

theorem Uploaded.other {log : List Assembly} {key : Block1Key} {count : Nat}
    {data : Octets} (hheld : Uploaded log key count data) {a : Assembly}
    (hkey : a.key ≠ key) : Uploaded (log ++ [a]) key count data := by
  obtain ⟨blocks, hsuffix, hrest⟩ := hheld
  refine ⟨blocks, ?_, hrest⟩
  simpa [List.filter_append, hkey] using hsuffix

theorem filter_concat_key (log : List Assembly) (a : Assembly) :
    ((log ++ [a]).filter fun a' => a'.key = a.key) =
      (log.filter fun a' => a'.key = a.key) ++ [a] := by
  simp [List.filter_append]

theorem suffix_concat {blocks log : List Assembly} (a : Assembly)
    (hsuffix : blocks <:+ log) : blocks ++ [a] <:+ log ++ [a] := by
  obtain ⟨front, rfl⟩ := hsuffix
  exact ⟨front, by simp⟩

theorem Uploaded.next {log : List Assembly} {count : Nat} {data : Octets}
    {a : Assembly} (hheld : Uploaded log a.key count data)
    (hnum : a.num = count) (hcontinued : a.Continued) :
    Uploaded (log ++ [a]) a.key (count + 1) (data ++ a.payload) := by
  obtain ⟨blocks, hsuffix, hnums, hall, rfl⟩ := hheld
  refine ⟨blocks ++ [a], ?_, ?_, ?_, ?_⟩
  · rw [filter_concat_key]
    exact suffix_concat a hsuffix
  · rw [List.map_append, hnums, List.range_succ, List.map_singleton, hnum]
  · intro a' hmem
    rcases List.mem_append.mp hmem with hold | hnew
    · exact hall a' hold
    · rw [List.mem_singleton.mp hnew]
      exact hcontinued
  · simp

theorem Faithful.empty : Faithful [] ∅ := by
  intro key entry hentry
  simp at hentry

theorem Faithful.sweep {log : List Assembly} {map : Block1Table}
    (hmap : Faithful log map) (now : Instant) :
    Faithful log (sweepBlock1 now map) := by
  intro key entry hentry
  rw [sweepBlock1, Table.lookup_retain, Option.filter_eq_some_iff] at hentry
  exact hmap key entry hentry.1

theorem Faithful.prior {log : List Assembly} {map : Block1Table}
    {key : Block1Key} {b : Block} {entry : Reassembly}
    (hmap : Faithful log map) (hprior : Prior map key b entry) :
    Uploaded log key b.num.toNat entry.data := by
  obtain ⟨hnext, hheld | ⟨hzero, hdata⟩⟩ := hprior
  · rw [← hnext]
    exact hmap key entry hheld
  · rw [← hnext, hzero, hdata]
    exact Uploaded.nothing log key

theorem block1Of_num_lt {req : Message} {b : Block}
    (hblock : block1Of req = some b) : b.num.toNat < 2 ^ 28 := by
  obtain ⟨value, -, hdecode⟩ := Option.bind_eq_some_iff.mp hblock
  exact Block.decode_num_lt hdecode

theorem next_num {req : Message} {b : Block}
    (hblock : block1Of req = some b) :
    (b.num + 1).toNat = b.num.toNat + 1 := by
  have hlt := block1Of_num_lt hblock
  rw [UInt32.toNat_add]
  simp only [UInt32.toNat_one]
  omega

theorem Faithful.assemble {log : List Assembly} {map : Block1Table}
    {now : Instant} {req : Message} {session : DeviceSession} {leaf : String}
    {b : Block} (hmap : Faithful log map) (hblock : block1Of req = some b) :
    Faithful
      (log ++ [{
        key := (session.connId, leaf)
        block := b
        payload := req.payload
        outcome := (assembleBody now req session leaf map).1 }])
      (assembleBody now req session leaf map).2 := by
  intro key' entry' hentry'
  by_cases hkey : key' = (session.connId, leaf)
  · subst hkey
    have hresult := assembleBody_assembled now session leaf map hblock
    generalize assembleBody now req session leaf map = result at hresult hentry'
    cases hresult with
    | refused hnone => simp [hnone] at hentry'
    | completed hlast hprior hnone => simp [hnone] at hentry'
    | continued hmore hprior hcode hsome =>
        rw [hsome, Option.some.injEq] at hentry'
        subst hentry'
        rw [next_num hblock]
        exact Uploaded.next (a := {
          key := (session.connId, leaf)
          block := b
          payload := req.payload
          outcome := _ }) (hmap.prior hprior) rfl ⟨_, rfl, hcode⟩
  · rw [assembleBody_frame hkey] at hentry'
    exact (hmap key' entry' hentry').other fun hsame => hkey hsame.symm

theorem dispatch_table (h : Handler) (now : Instant) (req : Message)
    (session : DeviceSession) (transport : Transport) (map : Block1Table) :
    (h.dispatch now req session transport map).2 =
      match route req session with
      | .post leaf => (assembleBody now req session leaf.name map).2
      | _ => map := by
  unfold dispatch
  cases route req session with
  | refused reply => rfl
  | getShadow => rfl
  | getFirmware => rfl
  | post leaf =>
      dsimp only
      rcases assembleBody now req session leaf.name map with ⟨_ | _, _⟩ <;> rfl

theorem Faithful.step {h : Handler} {log : List Assembly} {map : Block1Table}
    (hmap : Faithful log map) (event : Event) :
    Faithful (log ++ (assemblyOf map event).toList) (h.step map event) := by
  cases event with
  | sweep now => simpa [assemblyOf, Handler.step] using hmap.sweep now
  | serve now req session transport =>
      rw [Handler.step, dispatch_table, assemblyOf]
      cases route req session with
      | refused reply => simpa using hmap
      | getShadow => simpa using hmap
      | getFirmware => simpa using hmap
      | post leaf =>
          cases hblock : block1Of req with
          | none => simpa [assembleBody, hblock] using hmap
          | some b => exact hmap.assemble hblock

theorem faithful_run (h : Handler) (events : List Event) :
    Faithful (h.assemblies events) (h.tableAfter events) := by
  induction events using List.reverseRecOn with
  | nil => exact Faithful.empty
  | append_singleton events event ih =>
      rw [tableAfter_concat, assemblies_concat]
      exact ih.step event

theorem dispatch_post_call {h : Handler} {now : Instant} {req : Message}
    {session : DeviceSession} {transport : Transport} {map : Block1Table}
    {request : DeviceRequest} (hpost : req.code = Code.post)
    (hcall : (h.dispatch now req session transport map).1.upstream =
      some request) :
    ∃ leaf body, route req session = .post leaf ∧
      (assembleBody now req session leaf.name map).1 = .complete body ∧
      request = upstreamCall session .post leaf.name none
        (some (body, leaf.contentType)) := by
  have hget : ∀ leaf, (route req session).asks ≠ some (.get, leaf) := by
    intro leaf hasks
    have hcode := (route_asks_iff.mp hasks).served.get
    rw [hpost] at hcode
    exact absurd hcode (by decide)
  cases hroute : route req session with
  | refused reply => simp [dispatch, hroute, Action.upstream] at hcall
  | getShadow => exact absurd (by rw [hroute]; rfl) (hget "shadow")
  | getFirmware => exact absurd (by rw [hroute]; rfl) (hget "firmware")
  | post leaf =>
      obtain ⟨body, hbody, hrequest⟩ := dispatch_post_upstream hroute hcall
      exact ⟨leaf, body, rfl, hbody, hrequest⟩

/-- After any history, the body that a POST with a decodable Block1 option
sends upstream is what the last `n + 1` assemblies on its own key carried,
numbered `0` to `n`, all but the last of them answered 2.31. -/
theorem upstream_body_assembled (h : Handler) (events : List Event)
    (now : Instant) (req : Message) (session : DeviceSession)
    (transport : Transport) (b : Block) (request : DeviceRequest)
    (hpost : req.code = Code.post) (hblock : block1Of req = some b)
    (hcall : (h.dispatch now req session transport
      (h.tableAfter events)).1.upstream = some request) :
    ∃ (leaf : UploadLeaf) (body : Octets) (blocks : List Assembly)
      (last : Assembly),
      request = upstreamCall session .post leaf.name none
        (some (body, leaf.contentType)) ∧
      blocks ++ [last] <:+
        (h.assemblies (events ++ [.serve now req session transport])).filter
          (fun a => a.key = (session.connId, leaf.name)) ∧
      last.block = b ∧ b.more = false ∧ last.payload = req.payload ∧
      last.outcome = .complete body ∧
      (blocks ++ [last]).map Assembly.num = List.range (b.num.toNat + 1) ∧
      (∀ a ∈ blocks, a.Continued) ∧
      body = (blocks ++ [last]).flatMap Assembly.payload := by
  obtain ⟨leaf, body, hroute, hbody, hrequest⟩ := dispatch_post_call hpost hcall
  have hresult := assembleBody_assembled now session leaf.name
    (h.tableAfter events) hblock
  generalize hreturned : assembleBody now req session leaf.name
    (h.tableAfter events) = result at hbody hresult
  cases hresult with
  | refused hnone => cases hbody
  | continued hmore hprior hcode hsome => cases hbody
  | @completed entry _ hlast hprior hnone =>
      cases hbody
      obtain ⟨blocks, hsuffix, hnums, hall, hdata⟩ :=
        (faithful_run h events).prior hprior
      let last : Assembly := {
        key := (session.connId, leaf.name)
        block := b
        payload := req.payload
        outcome := .complete (entry.data ++ req.payload) }
      have hlog : h.assemblies (events ++ [.serve now req session transport]) =
          h.assemblies events ++ [last] := by
        rw [assemblies_concat, assemblyOf, hroute, hblock]
        simp only [hreturned, Option.toList_some, last]
      refine ⟨leaf, _, blocks, last, hrequest, ?_, rfl, hlast, rfl, rfl, ?_,
        hall, ?_⟩
      · rw [hlog, filter_concat_key _ last]
        exact suffix_concat last hsuffix
      · rw [List.map_append, hnums, List.range_succ]
        rfl
      · simp [hdata, last]

def logsBlock (b : Block) (payload : Octets) : Message where
  code := Code.post
  options := ["device", "pigeons", "p", "logs"].map
      (fun segment => (OptionNumber.uriPath, asBytes segment)) ++
    [(OptionNumber.block1, encodeUint b.encode)]
  payload := payload

def logsSession (connId : ConnId) : DeviceSession where
  pigeonId := "p"
  token := "t"
  connId := connId

def twoUploads : List Event :=
  [.serve 1 (logsBlock ⟨0, true, 0⟩ [0xAA]) (logsSession 1) .udp,
    .serve 2 (logsBlock ⟨0, true, 0⟩ [0xEE]) (logsSession 2) .udp,
    .sweep 3]

theorem upstream_body_assembled_twoUploads :
    ∃ (leaf : UploadLeaf) (body : Octets) (blocks : List Assembly)
      (last : Assembly),
      upstreamCall (logsSession 1) .post "logs" none
        (some ([0xAA, 0xBB], "application/octet-stream")) =
          upstreamCall (logsSession 1) .post leaf.name none
            (some (body, leaf.contentType)) ∧
      blocks ++ [last] <:+
        ((Handler.mk 6).assemblies (twoUploads ++ [.serve 4
          (logsBlock ⟨1, false, 0⟩ [0xBB]) (logsSession 1) .udp])).filter
            (fun a => a.key = ((logsSession 1).connId, leaf.name)) ∧
      last.block = ⟨1, false, 0⟩ ∧ Block.more ⟨1, false, 0⟩ = false ∧
      last.payload = [0xBB] ∧
      last.outcome = .complete body ∧
      (blocks ++ [last]).map Assembly.num = List.range (1 + 1) ∧
      (∀ a ∈ blocks, a.Continued) ∧
      body = (blocks ++ [last]).flatMap Assembly.payload :=
  upstream_body_assembled (Handler.mk 6) twoUploads 4
    (logsBlock ⟨1, false, 0⟩ [0xBB]) (logsSession 1) .udp ⟨1, false, 0⟩ _
    rfl (by decide +kernel) (by decide +kernel)

end Handler

end Loft
