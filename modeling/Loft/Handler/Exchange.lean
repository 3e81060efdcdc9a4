import Loft.Handler.Completion

namespace Loft

open Loft.Data
open Loft.Coap

/-! Exchanges of requests and responses in any interleaving: what each of them
did upstream, and which ask only for the rest of an answer. -/

namespace Handler

structure Exchange where
  req : Message
  session : DeviceSession
  arrived : Instant
  /-- A sweep has come since, later than the idle timeout allows. -/
  idled : Bool
  /-- Asks for the rest of a response given before it arrived. -/
  followUp : Bool
  /-- Is an upload, or the last block of one. -/
  completed : Bool
  action : Action
  reply : Option Message

def Action.posts : Action → Bool
  | .reply _ => false
  | .call request _ => request.method == .post

def Action.immediate : Action → Option Message
  | .reply msg => some msg
  | .call _ _ => none

def jsonPost (req : Message) (session : DeviceSession) : Bool :=
  req.code == Code.post &&
    (req.pathSegments == ["device", "pigeons", session.pigeonId, "shadow"] ||
      req.pathSegments ==
        ["device", "pigeons", session.pigeonId, "telemetry"])

namespace Exchange

/-- Answered 2.xx with the more bit of Block2 set. -/
def leavesMore (x : Exchange) : Bool :=
  match x.reply with
  | some reply => Code.cls reply.code == 2 && (block2Of reply).any Block.more
  | none => false

/-- Whether `req` asks for a later block of what answers `x`. -/
def restAsked (x : Exchange) (req : Message) (session : DeviceSession) : Bool :=
  x.session == session && jsonPost x.req x.session && x.leavesMore &&
    req.code == Code.post && req.pathSegments == x.req.pathSegments &&
    req.firstOption OptionNumber.block1 == none &&
    (block2Of req).any fun b => b.num != 0

def answered (x : Exchange) (resp : UpstreamResult) : Exchange :=
  match x.action, x.reply with
  | .call _ finish, none => { x with reply := some (finish resp) }
  | _, _ => x

end Exchange

/-- The block of an upload that the request is. -/
def Exchange.sentBlock (x : Exchange) : Option SentBlock :=
  match route x.req x.session, block1Of x.req with
  | .post leaf, some b =>
      some {
        key := (x.session.connId, leaf.name)
        block := b
        size := x.req.payload.length
        sentAt := x.arrived
        continued := x.action.immediate.any fun msg =>
          msg.code == Code.continue_
        idled := x.idled }
  | _, _ => none

def Exchange.aged (now : Instant) (x : Exchange) : Exchange :=
  { x with
    idled := x.idled ||
      decide (block1IdleTimeout ≤ now.durationSince x.arrived) }

structure History where
  map : Block1Table
  past : List Exchange

def History.sent (s : History) : List SentBlock :=
  s.past.filterMap Exchange.sentBlock

/-- A POST that is let through is an upload by itself where it has no Block1,
and else the last of one where its block is. A block that cannot be read is
neither. -/
def completesUpload (sent : List SentBlock) (req : Message)
    (session : DeviceSession) : Bool :=
  match route req session with
  | .post leaf =>
      if req.firstOption OptionNumber.block1 = none then true
      else
        match block1Of req with
        | some b => decide (Completes sent (session.connId, leaf.name) b
            req.payload.length)
        | none => false
  | _ => false

inductive Turn
  | sweep (now : Instant)
  | arrive (now : Instant) (req : Message) (session : DeviceSession)
      (transport : Transport)
  | answer (i : Nat) (resp : UpstreamResult)

def arrival (h : Handler) (s : History) (now : Instant) (req : Message)
    (session : DeviceSession) (transport : Transport) : Exchange :=
  let action := (h.dispatch now req session transport s.map).1
  { req := req
    session := session
    arrived := now
    idled := false
    followUp := s.past.any fun x => x.restAsked req session
    completed := completesUpload s.sent req session
    action := action
    reply := action.immediate }

def turn (h : Handler) (s : History) : Turn → History
  | .sweep now =>
      { map := sweepBlock1 now s.map, past := s.past.map (Exchange.aged now) }
  | .arrive now req session transport =>
      { map := (h.dispatch now req session transport s.map).2
        past := s.past ++ [h.arrival s now req session transport] }
  | .answer i resp =>
      match s.past[i]? with
      | some x => { s with past := s.past.set i (x.answered resp) }
      | none => s

def play (h : Handler) (turns : List Turn) : History :=
  turns.foldl h.turn { map := ∅, past := [] }

/-- An uninterrupted call is its sweep and its arrival, answered at once. -/
theorem handle_eq_turns (h : Handler)
    (upstream : DeviceRequest → UpstreamResult) (now : Instant) (req : Message)
    (session : DeviceSession) (transport : Transport) (s : History) :
    let handled := h.handle upstream now req session transport s.map
    let after := [.sweep now, .arrive now req session transport].foldl h.turn s
    after.map = handled.2.2 ∧
      ∃ x, after.past = s.past.map (Exchange.aged now) ++ [x] ∧
        x.action.outcome upstream = (handled.1, handled.2.1) := by
  rw [handle_eq]
  exact ⟨rfl, _, rfl, rfl⟩

/-- No follow-up is posted upstream, and each completed upload is once. -/
def NotRepeated (past : List Exchange) : Prop :=
  (∀ x ∈ past, x.followUp = true → x.action.posts = false) ∧
    past.countP (fun x => x.action.posts) =
      past.countP fun x => x.completed && !x.followUp

instance (past : List Exchange) : Decidable (NotRepeated past) :=
  inferInstanceAs (Decidable (_ ∧ _))

/-! The blocks that have come in, and the table. -/

theorem sentBlock_aged (now : Instant) (x : Exchange) :
    (x.aged now).sentBlock = x.sentBlock.map (SentBlock.aged now) := by
  unfold Exchange.sentBlock Exchange.aged
  dsimp only
  split <;> rfl

theorem sentBlock_answered (x : Exchange) (resp : UpstreamResult) :
    (x.answered resp).sentBlock = x.sentBlock := by
  unfold Exchange.answered
  split <;> rfl

theorem sent_sweep (h : Handler) (s : History) (now : Instant) :
    (h.turn s (.sweep now)).sent = s.sent.map (SentBlock.aged now) := by
  simp only [History.sent, turn, List.filterMap_map, List.map_filterMap]
  exact List.filterMap_congr fun x _ => sentBlock_aged now x

theorem sent_answer (h : Handler) (s : History) (i : Nat)
    (resp : UpstreamResult) : (h.turn s (.answer i resp)).sent = s.sent := by
  rw [turn]
  cases hx : s.past[i]? with
  | none => rfl
  | some x =>
      obtain ⟨hlt, hget⟩ := List.getElem?_eq_some_iff.mp hx
      have hsplit : s.past = s.past.take i ++ x :: s.past.drop (i + 1) := by
        rw [← hget, List.getElem_cons_drop, List.take_append_drop]
      simp only [History.sent]
      rw [List.set_eq_take_append_cons_drop, if_pos hlt]
      conv_rhs => rw [hsplit]
      simp only [List.filterMap_append, List.filterMap_cons,
        sentBlock_answered]

theorem sent_arrive (h : Handler) (s : History) (now : Instant) (req : Message)
    (session : DeviceSession) (transport : Transport) :
    (h.turn s (.arrive now req session transport)).sent =
      s.sent ++ (h.arrival s now req session transport).sentBlock.toList := by
  simp only [History.sent, turn, List.filterMap_append]
  rw [List.filterMap_cons]
  cases (h.arrival s now req session transport).sentBlock <;> rfl

/-- A block is answered as `assemble_body` says. -/
theorem continued_arrival (h : Handler) (s : History) (now : Instant)
    {req : Message} {session : DeviceSession} (transport : Transport)
    {leaf : UploadLeaf} (hroute : route req session = .post leaf) :
    ((h.arrival s now req session transport).action.immediate.any fun msg =>
      msg.code == Code.continue_) =
        acknowledges (assembleBody now req session leaf.name s.map).1 := by
  rw [arrival, h.dispatch_post now transport s.map hroute]
  cases (assembleBody now req session leaf.name s.map).1 <;> rfl

theorem tracks_arrive (h : Handler) {s : History}
    (hs : Tracks s.sent s.map) (now : Instant) (req : Message)
    (session : DeviceSession) (transport : Transport) :
    Tracks (h.turn s (.arrive now req session transport)).sent
      (h.turn s (.arrive now req session transport)).map := by
  have hmap : (h.turn s (.arrive now req session transport)).map =
      (h.dispatch now req session transport s.map).2 := rfl
  rw [sent_arrive, hmap, dispatch_table, Exchange.sentBlock]
  have hreq : (h.arrival s now req session transport).req = req := rfl
  have hsession : (h.arrival s now req session transport).session = session :=
    rfl
  rw [hreq, hsession]
  cases hroute : route req session with
  | post leaf =>
      cases hblock : block1Of req with
      | none => simpa [assembleBody, hblock] using hs
      | some b =>
          dsimp only
          rw [h.continued_arrival s now transport hroute]
          exact hs.block now hblock
  | refused reply => simpa using hs
  | getShadow => simpa using hs
  | getFirmware => simpa using hs

theorem tracks_turn (h : Handler) {s : History} (hs : Tracks s.sent s.map)
    (t : Turn) : Tracks (h.turn s t).sent (h.turn s t).map := by
  cases t with
  | sweep now =>
      rw [sent_sweep]
      exact hs.sweep now
  | arrive now req session transport =>
      exact h.tracks_arrive hs now req session transport
  | answer i resp =>
      rw [sent_answer]
      have hmap : (h.turn s (.answer i resp)).map = s.map := by
        rw [turn]
        split <;> rfl
      rw [hmap]
      exact hs

/-! What is true of each exchange by itself. -/

/-- A request that is posted though its block cannot be read. -/
def Misread (req : Message) (session : DeviceSession) : Prop :=
  TooLong req OptionNumber.block1 ∧ ∃ leaf, Admitted req session .post leaf

structure Exchange.Sound (x : Exchange) : Prop where
  posts : x.action.posts = true ↔
    x.completed = true ∨ Misread x.req x.session
  readable : x.completed = true → ¬ Misread x.req x.session
  rest : x.followUp = true → (x.action.posts = true ↔ Understood x.req)

theorem tooLong_of_unreadable {req : Message}
    (hsome : req.firstOption OptionNumber.block1 ≠ none)
    (hnone : block1Of req = none) : TooLong req OptionNumber.block1 := by
  obtain ⟨value, hvalue⟩ := Option.ne_none_iff_exists'.mp hsome
  refine ⟨value, hvalue, ?_⟩
  by_contra hshort
  rw [block1Of, Message.optionUint, hvalue] at hnone
  dsimp only at hnone
  rw [if_neg hshort] at hnone
  cases hnone

theorem admitted_of_route {req : Message} {session : DeviceSession}
    {leaf : UploadLeaf} (hroute : route req session = .post leaf) :
    Admitted req session .post leaf.name := by
  apply route_asks_iff.mp
  rw [hroute]
  rfl

/-- Exactly the requests that complete an upload are posted, and those with a
block that cannot be read. -/
theorem posts_iff (h : Handler) {sent : List SentBlock} {map : Block1Table}
    (hs : Tracks sent map) (now : Instant) (req : Message)
    (session : DeviceSession) (transport : Transport) :
    (h.dispatch now req session transport map).1.posts = true ↔
      completesUpload sent req session = true ∨ Misread req session := by
  cases hroute : route req session with
  | post leaf =>
      have hmisread : Misread req session ↔ TooLong req OptionNumber.block1 :=
        and_iff_left ⟨_, admitted_of_route hroute⟩
      have hposts : (h.dispatch now req session transport map).1.posts =
          true ↔ ∃ body, (assembleBody now req session leaf.name map).1 =
            .complete body := by
        rw [h.dispatch_post now transport map hroute]
        cases (assembleBody now req session leaf.name map).1 with
        | complete body => exact iff_of_true rfl ⟨body, rfl⟩
        | interim msg =>
            refine iff_of_false Bool.false_ne_true ?_
            rintro ⟨body, hbody⟩
            cases hbody
      rw [hposts, hmisread, completesUpload, hroute]
      dsimp only
      split_ifs with hfirst
      · refine iff_of_true ⟨req.payload, ?_⟩ (.inl rfl)
        rw [assembleBody, block1Of, Message.optionUint, hfirst]
        rfl
      · cases hblock : block1Of req with
        | none =>
            refine iff_of_true ⟨req.payload, ?_⟩
              (.inr (tooLong_of_unreadable hfirst hblock))
            rw [assembleBody, hblock]
        | some b =>
            rw [hs.assembleBody_complete_iff now session leaf.name hblock]
            dsimp only
            rw [decide_eq_true_eq]
            refine (or_iff_left fun hlong => ?_).symm
            rw [hlong.block1Of] at hblock
            cases hblock
  | refused reply | getShadow | getFirmware =>
      have hmisread : ¬ Misread req session := by
        intro hmisread
        obtain ⟨-, leaf, hadmitted⟩ := hmisread
        obtain ⟨leaf', -, hroute'⟩ := route_post hadmitted
        rw [hroute'] at hroute
        cases hroute
      rw [dispatch, hroute, completesUpload, hroute]
      refine iff_of_false Bool.false_ne_true ?_
      exact not_or.mpr ⟨Bool.false_ne_true, hmisread⟩

/-- Without Block1 every POST that is let through is an upload. -/
theorem completesUpload_iff_understood {req : Message} {session : DeviceSession}
    {leaf : UploadLeaf} (hserved : Served req.code .post leaf.name)
    (hpath : req.pathSegments =
      ["device", "pigeons", session.pigeonId, leaf.name])
    (hfirst : req.firstOption OptionNumber.block1 = none)
    (sent : List SentBlock) :
    completesUpload sent req session = true ↔ Understood req := by
  unfold completesUpload
  constructor
  · intro hcompletes
    cases hroute : route req session with
    | post leaf' => exact (admitted_of_route hroute).understood
    | _ => simp [hroute] at hcompletes
  · intro hunderstood
    have hroute : route req session = .post leaf :=
      route_eq ⟨hunderstood, hpath, hserved⟩ rfl
    simp [hroute, hfirst]

theorem restAsked_block1 {x : Exchange} {req : Message}
    {session : DeviceSession} (hrest : x.restAsked req session = true) :
    req.firstOption OptionNumber.block1 = none := by
  simp only [Exchange.restAsked, Bool.and_eq_true, beq_iff_eq] at hrest
  exact hrest.1.2

theorem completesUpload_of_restAsked {x : Exchange} {req : Message}
    {session : DeviceSession} (hrest : x.restAsked req session = true)
    (sent : List SentBlock) :
    completesUpload sent req session = true ↔ Understood req := by
  have hfirst := restAsked_block1 hrest
  simp only [Exchange.restAsked, jsonPost, Bool.and_eq_true, Bool.or_eq_true,
    beq_iff_eq] at hrest
  obtain ⟨⟨⟨⟨⟨⟨hsession, hjson⟩, -⟩, hcode⟩, hpath⟩, -⟩, -⟩ := hrest
  rw [hsession, ← hpath] at hjson
  rcases hjson.2 with hshadow | htelemetry
  · have hserved : Served req.code .post UploadLeaf.shadow.name :=
      hcode ▸ .postShadow
    exact completesUpload_iff_understood hserved hshadow hfirst sent
  · have hserved : Served req.code .post UploadLeaf.telemetry.name :=
      hcode ▸ .postTelemetry
    exact completesUpload_iff_understood hserved htelemetry hfirst sent

theorem Misread.not_restAsked {req : Message} {session : DeviceSession}
    (h : Misread req session) (x : Exchange) :
    x.restAsked req session = false := by
  rw [← Bool.not_eq_true]
  intro hrest
  obtain ⟨⟨value, hvalue, -⟩, -⟩ := h
  rw [restAsked_block1 hrest] at hvalue
  cases hvalue

theorem Misread.not_completesUpload {req : Message} {session : DeviceSession}
    (h : Misread req session) (sent : List SentBlock) :
    completesUpload sent req session = false := by
  obtain ⟨⟨value, hvalue, hlong⟩, leaf, hadmitted⟩ := h
  obtain ⟨leaf', -, hroute⟩ := route_post hadmitted
  have hblock := TooLong.block1Of ⟨value, hvalue, hlong⟩
  simp [completesUpload, hroute, hvalue, hblock]

theorem Exchange.Sound.answered {x : Exchange} (hx : x.Sound)
    (resp : UpstreamResult) : (x.answered resp).Sound := by
  unfold Exchange.answered
  split
  · exact ⟨hx.posts, hx.readable, hx.rest⟩
  · exact hx

theorem sound_turn (h : Handler) {s : History} (hmap : Tracks s.sent s.map)
    (hs : ∀ x ∈ s.past, x.Sound) (t : Turn) :
    ∀ x ∈ (h.turn s t).past, x.Sound := by
  cases t with
  | sweep now =>
      intro x hmem
      obtain ⟨y, hy, rfl⟩ := List.mem_map.mp hmem
      exact ⟨(hs y hy).posts, (hs y hy).readable, (hs y hy).rest⟩
  | arrive now req session transport =>
      intro x hmem
      rcases List.mem_append.mp hmem with hold | hnew
      · exact hs x hold
      · have hposts := h.posts_iff hmap now req session transport
        rw [List.mem_singleton.mp hnew]
        refine ⟨hposts, ?_, ?_⟩
        · intro hcompleted hmisread
          have hnone := hmisread.not_completesUpload s.sent
          exact Bool.false_ne_true (hnone.symm.trans hcompleted)
        · intro hfollow
          obtain ⟨y, -, hrest⟩ := List.any_eq_true.mp hfollow
          refine hposts.trans ?_
          rw [completesUpload_of_restAsked hrest]
          refine or_iff_left fun hmisread => ?_
          rw [hmisread.not_restAsked y] at hrest
          cases hrest
  | answer i resp =>
      rw [turn]
      cases hx : s.past[i]? with
      | none => exact hs
      | some x =>
          intro y hmem
          rcases List.mem_or_eq_of_mem_set hmem with hold | hnew
          · exact hs y hold
          · rw [hnew]
            exact (hs x (List.mem_of_getElem? hx)).answered resp

theorem sound_play (h : Handler) (turns : List Turn) :
    Tracks (h.play turns).sent (h.play turns).map ∧
      ∀ x ∈ (h.play turns).past, x.Sound := by
  induction turns using List.reverseRecOn with
  | nil => exact ⟨Tracks.empty, by simp [play]⟩
  | append_singleton turns t ih =>
      rw [play, List.foldl_concat]
      exact ⟨h.tracks_turn ih.1 t, h.sound_turn ih.1 ih.2 t⟩

/-- Where one of two kinds is among the other, they are as many only if they
are the same. -/
theorem of_countP_eq {α : Type} {p q : α → Bool} {xs : List α}
    (hsub : ∀ x ∈ xs, q x = true → p x = true)
    (hcount : xs.countP p = xs.countP q) :
    ∀ x ∈ xs, p x = true → q x = true := by
  have hfiltered : (xs.filter p).filter q = xs.filter q := by
    rw [List.filter_filter]
    refine List.filter_congr fun x hmem => ?_
    rw [Bool.eq_iff_iff, Bool.and_eq_true]
    exact and_iff_left_of_imp (hsub x hmem)
  have hlength : ((xs.filter p).filter q).length = (xs.filter p).length := by
    rw [hfiltered, ← List.countP_eq_length_filter,
      ← List.countP_eq_length_filter, hcount]
  intro x hmem hp
  exact List.length_filter_eq_length_iff.mp hlength x
    (List.mem_filter.mpr ⟨hmem, hp⟩)

/-- Over any history, nothing is posted again for the rest of an answer, and
every completed upload once and nothing else, exactly if no request for the
rest of one gets past the option check and no block that cannot be read gets
past the routes. -/
theorem not_repeated_iff (h : Handler) (turns : List Turn) :
    NotRepeated (h.play turns).past ↔
      ∀ x ∈ (h.play turns).past,
        (x.followUp = true → ¬ Understood x.req) ∧
          ¬ Misread x.req x.session := by
  obtain ⟨-, hsound⟩ := h.sound_play turns
  constructor
  · intro hnot x hmem
    refine ⟨?_, ?_⟩
    · intro hfollow hunderstood
      have hposts := hnot.1 x hmem hfollow
      rw [((hsound x hmem).rest hfollow).mpr hunderstood] at hposts
      cases hposts
    · intro hmisread
      have hcounted := of_countP_eq (fun y hy hcompleted =>
        (hsound y hy).posts.mpr (.inl (Bool.and_eq_true_iff.mp hcompleted).1))
        hnot.2 x hmem ((hsound x hmem).posts.mpr (.inr hmisread))
      exact (hsound x hmem).readable (Bool.and_eq_true_iff.mp hcounted).1
        hmisread
  · intro hall
    have hfollowed : ∀ x ∈ (h.play turns).past, x.followUp = true →
        x.action.posts = false := by
      intro x hmem hfollow
      rw [← Bool.not_eq_true, (hsound x hmem).rest hfollow]
      exact (hall x hmem).1 hfollow
    refine ⟨hfollowed, List.countP_congr fun x hmem => ?_⟩
    have hposts := (hsound x hmem).posts
    rw [or_iff_left (hall x hmem).2] at hposts
    rw [Bool.and_eq_true, ← hposts, Bool.not_eq_true']
    refine (and_iff_left_of_imp fun hposted => ?_).symm
    rw [← Bool.not_eq_true]
    intro hfollow
    rw [hfollowed x hmem hfollow] at hposted
    cases hposted

def shadowPost (block2 : List MessageOption) : Message where
  code := Code.post
  options := ["device", "pigeons", "p", "shadow"].map
      (fun segment => (OptionNumber.uriPath, asBytes segment)) ++ block2

/-- At a ceiling of 16 bytes an answer of 20 goes out in two blocks; block 1
is asked for as RFC 7959 says. -/
def restOfAnswer : List Turn :=
  [.arrive 1 (shadowPost []) (logsSession 1) .udp,
    .answer 0 (.ok { status := 200, body := List.replicate 20 0x20 }),
    .arrive 2 (shadowPost [(OptionNumber.block2, encodeUint 0x10)])
      (logsSession 1) .udp]

theorem restOfAnswer_posts_again :
    ¬ NotRepeated ((Handler.mk 0).play restOfAnswer).past := by
  decide +kernel

end Handler

end Loft
