import Mathlib.Data.List.Basic
import Mathlib.Data.List.TakeWhile
import Loft.Data.Octets

namespace Loft.Data.Uri

/-! Generic URI syntax over octets: the five components and what may stand in
them, dot segments and percent-encoding. -/

def numberSign : UInt8 := 0x23
def percent : UInt8 := 0x25
def fullStop : UInt8 := 0x2E
def slash : UInt8 := 0x2F
def colon : UInt8 := 0x3A
def questionMark : UInt8 := 0x3F
def atSign : UInt8 := 0x40

/-! Components. -/

def before (delimiter : UInt8) (text : Octets) : Octets :=
  text.takeWhile (· != delimiter)

def after (delimiter : UInt8) (text : Octets) : Option Octets :=
  match text.dropWhile (· != delimiter) with
  | [] => none
  | _ :: rest => some rest

def takeScheme (text : Octets) : Option Octets × Octets :=
  let name := text.takeWhile fun c => c != colon && c != slash
  match name, text.dropWhile fun c => c != colon && c != slash with
  | _ :: _, c :: rest => if c = colon then (some name, rest) else (none, text)
  | _, _ => (none, text)

def takeAuthority (text : Octets) : Option Octets × Octets :=
  match text with
  | c :: c' :: rest =>
      if c = slash ∧ c' = slash then
        (some (before slash rest), rest.dropWhile (· != slash))
      else (none, text)
  | _ => (none, text)

structure Components where
  scheme : Option Octets
  authority : Option Octets
  path : Octets
  query : Option Octets
  fragment : Option Octets
  deriving DecidableEq, Repr

def parse (text : Octets) : Components :=
  let identifier := before numberSign text
  let hierarchy := takeScheme (before questionMark identifier)
  let location := takeAuthority hierarchy.2
  { scheme := hierarchy.1
    authority := location.1
    path := location.2
    query := after questionMark identifier
    fragment := after numberSign text }

@[simp] theorem before_of_not_mem {delimiter : UInt8} {text : Octets}
    (hnone : delimiter ∉ text) : before delimiter text = text := by
  rw [before, List.takeWhile_eq_self_iff]
  intro c hc
  simpa using fun heq : c = delimiter => hnone (heq ▸ hc)

@[simp] theorem after_eq_none_iff {delimiter : UInt8} {text : Octets} :
    after delimiter text = none ↔ delimiter ∉ text := by
  unfold after
  cases hrest : text.dropWhile (· != delimiter) with
  | nil =>
      rw [List.dropWhile_eq_nil_iff] at hrest
      simpa using fun hmem => by simpa using hrest delimiter hmem
  | cons c rest =>
      have hmem : c ∈ text := (List.dropWhile_suffix _).subset (by
        rw [hrest]
        exact List.mem_cons_self)
      have hc : c = delimiter := by
        have hhead := List.head_dropWhile_not (· != delimiter) (l := text)
          (by rw [hrest]; exact List.cons_ne_nil c rest)
        simpa [hrest] using hhead
      simp [← hc, hmem]

theorem before_append {delimiter : UInt8} {front : Octets}
    (hnone : delimiter ∉ front) (back : Octets) :
    before delimiter (front ++ back) = front ++ before delimiter back := by
  rw [before, List.takeWhile_append_of_pos]
  · rfl
  · intro c hc
    simpa using fun heq : c = delimiter => hnone (heq ▸ hc)

theorem after_append {delimiter : UInt8} {front : Octets}
    (hnone : delimiter ∉ front) (back : Octets) :
    after delimiter (front ++ back) = after delimiter back := by
  rw [after, List.dropWhile_append_of_pos]
  · rfl
  · intro c hc
    simpa using fun heq : c = delimiter => hnone (heq ▸ hc)

/-! Dot segments. -/

def segments (path : Octets) : List Octets :=
  match path with
  | [] => []
  | c :: rest =>
      if c = slash then rest.splitOn slash else (c :: rest).splitOn slash

def IsDots (segment : Octets) : Prop :=
  segment = [fullStop] ∨ segment = [fullStop, fullStop]

instance (segment : Octets) : Decidable (IsDots segment) :=
  inferInstanceAs (Decidable (_ ∨ _))

/-- The segments taken over so far come last first; a dot segment at the end
leaves an empty one behind. -/
def removeDots : List Octets → List Octets → List Octets
  | out, [] => out.reverse
  | out, segment :: rest =>
      if segment = [fullStop] then
        if rest = [] then out.reverse ++ [[]] else removeDots out rest
      else if segment = [fullStop, fullStop] then
        if rest = [] then out.tail.reverse ++ [[]]
        else removeDots out.tail rest
      else removeDots (segment :: out) rest

theorem removeDots_append {front : List Octets}
    (hfront : ∀ segment ∈ front, ¬ IsDots segment) (out rest : List Octets) :
    removeDots out (front ++ rest) = removeDots (front.reverse ++ out) rest := by
  induction front generalizing out with
  | nil => rfl
  | cons segment front ih =>
      have hsegment := hfront segment List.mem_cons_self
      rw [IsDots, not_or] at hsegment
      rw [List.cons_append, removeDots, if_neg hsegment.1, if_neg hsegment.2,
        ih (fun other hother => hfront other (List.mem_cons_of_mem _ hother)),
        List.reverse_cons, List.append_assoc]
      rfl

theorem removeDots_of_none {path : List Octets}
    (hpath : ∀ segment ∈ path, ¬ IsDots segment) : removeDots [] path = path := by
  have hall := removeDots_append hpath [] []
  rw [List.append_nil, List.append_nil] at hall
  rw [hall, removeDots, List.reverse_reverse]

theorem getLast?_removeDots (out : List Octets) (front : List Octets)
    (segment : Octets) :
    (removeDots out (front ++ [segment])).getLast? =
      some (if IsDots segment then [] else segment) := by
  induction front generalizing out with
  | nil =>
      rw [List.nil_append, removeDots]
      unfold IsDots
      split_ifs <;> simp_all [removeDots]
  | cons first front ih =>
      have hrest : front ++ [segment] ≠ [] := by simp
      rw [List.cons_append, removeDots, if_neg hrest, if_neg hrest]
      by_cases hdot : first = [fullStop]
      · rw [if_pos hdot]
        exact ih out
      · rw [if_neg hdot]
        by_cases hdots : first = [fullStop, fullStop]
        · rw [if_pos hdots]
          exact ih out.tail
        · rw [if_neg hdots]
          exact ih (first :: out)

/-! Percent-encoding. -/

def hexValue (c : UInt8) : Option UInt8 :=
  if 0x30 ≤ c ∧ c ≤ 0x39 then some (c - 0x30)
  else if 0x41 ≤ c ∧ c ≤ 0x46 then some (c - 0x37)
  else if 0x61 ≤ c ∧ c ≤ 0x66 then some (c - 0x57)
  else none

/-- The octet that a triplet stands for. -/
def octetOf (c high low : UInt8) : Option UInt8 :=
  if c = percent then
    (hexValue high).bind fun h => (hexValue low).map fun l => h * 16 + l
  else none

def percentDecode : Octets → Octets
  | [] => []
  | [c] => [c]
  | [c, c'] => [c, c']
  | c :: high :: low :: rest =>
      match octetOf c high low with
      | some octet => octet :: percentDecode rest
      | none => c :: percentDecode (high :: low :: rest)

/-- Somewhere a percent sign is followed by two hexadecimal digits. -/
def hasTriplet : Octets → Bool
  | c :: high :: low :: rest =>
      (octetOf c high low).isSome || hasTriplet (high :: low :: rest)
  | _ => false

/-! What may stand in a component. -/

def isAlpha (c : UInt8) : Bool :=
  decide ((0x41 ≤ c ∧ c ≤ 0x5A) ∨ (0x61 ≤ c ∧ c ≤ 0x7A))

def isDigit (c : UInt8) : Bool :=
  decide (0x30 ≤ c ∧ c ≤ 0x39)

/-- Letters, digits and `-._~`. -/
def isUnreserved (c : UInt8) : Bool :=
  isAlpha c || isDigit c || [0x2D, 0x2E, 0x5F, 0x7E].contains c

/-- `!$&'()*+,;=` -/
def isSubDelim (c : UInt8) : Bool :=
  [0x21, 0x24, 0x26, 0x27, 0x28, 0x29, 0x2A, 0x2B, 0x2C, 0x3B, 0x3D].contains c

def isPchar (c : UInt8) : Bool :=
  isUnreserved c || isSubDelim c || c == colon || c == atSign

def isSchemeChar (c : UInt8) : Bool :=
  isAlpha c || isDigit c || [0x2B, 0x2D, 0x2E].contains c

/-- User information, host and port; an IP literal stands in brackets. -/
def isAuthorityChar (c : UInt8) : Bool :=
  isPchar c || c == 0x5B || c == 0x5D

def isQueryChar (c : UInt8) : Bool :=
  isPchar c || c == slash || c == questionMark

/-- Made up of triplets and of what is allowed by itself. -/
def spelled (allowed : UInt8 → Bool) : Octets → Bool
  | [] => true
  | [c] => allowed c
  | [c, c'] => allowed c && allowed c'
  | c :: high :: low :: rest =>
      match octetOf c high low with
      | some _ => spelled allowed rest
      | none => allowed c && spelled allowed (high :: low :: rest)

def validScheme (scheme : Octets) : Bool :=
  scheme.head?.any isAlpha && scheme.all isSchemeChar

def Components.valid (components : Components) : Bool :=
  components.scheme.all validScheme &&
    components.authority.all (spelled isAuthorityChar) &&
    (segments components.path).all (spelled isPchar) &&
    components.query.all (spelled isQueryChar) &&
    components.fragment.all (spelled isQueryChar)

theorem octetOf_eq_some {c high low octet : UInt8}
    (h : octetOf c high low = some octet) :
    c = percent ∧ (hexValue high).isSome = true ∧
      (hexValue low).isSome = true := by
  unfold octetOf at h
  split_ifs at h with hc
  obtain ⟨_, hhigh, hlow⟩ := Option.bind_eq_some_iff.mp h
  obtain ⟨_, hlow, -⟩ := Option.map_eq_some_iff.mp hlow
  exact ⟨hc, by rw [hhigh]; rfl, by rw [hlow]; rfl⟩

theorem mem_of_spelled {allowed : UInt8 → Bool} {text : Octets}
    (h : spelled allowed text = true) {c : UInt8} (hc : c ∈ text) :
    allowed c = true ∨ c = percent ∨ (hexValue c).isSome = true := by
  fun_induction spelled allowed text with
  | case1 => cases hc
  | case2 c' =>
      rw [List.mem_singleton.mp hc]
      exact .inl h
  | case3 c' c'' =>
      obtain ⟨hfirst, hsecond⟩ := Bool.and_eq_true_iff.mp h
      simp only [List.mem_cons, List.not_mem_nil, or_false] at hc
      rcases hc with rfl | rfl
      · exact .inl hfirst
      · exact .inl hsecond
  | case4 c' high low rest octet htriplet ih =>
      obtain ⟨hpercent, hhigh, hlow⟩ := octetOf_eq_some htriplet
      simp only [List.mem_cons] at hc
      rcases hc with rfl | rfl | rfl | hrest
      · exact .inr (.inl hpercent)
      · exact .inr (.inr hhigh)
      · exact .inr (.inr hlow)
      · exact ih h hrest
  | case5 c' high low rest hnone ih =>
      obtain ⟨hfirst, hrest⟩ := Bool.and_eq_true_iff.mp h
      rcases List.mem_cons.mp hc with rfl | hlater
      · exact .inl hfirst
      · exact ih hrest hlater

/-- No delimiter stands in a component that is spelled without it. -/
theorem not_mem_of_spelled {allowed : UInt8 → Bool} {text : Octets}
    (h : spelled allowed text = true) {c : UInt8} (hallowed : allowed c = false)
    (hpercent : c ≠ percent) (hhex : hexValue c = none) : c ∉ text := by
  intro hc
  rcases mem_of_spelled h hc with hyes | rfl | hyes
  · rw [hallowed] at hyes
    cases hyes
  · exact hpercent rfl
  · rw [hhex] at hyes
    cases hyes

theorem spelled_iff_of_literal (allowed : UInt8 → Bool) {text : Octets}
    (hliteral : hasTriplet text = false) :
    spelled allowed text = true ↔ ∀ c ∈ text, allowed c = true := by
  fun_induction spelled allowed text with
  | case1 => simp
  | case2 c => simp
  | case3 c c' => simp
  | case4 c high low rest octet htriplet ih =>
      rw [hasTriplet, htriplet] at hliteral
      cases hliteral
  | case5 c high low rest hnone ih =>
      rw [hasTriplet, hnone] at hliteral
      simp only [Bool.and_eq_true, ih hliteral, List.forall_mem_cons]

theorem hasTriplet_of_not_mem {text : Octets} (hnone : percent ∉ text) :
    hasTriplet text = false := by
  fun_induction hasTriplet text with
  | case1 c high low rest ih =>
      obtain ⟨hne, hrest⟩ := not_or.mp (mt List.mem_cons.mpr hnone)
      rw [ih hrest, octetOf, if_neg (Ne.symm hne)]
      rfl
  | case2 => rfl

theorem length_percentDecode_le (text : Octets) :
    (percentDecode text).length ≤ text.length := by
  fun_induction percentDecode text with
  | case1 => exact Nat.le_refl _
  | case2 c => exact Nat.le_refl _
  | case3 c c' => exact Nat.le_refl _
  | case4 c high low rest octet htriplet ih =>
      simp only [List.length_cons]
      omega
  | case5 c high low rest hnone ih =>
      simp only [List.length_cons] at ih ⊢
      omega

theorem percentDecode_eq_self_iff (text : Octets) :
    percentDecode text = text ↔ hasTriplet text = false := by
  fun_induction percentDecode text with
  | case1 => simp [hasTriplet]
  | case2 c => simp [hasTriplet]
  | case3 c c' => simp [hasTriplet]
  | case4 c high low rest octet htriplet ih =>
      have hle := length_percentDecode_le rest
      rw [hasTriplet, htriplet]
      refine iff_of_false ?_ (by simp)
      intro hsame
      have hlength := congrArg List.length hsame
      simp only [List.length_cons] at hlength
      omega
  | case5 c high low rest hnone ih =>
      rw [hasTriplet, hnone, List.cons.injEq, ih]
      simp

/-! Paths written out. -/

def written (path : List Octets) : Octets :=
  path.flatMap (slash :: ·)

/-- All of a path but the first slash and the last segment. -/
theorem written_append {path : List Octets}
    (hplain : ∀ segment ∈ path, slash ∉ segment) :
    ∃ front : Octets,
      (∀ c ∈ front, c = slash ∨ ∃ segment ∈ path, c ∈ segment) ∧
      ∀ tail, written path ++ slash :: tail = slash :: (front ++ tail) ∧
        (front ++ tail).splitOn slash = path ++ tail.splitOn slash := by
  induction path with
  | nil => exact ⟨[], by simp, fun tail => ⟨rfl, rfl⟩⟩
  | cons segment path ih =>
      obtain ⟨front, hfront, hrest⟩ := ih fun other hother =>
        hplain other (List.mem_cons_of_mem _ hother)
      refine ⟨segment ++ slash :: front, ?_, fun tail => ⟨?_, ?_⟩⟩
      · intro c hc
        rcases List.mem_append.mp hc with hsegment | hc
        · exact .inr ⟨segment, List.mem_cons_self, hsegment⟩
        · rcases List.mem_cons.mp hc with rfl | hc
          · exact .inl rfl
          · rcases hfront c hc with rfl | ⟨other, hother, hc⟩
            · exact .inl rfl
            · exact .inr ⟨other, List.mem_cons_of_mem _ hother, hc⟩
      · have hwritten := (hrest tail).1
        rw [written] at hwritten ⊢
        simp only [List.flatMap_cons, List.append_assoc, hwritten,
          List.cons_append]
      · rw [List.append_assoc, List.cons_append,
          List.splitOn_append_cons_self_of_not_mem
            (hplain segment List.mem_cons_self), (hrest tail).2]
        rfl

theorem written_concat (path : List Octets) (segment : Octets) :
    written (path ++ [segment]) = written path ++ slash :: segment := by
  simp [written]

theorem segments_written {path : List Octets}
    (hplain : ∀ segment ∈ path, slash ∉ segment) :
    segments (written path) = path := by
  rcases List.eq_nil_or_concat' path with rfl | ⟨front, last, rfl⟩
  · rfl
  · obtain ⟨prior, -, hrest⟩ := written_append
      fun segment hsegment =>
      hplain segment (List.mem_append_left _ hsegment)
    have hlast : slash ∉ last := hplain last (by simp)
    rw [written_concat, (hrest last).1, segments, if_pos rfl, (hrest last).2,
      List.splitOn_eq_singleton hlast]

theorem not_mem_written {path : List Octets} {c : UInt8} (hc : c ≠ slash)
    (hplain : ∀ segment ∈ path, c ∉ segment) : c ∉ written path := by
  simp only [written, List.mem_flatMap, List.mem_cons, not_exists, not_and,
    not_or]
  exact fun segment hsegment => ⟨hc, hplain segment hsegment⟩

/-- A segment that is read back as it was written. -/
structure Literal (segment : Octets) : Prop where
  undelimited : ∀ c ∈ segment, c ∉ [slash, questionMark, numberSign]
  untripled : hasTriplet segment = false
  notDots : ¬ IsDots segment

theorem Literal.decoded {segment : Octets} (h : Literal segment) :
    percentDecode segment = segment :=
  (percentDecode_eq_self_iff segment).mpr h.untripled

theorem Literal.not_mem {segment : Octets} (h : Literal segment) {c : UInt8}
    (hc : c ∈ [slash, questionMark, numberSign]) : c ∉ segment :=
  fun hmem => h.undelimited c hmem hc

/-- A segment of path characters, in which nothing has a meaning of its own. -/
structure Plain (segment : Octets) : Prop where
  pchars : ∀ c ∈ segment, isPchar c = true
  notDots : ¬ IsDots segment

theorem plain_iff (segment : Octets) :
    Plain segment ↔ segment.all isPchar = true ∧ ¬ IsDots segment := by
  rw [List.all_eq_true]
  exact ⟨fun h => ⟨h.pchars, h.notDots⟩, fun h => ⟨h.1, h.2⟩⟩

instance (segment : Octets) : Decidable (Plain segment) :=
  decidable_of_iff _ (plain_iff segment).symm

theorem Plain.literal {segment : Octets} (h : Plain segment) :
    Literal segment where
  undelimited := by
    intro c hc hdelimiter
    have hpchar := h.pchars c hc
    simp only [List.mem_cons, List.not_mem_nil, or_false] at hdelimiter
    rcases hdelimiter with rfl | rfl | rfl
    · exact absurd hpchar (by decide)
    · exact absurd hpchar (by decide)
    · exact absurd hpchar (by decide)
  untripled := hasTriplet_of_not_mem fun hc =>
    absurd (h.pchars percent hc) (by decide)
  notDots := h.notDots

theorem Literal.spelled_iff {segment : Octets} (h : Literal segment) :
    spelled isPchar segment = true ↔ Plain segment := by
  rw [spelled_iff_of_literal isPchar h.untripled]
  exact ⟨fun hall => ⟨hall, h.notDots⟩, Plain.pchars⟩

/-! What a URI names. -/

structure Resource where
  scheme : Option Octets
  authority : Option Octets
  segments : List Octets
  query : Option Octets
  fragment : Option Octets
  deriving DecidableEq, Repr

def Components.resource (components : Components) : Resource where
  scheme := components.scheme
  authority := components.authority
  segments := (removeDots [] (Uri.segments components.path)).map percentDecode
  query := components.query
  fragment := components.fragment

/-- What is not in the syntax names nothing. -/
def resource (text : Octets) : Option Resource :=
  if (parse text).valid then some (parse text).resource else none

def Resource.extend (base : Resource) (path : List Octets) : Resource :=
  { base with segments := base.segments ++ path }

/-- A URI to which paths can be appended. -/
structure Base where
  scheme : Octets
  authority : Octets
  path : List Octets
  scheme_valid : validScheme scheme = true
  authority_valid : spelled isAuthorityChar authority = true
  path_valid : ∀ segment ∈ path,
    spelled isPchar segment = true ∧ ¬ IsDots segment

namespace Base

def text (base : Base) : Octets :=
  base.scheme ++ colon :: slash :: slash ::
    (base.authority ++ written base.path)

theorem scheme_ne_nil (base : Base) : base.scheme ≠ [] := by
  intro hnil
  have hvalid := base.scheme_valid
  rw [hnil] at hvalid
  cases hvalid

theorem not_mem_scheme (base : Base) {c : UInt8}
    (hc : isSchemeChar c = false) : c ∉ base.scheme := by
  intro hmem
  have hall := (Bool.and_eq_true_iff.mp base.scheme_valid).2
  have hchar := List.all_eq_true.mp hall c hmem
  rw [hc] at hchar
  cases hchar

theorem not_mem_authority (base : Base) {c : UInt8}
    (hc : c ∈ [slash, questionMark, numberSign]) : c ∉ base.authority := by
  simp only [List.mem_cons, List.not_mem_nil, or_false] at hc
  rcases hc with rfl | rfl | rfl <;>
    exact not_mem_of_spelled base.authority_valid (by decide) (by decide)
      (by decide)

theorem not_mem_path (base : Base) {c : UInt8}
    (hc : c ∈ [slash, questionMark, numberSign]) :
    ∀ segment ∈ base.path, c ∉ segment := by
  intro segment hsegment
  have hspelled := (base.path_valid segment hsegment).1
  simp only [List.mem_cons, List.not_mem_nil, or_false] at hc
  rcases hc with rfl | rfl | rfl <;>
    exact not_mem_of_spelled hspelled (by decide) (by decide) (by decide)

theorem not_mem_text (base : Base) {c : UInt8}
    (hc : c = questionMark ∨ c = numberSign) : c ∉ base.text := by
  have hne : c ≠ slash ∧ c ≠ colon ∧ isSchemeChar c = false ∧
      c ∈ [slash, questionMark, numberSign] := by
    rcases hc with rfl | rfl <;> decide
  simp only [text, List.mem_append, List.mem_cons, not_or]
  exact ⟨base.not_mem_scheme hne.2.2.1, hne.2.1, hne.1, hne.1,
    base.not_mem_authority hne.2.2.2,
    not_mem_written hne.1 (base.not_mem_path hne.2.2.2)⟩

theorem slash_not_mem_path (base : Base) :
    ∀ segment ∈ base.path, slash ∉ segment :=
  base.not_mem_path (by decide)

theorem takeScheme_text (base : Base) (tail : Octets) :
    takeScheme (base.text ++ tail) = (some base.scheme,
      slash :: slash :: (base.authority ++ (written base.path ++ tail))) := by
  have hname : ∀ c ∈ base.scheme, (c != colon && c != slash) = true := by
    intro c hc
    rw [Bool.and_eq_true_iff, bne_iff_ne, bne_iff_ne]
    constructor
    · rintro rfl
      exact base.not_mem_scheme (by decide) hc
    · rintro rfl
      exact base.not_mem_scheme (by decide) hc
  have htext : base.text ++ tail = base.scheme ++ colon ::
      slash :: slash :: (base.authority ++ (written base.path ++ tail)) := by
    simp [text]
  rw [takeScheme, htext, List.takeWhile_append_of_pos hname,
    List.dropWhile_append_of_pos hname, List.takeWhile_cons_of_neg
      (by simp), List.dropWhile_cons_of_neg (by simp), List.append_nil]
  cases hscheme : base.scheme with
  | nil => exact absurd hscheme base.scheme_ne_nil
  | cons c rest => simp

theorem takeAuthority_text (base : Base) {path : Octets}
    (hpath : path = [] ∨ ∃ rest, path = slash :: rest) :
    takeAuthority (slash :: slash :: (base.authority ++ path)) =
      (some base.authority, path) := by
  have hname : ∀ c ∈ base.authority, (c != slash) = true := by
    intro c hc
    rw [bne_iff_ne]
    rintro rfl
    exact base.not_mem_authority (by decide) hc
  rw [takeAuthority, if_pos ⟨rfl, rfl⟩, before,
    List.takeWhile_append_of_pos hname, List.dropWhile_append_of_pos hname]
  rcases hpath with rfl | ⟨rest, rfl⟩
  · simp
  · simp

/-- What comes after the base can give the URI a query or a fragment, and its
segments follow those of the base. -/
theorem resource_append (base : Base) (tail : Octets) :
    (parse (base.text ++ slash :: tail)).resource = {
      scheme := some base.scheme
      authority := some base.authority
      segments := (removeDots [] (base.path ++
        (before questionMark (before numberSign tail)).splitOn slash)).map
          percentDecode
      query := after questionMark (before numberSign tail)
      fragment := after numberSign tail } := by
  have hsplit {delimiter : UInt8} (text : Octets)
      (hdelimiter : delimiter = questionMark ∨ delimiter = numberSign) :
      before delimiter (base.text ++ slash :: text) =
          base.text ++ slash :: before delimiter text ∧
        after delimiter (base.text ++ slash :: text) =
          after delimiter text := by
    have hnone : delimiter ∉ base.text ++ [slash] := by
      rw [List.mem_append, not_or]
      refine ⟨base.not_mem_text hdelimiter, ?_⟩
      rcases hdelimiter with rfl | rfl <;> decide
    have happend : base.text ++ slash :: text =
        (base.text ++ [slash]) ++ text := by simp
    rw [happend, before_append hnone, after_append hnone]
    simp
  have hfragment := hsplit tail (.inr rfl)
  have hquery := hsplit (before numberSign tail) (.inl rfl)
  obtain ⟨front, -, hwritten⟩ := written_append base.slash_not_mem_path
  obtain ⟨hpath, hsegments⟩ :=
    hwritten (before questionMark (before numberSign tail))
  simp only [Components.resource, parse, hfragment, hquery,
    base.takeScheme_text, hpath,
    base.takeAuthority_text (.inr ⟨_, rfl⟩), segments, if_true, hsegments]

/-- The path given, below the base. -/
def below (base : Base) (path : List Octets) : Octets :=
  base.text ++ written path

theorem parse_below (base : Base) {path : List Octets}
    (hpath : ∀ segment ∈ path, ∀ c ∈ segment,
      c ∉ [slash, questionMark, numberSign]) :
    parse (base.below path) = {
      scheme := some base.scheme
      authority := some base.authority
      path := written (base.path ++ path)
      query := none
      fragment := none } := by
  have hnone {c : UInt8} (hc : c = questionMark ∨ c = numberSign) :
      c ∉ base.below path := by
    have hne : c ≠ slash ∧ c ∈ [slash, questionMark, numberSign] := by
      rcases hc with rfl | rfl <;> decide
    rw [below, List.mem_append, not_or]
    exact ⟨base.not_mem_text hc, not_mem_written hne.1
      fun segment hsegment hmem => hpath segment hsegment c hmem hne.2⟩
  have hquery := hnone (.inl rfl)
  have hfragment := hnone (.inr rfl)
  have hwritten : written base.path ++ written path =
      written (base.path ++ path) := List.flatMap_append.symm
  have hslash : written (base.path ++ path) = [] ∨
      ∃ rest, written (base.path ++ path) = slash :: rest := by
    cases base.path ++ path with
    | nil => exact .inl rfl
    | cons segment path => exact .inr ⟨_, rfl⟩
  have hscheme := base.takeScheme_text (written path)
  rw [hwritten] at hscheme
  simp only [parse, before_of_not_mem hfragment, before_of_not_mem hquery,
    after_eq_none_iff.mpr hfragment, after_eq_none_iff.mpr hquery]
  simp only [below, hscheme, base.takeAuthority_text hslash]

def resource (base : Base) : Resource where
  scheme := some base.scheme
  authority := some base.authority
  segments := base.path.map percentDecode
  query := none
  fragment := none

/-- Below the base, only the path can go wrong. -/
theorem valid_below_iff (base : Base) {path : List Octets}
    (hpath : ∀ segment ∈ path, ∀ c ∈ segment,
      c ∉ [slash, questionMark, numberSign]) :
    (parse (base.below path)).valid = true ↔
      ∀ segment ∈ path, spelled isPchar segment = true := by
  have hslash : ∀ segment ∈ base.path ++ path, slash ∉ segment := by
    intro segment hsegment
    rcases List.mem_append.mp hsegment with hbase | hown
    · exact base.slash_not_mem_path segment hbase
    · exact fun hmem => hpath segment hown slash hmem (by decide)
  rw [base.parse_below hpath]
  simp only [Components.valid, Option.all_some, Option.all_none,
    base.scheme_valid, base.authority_valid, segments_written hslash,
    Bool.true_and, Bool.and_true, List.all_eq_true, List.forall_mem_append]
  exact and_iff_right fun segment hsegment =>
    (base.path_valid segment hsegment).1

theorem below_nil (base : Base) : base.below [] = base.text :=
  List.append_nil _

/-- The text of a base is a URI, of the resource that it stands for. -/
theorem resource_text (base : Base) :
    Uri.resource base.text = some base.resource := by
  have hnone : ∀ segment ∈ ([] : List Octets), ∀ c ∈ segment,
      c ∉ [slash, questionMark, numberSign] := nofun
  have hparse := base.parse_below hnone
  have hvalid := (base.valid_below_iff hnone).mpr nofun
  have hdots : removeDots [] base.path = base.path :=
    removeDots_of_none fun segment hsegment =>
      (base.path_valid segment hsegment).2
  rw [below_nil] at hparse hvalid
  rw [Uri.resource, if_pos hvalid, hparse]
  simp only [Components.resource, List.append_nil,
    segments_written base.slash_not_mem_path, hdots, resource]

theorem below_concat (base : Base) {front : List Octets}
    (hfront : ∀ segment ∈ front, Literal segment) (segment : Octets) :
    (parse (base.below (front ++ [segment]))).resource = {
      scheme := some base.scheme
      authority := some base.authority
      segments := (removeDots [] (base.path ++ (front ++
        (before questionMark (before numberSign segment)).splitOn
          slash))).map percentDecode
      query := after questionMark (before numberSign segment)
      fragment := after numberSign segment } := by
  obtain ⟨prior, hprior, hwritten⟩ := written_append
    fun other hother => (hfront other hother).not_mem (by decide)
  have hnone {c : UInt8} (hc : c = questionMark ∨ c = numberSign) :
      c ∉ prior := by
    intro hmem
    rcases hprior c hmem with rfl | ⟨other, hother, hin⟩
    · exact absurd hc (by decide)
    · refine (hfront other hother).not_mem ?_ hin
      rcases hc with rfl | rfl <;> decide
  rw [below, written_concat, (hwritten segment).1, base.resource_append,
    before_append (hnone (.inr rfl)), after_append (hnone (.inr rfl)),
    before_append (hnone (.inl rfl)), after_append (hnone (.inl rfl)),
    (hwritten _).2]

/-- What comes after the last slash. -/
theorem splitOn_last (segment : Octets) :
    ∃ front last, segment.splitOn slash = front ++ [last] ∧
      last.length ≤ segment.length ∧
      (segment.length ≤ last.length → slash ∉ segment ∧ last = segment) := by
  by_cases hmem : slash ∈ segment
  · obtain ⟨back, front, hsplit, hback⟩ :=
      List.eq_append_cons_of_mem (List.mem_reverse.mpr hmem)
    have hsegment : segment = front.reverse ++ slash :: back.reverse := by
      rw [← segment.reverse_reverse, hsplit]
      simp
    have hlast : slash ∉ back.reverse := by simpa using hback
    have hlength : segment.length = front.length + (back.length + 1) := by
      rw [hsegment]
      simp
    refine ⟨front.reverse.splitOn slash, back.reverse, ?_, ?_, ?_⟩
    · rw [hsegment, List.splitOn_append_cons_self,
        List.splitOn_eq_singleton hlast]
    · rw [List.length_reverse]
      omega
    · rw [List.length_reverse]
      omega
  · exact ⟨[], segment, List.splitOn_eq_singleton hmem, Nat.le_refl _,
      fun _ => ⟨hmem, rfl⟩⟩

theorem map_percentDecode {path : List Octets}
    (hplain : ∀ segment ∈ path, Literal segment) :
    path.map percentDecode = path := by
  calc path.map percentDecode = path.map id :=
        List.map_congr_left fun segment hsegment =>
          (hplain segment hsegment).decoded
    _ = path := path.map_id

/-- Below literal segments, a last one is read back where it is literal too. -/
theorem read_back_iff (base : Base) {front : List Octets}
    (hfront : ∀ segment ∈ front, Literal segment) (segment : Octets) :
    (parse (base.below (front ++ [segment]))).resource =
        base.resource.extend (front ++ [segment]) ↔
      Literal segment := by
  rw [base.below_concat hfront, resource, Resource.extend]
  simp only [Resource.mk.injEq, true_and]
  constructor
  · intro hnamed
    obtain ⟨hsegments, hquery, hfragment⟩ := hnamed
    rw [after_eq_none_iff] at hfragment
    rw [before_of_not_mem hfragment, after_eq_none_iff] at hquery
    rw [before_of_not_mem hfragment, before_of_not_mem hquery] at hsegments
    obtain ⟨prior, last, hsplit, hshorter, hwhole⟩ := splitOn_last segment
    have hlast : percentDecode (if IsDots last then [] else last) =
        segment := by
      have hends := congrArg List.getLast? hsegments
      rw [hsplit, ← List.append_assoc, ← List.append_assoc, List.getLast?_map,
        getLast?_removeDots, ← List.append_assoc, List.getLast?_concat] at hends
      exact Option.some.inj hends
    have hle := length_percentDecode_le (if IsDots last then [] else last)
    rw [hlast] at hle
    by_cases hdots : IsDots last
    · rw [if_pos hdots] at hlast
      have hnone : segment = [] := hlast.symm
      rw [hnone, List.length_nil, Nat.le_zero,
        List.length_eq_zero_iff] at hshorter
      rw [hshorter] at hdots
      exact absurd hdots (by decide)
    · rw [if_neg hdots] at hlast hle
      obtain ⟨hslash, rfl⟩ := hwhole hle
      refine ⟨?_, (percentDecode_eq_self_iff last).mp hlast, hdots⟩
      intro c hc hreserved
      simp only [List.mem_cons, List.not_mem_nil, or_false] at hreserved
      rcases hreserved with rfl | rfl | rfl
      · exact hslash hc
      · exact hquery hc
      · exact hfragment hc
  · intro hplain
    have hslash : slash ∉ segment := hplain.not_mem (by decide)
    have hquery : questionMark ∉ segment := hplain.not_mem (by decide)
    have hfragment : numberSign ∉ segment := hplain.not_mem (by decide)
    have hall : ∀ other ∈ front ++ [segment], Literal other := by
      intro other hother
      rcases List.mem_append.mp hother with hother | hother
      · exact hfront other hother
      · rwa [List.mem_singleton.mp hother]
    have hdots : ∀ other ∈ base.path ++ (front ++ [segment]),
        ¬ IsDots other := by
      intro other hother
      rcases List.mem_append.mp hother with hbase | hother
      · exact (base.path_valid other hbase).2
      · exact (hall other hother).notDots
    simp only [before_of_not_mem hfragment, before_of_not_mem hquery,
      after_eq_none_iff.mpr hfragment, after_eq_none_iff.mpr hquery,
      List.splitOn_eq_singleton hslash, removeDots_of_none hdots,
      List.map_append, map_percentDecode hfront, hplain.decoded,
      List.map_cons, List.map_nil, and_self]

/-- Below plain segments, a last one is named where it is plain too. -/
theorem resource_below_iff (base : Base) {front : List Octets}
    (hfront : ∀ segment ∈ front, Plain segment) (segment : Octets) :
    Uri.resource (base.below (front ++ [segment])) =
        some (base.resource.extend (front ++ [segment])) ↔
      Plain segment := by
  have hliteral : ∀ other ∈ front, Literal other :=
    fun other hother => (hfront other hother).literal
  have hundelimited (h : Literal segment) : ∀ other ∈ front ++ [segment],
      ∀ c ∈ other, c ∉ [slash, questionMark, numberSign] := by
    intro other hother
    rcases List.mem_append.mp hother with hother | hother
    · exact (hliteral other hother).undelimited
    · rw [List.mem_singleton.mp hother]
      exact h.undelimited
  constructor
  · intro hnamed
    rw [Uri.resource] at hnamed
    split_ifs at hnamed with hvalid
    have hsegment := (base.read_back_iff hliteral segment).mp
      (Option.some.inj hnamed)
    rw [base.valid_below_iff (hundelimited hsegment)] at hvalid
    exact hsegment.spelled_iff.mp (hvalid segment (by simp))
  · intro hplain
    have hvalid := (base.valid_below_iff (hundelimited hplain.literal)).mpr
      (by
        intro other hother
        rcases List.mem_append.mp hother with hother | hother
        · exact (hliteral other hother).spelled_iff.mpr (hfront other hother)
        · rw [List.mem_singleton.mp hother]
          exact hplain.literal.spelled_iff.mpr hplain)
    rw [Uri.resource, if_pos hvalid,
      (base.read_back_iff hliteral segment).mpr hplain.literal]

theorem resource_below (base : Base) {path : List Octets}
    (hplain : ∀ segment ∈ path, Plain segment) (hpath : path ≠ []) :
    Uri.resource (base.below path) = some (base.resource.extend path) := by
  obtain ⟨front, last, rfl⟩ := (List.eq_nil_or_concat' path).resolve_left hpath
  rw [base.resource_below_iff fun segment hsegment =>
    hplain segment (List.mem_append_left _ hsegment)]
  exact hplain last (by simp)

theorem extend_injective {base : Resource} {path path' : List Octets}
    (h : base.extend path = base.extend path') : path = path' := by
  rw [Resource.extend, Resource.extend, Resource.mk.injEq] at h
  exact List.append_cancel_left h.2.2.1

end Base

end Loft.Data.Uri
