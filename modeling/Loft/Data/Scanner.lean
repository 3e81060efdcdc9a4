import Mathlib.Tactic.Common

namespace Loft.Data

/-!
Incremental scanners over a growing buffer.  A scanner looks for one complete
item at the head of the buffer; its laws say that more input never revises a
verdict it has already given.
-/

structure Scanner (α μ ε : Type) where
  scan : List α → Except ε (Option (μ × Nat))
  scan_nil : scan [] = .ok none
  used_pos : scan buf = .ok (some (item, used)) → 0 < used
  used_le : scan buf = .ok (some (item, used)) → used ≤ buf.length
  item_append : scan buf = .ok (some (item, used)) →
    scan (buf ++ more) = .ok (some (item, used))
  error_append : scan buf = .error e → scan (buf ++ more) = .error e

namespace Scanner

variable {α μ ε : Type}

/-- Scan items off the head of the buffer until more input is needed or an
error stops the stream; on success the unread rest of the buffer is kept. -/
def drain (S : Scanner α μ ε) (buf : List α) : List μ × Except ε (List α) :=
  match _hscan : S.scan buf with
  | .error e => ([], .error e)
  | .ok none => ([], .ok buf)
  | .ok (some (item, used)) =>
      let rest := S.drain (buf.drop used)
      (item :: rest.1, rest.2)
termination_by buf.length
decreasing_by
  have hpos := S.used_pos _hscan
  have hle := S.used_le _hscan
  rw [List.length_drop]
  omega

/-- Buffer each chunk in turn and drain after each, stopping at the first
error. -/
def feed (S : Scanner α μ ε) :
    List α → List (List α) → List μ × Except ε (List α)
  | buf, [] => ([], .ok buf)
  | buf, chunk :: chunks =>
      match S.drain (buf ++ chunk) with
      | (items, .error e) => (items, .error e)
      | (items, .ok rest) =>
          let later := S.feed rest chunks
          (items ++ later.1, later.2)

theorem drain_of_error (S : Scanner α μ ε) (h : S.scan buf = .error e) :
    S.drain buf = ([], .error e) := by
  rw [drain]
  split <;> simp_all

theorem drain_of_none (S : Scanner α μ ε) (h : S.scan buf = .ok none) :
    S.drain buf = ([], .ok buf) := by
  rw [drain]
  split <;> simp_all

theorem drain_of_item (S : Scanner α μ ε)
    (h : S.scan buf = .ok (some (item, used))) :
    S.drain buf =
      (item :: (S.drain (buf.drop used)).1, (S.drain (buf.drop used)).2) := by
  rw [drain]
  split <;> simp_all

@[simp] theorem drain_nil (S : Scanner α μ ε) : S.drain [] = ([], .ok []) :=
  S.drain_of_none S.scan_nil

theorem scan_of_drain_ok (S : Scanner α μ ε) :
    ∀ {buf items rest}, S.drain buf = (items, .ok rest) →
      S.scan rest = .ok none := by
  intro buf
  induction buf using drain.induct S with
  | case1 buf e hscan =>
      intro items rest h
      rw [S.drain_of_error hscan] at h
      cases h
  | case2 buf hscan =>
      intro items rest h
      rw [S.drain_of_none hscan] at h
      cases h
      exact hscan
  | case3 buf item used hscan ih =>
      intro items rest h
      rw [S.drain_of_item hscan] at h
      obtain ⟨_, houtcome⟩ := Prod.mk.inj h
      exact ih (Prod.ext rfl houtcome)

/-- Draining a longer buffer is draining the shorter one and then what it left
behind together with the new input. -/
theorem drain_append (S : Scanner α μ ε) (buf more : List α) :
    S.drain (buf ++ more) =
      match S.drain buf with
      | (items, .error e) => (items, .error e)
      | (items, .ok rest) =>
          (items ++ (S.drain (rest ++ more)).1, (S.drain (rest ++ more)).2) := by
  induction buf using drain.induct S with
  | case1 buf e hscan =>
      rw [S.drain_of_error hscan, S.drain_of_error (S.error_append hscan)]
  | case2 buf hscan =>
      rw [S.drain_of_none hscan]
      rfl
  | case3 buf item used hscan ih =>
      have hdrop : (buf ++ more).drop used = buf.drop used ++ more :=
        List.drop_append_of_le_length (S.used_le hscan)
      rw [S.drain_of_item (S.item_append hscan), hdrop, ih,
        S.drain_of_item hscan]
      rcases S.drain (buf.drop used) with ⟨items, e | rest⟩ <;> rfl

/-- The chunking of the stream is invisible: only the concatenation counts. -/
theorem feed_eq_drain (S : Scanner α μ ε) (chunks : List (List α)) :
    ∀ {buf}, S.scan buf = .ok none →
      S.feed buf chunks = S.drain (buf ++ chunks.flatten) := by
  induction chunks with
  | nil =>
      intro buf hbuf
      simp [feed, S.drain_of_none hbuf]
  | cons chunk chunks ih =>
      intro buf hbuf
      rw [List.flatten_cons, ← List.append_assoc,
        S.drain_append (buf ++ chunk), feed]
      cases hdrain : S.drain (buf ++ chunk) with
      | mk items outcome =>
          cases outcome with
          | error e => rfl
          | ok rest => simp only [ih (S.scan_of_drain_ok hdrain)]

theorem feed_nil_eq_drain (S : Scanner α μ ε) (chunks : List (List α)) :
    S.feed [] chunks = S.drain chunks.flatten := by
  simpa using S.feed_eq_drain chunks S.scan_nil

section Encoder

variable (S : Scanner α μ ε) (encode : μ → List α)

/-- When every scanned item re-encodes to the input it used, the drained items
account for the whole stream up to where draining stopped. -/
theorem drain_accounts
    (hencode : ∀ {buf item used}, S.scan buf = .ok (some (item, used)) →
      encode item = buf.take used) (buf : List α) :
    ∃ rest, buf = (S.drain buf).1.flatMap encode ++ rest ∧
      match (S.drain buf).2 with
      | .error e => S.scan rest = .error e
      | .ok left => left = rest := by
  induction buf using drain.induct S with
  | case1 buf e hscan =>
      rw [S.drain_of_error hscan]
      exact ⟨buf, rfl, hscan⟩
  | case2 buf hscan =>
      rw [S.drain_of_none hscan]
      exact ⟨buf, rfl, rfl⟩
  | case3 buf item used hscan ih =>
      obtain ⟨rest, hsplit, hrest⟩ := ih
      rw [S.drain_of_item hscan]
      refine ⟨rest, ?_, hrest⟩
      calc
        buf = buf.take used ++ buf.drop used := (List.take_append_drop ..).symm
        _ = encode item ++
            ((S.drain (buf.drop used)).1.flatMap encode ++ rest) := by
          rw [hencode hscan, ← hsplit]
        _ = _ := by rw [List.flatMap_cons, List.append_assoc]

/-- A pipeline of encodings is scanned back item by item, nothing left over. -/
theorem drain_flatMap_encode (Valid : μ → Prop) (canonical : μ → μ)
    (hscan : ∀ item more, Valid item → S.scan (encode item ++ more) =
      .ok (some (canonical item, (encode item).length)))
    (items : List μ) (hitems : ∀ item ∈ items, Valid item) :
    S.drain (items.flatMap encode) = (items.map canonical, .ok []) := by
  induction items with
  | nil => simp
  | cons item items ih =>
      have hhead := hscan item (items.flatMap encode)
        (hitems item List.mem_cons_self)
      have htail := ih fun other hother =>
        hitems other (List.mem_cons_of_mem item hother)
      rw [List.flatMap_cons, S.drain_of_item hhead, List.drop_left, htail]
      rfl

end Encoder

/-! What a scanner can be made to hold. -/

/-- Every item uses at least `least` of the buffer, and the scanner never asks
for more input with `cap` or more in it. -/
structure Bounds (S : Scanner α μ ε) (least cap : Nat) : Prop where
  least_le : S.scan buf = .ok (some (item, used)) → least ≤ used
  lt_cap : S.scan buf = .ok none → buf.length < cap

namespace Bounds

variable {S : Scanner α μ ε} {least cap : Nat}

theorem drain_left_lt (hbounds : S.Bounds least cap) {buf left : List α}
    {items : List μ} (h : S.drain buf = (items, .ok left)) :
    left.length < cap :=
  hbounds.lt_cap (S.scan_of_drain_ok h)

theorem drain_count_le (hbounds : S.Bounds least cap) (buf : List α) :
    least * (S.drain buf).1.length ≤ buf.length := by
  induction buf using drain.induct S with
  | case1 buf e hscan =>
      rw [S.drain_of_error hscan]
      exact Nat.zero_le _
  | case2 buf hscan =>
      rw [S.drain_of_none hscan]
      exact Nat.zero_le _
  | case3 buf item used hscan ih =>
      have hleast := hbounds.least_le hscan
      have hused := S.used_le hscan
      rw [List.length_drop] at ih
      rw [S.drain_of_item hscan, List.length_cons, Nat.mul_succ]
      omega

end Bounds

end Scanner

end Loft.Data
