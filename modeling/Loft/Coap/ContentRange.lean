import Loft.Coap.Block

namespace Loft.Coap

/-! A `Content-Range` as a server prints it is parsed to what it says. -/

def contentRangeText (start stop total : Nat) : String :=
  "bytes " ++ toString start ++ "-" ++ toString stop ++ "/" ++ toString total

def digits (n : Nat) : List Char :=
  Nat.toDigits 10 n

theorem toList_contentRangeText (start stop total : Nat) :
    (contentRangeText start stop total).toList =
      "bytes ".toList ++ (digits start ++ '-' :: (digits stop ++ '/' ::
        digits total)) := by
  simp [contentRangeText, digits, String.toList_append]

theorem digits_ne_nil (n : Nat) : digits n ≠ [] :=
  Nat.toDigits_ne_nil

theorem isDigit_of_mem_digits {n : Nat} {c : Char} (hmem : c ∈ digits n) :
    c.isDigit = true :=
  Nat.isDigit_of_mem_toDigits (by decide) (by decide) hmem

theorem isWhiteSpace_of_isDigit {c : Char} (hdigit : c.isDigit = true) :
    isWhiteSpace c = false := by
  have hrange : 48 ≤ c.toNat ∧ c.toNat ≤ 57 := by
    simpa [Char.isDigit, UInt32.le_iff_toNat_le] using hdigit
  unfold isWhiteSpace
  simp only [Bool.or_eq_false_iff, Bool.and_eq_false_iff, beq_eq_false_iff_ne,
    decide_eq_false_iff_not]
  omega

theorem dropWhile_of_head {p : Char → Bool} {text : List Char}
    (hhead : ∀ c ∈ text.head?, p c = false) : text.dropWhile p = text := by
  cases text with
  | nil => rfl
  | cons c rest =>
      apply List.dropWhile_cons_of_neg
      simp [hhead c rfl]

theorem trim_eq_self {text : List Char}
    (hhead : ∀ c ∈ text.head?, isWhiteSpace c = false)
    (hlast : ∀ c ∈ text.getLast?, isWhiteSpace c = false) :
    trim text = text := by
  rw [trim, dropWhile_of_head hhead, dropWhile_of_head, List.reverse_reverse]
  rwa [List.head?_reverse]

theorem trim_digits (n : Nat) : trim (digits n) = digits n := by
  apply trim_eq_self
  · intro c hc
    exact isWhiteSpace_of_isDigit
      (isDigit_of_mem_digits (List.mem_of_mem_head? hc))
  · intro c hc
    exact isWhiteSpace_of_isDigit
      (isDigit_of_mem_digits (List.mem_of_mem_getLast? hc))

theorem stripPrefix_append (head text : List Char) :
    stripPrefix head (head ++ text) = some text := by
  simp [stripPrefix]

theorem splitOnce_append {sep : Char} {front : List Char} (rest : List Char)
    (hfront : sep ∉ front) :
    splitOnce sep (front ++ sep :: rest) = some (front, rest) := by
  have hall : ∀ c ∈ front, (c != sep) = true := by
    intro c hmem
    rw [bne_iff_ne]
    intro hsame
    exact hfront (hsame ▸ hmem)
  rw [splitOnce, List.dropWhile_append_of_pos hall,
    List.takeWhile_append_of_pos hall]
  simp

theorem le_ofDigitChars (text : List Char) (acc : Nat) :
    acc ≤ Nat.ofDigitChars 10 text acc := by
  rw [Nat.ofDigitChars_eq_ofDigitChars_zero]
  exact Nat.le_trans (Nat.le_mul_of_pos_left acc (Nat.pow_pos (by decide)))
    (Nat.le_add_right _ _)

theorem parseDigits_eq {text : List Char} (acc : Nat)
    (hdigits : ∀ c ∈ text, c.isDigit = true)
    (hfits : Nat.ofDigitChars 10 text acc < 2 ^ 64) :
    parseDigits text acc = some (Nat.ofDigitChars 10 text acc) := by
  induction text generalizing acc with
  | nil => simp [parseDigits]
  | cons c rest ih =>
      rw [Nat.ofDigitChars_cons, Nat.mul_comm] at hfits ⊢
      have hacc := Nat.lt_of_le_of_lt (le_ofDigitChars rest _) hfits
      rw [parseDigits, if_pos (hdigits c List.mem_cons_self), if_pos hacc]
      exact ih _ (fun c hmem => hdigits c (List.mem_cons_of_mem _ hmem)) hfits

theorem parseU64_digits {n : Nat} (hn : n < 2 ^ 64) :
    parseU64 (digits n) = some n := by
  have hparsed : parseDigits (digits n) 0 = some n := by
    have hvalue : Nat.ofDigitChars 10 (digits n) 0 = n :=
      Nat.ofDigitChars_ten_toDigits
    have hparsed := parseDigits_eq 0 (fun c => isDigit_of_mem_digits)
      (hvalue.symm ▸ hn)
    rwa [hvalue] at hparsed
  have hplus : '+' ∉ digits n := fun hmem =>
    absurd (isDigit_of_mem_digits hmem) (by decide)
  unfold parseU64
  split
  · rename_i hnil
    exact absurd hnil (digits_ne_nil n)
  · rename_i hsingle
    exact absurd (hsingle ▸ List.mem_cons_self) hplus
  · rename_i hsigned
    exact absurd (hsigned ▸ List.mem_cons_self) hplus
  · exact hparsed

theorem not_mem_digits {n : Nat} {c : Char} (hdigit : c.isDigit = false) :
    c ∉ digits n := by
  intro hmem
  rw [isDigit_of_mem_digits hmem] at hdigit
  cases hdigit

theorem trim_contentRangeText (start stop total : Nat) :
    trim (contentRangeText start stop total).toList =
      (contentRangeText start stop total).toList := by
  apply trim_eq_self
  · intro c hc
    rw [toList_contentRangeText] at hc
    cases hc
    rfl
  · have hsplit : (contentRangeText start stop total).toList =
        ("bytes ".toList ++ (digits start ++ '-' :: (digits stop ++ ['/']))) ++
          digits total := by
      simp [toList_contentRangeText]
    intro c hc
    rw [hsplit, List.getLast?_append_of_ne_nil _ (digits_ne_nil total)] at hc
    exact isWhiteSpace_of_isDigit
      (isDigit_of_mem_digits (List.mem_of_mem_getLast? hc))

theorem parseContentRange_contentRangeText {start stop total : Nat}
    (hstart : start < 2 ^ 64) (hstop : stop < 2 ^ 64)
    (htotal : total < 2 ^ 64) :
    parseContentRange (contentRangeText start stop total) =
      some (start, stop, total) := by
  have hslash : '/' ∉ digits start ++ '-' :: digits stop := by
    simp [not_mem_digits]
  have hsplit : splitOnce '/' (digits start ++ '-' :: (digits stop ++ '/' ::
        digits total)) =
      some (digits start ++ '-' :: digits stop, digits total) := by
    rw [← splitOnce_append (digits total) hslash]
    simp
  have hdash : '-' ∉ digits start := not_mem_digits (by decide)
  rw [parseContentRange, trim_contentRangeText, toList_contentRangeText,
    stripPrefix_append]
  simp [hsplit, splitOnce_append _ hdash, trim_digits, parseU64_digits hstart,
    parseU64_digits hstop, parseU64_digits htotal]

end Loft.Coap
