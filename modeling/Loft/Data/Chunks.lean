import Mathlib.Tactic.Common

namespace Loft.Data

/-! Byte strings that are sent in pieces: where a piece sits in the whole, and
pieces laid end to end. -/

variable {α γ : Type}

def SitsAt (offset : Nat) (piece whole : List α) : Prop :=
  ∃ front back, whole = front ++ piece ++ back ∧ front.length = offset

namespace SitsAt

variable {offset : Nat} {piece whole : List α}

theorem append_right (hsits : SitsAt offset piece whole) (more : List α) :
    SitsAt offset piece (whole ++ more) := by
  obtain ⟨front, back, rfl, hlength⟩ := hsits
  exact ⟨front, back ++ more, by simp, hlength⟩

theorem at_end (data piece : List α) : SitsAt data.length piece (data ++ piece) :=
  ⟨data, [], by simp, rfl⟩

theorem of_slice (size : Nat) (hoffset : offset ≤ whole.length) :
    SitsAt offset ((whole.drop offset).take size) whole := by
  refine ⟨whole.take offset, (whole.drop offset).drop size, ?_, ?_⟩
  · rw [List.append_assoc, List.take_append_drop, List.take_append_drop]
  · rw [List.length_take, Nat.min_eq_left hoffset]

end SitsAt

theorem drop_take_min (whole : List α) (offset size : Nat) :
    (whole.take (min (offset + size) whole.length)).drop offset =
      (whole.drop offset).take size := by
  rw [List.drop_take, List.take_eq_take_iff, List.length_drop]
  omega

/-- Each piece begins where the ones before it end. -/
inductive Laid (offset : γ → Nat) (bytes : γ → List α) :
    List γ → List α → Prop
  | nil : Laid offset bytes [] []
  | concat {pieces : List γ} {data : List α} {piece : γ} :
      Laid offset bytes pieces data → offset piece = data.length →
      Laid offset bytes (pieces ++ [piece]) (data ++ bytes piece)

namespace Laid

variable {offset : γ → Nat} {bytes : γ → List α} {pieces : List γ}
  {data whole : List α}

theorem eq_flatMap (hlaid : Laid offset bytes pieces data) :
    data = pieces.flatMap bytes := by
  induction hlaid with
  | nil => rfl
  | concat hlaid hoffset ih => simp [ih]

theorem sitsAt (hlaid : Laid offset bytes pieces data) {piece : γ}
    (hmem : piece ∈ pieces) : SitsAt (offset piece) (bytes piece) data := by
  induction hlaid with
  | nil => simp at hmem
  | @concat pieces data last hlaid hoffset ih =>
      rcases List.mem_append.mp hmem with hold | hnew
      · exact (ih hold).append_right _
      · rw [List.mem_singleton.mp hnew, hoffset]
        exact .at_end data (bytes last)

theorem length_concat {piece : γ}
    (hlaid : Laid offset bytes (pieces ++ [piece]) data) :
    data.length = offset piece + (bytes piece).length := by
  generalize hall : pieces ++ [piece] = all at hlaid
  cases hlaid with
  | nil => simp at hall
  | @concat front data last hlaid hoffset =>
      obtain ⟨-, hlast⟩ := List.append_inj' hall rfl
      rw [List.singleton_inj] at hlast
      rw [List.length_append, hlast, hoffset]

theorem prefix_of_sitsAt (hlaid : Laid offset bytes pieces data)
    (hall : ∀ piece ∈ pieces, SitsAt (offset piece) (bytes piece) whole) :
    data <+: whole := by
  induction hlaid with
  | nil => exact List.nil_prefix
  | @concat pieces data last hlaid hoffset ih =>
      obtain ⟨rest, hrest⟩ :=
        ih fun piece hmem => hall piece (List.mem_append_left _ hmem)
      obtain ⟨front, back, hwhole, hfront⟩ :=
        hall last (List.mem_append_right _ List.mem_cons_self)
      rw [hoffset] at hfront
      have hsame : data = front := by
        rw [← hrest, List.append_assoc] at hwhole
        exact (List.append_inj hwhole hfront.symm).1
      rw [hwhole, hsame]
      exact List.prefix_append _ _

end Laid

/-- Pieces fetched one after the other: each asks for what follows the one
before it, and only one that leaves more is followed. -/
inductive Walk (offset : γ → Nat) (bytes : γ → List α) (more : γ → Bool) :
    List γ → Prop
  | start {piece : γ} : offset piece = 0 → Walk offset bytes more [piece]
  | next {pieces : List γ} {last piece : γ} :
      Walk offset bytes more (pieces ++ [last]) → more last = true →
      offset piece = offset last + (bytes last).length →
      Walk offset bytes more (pieces ++ [last] ++ [piece])

/-- The piece is cut out of the whole, and says whether anything follows. -/
structure Cut (offset : γ → Nat) (bytes : γ → List α) (more : γ → Bool)
    (whole : List α) (piece : γ) : Prop where
  sits : SitsAt (offset piece) (bytes piece) whole
  more_iff : more piece = true ↔
    offset piece + (bytes piece).length < whole.length
  progress : more piece = true → bytes piece ≠ []

namespace Walk

variable {offset : γ → Nat} {bytes : γ → List α} {more : γ → Bool}
  {pieces : List γ} {last : γ} {whole : List α}

theorem laid (hwalk : Walk offset bytes more pieces) :
    Laid offset bytes pieces (pieces.flatMap bytes) := by
  induction hwalk with
  | @start piece hzero =>
      have hlaid : Laid offset bytes ([] ++ [piece]) ([] ++ bytes piece) :=
        Laid.nil.concat hzero
      simpa using hlaid
  | next hwalk hmore hoffset ih =>
      have hlaid := ih.concat (hoffset.trans ih.length_concat.symm)
      simpa using hlaid

theorem length_dropLast_le (hwalk : Walk offset bytes more pieces)
    (hall : ∀ piece ∈ pieces, Cut offset bytes more whole piece) :
    pieces.dropLast.length ≤ (pieces.dropLast.flatMap bytes).length := by
  induction hwalk with
  | start hzero => simp
  | @next pieces last piece hwalk hmore hoffset ih =>
      have hprefix := ih fun piece hmem =>
        hall piece (List.mem_append_left _ hmem)
      have hlast := (hall last (by simp)).progress hmore
      have hpos := List.length_pos_iff.mpr hlast
      simp only [List.dropLast_concat, List.length_append, List.length_cons,
        List.length_nil, List.flatMap_append, List.flatMap_cons,
        List.flatMap_nil, List.append_nil] at hprefix ⊢
      omega

theorem prefix_whole (hwalk : Walk offset bytes more pieces)
    (hall : ∀ piece ∈ pieces, Cut offset bytes more whole piece) :
    pieces.flatMap bytes <+: whole :=
  hwalk.laid.prefix_of_sitsAt fun piece hmem => (hall piece hmem).sits

theorem length_le (hwalk : Walk offset bytes more pieces)
    (hall : ∀ piece ∈ pieces, Cut offset bytes more whole piece) :
    pieces.length ≤ whole.length + 1 := by
  obtain ⟨rest, hrest⟩ := List.dropLast_prefix pieces
  have hfront := hwalk.length_dropLast_le hall
  have hwhole := (hwalk.prefix_whole hall).length_le
  have hflat : (pieces.dropLast.flatMap bytes).length ≤
      (pieces.flatMap bytes).length := by
    calc (pieces.dropLast.flatMap bytes).length
        ≤ ((pieces.dropLast ++ rest).flatMap bytes).length := by
          rw [List.flatMap_append, List.length_append]
          exact Nat.le_add_right _ _
      _ = (pieces.flatMap bytes).length := by rw [hrest]
  rw [List.length_dropLast] at hfront
  omega

theorem eq_whole (hwalk : Walk offset bytes more (pieces ++ [last]))
    (hall : ∀ piece ∈ pieces ++ [last], Cut offset bytes more whole piece)
    (hlast : more last = false) :
    (pieces ++ [last]).flatMap bytes = whole := by
  apply (hwalk.prefix_whole hall).eq_of_length_le
  rw [hwalk.laid.length_concat]
  apply Nat.le_of_not_lt
  rw [← (hall last (by simp)).more_iff, hlast]
  exact Bool.false_ne_true

end Walk

end Loft.Data
