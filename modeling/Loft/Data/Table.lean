import Mathlib.Data.List.AList

namespace Loft.Data

/-! Finite tables: Mathlib's association lists at a plain value type, with the
bulk removal that hash maps call `retain`. -/

abbrev Table (κ ν : Type) := AList (fun _ : κ => ν)

namespace Table

variable {κ ν : Type}

def len (t : Table κ ν) : Nat :=
  t.entries.length

def retain (keep : κ → ν → Bool) (t : Table κ ν) : Table κ ν where
  entries := t.entries.filter fun entry => keep entry.1 entry.2
  nodupKeys := t.nodupKeys.sublist List.filter_sublist

@[simp] theorem entries_retain (keep : κ → ν → Bool) (t : Table κ ν) :
    (t.retain keep).entries =
      t.entries.filter fun entry => keep entry.1 entry.2 :=
  rfl

theorem len_retain_le (keep : κ → ν → Bool) (t : Table κ ν) :
    (t.retain keep).len ≤ t.len :=
  List.length_filter_le _ _

theorem retain_retain (keep keep' : κ → ν → Bool) (t : Table κ ν)
    (himp : ∀ key value, keep' key value = true → keep key value = true) :
    (t.retain keep).retain keep' = t.retain keep' := by
  apply AList.ext
  rw [entries_retain, entries_retain, entries_retain, List.filter_filter]
  apply List.filter_congr
  intro entry _
  by_cases hkeep : keep' entry.1 entry.2 = true
  · simp [hkeep, himp _ _ hkeep]
  · simp [hkeep]

theorem len_retain_lt {keep : κ → ν → Bool} {t : Table κ ν} {key : κ}
    (hmem : key ∈ t) (hgone : key ∉ t.retain keep) :
    (t.retain keep).len < t.len := by
  have hsub : List.Sublist (t.retain keep).entries t.entries :=
    List.filter_sublist
  apply Nat.lt_of_le_of_ne hsub.length_le
  intro hlen
  have hsame : t.retain keep = t := AList.ext (hsub.eq_of_length hlen)
  rw [hsame] at hgone
  exact hgone hmem

variable [DecidableEq κ]

theorem lookup_retain (keep : κ → ν → Bool) (t : Table κ ν) (key : κ) :
    (t.retain keep).lookup key = (t.lookup key).filter (keep key) := by
  apply Option.ext
  intro value
  rw [Option.filter_eq_some_iff, ← Option.mem_def, AList.mem_lookup_iff,
    entries_retain, List.mem_filter, ← AList.mem_lookup_iff, Option.mem_def]

theorem mem_entries_iff_lookup (t : Table κ ν) (entry : (_ : κ) × ν) :
    entry ∈ t.entries ↔ t.lookup entry.1 = some entry.2 := by
  rw [← AList.mem_lookup_iff, Option.mem_def]

theorem any_entries_iff [DecidableEq ν] {t : Table κ ν} {value : ν} :
    (t.entries.any fun entry => entry.2 == value) = true ↔
      ∃ key, t.lookup key = some value := by
  rw [List.any_eq_true]
  constructor
  · intro hboth
    obtain ⟨entry, hmem, hvalue⟩ := hboth
    refine ⟨entry.1, ?_⟩
    rw [← beq_iff_eq.mp hvalue]
    exact (mem_entries_iff_lookup t entry).mp hmem
  · intro hboth
    obtain ⟨key, hlookup⟩ := hboth
    exact ⟨⟨key, value⟩, (mem_entries_iff_lookup t ⟨key, value⟩).mpr hlookup,
      beq_self_eq_true value⟩

theorem lookup_erase_eq_some {t : Table κ ν} {key key' : κ} {value : ν} :
    AList.lookup key' (t.erase key) = some value ↔
      key' ≠ key ∧ t.lookup key' = some value := by
  by_cases hsame : key' = key
  · subst hsame
    rw [AList.lookup_erase]
    simp
  · simp [AList.lookup_erase_ne hsame, hsame]

theorem lookup_insert_eq_some {t : Table κ ν} {key key' : κ}
    {value value' : ν} :
    AList.lookup key' (t.insert key value) = some value' ↔
      key' = key ∧ value = value' ∨
        key' ≠ key ∧ t.lookup key' = some value' := by
  by_cases hsame : key' = key
  · subst hsame
    rw [AList.lookup_insert]
    simp
  · simp [AList.lookup_insert_ne hsame, hsame]

/-- Removal of one's own entry takes that entry and no other. -/
theorem lookup_eraseIf_eq_some [DecidableEq ν] {t : Table κ ν}
    {key key' : κ} {value value' : ν} :
    (if t.lookup key = some value then t.erase key else t).lookup key' =
        some value' ↔
      t.lookup key' = some value' ∧ (key' = key → value' ≠ value) := by
  by_cases hsame : key' = key
  · subst hsame
    split_ifs with hmine
    · simp [hmine, eq_comm]
    · constructor
      · intro hentry
        exact ⟨hentry, fun _ heq => hmine (heq ▸ hentry)⟩
      · exact And.left
  · split_ifs with hmine
    · simp [AList.lookup_erase_ne hsame, hsame]
    · simp [hsame]

theorem len_erase_le (key : κ) (t : Table κ ν) :
    len (t.erase key) ≤ t.len :=
  List.Sublist.length_le (List.kerase_sublist key t.entries)

theorem len_erase_of_mem {key : κ} {t : Table κ ν} (hmem : key ∈ t) :
    len (t.erase key) + 1 = t.len := by
  have hkeys : len (t.erase key) = (t.keys.erase key).length := by
    rw [← AList.keys_erase, AList.keys, List.keys, List.length_map, len]
  have hlen : t.keys.length = t.len := by
    rw [AList.keys, List.keys, List.length_map, len]
  have hpos := List.length_pos_of_mem (AList.mem_keys.mpr hmem)
  rw [hkeys, List.length_erase_of_mem (AList.mem_keys.mpr hmem)]
  omega

theorem len_insert_le (key : κ) (value : ν) (t : Table κ ν) :
    len (t.insert key value) ≤ t.len + 1 :=
  Nat.succ_le_succ (len_erase_le key t)

theorem len_insert_of_mem {key : κ} (value : ν) {t : Table κ ν}
    (hmem : key ∈ t) : len (t.insert key value) = t.len :=
  len_erase_of_mem hmem

/-- A table is, up to order, any one of its entries and the rest. -/
theorem perm_entries {t : Table κ ν} {key : κ} {value : ν}
    (h : t.lookup key = some value) :
    t.entries.Perm (⟨key, value⟩ :: (t.erase key).entries) := by
  have hmem : key ∈ t.entries.keys := by
    rw [← AList.keys, ← AList.mem_keys, ← AList.lookup_isSome, h]
    rfl
  obtain ⟨value', front, back, -, hentries, herase⟩ :=
    List.exists_of_kerase hmem
  have hsame : value' = value := by
    have hlookup : t.lookup key = some value' := by
      apply (mem_entries_iff_lookup t ⟨key, value'⟩).mp
      rw [hentries]
      exact List.mem_append_right _ List.mem_cons_self
    exact Option.some.inj (hlookup.symm.trans h)
  subst hsame
  have hrest : (t.erase key).entries = front ++ back := herase
  rw [hentries, hrest]
  exact List.perm_middle

/-- Where different keys have different values, so have the entries. -/
theorem nodup_values {t : Table κ ν}
    (hinjective : ∀ key key' value, t.lookup key = some value →
      t.lookup key' = some value → key = key') :
    (t.entries.map Sigma.snd).Nodup := by
  have hnodup : t.entries.Nodup := t.nodupKeys.nodup
  apply hnodup.map_on
  intro entry hmem entry' hmem' hsame
  have hentry := (mem_entries_iff_lookup t entry).mp hmem
  have hentry' := (mem_entries_iff_lookup t entry').mp hmem'
  rw [← hsame] at hentry'
  exact Sigma.ext (hinjective _ _ _ hentry hentry') (heq_of_eq hsame)

end Table

end Loft.Data
