import Loft.Handler.Outcomes

namespace Loft

open Loft.Data
open Loft.Coap

/-! The memory that Block1 reassembly can take, over every history of sweeps
and requests. -/

structure Reassembly.Within (entry : Reassembly) : Prop where
  data_le : entry.data.length ≤ maxBlock1Body
  /-- Between calls an entry holds at least its first block. -/
  nextNum_pos : 1 ≤ entry.nextNum.toNat
  nextNum_le : entry.nextNum.toNat ≤ 2 ^ 28

namespace Handler

structure Bounded (map : Block1Table) : Prop where
  len_le : map.len ≤ maxBlock1Entries
  entries : ∀ key entry, map.lookup key = some entry → entry.Within

namespace Bounded

variable {map : Block1Table} {key : Block1Key} {now : Instant} {b : Block}

theorem empty : Bounded ∅ where
  len_le := Nat.zero_le _
  entries key entry hentry := by simp at hentry

theorem restrict {map' : Block1Table} (hmap : Bounded map)
    (hlen : map'.len ≤ maxBlock1Entries)
    (hsub : ∀ key entry, map'.lookup key = some entry →
      map.lookup key = some entry) : Bounded map' where
  len_le := hlen
  entries key entry hentry := hmap.entries key entry (hsub key entry hentry)

theorem sweep (hmap : Bounded map) (now : Instant) :
    Bounded (sweepBlock1 now map) := by
  refine hmap.restrict ?_ ?_
  · exact Nat.le_trans (Table.len_retain_le _ _) hmap.len_le
  · intro key entry hentry
    rw [sweepBlock1, Table.lookup_retain, Option.filter_eq_some_iff] at hentry
    exact hentry.1

theorem erase (hmap : Bounded map) (key : Block1Key) :
    Bounded (map.erase key) := by
  apply hmap.restrict (Nat.le_trans (Table.len_erase_le _ _) hmap.len_le)
  intro key' entry hentry
  exact (Table.lookup_erase_eq_some.mp hentry).2

/-- A block goes on only where there is room for its entry. -/
theorem continues {entry : Reassembly} {current : Block1Table}
    (hmap : Bounded map) (hcontinues : Continues now map key b entry current) :
    key ∈ current ∧ current.len ≤ maxBlock1Entries ∧
      ∀ key', key' ≠ key → current.lookup key' = map.lookup key' := by
  cases hcontinues with
  | restart hnum hroom =>
      refine ⟨(AList.mem_insert _).mpr (.inl rfl), ?_, ?_⟩
      · rcases hroom with hmem | hlt
        · rw [Table.len_insert_of_mem _ hmem]
          exact hmap.len_le
        · exact Nat.le_trans (Table.len_insert_le _ _ _) hlt
      · intro key' hother
        exact AList.lookup_insert_ne hother
  | held hnum hentry hnext =>
      refine ⟨AList.lookup_isSome.mp ?_, hmap.len_le, fun _ _ => rfl⟩
      rw [hentry]
      rfl

theorem upload {req : Message} {result : BodyState × Block1Table}
    (hmap : Bounded map) (hnum : b.num.toNat < 2 ^ 28)
    (hresult : Uploading now req map key b result) : Bounded result.2 := by
  have hdropped {entry : Reassembly} {current : Block1Table}
      (hcontinues : Continues now map key b entry current) :
      Bounded (current.erase key) := by
    obtain ⟨-, hlen, hframe⟩ := hmap.continues hcontinues
    apply hmap.restrict (Nat.le_trans (Table.len_erase_le _ _) hlen)
    intro key' entry hentry
    obtain ⟨hother, hheld⟩ := Table.lookup_erase_eq_some.mp hentry
    rwa [← hframe key' hother]
  cases hresult with
  | tableFull hzero habsent hfull => exact hmap
  | noContext hnum hentry => exact hmap
  | outOfSequence hnum hentry hnext => exact hmap.erase key
  | tooLarge hcontinues hlarge => exact hdropped hcontinues
  | completed hcontinues hroom hlast => exact hdropped hcontinues
  | continued hcontinues hroom hmore =>
      obtain ⟨hmem, hlen, hframe⟩ := hmap.continues hcontinues
      have hnext : (b.num + 1).toNat = b.num.toNat + 1 := by
        rw [UInt32.toNat_add, UInt32.toNat_one]
        omega
      refine ⟨?_, ?_⟩
      · rw [Table.len_insert_of_mem _ hmem]
        exact hlen
      · intro key' entry' hentry
        rcases Table.lookup_insert_eq_some.mp hentry with
          ⟨-, rfl⟩ | ⟨hother, hheld⟩
        · refine ⟨by simpa using hroom, ?_, ?_⟩
          · rw [hnext]
            exact Nat.le_add_left 1 _
          · rw [hnext]
            exact hnum
        · rw [hframe key' hother] at hheld
          exact hmap.entries key' entry' hheld

theorem step {h : Handler} (hmap : Bounded map) (event : Event) :
    Bounded (h.step map event) := by
  cases event with
  | sweep now => exact hmap.sweep now
  | serve now req session transport =>
      rw [Handler.step, dispatch_table]
      cases route req session with
      | refused reply => exact hmap
      | getShadow => exact hmap
      | getFirmware => exact hmap
      | post leaf =>
          cases hblock : block1Of req with
          | none => simpa [assembleBody, hblock] using hmap
          | some b =>
              exact hmap.upload (block1Of_num_lt hblock)
                (assembleBody_uploading now session leaf.name map hblock)

end Bounded

theorem bounded_run (h : Handler) (events : List Event) :
    Bounded (h.tableAfter events) := by
  induction events using List.reverseRecOn with
  | nil => exact .empty
  | append_singleton events event ih =>
      rw [tableAfter_concat]
      exact ih.step event

/-! A full table. -/

theorem Verdict.not_unavailable {req reply : Message} {resp : UpstreamResult}
    (h : Verdict req resp reply) : reply.code ≠ Code.serviceUnavailable := by
  cases h with
  | succeeded hstatus hmem htoken =>
      intro hcode
      rw [hcode] at hmem
      exact absurd hmem (by decide)
  | outOfRange hstatus hcode htoken =>
      rw [hcode]
      decide
  | failed hfailed hmem htoken => exact (cls_failure hmem).2

theorem Uploading.unavailable {now : Instant} {req msg : Message}
    {map map' : Block1Table} {key : Block1Key} {b : Block}
    (hresult : Uploading now req map key b (.interim msg, map'))
    (hcode : msg.code = Code.serviceUnavailable) :
    b.num = 0 ∧ key ∉ map ∧ maxBlock1Entries ≤ map.len := by
  cases hresult with
  | tableFull hnum habsent hfull => exact ⟨hnum, habsent, hfull⟩
  | _ =>
      simp only [diagnostic_code, Message.setOptionUint_code,
        Message.response_code] at hcode
      exact absurd hcode (by decide)

/-- 5.03 is what a new upload gets while the table is full, and nothing else
gets it. -/
theorem unavailable_iff_full (h : Handler)
    (upstream : DeviceRequest → UpstreamResult) (now : Instant) (req : Message)
    (session : DeviceSession) (transport : Transport) (map : Block1Table) :
    (((h.dispatch now req session transport map).1.outcome upstream).2.code =
        Code.serviceUnavailable) ↔
      ∃ leaf b, Admitted req session .post leaf ∧ block1Of req = some b ∧
        b.num = 0 ∧ (session.connId, leaf) ∉ map ∧
          maxBlock1Entries ≤ map.len := by
  constructor
  · intro hcode
    cases haction : (h.dispatch now req session transport map).1 with
    | call request finish =>
        rw [haction] at hcode
        exact absurd hcode (dispatch_verdict haction _).not_unavailable
    | reply msg =>
        rw [haction] at hcode
        change msg.code = Code.serviceUnavailable at hcode
        have hreplied := dispatch_replied haction
        generalize (h.dispatch now req session transport map).2 = map'
          at hreplied
        cases hreplied with
        | refused hrefusal =>
            have hclass := hrefusal.cls
            rw [hcode] at hclass
            exact absurd hclass (by decide)
        | uploading hadmitted hblock hresult =>
            exact ⟨_, _, hadmitted, hblock, hresult.unavailable hcode⟩
  · rintro ⟨leaf, b, hadmitted, hblock, hnum, habsent, hfull⟩
    obtain ⟨upload, rfl, hroute⟩ := route_post hadmitted
    rw [dispatch_post h now transport map hroute]
    rw [assembleBody_of_uploading hblock (.tableFull hnum habsent hfull)]
    rfl

/-- The memory taken is bounded in every history, and an upload that has its
entry keeps it. -/
theorem block1_bounded (h : Handler) (events : List Event) :
    Bounded (h.tableAfter events) ∧
    (∀ now key entry,
      (h.tableAfter (events ++ [.sweep now])).lookup key = some entry →
        now.durationSince entry.touched < block1IdleTimeout) ∧
    ∀ upstream now req session transport leaf,
      Admitted req session .post leaf →
      (session.connId, leaf) ∈ h.tableAfter events →
        ((h.dispatch now req session transport
            (h.tableAfter events)).1.outcome upstream).2.code ≠
          Code.serviceUnavailable ∧
        (h.handle upstream now req session transport
            (h.tableAfter events)).2.1.code ≠ Code.serviceUnavailable := by
  have hmap := bounded_run h events
  refine ⟨hmap, ?_, ?_⟩
  · intro now key entry hentry
    rw [tableAfter_concat, Handler.step, sweepBlock1, Table.lookup_retain,
      Option.filter_eq_some_iff] at hentry
    exact of_decide_eq_true hentry.2
  · intro upstream now req session transport leaf hadmitted hmem
    have hleaf {leaf' : String} (hother : Admitted req session .post leaf') :
        leaf' = leaf := by
      have hpath := hother.path.symm.trans hadmitted.path
      simpa using hpath
    refine ⟨?_, ?_⟩
    · rw [ne_eq, unavailable_iff_full]
      rintro ⟨leaf', b, hother, -, -, habsent, -⟩
      rw [hleaf hother] at habsent
      exact habsent hmem
    · rw [handle_eq, ne_eq]
      dsimp only
      rw [unavailable_iff_full]
      rintro ⟨leaf', b, hother, -, -, habsent, hfull⟩
      rw [hleaf hother] at habsent
      -- an entry that was swept out has left its room
      have hlt := Table.len_retain_lt hmem habsent
      have hle := hmap.len_le
      unfold sweepBlock1 at hfull
      omega

end Handler

end Loft
