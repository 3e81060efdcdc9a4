import Loft.Coap.Message

namespace Loft.Coap

open Loft.Data

/-! The options+payload region has exactly one encoding for each sorted option
list and payload, and the decoder accepts that encoding only. -/

def maxOptionLen : Nat := 65804

theorem nibbleExt_small {value : Nat} (h : value < 13) :
    nibbleExt value = (UInt8.ofNat value, []) := by
  simp [nibbleExt, h]

theorem nibbleExt_byte {value : Nat} (hlow : 13 ≤ value) (hhigh : value < 269) :
    nibbleExt value = (13, [UInt8.ofNat (value - 13)]) := by
  simp [nibbleExt, hhigh, Nat.not_lt.mpr hlow]

theorem nibbleExt_word {value : Nat} (hlow : 269 ≤ value) :
    nibbleExt value = (14, Octets.be16 (value - 269)) := by
  have hthirteen : ¬ value < 13 := by omega
  simp [nibbleExt, hthirteen, Nat.not_lt.mpr hlow]

/-- Nibble 15 stays free for the payload marker. -/
theorem nibbleExt_nibble_lt (value : Nat) : (nibbleExt value).1.toNat < 15 := by
  unfold nibbleExt
  split_ifs with hsmall
  · rw [UInt8.toNat_ofNat']
    omega
  · change 13 < 15
    omega
  · change 14 < 15
    omega

theorem readNibbleExt_nibbleExt (value : Nat) (hvalue : value ≤ maxOptionLen)
    (rest : Octets) :
    readNibbleExt (nibbleExt value).1 ((nibbleExt value).2 ++ rest) =
      .ok (value, rest) := by
  unfold maxOptionLen at hvalue
  rcases Nat.lt_or_ge value 13 with hsmall | hbig
  · have hle : UInt8.ofNat value ≤ 12 := by
      rw [UInt8.le_iff_toNat_le, UInt8.toNat_ofNat']
      change value % 256 ≤ 12
      omega
    have hmod : value % 256 = value := by omega
    simp [nibbleExt_small hsmall, readNibbleExt, hle, UInt8.toNat_ofNat', hmod]
  · rcases Nat.lt_or_ge value 269 with hbyte | hword
    · have hadd : 13 + (value - 13) % 256 = value := by omega
      simp [nibbleExt_byte hbig hbyte, readNibbleExt, UInt8.toNat_ofNat', hadd]
    · have hof := Octets.ofBe16_be16 (value - 269) (by omega)
      have hadd : 269 + (value - 269) = value := by omega
      simp only [nibbleExt_word hword, readNibbleExt, Octets.be16,
        List.cons_append, List.nil_append, hof, hadd]
      rfl

theorem readNibbleExt_sound {nibble : UInt8} {buf rest : Octets} {value : Nat}
    (h : readNibbleExt nibble buf = .ok (value, rest)) :
    value ≤ maxOptionLen ∧ (nibbleExt value).1 = nibble ∧
      buf = (nibbleExt value).2 ++ rest := by
  unfold readNibbleExt at h
  unfold maxOptionLen
  split_ifs at h with hsmall hbyte hword
  · cases h
    have hle : nibble.toNat ≤ 12 := UInt8.le_iff_toNat_le.mp hsmall
    rw [nibbleExt_small (by omega)]
    exact ⟨by omega, UInt8.ofNat_toNat, rfl⟩
  · split at h <;> cases h
    rename_i first
    have hlt := first.toNat_lt
    rw [nibbleExt_byte (by omega) (by omega)]
    refine ⟨by omega, hbyte.symm, ?_⟩
    rw [Nat.add_sub_cancel_left, UInt8.ofNat_toNat]
    rfl
  · split at h <;> cases h
    rename_i a b
    have hlt := Octets.ofBe16_lt a b
    rw [nibbleExt_word (by omega), Nat.add_sub_cancel_left, Octets.be16_ofBe16]
    exact ⟨by omega, hword.symm, rfl⟩

/-! Option lists a region can carry: numbers ascending from `prev`, every
value short enough for its length field. -/

structure EncodableFrom (prev : UInt16) (options : List MessageOption) :
    Prop where
  ascending : (prev :: options.map Prod.fst).Pairwise (· ≤ ·)
  values : ∀ option ∈ options, option.2.length ≤ maxOptionLen

theorem encodableFrom_nil (prev : UInt16) : EncodableFrom prev [] :=
  ⟨by simp, by simp⟩

theorem encodableFrom_cons {prev : UInt16} {option : MessageOption}
    {rest : List MessageOption} :
    EncodableFrom prev (option :: rest) ↔
      prev ≤ option.1 ∧ option.2.length ≤ maxOptionLen ∧
        EncodableFrom option.1 rest := by
  constructor
  · intro hboth
    obtain ⟨hascending, hvalues⟩ := hboth
    simp only [List.map_cons, List.pairwise_cons] at hascending
    refine ⟨hascending.1 _ List.mem_cons_self, hvalues _ List.mem_cons_self, ?_⟩
    exact ⟨List.pairwise_cons.mpr hascending.2, fun other hother =>
      hvalues other (List.mem_cons_of_mem option hother)⟩
  · intro hboth
    obtain ⟨hprev, hlen, hascending, hvalues⟩ := hboth
    refine ⟨?_, List.forall_mem_cons.mpr ⟨hlen, hvalues⟩⟩
    rw [List.map_cons, List.pairwise_cons]
    refine ⟨?_, hascending⟩
    intro number hnumber
    rcases List.mem_cons.mp hnumber with rfl | htail
    · exact hprev
    · exact UInt16.le_trans hprev
        ((List.pairwise_cons.mp hascending).1 number htail)

theorem encodableFrom_zero {options : List MessageOption} :
    EncodableFrom 0 options ↔
      options.Pairwise (fun left right => left.1 ≤ right.1) ∧
        ∀ option ∈ options, option.2.length ≤ maxOptionLen := by
  constructor
  · intro hboth
    obtain ⟨hascending, hvalues⟩ := hboth
    exact ⟨List.pairwise_map.mp (List.pairwise_cons.mp hascending).2, hvalues⟩
  · intro hboth
    obtain ⟨hascending, hvalues⟩ := hboth
    refine ⟨List.pairwise_cons.mpr ⟨?_, List.pairwise_map.mpr hascending⟩,
      hvalues⟩
    intro number _
    exact UInt16.zero_le

theorem add_delta {prev number : UInt16} (h : prev ≤ number) :
    prev.toNat + (number - prev).toNat = number.toNat := by
  have hle := UInt16.le_iff_toNat_le.mp h
  rw [UInt16.toNat_sub_of_le _ _ h]
  omega

theorem decodeOptionsLoop_encodeOption {prev : UInt16} {option : MessageOption}
    (hprev : prev ≤ option.1) (hlen : option.2.length ≤ maxOptionLen)
    (rest : Octets) (msg : Message) :
    decodeOptionsLoop prev (encodeOption prev option ++ rest) msg =
      decodeOptionsLoop option.1 rest
        { msg with options := msg.options ++ [option] } := by
  have hmod : option.2.length % 2 ^ 32 = option.2.length := by
    unfold maxOptionLen at hlen
    omega
  have hdelta := nibbleExt_nibble_lt (option.1 - prev).toNat
  have hlow := nibbleExt_nibble_lt option.2.length
  have hadd := add_delta hprev
  have hnumber := option.1.toNat_lt
  have hmarker : Octets.packNibbles (nibbleExt (option.1 - prev).toNat).1
      (nibbleExt option.2.length).1 ≠ 0xFF := by
    intro heq
    have hnat := congrArg UInt8.toNat heq
    rw [Octets.toNat_packNibbles (by omega) (by omega)] at hnat
    change _ = 255 at hnat
    omega
  have hreadDelta := readNibbleExt_nibbleExt
    (option.1 - prev).toNat (by unfold maxOptionLen; omega)
    ((nibbleExt option.2.length).2 ++ (option.2 ++ rest))
  have hreadLen := readNibbleExt_nibbleExt _ hlen (option.2 ++ rest)
  simp only [encodeOption, hmod, List.cons_append, List.append_assoc]
  rw [decodeOptionsLoop, if_neg hmarker,
    Octets.packNibbles_high (by omega) (by omega),
    Octets.packNibbles_low (by omega) (by omega)]
  split
  · rename_i e herror
    rw [hreadDelta] at herror
    cases herror
  · rename_i delta buf hok
    rw [hreadDelta] at hok
    cases hok
    split
    · rename_i e herror
      rw [hreadLen] at herror
      cases herror
    · rename_i len buf hok
      rw [hreadLen] at hok
      cases hok
      have hfits : ¬ (option.2 ++ rest).length < option.2.length := by
        rw [List.length_append]
        omega
      simp only [hfits, if_false, hadd, hnumber, if_true,
        UInt16.ofNat_toNat, List.drop_left, List.take_left]

theorem decodeOptionsLoop_encodePayload (number : UInt16) (payload : Octets)
    (msg : Message) (hmsg : msg.payload = []) :
    decodeOptionsLoop number (encodePayload payload) msg =
      .ok { msg with payload := payload } := by
  cases payload with
  | nil =>
      cases msg
      cases hmsg
      simp [encodePayload, decodeOptionsLoop]
  | cons byte rest => simp [encodePayload, decodeOptionsLoop]

theorem decodeOptionsLoop_encode {prev : UInt16}
    {options : List MessageOption} (hoptions : EncodableFrom prev options)
    (payload : Octets) (msg : Message) (hmsg : msg.payload = []) :
    decodeOptionsLoop prev
        (encodeOptionsFrom prev options ++ encodePayload payload) msg =
      .ok { msg with options := msg.options ++ options, payload := payload } := by
  induction options generalizing prev msg with
  | nil =>
      rw [encodeOptionsFrom, List.nil_append,
        decodeOptionsLoop_encodePayload prev payload msg hmsg,
        List.append_nil]
  | cons option rest ih =>
      obtain ⟨hprev, hlen, hrest⟩ := encodableFrom_cons.mp hoptions
      rw [encodeOptionsFrom, List.append_assoc,
        decodeOptionsLoop_encodeOption hprev hlen,
        ih hrest { msg with options := msg.options ++ [option] } hmsg]
      simp only [List.append_assoc, List.singleton_append]

theorem encodeOption_of_read {number : UInt16} {byte : UInt8}
    {buf buf' buf'' : Octets} {delta len : Nat}
    (hdelta : readNibbleExt (byte >>> 4) buf = .ok (delta, buf'))
    (hlen : readNibbleExt (byte &&& 0x0F) buf' = .ok (len, buf''))
    (hfits : len ≤ buf''.length) (hextended : number.toNat + delta < 65536) :
    number ≤ UInt16.ofNat (number.toNat + delta) ∧
      (buf''.take len).length ≤ maxOptionLen ∧
      byte :: buf = encodeOption number
          (UInt16.ofNat (number.toNat + delta), buf''.take len) ++
        buf''.drop len := by
  obtain ⟨-, hdeltaNibble, rfl⟩ := readNibbleExt_sound hdelta
  obtain ⟨hlenBound, hlenNibble, rfl⟩ := readNibbleExt_sound hlen
  have htake : (buf''.take len).length = len := List.length_take_of_le hfits
  have hmod : len % 2 ^ 32 = len := by
    unfold maxOptionLen at hlenBound
    omega
  have hnat : (UInt16.ofNat (number.toNat + delta)).toNat =
      number.toNat + delta := by
    rw [UInt16.toNat_ofNat']
    omega
  have hle : number ≤ UInt16.ofNat (number.toNat + delta) := by
    rw [UInt16.le_iff_toNat_le, hnat]
    omega
  have hsub : (UInt16.ofNat (number.toNat + delta) - number).toNat = delta := by
    have := add_delta hle
    omega
  refine ⟨hle, by omega, ?_⟩
  simp only [encodeOption, hsub, htake, hmod, hdeltaNibble, hlenNibble,
    Octets.packNibbles_split, List.cons_append, List.append_assoc,
    List.take_append_drop]

theorem decodeOptionsLoop_sound (number : UInt16) (buf : Octets)
    (msg : Message) :
    ∀ {decoded}, msg.payload = [] →
      decodeOptionsLoop number buf msg = .ok decoded →
      ∃ options payload, EncodableFrom number options ∧
        encodeOptionsFrom number options ++ encodePayload payload = buf ∧
        decoded = { msg with
          options := msg.options ++ options, payload := payload } := by
  fun_induction decodeOptionsLoop number buf msg with
  | case1 number msg =>
      intro decoded hmsg h
      cases h
      refine ⟨[], [], encodableFrom_nil number, rfl, ?_⟩
      rw [List.append_nil, ← hmsg]
  | case2 number msg buf hempty =>
      intro decoded hmsg h
      cases h
  | case3 number msg buf hempty =>
      intro decoded hmsg h
      cases h
      refine ⟨[], buf, encodableFrom_nil number, ?_, by rw [List.append_nil]⟩
      rw [encodeOptionsFrom, encodePayload, if_neg hempty]
      rfl
  | case4 number msg byte buf hmarker e hdelta =>
      intro decoded hmsg h
      cases h
  | case5 number msg byte buf hmarker delta buf' hdelta e hlen =>
      intro decoded hmsg h
      cases h
  | case6 number msg byte buf hmarker delta buf' hdelta len buf'' hlen hshort =>
      intro decoded hmsg h
      cases h
  | case7 number msg byte buf hmarker delta buf' hdelta len buf'' hlen hfits
      hextended ih =>
      intro decoded hmsg h
      obtain ⟨options, payload, hencodable, hencode, rfl⟩ := ih hmsg h
      obtain ⟨hle, hvalue, hhead⟩ :=
        encodeOption_of_read hdelta hlen (Nat.not_lt.mp hfits) hextended
      refine ⟨(UInt16.ofNat (number.toNat + delta), buf''.take len) :: options, payload,
        encodableFrom_cons.mpr ⟨hle, hvalue, hencodable⟩, ?_, ?_⟩
      · rw [encodeOptionsFrom, List.append_assoc, hencode, hhead]
      · simp only [List.append_assoc, List.singleton_append]
  | case8 number msg byte buf hmarker delta buf' hdelta len buf'' hlen hfits
      hextended =>
      intro decoded hmsg h
      cases h

theorem decodeOptionsAndPayload_eq_ok_iff {buf : Octets} {code : UInt8}
    {token : Octets} {decoded : Message} :
    decodeOptionsAndPayload buf { code := code, token := token } = .ok decoded ↔
      decoded.code = code ∧ decoded.token = token ∧
        EncodableFrom 0 decoded.options ∧
        encodeOptionsFrom 0 decoded.options ++ encodePayload decoded.payload =
          buf := by
  constructor
  · intro h
    obtain ⟨options, payload, hencodable, hencode, rfl⟩ :=
      decodeOptionsLoop_sound 0 buf { code := code, token := token } rfl h
    exact ⟨rfl, rfl, hencodable, hencode⟩
  · intro hboth
    obtain ⟨rfl, rfl, hencodable, rfl⟩ := hboth
    exact decodeOptionsLoop_encode hencodable decoded.payload _ rfl

/-! Stable sorting, as `encode_options_and_payload` does it. -/

/-- `sorted` is `options` stably sorted by number: ascending, a permutation,
and options of one number stay in their order. -/
structure StablySorted (options sorted : List MessageOption) : Prop where
  ascending : sorted.Pairwise fun left right => left.1 ≤ right.1
  perm : sorted.Perm options
  stable : ∀ number : UInt16,
    (sorted.filter fun option => option.1 == number) =
      options.filter fun option => option.1 == number

private theorem numberLe_trans (a b c : MessageOption)
    (hab : numberLe a b = true) (hbc : numberLe b c = true) :
    numberLe a c = true :=
  decide_eq_true
    (UInt16.le_trans (of_decide_eq_true hab) (of_decide_eq_true hbc))

private theorem numberLe_total (a b : MessageOption) :
    (numberLe a b || numberLe b a) = true := by
  rcases UInt16.le_total a.1 b.1 with h | h <;> simp [numberLe, h]

theorem sortByNumber_pairwise (options : List MessageOption) :
    (sortByNumber options).Pairwise fun left right => left.1 ≤ right.1 :=
  (List.pairwise_mergeSort numberLe_trans numberLe_total options).imp
    of_decide_eq_true

theorem sortByNumber_perm (options : List MessageOption) :
    (sortByNumber options).Perm options :=
  List.mergeSort_perm options _

theorem sortByNumber_stable (options : List MessageOption) (number : UInt16) :
    ((sortByNumber options).filter fun option => option.1 == number) =
      options.filter fun option => option.1 == number := by
  have hsame : (options.filter fun option => option.1 == number).Pairwise
      fun left right => numberLe left right = true := by
    rw [List.pairwise_iff_forall_sublist]
    intro left right hsub
    have hleft := hsub.subset (show left ∈ [left, right] by simp)
    have hright := hsub.subset (show right ∈ [left, right] by simp)
    simp only [List.mem_filter, beq_iff_eq] at hleft hright
    rw [numberLe, hleft.2, hright.2]
    exact decide_eq_true (UInt16.le_refl number)
  have hsublist : (options.filter fun option => option.1 == number).Sublist
      (sortByNumber options) :=
    List.sublist_mergeSort numberLe_trans numberLe_total hsame
      List.filter_sublist
  have hfilter := hsublist.filter fun option => option.1 == number
  rw [List.filter_filter] at hfilter
  simp only [Bool.and_self] at hfilter
  exact (hfilter.eq_of_length
    (((sortByNumber_perm options).filter _).length_eq).symm).symm

theorem sortByNumber_stablySorted (options : List MessageOption) :
    StablySorted options (sortByNumber options) :=
  ⟨sortByNumber_pairwise options, sortByNumber_perm options,
    sortByNumber_stable options⟩

theorem sortByNumber_of_ascending {options : List MessageOption}
    (h : options.Pairwise fun left right => left.1 ≤ right.1) :
    sortByNumber options = options :=
  List.mergeSort_of_pairwise (h.imp decide_eq_true)

theorem sortByNumber_encodable {options : List MessageOption}
    (hvalues : ∀ option ∈ options, option.2.length ≤ maxOptionLen) :
    EncodableFrom 0 (sortByNumber options) :=
  encodableFrom_zero.mpr ⟨sortByNumber_pairwise options, fun option hoption =>
    hvalues option ((sortByNumber_perm options).mem_iff.mp hoption)⟩

/-! How long a region gets. -/

theorem length_payload_le (msg : Message) :
    msg.payload.length ≤ (encodeOptionsAndPayload msg).length := by
  rw [encodeOptionsAndPayload, List.length_append, encodePayload]
  split_ifs with hempty
  · rw [List.isEmpty_iff.mp hempty]
    exact Nat.zero_le _
  · rw [List.length_cons]
    omega

/-- Each option takes a byte and at most two for each of its extensions. -/
def optionsWeight (options : List MessageOption) : Nat :=
  (options.map fun option => option.2.length + 5).sum

theorem length_nibbleExt_le (value : Nat) : (nibbleExt value).2.length ≤ 2 := by
  unfold nibbleExt
  split_ifs
  · exact Nat.zero_le 2
  · exact Nat.le_succ 1
  · exact Nat.le_refl 2

theorem length_encodeOptionsFrom_le (prev : UInt16)
    (options : List MessageOption) :
    (encodeOptionsFrom prev options).length ≤ optionsWeight options := by
  induction options generalizing prev with
  | nil => exact Nat.le_refl 0
  | cons option rest ih =>
      have hrest := ih option.1
      have hdelta := length_nibbleExt_le (option.1 - prev).toNat
      have hlen := length_nibbleExt_le (option.2.length % 2 ^ 32)
      unfold optionsWeight at hrest ⊢
      simp only [encodeOptionsFrom, encodeOption, List.length_append,
        List.length_cons, List.map_cons, List.sum_cons]
      omega

theorem length_encodeOptionsAndPayload_le (msg : Message) :
    (encodeOptionsAndPayload msg).length ≤
      optionsWeight msg.options + msg.payload.length + 1 := by
  have hoptions := length_encodeOptionsFrom_le 0 (sortByNumber msg.options)
  have hsorted : optionsWeight (sortByNumber msg.options) =
      optionsWeight msg.options :=
    ((sortByNumber_stablySorted msg.options).perm.map _).sum_nat
  have hpayload : (encodePayload msg.payload).length ≤
      msg.payload.length + 1 := by
    rw [encodePayload]
    split_ifs
    · exact Nat.zero_le _
    · exact Nat.le_refl _
  rw [encodeOptionsAndPayload, List.length_append]
  omega

theorem optionsWeight_append (options more : List MessageOption) :
    optionsWeight (options ++ more) =
      optionsWeight options + optionsWeight more := by
  rw [optionsWeight, List.map_append, List.sum_append]
  rfl

theorem optionsWeight_filter_le (p : MessageOption → Bool)
    (options : List MessageOption) :
    optionsWeight (options.filter p) ≤ optionsWeight options := by
  induction options with
  | nil => exact Nat.le_refl 0
  | cons option rest ih =>
      have hcons : optionsWeight (option :: rest) =
          option.2.length + 5 + optionsWeight rest := rfl
      rw [List.filter_cons, hcons]
      split_ifs
      · exact Nat.add_le_add_left ih _
      · exact Nat.le_trans ih (Nat.le_add_left _ _)

theorem optionsWeight_setOptionUint_le (msg : Message) (number : UInt16)
    (value : UInt32) :
    optionsWeight (msg.setOptionUint number value).options ≤
      optionsWeight msg.options + 9 := by
  have hkept := optionsWeight_filter_le (fun option => option.1 != number)
    msg.options
  have hvalue := length_encodeUint_le value
  have hpushed : optionsWeight [(number, encodeUint value)] =
      (encodeUint value).length + 5 := rfl
  rw [Message.setOptionUint, optionsWeight_append, hpushed]
  omega

theorem optionsWeight_pushOption (msg : Message) (number : UInt16)
    (value : Octets) :
    optionsWeight (msg.pushOption number value).options =
      optionsWeight msg.options + (value.length + 5) :=
  optionsWeight_append msg.options [(number, value)]

end Loft.Coap
