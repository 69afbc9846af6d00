import SimpleServer.Proof.HpackLiteral

/-!
# Which integers of a header block are read right

An integer is a prefix of the first byte and, if its bits are all ones, groups of seven bits
in the bytes behind it. The decoder shifts each group as an `int`, so that only groups below
`2 ^ 31` are added up as they should; the fifth group may hold three bits, and there must be
no sixth.

* `ShiftsFit`: the shifts of all groups have a meaning.
* `decodeIntegerLoop_fits`, `decodeIntegerLoop_undefined`: the loop of the decoder.
* `decodesRight_iff`: on which bytes the decoder is right.
* `hpackIntegers_exact`: that, and which encoded values come back.
-/

namespace SimpleServer.Hpack

/-! ## Groups of seven bits -/

/-- The sum of the groups, each shifted by seven more bits. -/
def groupsValue (bytes : Bytes) : ℕ :=
  (bytes.mapIdx fun i b => b.toNat % 128 * 2 ^ (7 * i)).sum

/-- All bytes but the last have the continuation bit. -/
def Complete (bytes : Bytes) : Prop :=
  ∃ init last, bytes = init ++ [last] ∧ (∀ b ∈ init, 0x80 ≤ b.toNat) ∧ last.toNat < 0x80

/-- The bytes up to the first one without the continuation bit. -/
def continuationBytes : Bytes → Bytes
  | [] => []
  | b :: bytes => if b.toNat < 0x80 then [b] else b :: continuationBytes bytes

/-- The groups from the one with number `i` on can be shifted: an amount below the width of an
`int`, and a result that fits into one. -/
def ShiftsFit : ℕ → Bytes → Prop
  | _, [] => True
  | i, b :: bytes => 7 * i < 32 ∧ b.toNat % 128 * 2 ^ (7 * i) < 2 ^ 31 ∧ ShiftsFit (i + 1) bytes

instance decidableShiftsFit : ∀ (i : ℕ) (bytes : Bytes), Decidable (ShiftsFit i bytes)
  | _, [] => isTrue trivial
  | i, _ :: bytes =>
    @instDecidableAnd _ _ _ (@instDecidableAnd _ _ _ (decidableShiftsFit (i + 1) bytes))

@[simp] theorem groupsValue_nil : groupsValue [] = 0 := rfl

theorem groupsValue_cons (b : UInt8) (bytes : Bytes) :
    groupsValue (b :: bytes) = b.toNat % 128 + 128 * groupsValue bytes := by
  have hshift : (bytes.mapIdx fun i b => b.toNat % 128 * 2 ^ (7 * (i + 1))) =
      (bytes.mapIdx fun i b => b.toNat % 128 * 2 ^ (7 * i)).map (128 * ·) := by
    rw [List.mapIdx_eq_zipIdx_map, List.mapIdx_eq_zipIdx_map, List.map_map]
    apply List.map_congr_left
    intro p _
    have hpow : 2 ^ (7 * (p.2 + 1)) = 128 * 2 ^ (7 * p.2) := by
      rw [Nat.mul_add, pow_add, Nat.mul_comm]
      rfl
    simp only [hpow, Nat.mul_left_comm, Function.comp_apply]
  unfold groupsValue
  rw [List.mapIdx_cons, List.sum_cons, hshift, List.sum_map_mul_left, List.map_id', Nat.mul_zero,
    pow_zero, Nat.mul_one]

/-- A group that can be shifted, with the value of the groups behind it. -/
theorem group_fits {i group value : ℕ} (hi : i < 5) (hsmall : group < 128)
    (hgroup : group * 2 ^ (7 * i) < 2 ^ 31) (hvalue : value * 2 ^ (7 * (i + 1)) < 2 ^ 31) :
    (group + 128 * value) * 2 ^ (7 * i) < 2 ^ 31 := by
  have hpow : 2 ^ (7 * (i + 1)) = 2 ^ (7 * i) * 128 := by ring
  by_cases hlast : i = 4
  · -- behind the fifth group there is nothing
    subst hlast
    have hnone : value = 0 := by omega
    subst hnone
    simpa using hgroup
  · obtain ⟨k, hk⟩ : ∃ k, 2 ^ 31 = k * 2 ^ (7 * (i + 1)) :=
      ⟨2 ^ (31 - 7 * (i + 1)), by rw [← pow_add]; congr 1; omega⟩
    rw [hk] at hvalue ⊢
    have hlt : value < k := Nat.lt_of_mul_lt_mul_right hvalue
    rw [hpow, ← mul_assoc, mul_comm (k * _) 128, ← mul_assoc]
    apply Nat.mul_lt_mul_of_pos_right
    · omega
    · positivity

/-- Groups that can all be shifted are a number of 31 bits. -/
theorem ShiftsFit.value_lt {i : ℕ} {bytes : Bytes} (h : ShiftsFit i bytes) :
    groupsValue bytes * 2 ^ (7 * i) < 2 ^ 31 := by
  induction bytes generalizing i with
  | nil => simp
  | cons b bytes ih =>
    obtain ⟨hamount, hgroup, hrest⟩ := h
    have htail := ih hrest
    rw [groupsValue_cons]
    apply group_fits
    · omega
    · omega
    · exact hgroup
    · exact htail

theorem continuationBytes_append {bytes : Bytes} (h : Complete bytes) (rest : Bytes) :
    continuationBytes (bytes ++ rest) = bytes := by
  obtain ⟨init, last, rfl, hinit, hlast⟩ := h
  induction init with
  | nil => simp [continuationBytes, hlast]
  | cons b init ih =>
    have hb : 0x80 ≤ b.toNat := hinit b (by simp)
    have htail := ih fun b' hb' => hinit b' (by simp [hb'])
    simp only [List.cons_append, continuationBytes]
    rw [if_neg (by omega), htail]

theorem Complete.cons {b : UInt8} {bytes : Bytes} (hb : 0x80 ≤ b.toNat) (h : Complete bytes) :
    Complete (b :: bytes) := by
  obtain ⟨init, last, rfl, hinit, hlast⟩ := h
  refine ⟨b :: init, last, rfl, ?_, hlast⟩
  intro b' hb'
  rcases List.mem_cons.1 hb' with rfl | hmem
  · exact hb
  · exact hinit b' hmem

theorem complete_singleton {b : UInt8} (hb : b.toNat < 0x80) : Complete [b] :=
  ⟨[], b, rfl, by simp, hb⟩

/-! ## The loop of the decoder -/

section

variable {data : Bytes}

/-- Groups that can be shifted are read up to the byte without the continuation bit, or found to
have none. -/
theorem decodeIntegerLoop_fits {bytes : Bytes} {pos i : ℕ} (result : ℕ)
    (hdata : data.drop pos = bytes) (hfit : ShiftsFit i (continuationBytes bytes)) :
    (∃ rest, bytes = continuationBytes bytes ++ rest ∧ Complete (continuationBytes bytes) ∧
      decodeIntegerLoop data bytes.length pos (7 * i) result =
        .ok (result + groupsValue (continuationBytes bytes) * 2 ^ (7 * i),
          pos + (continuationBytes bytes).length)) ∨
    decodeIntegerLoop data bytes.length pos (7 * i) result =
      .error (.error "not enough bytes") := by
  induction bytes generalizing pos i result with
  | nil => exact Or.inr rfl
  | cons b bytes ih =>
    unfold continuationBytes at hfit ⊢
    rw [List.length_cons]
    unfold decodeIntegerLoop
    rw [getElem?_of_drop hdata]
    dsimp only
    by_cases hlast : b.toNat < 0x80
    · rw [if_pos hlast] at hfit ⊢
      obtain ⟨hamount, hgroup, -⟩ := hfit
      rw [if_neg (by omega), if_neg (by rw [Nat.shiftLeft_eq]; omega), if_pos hlast]
      refine Or.inl ⟨bytes, rfl, complete_singleton hlast, ?_⟩
      rw [groupsValue_cons, groupsValue_nil, Nat.shiftLeft_eq, List.length_singleton, Nat.mul_zero,
        Nat.add_zero (_ % 128)]
    · rw [if_neg hlast] at hfit ⊢
      obtain ⟨hamount, hgroup, hrest⟩ := hfit
      rw [if_neg (by omega), if_neg (by rw [Nat.shiftLeft_eq]; omega), if_neg hlast]
      have hnext := ih (result + (b.toNat % 0x80) <<< (7 * i)) (drop_succ_of_drop hdata) hrest
      rw [Nat.mul_add, Nat.mul_one] at hnext
      rcases hnext with ⟨rest, hbytes, hcomplete, hread⟩ | hread
      · refine Or.inl ⟨rest, ?_, hcomplete.cons (by omega), ?_⟩
        · rw [List.cons_append, ← hbytes]
        · rw [hread, groupsValue_cons, Nat.shiftLeft_eq, List.length_cons, pow_add]
          congr 2
          · ring
          · ring
      · exact Or.inr hread

/-- A group that cannot be shifted is reached. -/
theorem decodeIntegerLoop_undefined {bytes : Bytes} {pos i : ℕ} (result : ℕ)
    (hdata : data.drop pos = bytes) (hi : i ≤ 5)
    (hfit : ¬ ShiftsFit i (continuationBytes bytes)) :
    decodeIntegerLoop data bytes.length pos (7 * i) result = .error .undefined := by
  induction bytes generalizing pos i result with
  | nil => exact absurd trivial hfit
  | cons b bytes ih =>
    unfold continuationBytes at hfit
    rw [List.length_cons]
    unfold decodeIntegerLoop
    rw [getElem?_of_drop hdata]
    dsimp only
    rw [if_neg (by omega)]
    by_cases hshift : 7 * i ≥ 32 ∨ (b.toNat % 0x80) <<< (7 * i) ≥ 2 ^ 31
    · rw [if_pos hshift]
    · rw [if_neg hshift]
      rw [Nat.shiftLeft_eq] at hshift
      have hlast : ¬ b.toNat < 0x80 := by
        intro hlast
        rw [if_pos hlast] at hfit
        exact hfit ⟨by omega, by omega, trivial⟩
      rw [if_neg hlast] at hfit ⊢
      have hnext := ih (i := i + 1) (result + (b.toNat % 0x80) <<< (7 * i))
        (drop_succ_of_drop hdata) (by omega) fun h => hfit ⟨by omega, by omega, h⟩
      rwa [Nat.mul_add, Nat.mul_one] at hnext

end

/-! ## What the decoder reads -/

/-- The integer that stands at a position, and the position behind it. -/
inductive IntegerAt (prefixBits : ℕ) (data : Bytes) (pos : ℕ) : ℕ → ℕ → Prop
  | short (first : UInt8) : data[pos]? = some first →
      first.toNat % 2 ^ prefixBits < 2 ^ prefixBits - 1 →
      IntegerAt prefixBits data pos (first.toNat % 2 ^ prefixBits) (pos + 1)
  | long (first : UInt8) (bytes rest : Bytes) : data.drop pos = first :: (bytes ++ rest) →
      first.toNat % 2 ^ prefixBits = 2 ^ prefixBits - 1 → Complete bytes →
      IntegerAt prefixBits data pos (2 ^ prefixBits - 1 + groupsValue bytes)
        (pos + (1 + bytes.length))

/-- The decoder returns the integer and the position behind it, or an error. -/
structure DecodesRight (prefixBits : ℕ) (data : Bytes) (pos : ℕ) : Prop where
  value : ∀ value pos', decodeHpackVariableInteger pos data prefixBits = .ok (value, pos') →
    IntegerAt prefixBits data pos value pos'
  refusal : ∀ fault, decodeHpackVariableInteger pos data prefixBits = .error fault →
    ∃ message, fault = .error message

/-- The integer lies in the prefix, or all its groups can be shifted. -/
def Shiftable (prefixBits : ℕ) (first : UInt8) (bytes : Bytes) : Prop :=
  first.toNat % 2 ^ prefixBits < 2 ^ prefixBits - 1 ∨ ShiftsFit 0 (continuationBytes bytes)

section

variable {prefixBits pos : ℕ} {data rest : Bytes} {first : UInt8}

/-- Behind a prefix of ones, the decoder is its loop. -/
theorem decodeHpackVariableInteger_loop (hdata : data.drop pos = first :: rest)
    (hlong : ¬ first.toNat % 2 ^ prefixBits < 2 ^ prefixBits - 1) :
    decodeHpackVariableInteger pos data prefixBits =
      decodeIntegerLoop data rest.length (pos + 1) (7 * 0) (2 ^ prefixBits - 1) := by
  have hone : data.drop pos = [first] ++ rest := hdata
  have hlength := length_of_drop hone (by simp)
  have hmod : first.toNat % 2 ^ prefixBits < 2 ^ prefixBits := Nat.mod_lt _ (Nat.two_pow_pos _)
  unfold decodeHpackVariableInteger
  rw [getElem?_of_drop hdata]
  dsimp only
  rw [if_neg hlong]
  congr 1
  · rw [List.length_singleton] at hlength
    omega
  · omega

/-- **On which bytes the decoder is right.** -/
theorem decodesRight_iff (hdata : data.drop pos = first :: rest) :
    DecodesRight prefixBits data pos ↔ Shiftable prefixBits first rest := by
  by_cases hshort : first.toNat % 2 ^ prefixBits < 2 ^ prefixBits - 1
  · have hread : decodeHpackVariableInteger pos data prefixBits =
        .ok (first.toNat % 2 ^ prefixBits, pos + 1) := by
      unfold decodeHpackVariableInteger
      rw [getElem?_of_drop hdata]
      dsimp only
      rw [if_pos hshort]
    refine iff_of_true ⟨?_, ?_⟩ (Or.inl hshort)
    · intro value pos' h
      obtain ⟨rfl, rfl⟩ := Prod.mk.inj (Except.ok.inj (hread.symm.trans h))
      exact .short first (getElem?_of_drop hdata) hshort
    · intro fault h
      rw [hread] at h
      cases h
  · have hloop := decodeHpackVariableInteger_loop hdata hshort
    have hmod : first.toNat % 2 ^ prefixBits < 2 ^ prefixBits := Nat.mod_lt _ (Nat.two_pow_pos _)
    constructor
    · intro hright
      by_contra hnot
      rw [decodeIntegerLoop_undefined _ (drop_succ_of_drop hdata) (by omega)
        fun h => hnot (Or.inr h)] at hloop
      obtain ⟨message, hmessage⟩ := hright.refusal _ hloop
      cases hmessage
    · intro hshift
      have hfit := hshift.resolve_left hshort
      rcases decodeIntegerLoop_fits (2 ^ prefixBits - 1) (drop_succ_of_drop hdata) hfit with
        ⟨behind, hbytes, hcomplete, hread⟩ | hread
      · rw [← hloop, Nat.mul_zero, pow_zero, Nat.mul_one, Nat.add_assoc] at hread
        refine ⟨?_, ?_⟩
        · intro value pos' h
          obtain ⟨rfl, rfl⟩ := Prod.mk.inj (Except.ok.inj (hread.symm.trans h))
          exact .long first _ behind (by rw [← hbytes, hdata]) (by omega) hcomplete
        · intro fault h
          rw [hread] at h
          cases h
      · rw [← hloop] at hread
        refine ⟨?_, ?_⟩
        · intro value pos' h
          rw [hread] at h
          cases h
        · intro fault h
          exact ⟨_, (Except.error.inj (hread.symm.trans h)).symm⟩

end

/-! ## What the encoder writes -/

/-- The bytes of the encoder are complete and stand for the value. -/
theorem encodeIntegerLoop_groups {room value : ℕ} {bytes : Bytes}
    (h : encodeIntegerLoop room value = some bytes) :
    Complete bytes ∧ groupsValue bytes = value := by
  induction room generalizing value bytes with
  | zero => cases h
  | succ room ih =>
    unfold encodeIntegerLoop at h
    split_ifs at h with hlarge
    · obtain ⟨tail, htail, rfl⟩ := Option.map_eq_some_iff.1 h
      obtain ⟨hcomplete, hvalue⟩ := ih htail
      have hbyte : (UInt8.ofNat (128 + value % 128)).toNat = 128 + value % 128 := by
        rw [UInt8.toNat_ofNat']
        omega
      refine ⟨hcomplete.cons (by omega), ?_⟩
      rw [groupsValue_cons, hbyte, hvalue]
      omega
    · obtain rfl : [UInt8.ofNat value] = bytes := Option.some.inj h
      have hbyte : (UInt8.ofNat value).toNat = value := by
        rw [UInt8.toNat_ofNat']
        omega
      refine ⟨complete_singleton (by omega), ?_⟩
      rw [groupsValue_cons, groupsValue_nil, hbyte]
      omega

/-- The encoded bytes are read back wherever they stand, and the first of them keeps the bits
before the prefix. -/
structure IntegerComesBack (prefixBits : ℕ) (first : UInt8) (value : ℕ) (bytes : Bytes) :
    Prop where
  read : ∀ data pos rest, data.drop pos = bytes ++ rest →
    decodeHpackVariableInteger pos data prefixBits = .ok (value, pos + bytes.length)
  kept : ∃ head tail, bytes = head :: tail ∧
    head.toNat / 2 ^ prefixBits = first.toNat / 2 ^ prefixBits

section

variable {prefixBits value : ℕ} {first : UInt8} {bytes : Bytes}

/-- The bits before the prefix are not touched. -/
theorem firstByte_div {low : ℕ} (hbits : prefixBits ≤ 8) (hlow : low < 2 ^ prefixBits) :
    (first ||| UInt8.ofNat low).toNat / 2 ^ prefixBits = first.toNat / 2 ^ prefixBits := by
  have hbyte : low < 2 ^ 8 := lt_of_lt_of_le hlow (Nat.pow_le_pow_right (by omega) hbits)
  rw [UInt8.toNat_or, UInt8.toNat_ofNat', Nat.mod_eq_of_lt hbyte, Nat.or_div_two_pow,
    Nat.div_eq_of_lt hlow, Nat.or_zero]

/-- **Which encoded values come back.** -/
theorem integerComesBack_iff (hfirst : first.toNat % 2 ^ prefixBits = 0) (hbits : prefixBits ≤ 8)
    (hencode : encodeHpackVariableInteger first value prefixBits = some bytes)
    (hsize : bytes.length ≤ maxHpackVariableIntegerSize) :
    IntegerComesBack prefixBits first value bytes ↔ IntegerOk prefixBits value := by
  constructor
  · intro hback
    by_contra hnot
    have hlarge : 2 ^ 31 + (2 ^ prefixBits - 1) ≤ value := Nat.le_of_not_lt hnot
    have hread := hback.read bytes 0 [] (by simp)
    unfold encodeHpackVariableInteger at hencode
    dsimp only at hencode
    rw [if_neg (by omega)] at hencode
    obtain ⟨tail, htail, rfl⟩ := Option.map_eq_some_iff.1 hencode
    obtain ⟨hcomplete, hvalue⟩ := encodeIntegerLoop_groups htail
    have hmask : 0 < 2 ^ prefixBits := Nat.two_pow_pos _
    have hlow := firstByte_mod hfirst hbits (by omega : 2 ^ prefixBits - 1 < 2 ^ prefixBits)
    -- reading the value back would mean that its groups can be shifted
    have hright : DecodesRight prefixBits
        ((first ||| UInt8.ofNat (2 ^ prefixBits - 1)) :: tail) 0 := by
      by_contra hwrong
      rw [decodesRight_iff (List.drop_zero)] at hwrong
      rw [decodeHpackVariableInteger_loop List.drop_zero fun h => hwrong (Or.inl h),
        decodeIntegerLoop_undefined _ (by simp) (by omega) fun h => hwrong (Or.inr h)] at hread
      cases hread
    rcases (decodesRight_iff List.drop_zero).1 hright with hshort | hfit
    · omega
    · have hkept := continuationBytes_append hcomplete []
      rw [List.append_nil] at hkept
      rw [hkept] at hfit
      have hbound := hfit.value_lt
      rw [Nat.mul_zero, pow_zero, Nat.mul_one, hvalue] at hbound
      omega
  · intro hvalue
    obtain ⟨written, hwritten, hback⟩ := encodeInteger_roundTrip false first hfirst hbits hvalue
    have hsame : written = bytes := by
      unfold encodeInteger at hwritten
      rw [hencode] at hwritten
      dsimp only at hwritten
      rw [if_neg (by simp)] at hwritten
      exact (Except.ok.inj hwritten).symm
    subst hsame
    obtain ⟨low, tail, hlow, hbytes⟩ := hback.head
    exact ⟨hback.read, ⟨_, tail, hbytes, firstByte_div hbits hlow⟩⟩

end

/-- **The integers of a header block are exact.** At any position the decoder returns the integer
that stands there or an error, if and only if all groups can be shifted; and an encoded value
comes back, if and only if it does not exceed 31 bits by more than the prefix. -/
theorem hpackIntegers_exact (prefixBits : ℕ) (hbits : prefixBits ≤ 8) :
    (∀ (data rest : Bytes) (pos : ℕ) (first : UInt8), data.drop pos = first :: rest →
      (DecodesRight prefixBits data pos ↔ Shiftable prefixBits first rest)) ∧
    (∀ (value : ℕ) (first : UInt8) (bytes : Bytes), value < 2 ^ 64 →
      first.toNat % 2 ^ prefixBits = 0 →
      encodeHpackVariableInteger first value prefixBits = some bytes →
      bytes.length ≤ maxHpackVariableIntegerSize →
      (IntegerComesBack prefixBits first value bytes ↔ IntegerOk prefixBits value)) := by
  refine ⟨?_, ?_⟩
  · intro data rest pos first hdata
    exact decodesRight_iff hdata
  · intro value first bytes _ hfirst hencode hsize
    exact integerComesBack_iff hfirst hbits hencode hsize

/-- The example of the standard, 1337 in a prefix of five bits. -/
theorem hpackIntegers_exact_1337 :
    DecodesRight 5 [0x1f, 0x9a, 0x0a] 0 ∧ IntegerComesBack 5 0 1337 [0x1f, 0x9a, 0x0a] := by
  obtain ⟨hdecode, hencode⟩ := hpackIntegers_exact 5 (by decide)
  exact ⟨(hdecode [0x1f, 0x9a, 0x0a] [0x9a, 0x0a] 0 0x1f rfl).2 (Or.inr (by decide)),
    (hencode 1337 0 [0x1f, 0x9a, 0x0a] (by decide) (by decide) (by decide) (by decide)).2
      (by decide)⟩

/-- The fifth group of `2 ^ 31 + 127` is shifted into the sign of an `int`. -/
theorem signBit_shifted :
    encodeHpackVariableInteger 0 (2 ^ 31 + 127) 7 = some [0x7f, 0x80, 0x80, 0x80, 0x80, 0x08] ∧
      ¬ DecodesRight 7 [0x7f, 0x80, 0x80, 0x80, 0x80, 0x08] 0 ∧
      ¬ IntegerComesBack 7 0 (2 ^ 31 + 127) [0x7f, 0x80, 0x80, 0x80, 0x80, 0x08] := by
  have hfault : decodeHpackVariableInteger 0 [0x7f, 0x80, 0x80, 0x80, 0x80, 0x08] 7 =
      .error .undefined := by decide
  refine ⟨by decide, ?_, ?_⟩
  · intro h
    obtain ⟨message, hmessage⟩ := h.refusal _ hfault
    cases hmessage
  · intro h
    have hread := h.read _ 0 [] (List.append_nil _).symm
    rw [hfault] at hread
    cases hread

end SimpleServer.Hpack
