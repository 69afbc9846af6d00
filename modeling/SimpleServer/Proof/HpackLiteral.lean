import SimpleServer.Hpack.Encode
import SimpleServer.Proof.HuffmanRoundTrip

/-!
# Integers and strings of a header block

What the encoders write is read back wherever it stands in a block: the hypothesis of
a reader is that the data from its position on starts with the written bytes.

* `encodeInteger_roundTrip`: an integer, if it does not exceed what the decoder can shift.
* `encodeString_roundTrip`: a string literal with or without Huffman coding; an empty one must
  not be the end of the data.
-/

namespace SimpleServer.Hpack

open Lib

/-! ## The data from a position on -/

section

variable {data bytes rest : Bytes} {pos : ℕ}

theorem getElem?_of_drop {byte : UInt8} (h : data.drop pos = byte :: rest) :
    data[pos]? = some byte := by
  have hget : (data.drop pos)[0]? = some byte := by rw [h]; rfl
  rwa [List.getElem?_drop, Nat.add_zero] at hget

theorem drop_of_drop (h : data.drop pos = bytes ++ rest) :
    data.drop (pos + bytes.length) = rest := by
  rw [← List.drop_drop, h, List.drop_left]

theorem drop_succ_of_drop {byte : UInt8} (h : data.drop pos = byte :: rest) :
    data.drop (pos + 1) = rest := by
  rw [← List.drop_drop, h, List.drop_one, List.tail_cons]

theorem length_of_drop (h : data.drop pos = bytes ++ rest) (hpos : 0 < bytes.length) :
    data.length = pos + bytes.length + rest.length := by
  have hlength := congrArg List.length h
  rw [List.length_drop, List.length_append] at hlength
  omega

end

/-! ## Integers -/

/-- What the decoder can read with its shifts of `int`. -/
def IntegerOk (prefixBits value : ℕ) : Prop := value < 2 ^ 31 + (2 ^ prefixBits - 1)

instance (prefixBits value : ℕ) : Decidable (IntegerOk prefixBits value) :=
  inferInstanceAs (Decidable (_ < _))

/-- The number of bytes is the number of groups of seven bits. -/
theorem encodeIntegerLoop_some (k room : ℕ) {value : ℕ} (hk : 0 < k) (hroom : k ≤ room)
    (hvalue : value < 128 ^ k) :
    ∃ bytes, encodeIntegerLoop room value = some bytes ∧ 0 < bytes.length ∧ bytes.length ≤ k := by
  induction k generalizing room value with
  | zero => omega
  | succ k ih =>
    obtain ⟨room, rfl⟩ : ∃ r, room = r + 1 := ⟨room - 1, by omega⟩
    unfold encodeIntegerLoop
    split_ifs with hlarge
    · have hrest : value / 128 < 128 ^ k := by
        rw [pow_succ] at hvalue
        exact Nat.div_lt_of_lt_mul (by rwa [Nat.mul_comm])
      have hkpos : 0 < k := by
        rcases Nat.eq_zero_or_pos k with rfl | hpos
        · omega
        · exact hpos
      obtain ⟨bytes, hbytes, -, hlength⟩ := ih room hkpos (by omega) hrest
      refine ⟨_, by rw [hbytes, Option.map_some], ?_, ?_⟩
      · rw [List.length_cons]
        omega
      · rw [List.length_cons]
        omega
    · refine ⟨_, rfl, ?_, ?_⟩
      · rw [List.length_singleton]
        omega
      · rw [List.length_singleton]
        omega

/-- The shift of a group of seven bits, and what is left after it. -/
theorem integer_group {value amount : ℕ} (hbound : value * 2 ^ amount < 2 ^ 31) :
    (value % 128) * 2 ^ amount < 2 ^ 31 ∧ value / 128 * 2 ^ (amount + 7) < 2 ^ 31 ∧
      value % 128 * 2 ^ amount + value / 128 * 2 ^ (amount + 7) = value * 2 ^ amount := by
  have hsum : value % 128 * 2 ^ amount + value / 128 * 2 ^ (amount + 7) = value * 2 ^ amount := by
    calc value % 128 * 2 ^ amount + value / 128 * 2 ^ (amount + 7)
        = (128 * (value / 128) + value % 128) * 2 ^ amount := by rw [pow_add]; ring
      _ = value * 2 ^ amount := by rw [Nat.div_add_mod]
  exact ⟨by omega, by omega, hsum⟩

/-- **The loop of the decoder reads what the loop of the encoder writes.** -/
theorem decodeIntegerLoop_encode {room value amount result fuel pos : ℕ} {bytes data rest : Bytes}
    (hencode : encodeIntegerLoop room value = some bytes) (hbound : value * 2 ^ amount < 2 ^ 31)
    (hamount : amount < 32) (hdata : data.drop pos = bytes ++ rest) (hfuel : bytes.length ≤ fuel) :
    decodeIntegerLoop data fuel pos amount result =
      .ok (result + value * 2 ^ amount, pos + bytes.length) := by
  induction room generalizing value amount result fuel pos bytes with
  | zero => cases hencode
  | succ room ih =>
    obtain ⟨hgroup, hrest, hsum⟩ := integer_group hbound
    unfold encodeIntegerLoop at hencode
    split_ifs at hencode with hlarge
    · -- a byte with the continuation bit, and the next group
      obtain ⟨tail, htail, rfl⟩ := Option.map_eq_some_iff.1 hencode
      rw [List.length_cons] at hfuel
      obtain ⟨fuel, rfl⟩ : ∃ f, fuel = f + 1 := ⟨fuel - 1, by omega⟩
      have hbyte : (UInt8.ofNat (128 + value % 128)).toNat = 128 + value % 128 := by
        rw [UInt8.toNat_ofNat']
        omega
      -- with 128 or more left, a shift by 25 would already exceed the bound
      have hnextAmount : amount + 7 < 32 := by
        by_contra hnot
        have hpow : 2 ^ 25 ≤ 2 ^ amount := Nat.pow_le_pow_right (by omega) (by omega)
        have hmul : 128 * 2 ^ 25 ≤ value * 2 ^ amount := Nat.mul_le_mul hlarge hpow
        omega
      unfold decodeIntegerLoop
      rw [getElem?_of_drop hdata]
      dsimp only
      rw [if_neg (by omega), hbyte, Nat.add_mod_left, Nat.mod_mod, Nat.shiftLeft_eq,
        if_neg (by omega), if_neg (by omega)]
      rw [ih htail hrest hnextAmount (drop_succ_of_drop hdata) (by omega : tail.length ≤ fuel),
        List.length_cons, Nat.add_assoc, hsum, Nat.add_assoc, Nat.add_comm 1]
    -- the last group, without the continuation bit
    · obtain rfl : [UInt8.ofNat value] = bytes := Option.some.inj hencode
      obtain ⟨fuel, rfl⟩ : ∃ f, fuel = f + 1 := ⟨fuel - 1, by
        rw [List.length_singleton] at hfuel
        omega⟩
      have hbyte : (UInt8.ofNat value).toNat = value := by
        rw [UInt8.toNat_ofNat']
        omega
      unfold decodeIntegerLoop
      rw [getElem?_of_drop hdata]
      dsimp only
      rw [if_neg (by omega), hbyte, Nat.mod_eq_of_lt (by omega), Nat.shiftLeft_eq,
        if_neg (by omega), if_pos (by omega), List.length_singleton]

/-- The first byte of an integer keeps the bits before the prefix. -/
theorem firstByte_mod {first : UInt8} {low prefixBits : ℕ}
    (hfirst : first.toNat % 2 ^ prefixBits = 0) (hbits : prefixBits ≤ 8)
    (hlow : low < 2 ^ prefixBits) :
    (first ||| UInt8.ofNat low).toNat % 2 ^ prefixBits = low := by
  have hbyte : low < 2 ^ 8 := lt_of_lt_of_le hlow (Nat.pow_le_pow_right (by omega) hbits)
  rw [UInt8.toNat_or, UInt8.toNat_ofNat', Nat.mod_eq_of_lt hbyte, Nat.or_mod_two_pow, hfirst,
    Nat.zero_or, Nat.mod_eq_of_lt hlow]

/-- What an encoded integer is: its bytes, with the first one as given, are read back. -/
structure WrittenInteger (first : UInt8) (prefixBits value : ℕ) (bytes : Bytes) : Prop where
  short : bytes.length ≤ 6
  head : ∃ low tail, low < 2 ^ prefixBits ∧ bytes = (first ||| UInt8.ofNat low) :: tail
  read : ∀ data pos rest, data.drop pos = bytes ++ rest →
    decodeHpackVariableInteger pos data prefixBits = .ok (value, pos + bytes.length)

/-- **An integer is read back.** -/
theorem encodeInteger_roundTrip (limited : Bool) (first : UInt8) {value prefixBits : ℕ}
    (hfirst : first.toNat % 2 ^ prefixBits = 0) (hbits : prefixBits ≤ 8)
    (hvalue : IntegerOk prefixBits value) :
    ∃ bytes, encodeInteger limited first value prefixBits = .ok bytes ∧
      WrittenInteger first prefixBits value bytes := by
  have hmask : 0 < 2 ^ prefixBits := Nat.two_pow_pos _
  unfold encodeInteger encodeHpackVariableInteger
  dsimp only
  split_ifs with hsmall
  -- the value fits into the prefix
  · dsimp only
    rw [if_neg (by rw [List.length_singleton]; exact fun h => absurd h.2 (by decide))]
    refine ⟨_, rfl, ⟨by rw [List.length_singleton]; omega, ⟨value, [], by omega, rfl⟩, ?_⟩⟩
    intro data pos rest hdata
    unfold decodeHpackVariableInteger
    rw [getElem?_of_drop hdata]
    dsimp only
    rw [firstByte_mod hfirst hbits (by omega), if_pos hsmall]
    rfl
  · have hrest : value - (2 ^ prefixBits - 1) < 2 ^ 31 := by
      unfold IntegerOk at hvalue
      omega
    -- 31 bits are five groups of seven at most
    obtain ⟨tail, htail, hpos, hlength⟩ := encodeIntegerLoop_some 5 maxHpackVariableIntegerSize
      (by decide) (by decide) (lt_trans hrest (by decide : 2 ^ 31 < 128 ^ 5))
    rw [htail, Option.map_some]
    dsimp only
    have hshort : (tail.length + 1 ≤ 6) := by omega
    rw [if_neg fun h => absurd h.2 (by
      rw [List.length_cons]
      have hmax : maxHpackVariableIntegerSize = 10 := by decide
      omega)]
    refine ⟨_, rfl, ⟨by rw [List.length_cons]; exact hshort,
      ⟨2 ^ prefixBits - 1, tail, by omega, rfl⟩, ?_⟩⟩
    intro data pos rest hdata
    have hlen := length_of_drop hdata (by rw [List.length_cons]; omega)
    unfold decodeHpackVariableInteger
    rw [getElem?_of_drop hdata]
    dsimp only
    rw [firstByte_mod hfirst hbits (by omega), if_neg (by omega)]
    rw [List.length_cons] at hlen
    have hfuel : tail.length ≤ data.length - (pos + 1) := by omega
    rw [decodeIntegerLoop_encode htail (by rw [pow_zero, Nat.mul_one]; exact hrest) (by decide)
      (drop_succ_of_drop hdata) hfuel, pow_zero, Nat.mul_one, List.length_cons, Nat.add_assoc pos,
      Nat.add_comm 1, Nat.add_sub_cancel' (by omega)]

/-! ## Strings -/

/-- How many bytes the characters of a string take. -/
def stringSize (huffman : Bool) (str : Bytes) : ℕ :=
  if huffman then hpackHuffmanGetEncodedSize str else str.length

/-- The decoder can read the length of the string, and the string itself is smaller than its
output buffer if it is Huffman coded. -/
structure StringOk (huffman : Bool) (str : Bytes) : Prop where
  length : IntegerOk 7 (stringSize huffman str)
  room : huffman = true → str ≠ [] → 5 * str.length < 8 * hpackHuffmanGetEncodedSize str

instance (huffman : Bool) (str : Bytes) : Decidable (StringOk huffman str) :=
  decidable_of_iff (IntegerOk 7 (stringSize huffman str) ∧
      (huffman = true → str ≠ [] → 5 * str.length < 8 * hpackHuffmanGetEncodedSize str))
    ⟨fun h => ⟨h.1, h.2⟩, fun h => ⟨h.1, h.2⟩⟩

/-- The encoder of a string, with the size that is reserved for it. -/
def encodeString (huffman : Bool) (str : Bytes) : Except Fault Bytes :=
  if huffman then encodeStringHuffman str (hpackHuffmanGetEncodedSize str)
  else encodeStringNoHuffman str

/-- The flag of a string literal is the top bit of its length. -/
theorem isHuffman_iff {low : ℕ} (hlow : low < 2 ^ 7) :
    (((0x00 : UInt8) ||| UInt8.ofNat low) &&& 0x80 != 0) = false ∧
      (((0x80 : UInt8) ||| UInt8.ofNat low) &&& 0x80 != 0) = true := by
  have key : ∀ low : Fin 128, (((0x00 : UInt8) ||| UInt8.ofNat low.val) &&& 0x80 != 0) = false ∧
      (((0x80 : UInt8) ||| UInt8.ofNat low.val) &&& 0x80 != 0) = true := by decide +kernel
  exact key ⟨low, hlow⟩

/-- What an encoded string is: its bytes are read back, unless it is empty and at the end. -/
structure WrittenString (huffman : Bool) (str bytes : Bytes) : Prop where
  positive : 0 < bytes.length
  short : bytes.length ≤ 6 + stringSize huffman str
  read : ∀ data pos rest, data.drop pos = bytes ++ rest → str ≠ [] ∨ rest ≠ [] →
    parseLiteralStringValue pos data = .ok (str, pos + bytes.length)

/-- The characters after a length that was read back. -/
theorem writtenString_of_payload {huffman : Bool} {str length payload : Bytes} {first : UInt8}
    (hlength : WrittenInteger first 7 payload.length length)
    (hsize : payload.length = stringSize huffman str)
    (hflag : ∀ low, low < 2 ^ 7 → ((first ||| UInt8.ofNat low) &&& 0x80 != 0) = huffman)
    (hempty : payload = [] ↔ str = [])
    (hpayload : payload ≠ [] →
      (if huffman then hpackHuffmanDecodeBytes payload else .ok payload) = .ok str) :
    WrittenString huffman str (length ++ payload) := by
  obtain ⟨low, tail, hlow, hhead⟩ := hlength.head
  have hpositive : 0 < length.length := by rw [hhead, List.length_cons]; omega
  have hshort := hlength.short
  refine ⟨by rw [List.length_append]; omega, by rw [List.length_append]; omega, ?_⟩
  intro data pos rest hdata hnotEnd
  rw [List.append_assoc] at hdata
  have hread := hlength.read data pos (payload ++ rest) hdata
  have hafter := drop_of_drop hdata
  have hend := length_of_drop hdata hpositive
  rw [List.length_append] at hend
  have hfirst : data[pos]? = some (first ||| UInt8.ofNat low) := by
    rw [hhead] at hdata
    exact getElem?_of_drop hdata
  -- the decoder refuses a string whose length is the last byte there is
  have hmore : ¬ data.length ≤ pos + length.length := by
    have hany : payload ++ rest ≠ [] := by
      rw [Ne, List.append_eq_nil_iff, hempty]
      tauto
    have hpos := List.length_pos_of_ne_nil hany
    rw [List.length_append] at hpos
    omega
  unfold parseLiteralStringValue
  rw [hfirst]
  dsimp only
  rw [hread]
  dsimp only
  rw [if_neg hmore, hflag low hlow, List.length_append]
  by_cases hnil : payload = []
  · rw [hempty.1 hnil, hnil, List.length_nil, if_pos rfl, Nat.add_zero]
  · have hpos := List.length_pos_of_ne_nil hnil
    have htake : (data.drop (pos + length.length)).take payload.length = payload := by
      rw [hafter, List.take_left]
    have hstr := hpayload hnil
    rw [if_neg (by omega), if_neg (by omega), htake]
    cases huffman with
    | true =>
      rw [if_pos rfl] at hstr ⊢
      rw [hstr, Nat.add_assoc]
    | false =>
      rw [if_neg Bool.false_ne_true] at hstr ⊢
      rw [Except.ok.inj hstr, Nat.add_assoc]

/-- **A string is read back**, unless it is empty and at the end of the data. -/
theorem encodeString_roundTrip {huffman : Bool} {str : Bytes} (h : StringOk huffman str) :
    ∃ bytes, encodeString huffman str = .ok bytes ∧ WrittenString huffman str bytes := by
  have hlength := h.length
  cases huffman with
  | false =>
    obtain ⟨length, hencode, hwritten⟩ := encodeInteger_roundTrip true 0x00 (by decide)
      (by decide) hlength
    refine ⟨length ++ str, ?_, writtenString_of_payload hwritten rfl
      (fun low hlow => (isHuffman_iff hlow).1) Iff.rfl fun _ => rfl⟩
    rw [encodeString, if_neg Bool.false_ne_true, encodeStringNoHuffman]
    rw [stringSize, if_neg Bool.false_ne_true] at hencode
    rw [hencode]
    rfl
  | true =>
    obtain ⟨length, hencode, hwritten⟩ := encodeInteger_roundTrip false 0x80 (by decide)
      (by decide) hlength
    rw [stringSize, if_pos rfl] at hencode hwritten
    rw [encodeString, if_pos rfl, encodeStringHuffman, hencode]
    dsimp only
    by_cases hnil : str = []
    · subst hnil
      refine ⟨length ++ [], rfl, writtenString_of_payload hwritten rfl
        (fun low hlow => (isHuffman_iff hlow).2) Iff.rfl fun hne => absurd rfl hne⟩
    · obtain ⟨encoded, hhuffman, hsize, hdecode⟩ := huffman_roundTrip (h.room rfl hnil)
      have hne : encoded ≠ [] := by
        have hroom := h.room rfl hnil
        intro hempty
        rw [hempty, List.length_nil] at hsize
        omega
      rw [hhuffman]
      dsimp only
      rw [if_neg (not_not_intro hsize)]
      rw [← hsize] at hwritten
      exact ⟨length ++ encoded, rfl, writtenString_of_payload hwritten hsize
        (fun low hlow => (isHuffman_iff hlow).2)
        ⟨fun hempty => absurd hempty hne, fun hempty => absurd hempty hnil⟩ fun _ => hdecode⟩

end SimpleServer.Hpack
