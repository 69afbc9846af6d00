import SimpleServer.Proof.HuffmanRoundTrip

/-!
# What the Huffman decoder accepts

The decoder follows the tree to the end of its input and returns what it has read. Its checks
of the padding are never reached: `buffer.size >= last_pos.pos` holds whenever the loop is
over. So it accepts every string of bits without the code of EOS, whatever follows the last
whole code word, unless the characters fill its output buffer.

* `ReadsAs`: the bits are the code words of a string and a rest that begins with none.
* `huffmanDecode_ok_iff`: the decoder returns exactly the string its input reads as, if there
  is room for it.
* `huffmanRoundTrip_iff`: which strings come back from the encoder.
* `acceptsExactly_iff`: on which inputs it accepts the valid encodings and nothing else.
-/

namespace SimpleServer.Hpack

open Lib

/-! ## Code words -/

/-- The code word of the value at an end of the tree. -/
def codeWord : EndValue → List Bool
  | .byte value => huffmanCode value
  | .eos => ((rawCodes.getLast?).map RawHuffmanCode.bytes).getD []

/-- The bits of `encoded` are the code words of `str`, and a rest that does not begin with a
whole code word. -/
def ReadsAs (encoded str : Bytes) (rest : List Bool) : Prop :=
  bitsOf encoded = str.flatMap huffmanCode ++ rest ∧ ∀ value, ¬ codeWord value <+: rest

theorem huffmanTree_full : hpackHuffmanTree.Full = true := by decide +kernel

theorem huffmanTree_words : ∀ p ∈ hpackHuffmanTree.words, p.1 = codeWord p.2 := by decide +kernel

theorem eos_walk : hpackHuffmanTree.walk (codeWord .eos) = some (.leaf .eos) := by decide +kernel

theorem codeWord_walk (value : EndValue) :
    hpackHuffmanTree.walk (codeWord value) = some (.leaf value) := by
  cases value with
  | byte value => exact huffmanTree_walk value
  | eos => exact eos_walk

theorem eq_codeWord (w : List Bool) (value : EndValue)
    (h : hpackHuffmanTree.walk w = some (.leaf value)) : w = codeWord value :=
  huffmanTree_words (w, value) (CodeTree.mem_words hpackHuffmanTree w h)

/-- A rest ends inside the tree if and only if it begins with no code word. -/
theorem stays_iff (rest : List Bool) :
    (∃ node, hpackHuffmanTree.walk rest = some node ∧ node.isNode = true) ↔
      ∀ value, ¬ codeWord value <+: rest := by
  constructor
  · rintro ⟨node, hwalk, hnode⟩ value ⟨more, rfl⟩
    rw [CodeTree.walk_append, codeWord_walk, Option.bind_some] at hwalk
    -- nothing is below a leaf, and a leaf is no inner node
    cases more with
    | nil =>
      simp only [CodeTree.walk, Option.some.injEq] at hwalk
      rw [← hwalk] at hnode
      simp [CodeTree.isNode] at hnode
    | cons b more => simp [CodeTree.walk, CodeTree.child] at hwalk
  · intro hnone
    rcases CodeTree.Full.walk_cases hpackHuffmanTree huffmanTree_full huffmanTree_isNode rest with
      hstays | ⟨w, more, value, hsplit, hleaf⟩
    · exact hstays
    · have hword := eq_codeWord w value hleaf
      exact absurd ⟨more, by rw [← hword, hsplit]⟩ (hnone value)

/-- Reading along the tree. -/
theorem decode_iff (encoded str : Bytes) :
    (∃ node, CodeTree.decode hpackHuffmanTree hpackHuffmanTree (bitsOf encoded) =
        some (str.map EndValue.byte, node)) ↔ ∃ rest, ReadsAs encoded str rest := by
  constructor
  · rintro ⟨node, hdecode⟩
    obtain ⟨rest, hbits, hwalk, hnode⟩ := CodeTree.decode_words hpackHuffmanTree
      huffmanTree_isNode codeWord eq_codeWord (str.map EndValue.byte) (bitsOf encoded) hdecode
    rw [List.flatMap_map] at hbits
    exact ⟨rest, hbits, (stays_iff rest).1 ⟨node, hwalk, hnode⟩⟩
  · rintro ⟨rest, hbits, hnone⟩
    obtain ⟨node, hwalk, hnode⟩ := (stays_iff rest).2 hnone
    refine ⟨node, ?_⟩
    rw [hbits, CodeTree.decode_codes hpackHuffmanTree huffmanTree_isNode huffmanCode
      EndValue.byte huffmanTree_walk, CodeTree.decode_tail hpackHuffmanTree rest _ hwalk hnode]
    simp

/-! ## The loop of the decoder -/

/-- A node the decoder can stand at. -/
def Standing (node : HuffmanNode) : Prop := node.Full = true ∧ node.isNode = true

theorem standing_root : Standing hpackHuffmanTree := ⟨huffmanTree_full, huffmanTree_isNode⟩

/-- Below a node of a full tree there is an inner node or a leaf. -/
theorem Standing.child {node : HuffmanNode} (h : Standing node) (bit : Bool) :
    (∃ value, node.child bit = some (.leaf value)) ∨
      ∃ zero one, node.child bit = some (.node zero one) ∧ Standing (.node zero one) := by
  obtain ⟨hfull, hnode⟩ := h
  cases node with
  | empty => simp [CodeTree.isNode] at hnode
  | leaf value => simp [CodeTree.isNode] at hnode
  | node zero one =>
    simp only [CodeTree.Full, Bool.and_eq_true] at hfull
    have hboth : (if bit then one else zero).Full = true := by
      cases bit
      · exact hfull.1
      · exact hfull.2
    simp only [CodeTree.child]
    cases hc : (if bit then one else zero) with
    | empty => simp [hc, CodeTree.Full] at hboth
    | leaf value => exact Or.inl ⟨value, rfl⟩
    | node zero' one' => exact Or.inr ⟨zero', one', rfl, by rw [← hc]; exact hboth, rfl⟩

/-- What the loop can come to: a string that the bits decode to and that leaves room in the
output buffer, or an error with a text. -/
theorem decodeBytesLoop_cases (data : Bytes) (memorySize : ℕ) :
    ∀ (fuel : ℕ) (p : BitPos) (node : HuffmanNode) (done : Bytes), p.bitsPos < 8 →
      8 * p.pos + p.bitsPos + fuel = 8 * data.length → Standing node →
      done.length < memorySize →
      (∃ values endNode, decodeBytesLoop data memorySize fuel p node done = .ok (done ++ values) ∧
        CodeTree.decode hpackHuffmanTree node ((bitsOf data).drop (8 * p.pos + p.bitsPos)) =
          some (values.map EndValue.byte, endNode) ∧
        done.length + values.length < memorySize) ∨
      ∃ message, decodeBytesLoop data memorySize fuel p node done = .error (.error message) := by
  intro fuel
  induction fuel with
  | zero =>
    intro p node done _ hindex _ hroom
    have hend : (bitsOf data).length ≤ 8 * p.pos + p.bitsPos := by
      rw [bitsOf_length]
      omega
    refine Or.inl ⟨[], node, by simp [decodeBytesLoop], ?_, by simpa using hroom⟩
    simp [List.drop_of_length_le hend, CodeTree.decode]
  | succ fuel ih =>
    intro p node done hpos hindex hstanding hroom
    have hlt : p.pos < data.length := by omega
    have hbyte : data[p.pos]? = some data[p.pos] := List.getElem?_eq_getElem hlt
    obtain ⟨mask, hmask, hbit⟩ := bitPosMask_testBit data[p.pos] hpos
    obtain ⟨hnext, hnextPos⟩ := p.inc_index hpos
    have hget := bitsOf_getElem? hbyte hpos
    obtain ⟨hin, hval⟩ := List.getElem?_eq_some_iff.1 hget
    rw [List.drop_eq_getElem_cons hin, hval, ← hnext, ← hbit]
    unfold decodeBytesLoop
    rw [hbyte, hmask]
    simp only [CodeTree.decode]
    rcases hstanding.child (data[p.pos] &&& mask != 0) with ⟨value, hchild⟩ |
      ⟨zero, one, hchild, hbelow⟩
    · rw [hchild]
      cases value with
      | eos => exact Or.inr ⟨_, rfl⟩
      | byte value =>
        dsimp only
        by_cases hfull : (done ++ [value]).length ≥ memorySize
        · rw [if_pos hfull]
          exact Or.inr ⟨_, rfl⟩
        · rw [if_neg hfull]
          rcases ih p.inc hpackHuffmanTree (done ++ [value]) hnextPos (by omega) standing_root
            (by omega) with ⟨values, endNode, hloop, hdecode, hless⟩ | herror
          · refine Or.inl ⟨value :: values, endNode, ?_, ?_, ?_⟩
            · rw [hloop]
              simp
            · rw [hdecode]
              simp
            · simp only [List.length_append, List.length_singleton] at hless
              simp only [List.length_cons]
              omega
          · exact Or.inr herror
    · rw [hchild]
      exact ih p.inc (.node zero one) done hnextPos (by omega) hbelow hroom

/-- The whole decoder. -/
theorem huffmanDecode_cases {encoded : Bytes} (hne : encoded ≠ []) :
    (∃ str rest, hpackHuffmanDecodeBytes encoded = .ok str ∧ ReadsAs encoded str rest ∧
        5 * str.length < 8 * encoded.length) ∨
      ∃ message, hpackHuffmanDecodeBytes encoded = .error (.error message) := by
  have hlen : 0 < encoded.length := List.length_pos_of_ne_nil hne
  have hmemory : 0 < decodeMemorySize encoded.length := by
    unfold decodeMemorySize minHpackBitsPerChar
    omega
  unfold hpackHuffmanDecodeBytes
  rw [if_neg (by omega)]
  rcases decodeBytesLoop_cases encoded (decodeMemorySize encoded.length) (8 * encoded.length)
    ⟨0, 0⟩ hpackHuffmanTree [] (by decide) (by simp) standing_root hmemory with
    ⟨values, endNode, hloop, hdecode, hless⟩ | herror
  · obtain ⟨rest, hreads⟩ := (decode_iff encoded values).1 ⟨endNode, hdecode⟩
    refine Or.inl ⟨values, rest, by simpa using hloop, hreads, ?_⟩
    unfold decodeMemorySize minHpackBitsPerChar at hless
    simp only [List.length_nil, Nat.zero_add] at hless
    omega
  · exact Or.inr herror

/-- Input that reads as a string with room for it is decoded to that string. -/
theorem huffmanDecode_of_reads {encoded str : Bytes} {rest : List Bool}
    (hreads : ReadsAs encoded str rest) (hroom : 5 * str.length < 8 * encoded.length) :
    hpackHuffmanDecodeBytes encoded = .ok str := by
  obtain ⟨node, hdecode⟩ := (decode_iff encoded str).2 ⟨rest, hreads⟩
  unfold hpackHuffmanDecodeBytes
  rw [if_neg (by omega)]
  have hless : str.length < decodeMemorySize encoded.length := by
    unfold decodeMemorySize minHpackBitsPerChar
    omega
  exact decodeBytesLoop_decode encoded _ (8 * encoded.length) ⟨0, 0⟩ hpackHuffmanTree [] str
    (by decide) (by simp) hdecode (by simpa using hless)

/-- **What the decoder accepts.** -/
theorem huffmanDecode_ok_iff {encoded : Bytes} (hne : encoded ≠ []) (str : Bytes) :
    hpackHuffmanDecodeBytes encoded = .ok str ↔
      (∃ rest, ReadsAs encoded str rest) ∧ 5 * str.length < 8 * encoded.length := by
  constructor
  · intro hok
    rcases huffmanDecode_cases hne with ⟨str', rest, hok', hreads, hroom⟩ | ⟨message, herror⟩
    · rw [hok] at hok'
      cases hok'
      exact ⟨⟨rest, hreads⟩, hroom⟩
    · rw [hok] at herror
      cases herror
  · rintro ⟨⟨rest, hreads⟩, hroom⟩
    exact huffmanDecode_of_reads hreads hroom

/-- The code of EOS is refused, wherever it stands. -/
theorem huffmanDecode_eos {encoded str : Bytes} {more : List Bool} (hne : encoded ≠ [])
    (hbits : bitsOf encoded = str.flatMap huffmanCode ++ (codeWord .eos ++ more)) :
    ∃ message, hpackHuffmanDecodeBytes encoded = .error (.error message) := by
  rcases huffmanDecode_cases hne with ⟨str', rest, -, hreads, -⟩ | herror
  · obtain ⟨node, hdecode⟩ := (decode_iff encoded str').2 ⟨rest, hreads⟩
    rw [hbits, CodeTree.decode_codes hpackHuffmanTree huffmanTree_isNode huffmanCode
      EndValue.byte huffmanTree_walk, CodeTree.decode_code hpackHuffmanTree more (codeWord .eos)
      hpackHuffmanTree huffmanTree_isNode eos_walk] at hdecode
    -- the list of values has EOS in it, and the string has not
    obtain ⟨⟨values, node'⟩, hmore, heq⟩ := Option.map_eq_some_iff.1 hdecode
    obtain ⟨⟨values', node''⟩, -, heos⟩ := Option.map_eq_some_iff.1 hmore
    simp only [Prod.mk.injEq] at heq heos
    have hmem : EndValue.eos ∈ str'.map EndValue.byte := by
      rw [← heq.1, ← heos.1]
      simp
    simp at hmem
  · exact herror

/-! ## Strings that come back -/

/-- `hpack_huffman_encode_value` writes exactly as many bytes as reserved, and
`hpack_huffman_decode_bytes` gives the string back. -/
def HuffmanComesBack (str : Bytes) : Prop :=
  ∃ encoded, hpackHuffmanEncodeValue str = .ok encoded ∧
    encoded.length = hpackHuffmanGetEncodedSize str ∧ hpackHuffmanDecodeBytes encoded = .ok str

/-- Only characters with the shortest codes, which fill whole bytes. -/
def FillsMemory (str : Bytes) : Prop :=
  str.length % 8 = 0 ∧ ∀ c ∈ str, (encodeEntry c).bitSize = minHpackBitsPerChar

instance (str : Bytes) : Decidable (FillsMemory str) := inferInstanceAs (Decidable (_ ∧ _))

theorem minHpackBitsPerChar_le (c : UInt8) : minHpackBitsPerChar ≤ (encodeEntry c).bitSize := by
  have key : ∀ i : Fin 256, minHpackBitsPerChar ≤ (encodeEntry (UInt8.ofNat i.val)).bitSize := by
    decide +kernel
  exact forall_byte (P := fun c => minHpackBitsPerChar ≤ (encodeEntry c).bitSize) key c

theorem huffmanCode_length (c : UInt8) : (huffmanCode c).length = (encodeEntry c).bitSize :=
  lowBits_length _ _

/-- A code word has at least five bits, and exactly five only for the shortest ones. -/
theorem flatMap_huffmanCode_le (str : Bytes) :
    5 * str.length ≤ (str.flatMap huffmanCode).length ∧
      ((str.flatMap huffmanCode).length = 5 * str.length ↔
        ∀ c ∈ str, (encodeEntry c).bitSize = minHpackBitsPerChar) := by
  induction str with
  | nil => simp
  | cons c str ih =>
    have hmin : 5 ≤ (encodeEntry c).bitSize := minHpackBitsPerChar_le c
    have hfive : minHpackBitsPerChar = 5 := rfl
    simp only [List.flatMap_cons, List.length_append, List.length_cons, huffmanCode_length,
      List.mem_cons, forall_eq_or_imp, hfive]
    rw [hfive] at ih
    refine ⟨by omega, ?_⟩
    rw [← ih.2]
    omega

theorem room_iff (str : Bytes) :
    5 * str.length < 8 * hpackHuffmanGetEncodedSize str ↔ ¬ FillsMemory str := by
  obtain ⟨hmin, heq⟩ := flatMap_huffmanCode_le str
  obtain ⟨hsize, hsize'⟩ := encodedSize_bits str
  unfold FillsMemory
  rw [← heq]
  omega

theorem encodedSize_pos {str : Bytes} (hne : str ≠ []) : hpackHuffmanGetEncodedSize str ≠ 0 := by
  have hlen : 0 < str.length := List.length_pos_of_ne_nil hne
  have hmin := (flatMap_huffmanCode_le str).1
  have hsize := (encodedSize_bits str).1
  omega

/-- What `hpack_huffman_encode_value` returns. -/
theorem hpackHuffmanEncodeValue_bits {str : Bytes} (hne : str ≠ []) :
    ∃ encoded k, hpackHuffmanEncodeValue str = .ok encoded ∧
      encoded.length = hpackHuffmanGetEncodedSize str ∧ k < 8 ∧
      bitsOf encoded = str.flatMap huffmanCode ++ List.replicate k true := by
  have hsize := encodedSize_pos hne
  obtain ⟨encoded, k, hfixed, hlen, hk, hbits⟩ := huffmanEncode_bits str hsize
  refine ⟨encoded, k, ?_, hlen, hk, hbits⟩
  unfold hpackHuffmanEncodeValue
  dsimp only
  rw [if_neg hsize, hfixed]
  simp [hlen]

/-- Less than a byte of ones begins with no code word. -/
theorem readsAs_of_padded {encoded str : Bytes} {k : ℕ} (hk : k < 8)
    (hbits : bitsOf encoded = str.flatMap huffmanCode ++ List.replicate k true) :
    ReadsAs encoded str (List.replicate k true) :=
  ⟨hbits, (stays_iff _).1 (huffmanTree_ones hk)⟩

theorem comesBack_iff_room {str : Bytes} (hne : str ≠ []) :
    HuffmanComesBack str ↔ 5 * str.length < 8 * hpackHuffmanGetEncodedSize str := by
  obtain ⟨encoded, k, hencode, hlen, hk, hbits⟩ := hpackHuffmanEncodeValue_bits hne
  have hencoded : encoded ≠ [] := by
    have hsize := encodedSize_pos hne
    intro hnil
    rw [hnil] at hlen
    exact hsize hlen.symm
  have hiff := huffmanDecode_ok_iff hencoded str
  constructor
  · rintro ⟨encoded', hencode', -, hdecode⟩
    rw [hencode] at hencode'
    cases hencode'
    rw [← hlen]
    exact (hiff.1 hdecode).2
  · intro hroom
    rw [← hlen] at hroom
    exact ⟨encoded, hencode, hlen, hiff.2 ⟨⟨_, readsAs_of_padded hk hbits⟩, hroom⟩⟩

/-- **Which strings come back**: all but those of shortest codes that fill whole bytes, for
which the decoder runs out of its output buffer. -/
theorem huffmanRoundTrip_iff (str : Bytes) (hne : str ≠ []) :
    HuffmanComesBack str ↔ ¬ FillsMemory str := by
  rw [comesBack_iff_room hne]
  exact room_iff str

theorem huffmanRoundTrip_word : HuffmanComesBack (ascii "www") :=
  (huffmanRoundTrip_iff (ascii "www") (by decide)).2 (by decide +kernel)

/-- Eight zeros are five bytes of zero bits, which are not decoded. -/
theorem eightZeros_lost : ascii "00000000" ≠ [] ∧ ¬ HuffmanComesBack (ascii "00000000") := by
  have hne : ascii "00000000" ≠ [] := by decide
  refine ⟨hne, ?_⟩
  rw [comesBack_iff_room hne]
  decide +kernel

/-! ## Valid encodings -/

/-- The code words of `str`, filled up with at most seven ones. -/
def ValidEncoding (encoded str : Bytes) : Prop :=
  ∃ k ≤ 7, bitsOf encoded = str.flatMap huffmanCode ++ List.replicate k true

/-- The decoder accepts the input exactly as what it is a valid encoding of, and refuses it
with an error if it is none. -/
structure AcceptsExactly (encoded : Bytes) : Prop where
  ok_iff : ∀ str, hpackHuffmanDecodeBytes encoded = .ok str ↔ ValidEncoding encoded str
  rejects : (¬ ∃ str, ValidEncoding encoded str) →
    ∃ message, hpackHuffmanDecodeBytes encoded = .error (.error message)

/-- What is left behind the code words is at most seven ones, and the code words are not all
of the shortest ones with nothing left. -/
def WellPadded (encoded : Bytes) : Prop :=
  ∀ str rest, ReadsAs encoded str rest →
    (∃ k ≤ 7, rest = List.replicate k true) ∧ 5 * str.length ≠ 8 * encoded.length

theorem readsAs_le {encoded str : Bytes} {rest : List Bool} (h : ReadsAs encoded str rest) :
    5 * str.length + rest.length ≤ 8 * encoded.length := by
  have hlen := congrArg List.length h.1
  have hmin := (flatMap_huffmanCode_le str).1
  rw [bitsOf_length, List.length_append] at hlen
  omega

theorem wellPadded_of_acceptsExactly {encoded : Bytes} (hne : encoded ≠ [])
    (h : AcceptsExactly encoded) : WellPadded encoded := by
  intro str rest hreads
  have hiff := huffmanDecode_ok_iff hne str
  have hle := readsAs_le hreads
  by_cases hroom : 5 * str.length < 8 * encoded.length
  · -- decoded, so the input is a valid encoding, and its padding is the rest
    obtain ⟨k, hk, hvalid⟩ := (h.ok_iff str).1 (hiff.2 ⟨⟨rest, hreads⟩, hroom⟩)
    rw [hreads.1] at hvalid
    exact ⟨⟨k, hk, List.append_cancel_left hvalid⟩, by omega⟩
  · -- nothing is left, so the input is a valid encoding that is not decoded
    have hnil : rest = [] := List.eq_nil_of_length_eq_zero (by omega)
    have hvalid : ValidEncoding encoded str := ⟨0, by omega, by rw [hreads.1, hnil]; rfl⟩
    have hok := (hiff.1 ((h.ok_iff str).2 hvalid)).2
    exact absurd hok hroom

theorem acceptsExactly_of_wellPadded {encoded : Bytes} (hne : encoded ≠ [])
    (h : WellPadded encoded) : AcceptsExactly encoded := by
  have hok : ∀ str, hpackHuffmanDecodeBytes encoded = .ok str ↔ ValidEncoding encoded str := by
    intro str
    rw [huffmanDecode_ok_iff hne str]
    constructor
    · rintro ⟨⟨rest, hreads⟩, -⟩
      obtain ⟨⟨k, hk, rfl⟩, -⟩ := h str rest hreads
      exact ⟨k, hk, hreads.1⟩
    · rintro ⟨k, hk, hbits⟩
      have hreads := readsAs_of_padded (show k < 8 by omega) hbits
      have hle := readsAs_le hreads
      have hfull := (h str _ hreads).2
      exact ⟨⟨_, hreads⟩, by omega⟩
  refine ⟨hok, fun hnone => ?_⟩
  rcases huffmanDecode_cases hne with ⟨str, rest, hdecode, -⟩ | herror
  · exact absurd ⟨str, (hok str).1 hdecode⟩ hnone
  · exact herror

/-- **On which inputs the decoder is exact.** -/
theorem acceptsExactly_iff (encoded : Bytes) (hne : encoded ≠ []) :
    AcceptsExactly encoded ↔ WellPadded encoded :=
  ⟨wellPadded_of_acceptsExactly hne, acceptsExactly_of_wellPadded hne⟩

theorem acceptsExactly_padded :
    ([0x1F] : Bytes) ≠ [] ∧ (AcceptsExactly [0x1F] ↔ WellPadded [0x1F]) :=
  ⟨by decide, acceptsExactly_iff [0x1F] (by decide)⟩

/-- A byte of ones is padding of eight bits, and is accepted. -/
theorem longPadding_accepted : ([0xFF] : Bytes) ≠ [] ∧ ¬ AcceptsExactly [0xFF] := by
  refine ⟨by decide, fun h => ?_⟩
  have hdecode : hpackHuffmanDecodeBytes [0xFF] = .ok [] := by decide +kernel
  obtain ⟨k, hk, hbits⟩ := (h.ok_iff []).1 hdecode
  have hlen := congrArg List.length hbits
  simp at hlen
  omega

end SimpleServer.Hpack
