import SimpleServer.Hpack.Huffman

/-!
# Huffman coded strings are decoded again

The encoder writes the codes of the characters bit by bit and fills the last byte with ones;
the decoder follows the bits through the tree. Its output buffer is sized by the shortest
code and has to stay larger than the string, so a string of nothing but shortest codes that
fills its last byte is refused.

* `huffmanEncode_bits`: what is written is the codes and less than a byte of ones.
* `huffmanDecode_bits`: such bits are read back.
* `huffman_roundTrip`: the two together.
-/

namespace SimpleServer.Hpack

open Lib

/-- The code of a character, first bit first. -/
def huffmanCode (c : UInt8) : List Bool := lowBits (encodeEntry c).bitSize (encodeEntry c).value

/-! ## Writing bits -/

/-- The bits written so far end at a position in the buffer. -/
structure Written (size : ℕ) (data : Bytes) (p : BitPos) (written : List Bool) : Prop where
  size : data.length = size
  bitsPos : p.bitsPos < 8
  length : written.length = 8 * p.pos + p.bitsPos
  bits : written = bitsOf (data.take p.pos) ++ (bitsOfByte (data.getD p.pos 0)).take p.bitsPos
  zero : 0 < p.bitsPos → zeroFrom p.bitsPos (data.getD p.pos 0)

theorem written_start (size : ℕ) : Written size (List.replicate size 0) ⟨0, 0⟩ [] :=
  ⟨List.length_replicate, by decide, rfl, rfl, nofun⟩

variable {size : ℕ} {data : Bytes} {p : BitPos} {written : List Bool}

/-- The buffer in which the byte at the position is started. -/
def startByte (data : Bytes) (p : BitPos) : Bytes :=
  if p.bitsPos = 0 then data.set p.pos 0 else data

theorem startByte_length (data : Bytes) (p : BitPos) : (startByte data p).length = data.length := by
  unfold startByte
  split_ifs
  · exact List.length_set
  · rfl

theorem startByte_take (data : Bytes) (p : BitPos) :
    (startByte data p).take p.pos = data.take p.pos := by
  unfold startByte
  split_ifs
  · exact List.take_set_of_le (le_refl _)
  · rfl

theorem Written.startByte_zero (h : Written size data p written) (hlt : p.pos < size) :
    zeroFrom p.bitsPos ((startByte data p).getD p.pos 0) := by
  unfold startByte
  split_ifs with hzero
  · rw [hzero, List.getD_eq_getElem _ _ (by rw [List.length_set, h.size]; exact hlt),
      List.getElem_set_self]
    decide
  · exact h.zero (Nat.pos_of_ne_zero hzero)

theorem startByte_bits (data : Bytes) (p : BitPos) :
    (bitsOfByte ((startByte data p).getD p.pos 0)).take p.bitsPos =
      (bitsOfByte (data.getD p.pos 0)).take p.bitsPos := by
  unfold startByte
  split_ifs with hzero
  · rw [hzero, List.take_zero, List.take_zero]
  · rfl

/-- **One more bit is written.** -/
theorem Written.write (h : Written size data p written) (hlt : p.pos < size) (bit : Bool) :
    Written size
      ((startByte data p).set p.pos (orBit ((startByte data p).getD p.pos 0) p.bitsPos bit))
      p.inc (written ++ [bit]) := by
  have hlen : p.pos < (startByte data p).length := by rw [startByte_length, h.size]; exact hlt
  obtain ⟨hbits, hzero⟩ := orBit_bits ((startByte data p).getD p.pos 0) bit h.bitsPos
    (h.startByte_zero hlt)
  set byte := orBit ((startByte data p).getD p.pos 0) p.bitsPos bit with hbyte
  have hget : ((startByte data p).set p.pos byte).getD p.pos 0 = byte := by
    rw [List.getD_eq_getElem _ _ (by rw [List.length_set]; exact hlen), List.getElem_set_self]
  have htake : ((startByte data p).set p.pos byte).take p.pos = data.take p.pos := by
    rw [List.take_set_of_le (le_refl _), startByte_take]
  have hwritten : written ++ [bit] =
      bitsOf (data.take p.pos) ++ (bitsOfByte byte).take (p.bitsPos + 1) := by
    rw [h.bits, List.append_assoc, hbits, startByte_bits]
  have hsize : ((startByte data p).set p.pos byte).length = size := by
    rw [List.length_set, startByte_length, h.size]
  have hlength := h.length
  have hpos := h.bitsPos
  unfold BitPos.inc
  split_ifs with hlast
  · -- the byte is full, and the next one starts
    have hwhole : (bitsOfByte byte).take (p.bitsPos + 1) = bitsOfByte byte :=
      List.take_of_length_le (by rw [bitsOfByte_length]; omega)
    refine ⟨hsize, Nat.zero_lt_succ 7,
      by rw [List.length_append, List.length_singleton]; dsimp only; omega, ?_, nofun⟩
    dsimp only
    rw [bitsOf_take (by rw [List.length_set]; exact hlen), htake, hget, List.take_zero,
      List.append_nil, hwritten, hwhole]
  · refine ⟨hsize, by dsimp only; omega,
      by rw [List.length_append, List.length_singleton]; dsimp only; omega, ?_, fun _ => ?_⟩
    · dsimp only
      rw [htake, hget]
      exact hwritten
    · dsimp only
      rw [hget]
      exact hzero

/-- **The bits of a character are written.** -/
theorem encodeBitsLoop_written (n value : ℕ) (h : Written size data p written)
    (hroom : written.length + n ≤ 8 * size) :
    ∃ data' p', encodeBitsLoop size n value data p = .ok (data', p') ∧
      Written size data' p' (written ++ lowBits n value) := by
  induction n generalizing value data p written with
  | zero => exact ⟨data, p, rfl, by rw [lowBits, List.append_nil]; exact h⟩
  | succ n ih =>
    -- there is room for a bit more, so the position is in the buffer
    have hlt : p.pos < size := by
      have hlength := h.length
      omega
    have hnext := h.write hlt (value % 2 == 1)
    obtain ⟨data', p', hloop, hwritten⟩ := ih (value / 2) hnext
      (by rw [List.length_append, List.length_singleton]; omega)
    refine ⟨data', p', ?_, ?_⟩
    · unfold encodeBitsLoop
      rw [if_neg fun hfull => absurd hfull.2 (by rw [h.size]; omega)]
      dsimp only
      rw [if_neg (by omega)]
      exact hloop
    · rw [lowBits, List.append_cons]
      exact hwritten

/-- **The codes of a string are written.** -/
theorem encodeCharsLoop_written (str : Bytes) (h : Written size data p written)
    (hroom : written.length + (str.flatMap huffmanCode).length ≤ 8 * size) :
    ∃ data' p', encodeCharsLoop size str data p = .ok (data', p') ∧
      Written size data' p' (written ++ str.flatMap huffmanCode) := by
  induction str generalizing data p written with
  | nil => exact ⟨data, p, rfl, by rw [List.flatMap_nil, List.append_nil]; exact h⟩
  | cons c cs ih =>
    rw [List.flatMap_cons, List.length_append] at hroom
    have hcode : (huffmanCode c).length = (encodeEntry c).bitSize := lowBits_length _ _
    obtain ⟨data', p', hbits, hwritten⟩ := encodeBitsLoop_written (encodeEntry c).bitSize
      (encodeEntry c).value h (by omega)
    obtain ⟨data'', p'', hloop, hwritten'⟩ := ih hwritten (by
      rw [List.length_append, lowBits_length]
      omega)
    refine ⟨data'', p'', ?_, ?_⟩
    · unfold encodeCharsLoop
      rw [hbits]
      exact hloop
    · rw [List.flatMap_cons, ← List.append_assoc]
      exact hwritten'

theorem flatMap_huffmanCode_length (str : Bytes) :
    (str.flatMap huffmanCode).length = (str.map fun c => (encodeEntry c).bitSize).sum := by
  rw [List.length_flatMap]
  congr 1
  refine List.map_congr_left fun c _ => ?_
  exact lowBits_length _ _

/-- The characters make up the reserved bytes, but for less than one byte. -/
theorem encodedSize_bits (str : Bytes) :
    (str.flatMap huffmanCode).length ≤ 8 * hpackHuffmanGetEncodedSize str ∧
      8 * hpackHuffmanGetEncodedSize str < (str.flatMap huffmanCode).length + 8 := by
  rw [flatMap_huffmanCode_length]
  unfold hpackHuffmanGetEncodedSize
  omega

/-- **What the encoder writes**: the codes of the string, and ones up to a whole byte. -/
theorem huffmanEncode_bits (str : Bytes) (hsize : hpackHuffmanGetEncodedSize str ≠ 0) :
    ∃ encoded k, hpackHuffmanEncodeValueFixedSize
        (List.replicate (hpackHuffmanGetEncodedSize str) 0) (hpackHuffmanGetEncodedSize str) str =
          .ok encoded ∧
      encoded.length = hpackHuffmanGetEncodedSize str ∧ k < 8 ∧
      bitsOf encoded = str.flatMap huffmanCode ++ List.replicate k true := by
  obtain ⟨hle, hlt⟩ := encodedSize_bits str
  have hne : ¬ str.length = 0 := by
    intro hempty
    rw [List.length_eq_zero_iff.1 hempty] at hsize
    exact hsize rfl
  obtain ⟨data, p, hloop, h⟩ := encodeCharsLoop_written str
    (written_start (hpackHuffmanGetEncodedSize str)) (by rw [List.length_nil]; omega)
  rw [List.nil_append] at h
  have hlength := h.length
  have hpos := h.bitsPos
  have hdata := h.size
  unfold hpackHuffmanEncodeValueFixedSize
  rw [if_neg hne, if_neg hsize, hloop]
  dsimp only
  -- a byte that was started is filled up with ones
  by_cases hpartly : 0 < p.bitsPos
  · have hin : p.pos < data.length := by omega
    refine ⟨_, 8 - p.bitsPos, if_pos hpartly, ?_, by omega, ?_⟩
    · rw [List.length_take, List.length_set]
      omega
    · rw [bitsOf_take (by rw [List.length_set]; exact hin), List.take_set_of_le (le_refl _),
        List.getD_eq_getElem _ _ (by rw [List.length_set]; exact hin), List.getElem_set_self,
        padOnes_bits _ hpos (h.zero hpartly), ← List.append_assoc, ← h.bits]
  · refine ⟨_, 0, if_neg hpartly, ?_, by omega, ?_⟩
    · rw [List.length_take]
      omega
    · have hbits := h.bits
      rw [show p.bitsPos = 0 by omega, List.take_zero, List.append_nil] at hbits
      rw [← hbits, List.replicate_zero, List.append_nil]

/-! ## Reading bits -/

/-- The mask of a position picks the bit. -/
theorem bitPosMask_testBit (byte : UInt8) {j : ℕ} (hj : j < 8) :
    ∃ mask, bitPosMask[j]? = some mask ∧ (byte &&& mask != 0) = byte.toNat.testBit (7 - j) := by
  -- all masks on all bytes
  have key : ∀ i : Fin 256, ∀ j : Fin 8,
      (UInt8.ofNat i.val &&& bitPosMask.getD j.val 0 != 0) =
        (UInt8.ofNat i.val).toNat.testBit (7 - j.val) := by decide +kernel
  have hbyte := forall_byte (P := fun b => ∀ j : Fin 8,
    (b &&& bitPosMask.getD j.val 0 != 0) = b.toNat.testBit (7 - j.val)) key byte ⟨j, hj⟩
  have hlen : j < bitPosMask.length := hj
  refine ⟨bitPosMask[j], List.getElem?_eq_getElem hlen, ?_⟩
  rw [← hbyte, List.getD_eq_getElem _ _ hlen]

theorem BitPos.inc_index (p : BitPos) (h : p.bitsPos < 8) :
    8 * p.inc.pos + p.inc.bitsPos = 8 * p.pos + p.bitsPos + 1 ∧ p.inc.bitsPos < 8 := by
  unfold BitPos.inc
  split_ifs
  · dsimp only
    omega
  · dsimp only
    omega

/-- **The loop of the decoder follows the tree**, as long as its output buffer is not full. -/
theorem decodeBytesLoop_decode (data : Bytes) (memorySize : ℕ) {endNode : HuffmanNode} :
    ∀ (fuel : ℕ) (p : BitPos) (node : HuffmanNode) (done values : Bytes), p.bitsPos < 8 →
      8 * p.pos + p.bitsPos + fuel = 8 * data.length →
      CodeTree.decode hpackHuffmanTree node ((bitsOf data).drop (8 * p.pos + p.bitsPos)) =
        some (values.map EndValue.byte, endNode) →
      done.length + values.length < memorySize →
      decodeBytesLoop data memorySize fuel p node done = .ok (done ++ values) := by
  intro fuel
  induction fuel with
  | zero =>
    intro p node done values _ hindex hdecode _
    rw [List.drop_of_length_le (by rw [bitsOf_length]; omega), CodeTree.decode] at hdecode
    have hnil : values = [] := by
      have hmap := congrArg Prod.fst (Option.some.inj hdecode)
      exact List.map_eq_nil_iff.1 hmap.symm
    rw [decodeBytesLoop, hnil, List.append_nil]
  | succ fuel ih =>
    intro p node done values hpos hindex hdecode hroom
    have hlt : p.pos < data.length := by omega
    have hbyte : data[p.pos]? = some data[p.pos] := List.getElem?_eq_getElem hlt
    obtain ⟨mask, hmask, hbit⟩ := bitPosMask_testBit data[p.pos] hpos
    obtain ⟨hnext, hnextPos⟩ := p.inc_index hpos
    -- the bit under the mask is the next one of the bits of the data
    have hget := bitsOf_getElem? hbyte hpos
    obtain ⟨hin, hval⟩ := List.getElem?_eq_some_iff.1 hget
    rw [List.drop_eq_getElem_cons hin, hval, ← hnext, ← hbit] at hdecode
    unfold decodeBytesLoop
    rw [hbyte, hmask]
    dsimp only
    rw [CodeTree.decode] at hdecode
    split at hdecode
    · cases hdecode
    · cases hdecode
    · -- a leaf: its value is the next one
      rename_i a hchild
      rw [hchild]
      obtain ⟨⟨rest, node'⟩, hrest, hcons⟩ := Option.map_eq_some_iff.1 hdecode
      obtain ⟨hvalues, hnode⟩ := Prod.mk.inj hcons
      cases values with
      | nil => cases hvalues
      | cons value values =>
        obtain ⟨rfl, rfl⟩ := List.cons.inj hvalues
        rw [List.length_cons] at hroom
        dsimp only
        rw [if_neg (by rw [List.length_append, List.length_singleton]; omega),
          List.append_cons done value values]
        refine ih p.inc hpackHuffmanTree (done ++ [value]) values hnextPos (by omega) ?_ ?_
        · rw [hrest]
          exact congrArg (fun n => some (values.map EndValue.byte, n)) hnode
        · rw [List.length_append, List.length_singleton]
          omega
    · rename_i l r hchild
      rw [hchild]
      exact ih p.inc (.node l r) done values hnextPos (by omega) hdecode hroom

/-- The codes of all characters lead to their leaves. -/
theorem huffmanTree_walk (c : UInt8) :
    hpackHuffmanTree.walk (huffmanCode c) = some (.leaf (.byte c)) := by
  have key : ∀ i : Fin 256, hpackHuffmanTree.walk (huffmanCode (UInt8.ofNat i.val)) =
      some (.leaf (.byte (UInt8.ofNat i.val))) := by decide +kernel
  exact forall_byte (P := fun c => hpackHuffmanTree.walk (huffmanCode c) = some (.leaf (.byte c)))
    key c

theorem huffmanTree_isNode : hpackHuffmanTree.isNode = true := by decide +kernel

/-- Less than a byte of ones does not reach a leaf. -/
theorem huffmanTree_ones {k : ℕ} (hk : k < 8) :
    ∃ node, hpackHuffmanTree.walk (List.replicate k true) = some node ∧ node.isNode = true := by
  have key : ∀ k : Fin 8,
      (hpackHuffmanTree.walk (List.replicate k.val true)).any CodeTree.isNode = true := by
    decide +kernel
  exact (Option.any_eq_true _ _).1 (key ⟨k, hk⟩)

/-- **What the decoder reads**: the string whose codes the bits are. -/
theorem huffmanDecode_bits {str encoded : Bytes} {k : ℕ} (hk : k < 8)
    (hbits : bitsOf encoded = str.flatMap huffmanCode ++ List.replicate k true)
    (hroom : 5 * str.length < 8 * encoded.length) : hpackHuffmanDecodeBytes encoded = .ok str := by
  obtain ⟨node, hwalk, hnode⟩ := huffmanTree_ones hk
  have hdecode : CodeTree.decode hpackHuffmanTree hpackHuffmanTree (bitsOf encoded) =
      some (str.map EndValue.byte, node) := by
    rw [hbits, CodeTree.decode_codes hpackHuffmanTree huffmanTree_isNode huffmanCode EndValue.byte
      huffmanTree_walk, CodeTree.decode_tail hpackHuffmanTree _ _ hwalk hnode, Option.map_some,
      List.append_nil]
  unfold hpackHuffmanDecodeBytes
  rw [if_neg (by omega)]
  refine decodeBytesLoop_decode encoded _ (8 * encoded.length) ⟨0, 0⟩ hpackHuffmanTree [] str
    (by decide) (by dsimp only; omega) hdecode ?_
  -- the buffer is one character per five bits, and the last one is never filled
  unfold decodeMemorySize minHpackBitsPerChar
  rw [List.length_nil]
  omega

/-- **A Huffman coded string is decoded again**, if it is not one of shortest codes that fill
whole bytes. -/
theorem huffman_roundTrip {str : Bytes}
    (hroom : 5 * str.length < 8 * hpackHuffmanGetEncodedSize str) :
    ∃ encoded, hpackHuffmanEncodeValueFixedSize
        (List.replicate (hpackHuffmanGetEncodedSize str) 0) (hpackHuffmanGetEncodedSize str) str =
          .ok encoded ∧
      encoded.length = hpackHuffmanGetEncodedSize str ∧
      hpackHuffmanDecodeBytes encoded = .ok str := by
  obtain ⟨encoded, k, hencode, hlength, hk, hbits⟩ := huffmanEncode_bits str (by omega)
  exact ⟨encoded, hencode, hlength, huffmanDecode_bits hk hbits (by rw [hlength]; exact hroom)⟩

/-- Eight zeros, each of five bits, are one more than the decoder takes. -/
example : hpackHuffmanDecodeBytes [0, 0, 0, 0, 0] = .error (.error "result memory overflow") := by
  decide +kernel

end SimpleServer.Hpack
