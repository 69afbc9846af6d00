import SimpleServer.Proof.Sha1Rounds

/-!
# SHA-1 in pieces

The context is a stream of blocks: the state is the chain value, the buffer starts with what is
kept, and the two counters are the length in bits, modulo 2^64. The position in the buffer and the
length of a piece are added as 32-bit numbers; where this wraps around, the piece is copied into
the buffer whole and leaves it.

* `Refines.update`: **an update is a piece for the stream.**
* `Refines.update_none`: where it leaves the buffer.
-/

namespace SimpleServer.Generic

open Lib

variable {order : ByteOrder} {context : Sha1Ctx} {stream : Sha1.blocks.Stream} {length : ℕ}
  {data message : Bytes} {len : UInt32}

/-! ## Counters -/

theorem toNat_shiftLeft_three (len : UInt32) : (len <<< 3).toNat = 8 * len.toNat % 2 ^ 32 := by
  rw [UInt32.toNat_shiftLeft, Nat.shiftLeft_eq]
  congr 1
  exact Nat.mul_comm _ _

/-- The two counters are one number of 64 bits. -/
theorem sha1Count_toNat (context : Sha1Ctx) (len : UInt32) :
    (sha1Count context len).2.toNat * 2 ^ 32 + (sha1Count context len).1.toNat =
      (context.count1.toNat * 2 ^ 32 + context.count0.toNat + 8 * len.toNat) % 2 ^ 64 := by
  have hcount0 := context.count0.toNat_lt
  have hcount1 := context.count1.toNat_lt
  have hlen := len.toNat_lt
  have hlow : (sha1Count context len).1.toNat =
      (context.count0.toNat + 8 * len.toNat % 2 ^ 32) % 2 ^ 32 := by
    rw [← toNat_shiftLeft_three]
    exact UInt32.toNat_add _ _
  have hshift : (len >>> 29).toNat = len.toNat / 2 ^ 29 := by
    rw [UInt32.toNat_shiftRight, Nat.shiftRight_eq_div_pow]
    rfl
  have hhigh : (sha1Count context len).2 =
      (if (sha1Count context len).1 < context.count0 then context.count1 + 1 else context.count1) +
        len >>> 29 := rfl
  rw [hhigh, UInt32.toNat_add, hshift]
  by_cases hcarry : (sha1Count context len).1 < context.count0
  · have hless := UInt32.lt_iff_toNat_lt.1 hcarry
    have hone : (context.count1 + 1).toNat = (context.count1.toNat + 1) % 2 ^ 32 :=
      UInt32.toNat_add _ _
    rw [if_pos hcarry, hone]
    omega
  · have hmore : ¬ (sha1Count context len).1.toNat < context.count0.toNat := fun hless =>
      hcarry (UInt32.lt_iff_toNat_lt.2 hless)
    rw [if_neg hcarry]
    omega

/-- The position in the buffer. -/
theorem toNat_position {count0 : UInt32} (h : count0.toNat = 8 * length % 2 ^ 32) :
    (count0 >>> 3 &&& 63).toNat = length % 64 := by
  have hand : (count0 >>> 3 &&& 63).toNat = count0.toNat / 2 ^ 3 % 2 ^ 6 := by
    rw [UInt32.toNat_and, UInt32.toNat_shiftRight, Nat.shiftRight_eq_div_pow]
    exact Nat.and_two_pow_sub_one_eq_mod _ 6
  rw [hand, h]
  omega

/-- `(context->count[0] & 504) != 448`. -/
theorem position_eq_iff {count0 : UInt32} (h : count0.toNat = 8 * length % 2 ^ 32) :
    count0 &&& 504 = 448 ↔ length % 64 = 56 := by
  have hmask : (count0 &&& 504).toNat = count0.toNat % 2 ^ 9 - count0.toNat % 2 ^ 3 := by
    have hsplit : (504 : ℕ) = (2 ^ 9 - 1) ^^^ (2 ^ 3 - 1) := by decide
    have hlow : count0.toNat % 2 ^ 3 = 0 := by omega
    have hmod := Nat.and_two_pow_sub_one_eq_mod count0.toNat 9
    have hmod' := Nat.and_two_pow_sub_one_eq_mod count0.toNat 3
    rw [UInt32.toNat_and]
    have hdistrib : count0.toNat &&& 504 =
        (count0.toNat &&& 2 ^ 9 - 1) ^^^ (count0.toNat &&& 2 ^ 3 - 1) := by
      rw [← Nat.and_xor_distrib_left, ← hsplit]
    have hliteral : (504 : UInt32).toNat = 504 := rfl
    rw [hliteral, hdistrib, hmod, hmod', hlow, Nat.xor_zero, Nat.sub_zero]
  rw [← UInt32.toNat_inj, hmask]
  have hliteral : (448 : UInt32).toNat = 448 := rfl
  rw [hliteral]
  omega

/-! ## The context as a stream -/

/-- A context that stands for a stream which has taken `length` bytes. -/
structure Refines (context : Sha1Ctx) (stream : Sha1.blocks.Stream) (length : ℕ) : Prop where
  state : stateWords context.state = stream.chain
  kept : stream.kept <+: context.buffer
  kept_length : stream.kept.length = length % 64
  buffer : context.buffer.length = 64
  count : context.count1.toNat * 2 ^ 32 + context.count0.toNat = 8 * length % 2 ^ 64

theorem Refines.count0 (h : Refines context stream length) :
    context.count0.toNat = 8 * length % 2 ^ 32 := by
  have hlow := context.count0.toNat_lt
  have hcount := h.count
  omega

theorem slice_take {index n : ℕ} (hlen : len.toNat ≤ data.length) (h : index + n ≤ len.toNat) :
    Buffer.slice data index n = some (((data.take len.toNat).drop index).take n) := by
  have hroom : index + n ≤ data.length := by omega
  have htake : ((data.take len.toNat).drop index).take n = (data.drop index).take n := by
    rw [List.drop_take, List.take_take, min_eq_left (by omega)]
  rw [Buffer.slice, if_pos hroom, htake]

theorem add_toNat {x y : UInt32} (h : x.toNat + y.toNat < 2 ^ 32) :
    (x + y).toNat = x.toNat + y.toNat := by
  rw [UInt32.toNat_add, Nat.mod_eq_of_lt h]

/-- **The full blocks** of a piece. The index is a multiple of 64 away from the place that the
piece had in the buffer, so it does not wrap around. -/
theorem sha1Blocks_eq (order : ByteOrder) (hlen : len.toNat ≤ data.length) {before : ℕ}
    (hfit : before + len.toNat < 2 ^ 32) (fuel : ℕ) (state : Vector UInt32 5) (i : UInt32)
    (hi : i.toNat ≤ len.toNat) (hmod : (before + i.toNat) % 64 = 0)
    (hfuel : len.toNat - i.toNat < fuel) :
    ∃ state' i', sha1Blocks order data len fuel state i = some (state', i') ∧
      i'.toNat ≤ len.toNat ∧
      (stateWords state', (data.take len.toNat).drop i'.toNat) =
        Sha1.blocks.compressAll (stateWords state) ((data.take len.toNat).drop i.toNat) := by
  have hpiece : (data.take len.toNat).length = len.toNat := by
    rw [List.length_take, min_eq_left hlen]
  induction fuel generalizing state i with
  | zero => omega
  | succ fuel ih =>
    have hmore : (i + 63).toNat = i.toNat + 63 := add_toNat (by
      have hliteral : (63 : UInt32).toNat = 63 := rfl
      omega)
    have hrest : ((data.take len.toNat).drop i.toNat).length = len.toNat - i.toNat := by
      rw [List.length_drop, hpiece]
    unfold sha1Blocks
    by_cases hblock : i + 63 < len
    · have hless := UInt32.lt_iff_toNat_lt.1 hblock
      rw [hmore] at hless
      have hnext : (i + 64).toNat = i.toNat + 64 := add_toNat (by
        have hliteral : (64 : UInt32).toNat = 64 := rfl
        omega)
      have hsixty : (((data.take len.toNat).drop i.toNat).take 64).length = 64 := by
        rw [List.length_take, hrest]
        omega
      obtain ⟨state', i', hrun, hle, hall⟩ := ih
        (sha1Transform order state (((data.take len.toNat).drop i.toNat).take 64)) (i + 64)
        (by omega) (by omega) (by omega)
      have hdrop : (data.take len.toNat).drop (i + 64).toNat =
          ((data.take len.toNat).drop i.toNat).drop 64 := by
        rw [hnext, List.drop_drop]
      have hfirst : ((data.take len.toNat).drop i.toNat).take 64 ++
          ((data.take len.toNat).drop i.toNat).drop 64 = (data.take len.toNat).drop i.toNat :=
        List.take_append_drop 64 _
      refine ⟨state', i', ?_, hle, ?_⟩
      · rw [if_pos hblock, slice_take hlen (by omega)]
        exact hrun
      · rw [hall, stateWords_transform order state hsixty, hdrop,
          ← BlockHash.compressAll_block Sha1.blocks hsixty, hfirst]
    · have hless : ¬ (i + 63).toNat < len.toNat := fun h => hblock (UInt32.lt_iff_toNat_lt.2 h)
      rw [hmore] at hless
      have hshort : ((data.take len.toNat).drop i.toNat).length < Sha1.blocks.blockLength := by
        have hlength : Sha1.blocks.blockLength = 64 := rfl
        omega
      exact ⟨state, i, if_neg hblock, hi, (BlockHash.compressAll_of_lt _ hshort).symm⟩

/-- Before the last copy: the buffer starts with a text, and with the rest of the piece behind it
this is what the stream makes of the piece. -/
structure Filled (stream : Sha1.blocks.Stream) (piece : Bytes) (len : UInt32)
    (state : Vector UInt32 5) (buffer : Bytes) (i j : UInt32) (text : Bytes) : Prop where
  index : i.toNat ≤ len.toNat
  starts : text <+: buffer
  position : j.toNat = text.length
  size : buffer.length = 64
  all : (stateWords state, text ++ piece.drop i.toNat) =
    Sha1.blocks.compressAll stream.chain (stream.kept ++ piece)

theorem Refines.fill_short (h : Refines context stream length) {j : UInt32}
    (hj : j.toNat = length % 64) (hlen : len.toNat ≤ data.length)
    (hshort : length % 64 + len.toNat ≤ 63) :
    ∃ state buffer i j' text, sha1Fill order context data len j = some (state, buffer, i, j') ∧
      Filled stream (data.take len.toNat) len state buffer i j' text := by
  have hliteral : (63 : UInt32).toNat = 63 := rfl
  have hsum : (j + len).toNat = length % 64 + len.toNat := by
    rw [add_toNat (by omega), hj]
  have hfull : ¬ j + len > 63 := fun hfull => by
    have hless := UInt32.lt_iff_toNat_lt.1 hfull
    omega
  have hrest : (stream.kept ++ data.take len.toNat).length < Sha1.blocks.blockLength := by
    have hlength : Sha1.blocks.blockLength = 64 := rfl
    rw [List.length_append, h.kept_length, List.length_take, hlength]
    omega
  refine ⟨context.state, context.buffer, 0, j, stream.kept, if_neg hfull, ?_⟩
  refine { index := Nat.zero_le _, starts := h.kept, position := ?_, size := h.buffer, all := ?_ }
  · rw [hj, h.kept_length]
  · rw [BlockHash.compressAll_of_lt _ hrest, h.state]
    rfl

theorem Refines.fill_long (h : Refines context stream length) {j : UInt32}
    (hj : j.toNat = length % 64) (hlen : len.toNat ≤ data.length)
    (hfit : length % 64 + len.toNat < 2 ^ 32) (hlong : 63 < length % 64 + len.toNat) :
    ∃ state buffer i j' text, sha1Fill order context data len j = some (state, buffer, i, j') ∧
      Filled stream (data.take len.toNat) len state buffer i j' text := by
  have hliteral : (63 : UInt32).toNat = 63 := rfl
  have hsum : (j + len).toNat = length % 64 + len.toNat := by
    rw [add_toNat (by omega), hj]
  have hfull : j + len > 63 := UInt32.lt_iff_toNat_lt.2 (by omega)
  have hindex : (64 - j).toNat = 64 - length % 64 := by
    have hle : j ≤ 64 := UInt32.le_iff_toNat_le.2 (by
      have hsixtyfour : (64 : UInt32).toNat = 64 := rfl
      omega)
    rw [UInt32.toNat_sub_of_le _ _ hle, hj]
    rfl
  -- the first bytes of the piece fill the buffer
  have hfirst : ((data.take len.toNat).take (64 - j).toNat).length = 64 - length % 64 := by
    rw [List.length_take, List.length_take]
    omega
  have hblock : (stream.kept ++ (data.take len.toNat).take (64 - j).toNat).length = 64 := by
    rw [List.length_append, h.kept_length, hfirst]
    omega
  obtain ⟨buffer, hcopy, hstarts, hsize⟩ := Buffer.memcpy_of_starts j.toNat
    ((data.take len.toNat).take (64 - j).toNat) h.kept (hj.trans h.kept_length.symm)
    (by rw [h.buffer, hfirst]; omega)
  have hbuffer : stream.kept ++ (data.take len.toNat).take (64 - j).toNat = buffer :=
    hstarts.eq_of_length (by rw [hblock, hsize, h.buffer])
  have hsixtyfour : buffer.length = 64 := by rw [hsize, h.buffer]
  obtain ⟨state, i, hrun, hle, hall⟩ := sha1Blocks_eq order hlen hfit (len.toNat + 1)
    (sha1Transform order context.state buffer) (64 - j) (by omega) (by omega) (by omega)
  refine ⟨state, buffer, i, 0, [], ?_, ?_⟩
  · unfold sha1Fill
    have hslice : Buffer.slice data 0 (64 - j).toNat =
        some ((data.take len.toNat).take (64 - j).toNat) := by
      rw [slice_take hlen (by omega), List.drop_zero]
    rw [if_pos hfull]
    simp only [hslice, Option.bind_eq_bind, Option.bind_some, hcopy, hrun, Option.pure_def]
  · refine
      { index := hle, starts := List.nil_prefix, position := rfl, size := hsixtyfour, all := ?_ }
    have hpiece : stream.kept ++ data.take len.toNat =
        buffer ++ (data.take len.toNat).drop (64 - j).toNat := by
      rw [← hbuffer, List.append_assoc, List.take_append_drop]
    rw [List.nil_append, hall, stateWords_transform order context.state hsixtyfour, h.state, hpiece,
      BlockHash.compressAll_block Sha1.blocks hsixtyfour]

/-- **An update is a piece for the stream**, where its length and the position in the buffer do not
wrap around. -/
theorem Refines.update (h : Refines context stream length) (order : ByteOrder)
    (hlen : len.toNat ≤ data.length) (hfit : length % 64 + len.toNat < 2 ^ 32) :
    ∃ context', sha1Update order context data len = some context' ∧
      Refines context' (stream.absorb (data.take len.toNat)) (length + len.toNat) := by
  have hj : (context.count0 >>> 3 &&& 63).toNat = length % 64 := toNat_position h.count0
  have hfill : ∃ state buffer i j' text,
      sha1Fill order context data len (context.count0 >>> 3 &&& 63) =
        some (state, buffer, i, j') ∧
      Filled stream (data.take len.toNat) len state buffer i j' text := by
    rcases Nat.lt_or_ge 63 (length % 64 + len.toNat) with hlong | hshort
    · exact h.fill_long hj hlen hfit hlong
    · exact h.fill_short hj hlen hshort
  obtain ⟨state, buffer, i, j', text, hrun, hfilled⟩ := hfill
  have hchain : (stream.absorb (data.take len.toNat)).chain = stateWords state :=
    (congrArg Prod.fst hfilled.all).symm
  have hkept : (stream.absorb (data.take len.toNat)).kept =
      text ++ (data.take len.toNat).drop i.toNat := (congrArg Prod.snd hfilled.all).symm
  have hsub : (len - i).toNat = len.toNat - i.toNat :=
    UInt32.toNat_sub_of_le _ _ (UInt32.le_iff_toNat_le.2 hfilled.index)
  have hpiece : (data.take len.toNat).length = len.toNat := by
    rw [List.length_take, min_eq_left hlen]
  have hrest : ((data.take len.toNat).drop i.toNat).take (len - i).toNat =
      (data.take len.toNat).drop i.toNat := by
    rw [hsub]
    exact List.take_of_length_le (by rw [List.length_drop, hpiece])
  have hlt := (stream.absorb (data.take len.toNat)).kept_lt
  have hblocks : Sha1.blocks.blockLength = 64 := rfl
  obtain ⟨written, hcopy, hstarts, hsize⟩ := Buffer.memcpy_of_starts j'.toNat
    ((data.take len.toNat).drop i.toNat) hfilled.starts hfilled.position (by
      rw [hfilled.size, hfilled.position, ← List.length_append, ← hkept]
      omega)
  refine ⟨⟨state, (sha1Count context len).1, (sha1Count context len).2, written⟩, ?_, ?_⟩
  · have hslice := slice_take (n := (len - i).toNat) hlen (show i.toNat + (len - i).toNat ≤ _ by
      have hindex := hfilled.index
      omega)
    unfold sha1Update
    simp only [hrun, Option.bind_eq_bind, Option.bind_some, hslice, hrest, hcopy, Option.pure_def]
  · refine { state := hchain.symm, kept := ?_, kept_length := ?_, buffer := ?_, count := ?_ }
    · rw [hkept]
      exact hstarts
    · have habsorb : (stream.absorb (data.take len.toNat)).kept =
          (Sha1.blocks.compressAll stream.chain (stream.kept ++ data.take len.toNat)).2 := rfl
      rw [habsorb, BlockHash.compressAll_rest_length, List.length_append, hpiece, h.kept_length,
        hblocks]
      omega
    · rw [hsize, hfilled.size]
    · rw [sha1Count_toNat, h.count]
      omega

/-- **The position wraps around**: the piece goes into the buffer whole. -/
theorem Refines.update_none (h : Refines context stream length) (hlen : len.toNat ≤ data.length)
    (hwrap : 2 ^ 32 ≤ length % 64 + len.toNat) : sha1Update order context data len = none := by
  have hj : (context.count0 >>> 3 &&& 63).toNat = length % 64 := toNat_position h.count0
  have hsum : ((context.count0 >>> 3 &&& 63) + len).toNat =
      length % 64 + len.toNat - 2 ^ 32 := by
    have hlt := len.toNat_lt
    rw [UInt32.toNat_add, hj]
    omega
  have hliteral : (63 : UInt32).toNat = 63 := rfl
  have hfull : ¬ (context.count0 >>> 3 &&& 63) + len > 63 := fun hfull => by
    have hless := UInt32.lt_iff_toNat_lt.1 hfull
    have hlt := len.toNat_lt
    omega
  have hfill : sha1Fill order context data len (context.count0 >>> 3 &&& 63) =
      some (context.state, context.buffer, (0 : UInt32), context.count0 >>> 3 &&& 63) :=
        if_neg hfull
  have hslice : Buffer.slice data (0 : UInt32).toNat (len - 0).toNat =
      some ((data.drop (0 : UInt32).toNat).take (len - 0).toNat) := by
    have hzero : (0 : UInt32).toNat + (len - 0).toNat ≤ data.length := by
      rw [UInt32.sub_zero]
      exact (Nat.zero_add _).le.trans hlen
    exact if_pos hzero
  have hcopy : Buffer.memcpy context.buffer (context.count0 >>> 3 &&& 63).toNat
      ((data.drop (0 : UInt32).toNat).take (len - 0).toNat) = none := by
    rw [Buffer.memcpy_eq_none, h.buffer, UInt32.sub_zero, List.length_take, List.length_drop]
    have hzero : (0 : UInt32).toNat = 0 := rfl
    omega
  unfold sha1Update
  simp only [hfill, Option.bind_eq_bind, Option.bind_some, hslice, hcopy, Option.bind_none]

end SimpleServer.Generic
