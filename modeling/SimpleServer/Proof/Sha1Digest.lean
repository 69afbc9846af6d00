import SimpleServer.Proof.Sha1Stream

/-!
# The digest

`SHA1Final` writes the padding through `SHA1Update`, a byte at a time.

* `sha1Final_eq`: the digest of what was taken.
* `sha1Pieces_eq`: **a message in pieces.**
-/

namespace SimpleServer.Generic

open Lib

variable {order : ByteOrder} {context : Sha1Ctx} {uninit data message : Bytes} {len : UInt32}

/-- A context that has taken a message. -/
def Sha1Ctx.Took (context : Sha1Ctx) (message : Bytes) : Prop :=
  ∃ stream : Sha1.blocks.Stream,
    Refines context stream message.length ∧ stream.After Sha1.initial message

theorem took_init (huninit : uninit.length = 64) : (sha1Init uninit).Took [] := by
  have hblock : ([] : Bytes).length < Sha1.blocks.blockLength := Sha1.blocks.blockLength_pos
  refine ⟨⟨Sha1.initial, [], hblock⟩, ?_, ?_⟩
  · have hcount : (sha1Init uninit).count1.toNat * 2 ^ 32 + (sha1Init uninit).count0.toNat =
        8 * ([] : Bytes).length % 2 ^ 64 := by
      simp [sha1Init]
    exact { state := rfl, kept := List.nil_prefix, kept_length := rfl, buffer := huninit,
            count := hcount }
  · rw [BlockHash.Stream.After, BlockHash.compressAll_of_lt Sha1.blocks hblock]

theorem Sha1Ctx.Took.update (h : context.Took message) (order : ByteOrder) (data : Bytes)
    (len : UInt32) (hlen : len.toNat ≤ data.length)
    (hfit : message.length % 64 + len.toNat < 2 ^ 32) :
    ∃ context', sha1Update order context data len = some context' ∧
      context'.Took (message ++ data.take len.toNat) := by
  obtain ⟨stream, hrefines, hafter⟩ := h
  obtain ⟨context', hrun, hrefines'⟩ := hrefines.update order hlen hfit
  have hlength : (message ++ data.take len.toNat).length = message.length + len.toNat := by
    rw [List.length_append, List.length_take, min_eq_left hlen]
  rw [← hlength] at hrefines'
  exact ⟨context', hrun, _, hrefines', hafter.absorb _⟩

theorem Sha1Ctx.Took.update_none (h : context.Took message) (hlen : len.toNat ≤ data.length)
    (hwrap : 2 ^ 32 ≤ message.length % 64 + len.toNat) :
    sha1Update order context data len = none := by
  obtain ⟨stream, hrefines, -⟩ := h
  exact hrefines.update_none hlen hwrap

/-! ## The padding -/

/-- **The zero bytes**: as many as it takes to have 56 bytes in the buffer. -/
theorem Sha1Ctx.Took.zeros (h : context.Took message) (order : ByteOrder) (fuel : ℕ)
    (hfuel : (120 - message.length % 64) % 64 < fuel) :
    ∃ context', sha1Zeros order fuel context = some context' ∧
      context'.Took (message ++ List.replicate ((120 - message.length % 64) % 64) 0) := by
  induction fuel generalizing context message with
  | zero => omega
  | succ fuel ih =>
    obtain ⟨stream, hrefines, hafter⟩ := h
    have hposition := position_eq_iff hrefines.count0
    unfold sha1Zeros
    by_cases hend : message.length % 64 = 56
    · have hnone : (120 - message.length % 64) % 64 = 0 := by omega
      rw [if_neg (not_not.2 (hposition.2 hend)), hnone, List.replicate_zero, List.append_nil]
      exact ⟨context, rfl, stream, hrefines, hafter⟩
    · have hone : (1 : UInt32).toNat = 1 := rfl
      obtain ⟨context', hrun, htook⟩ := Sha1Ctx.Took.update ⟨stream, hrefines, hafter⟩ order [0] 1
        (by simp) (by omega)
      have hlength : (message ++ ([0] : Bytes).take (1 : UInt32).toNat).length =
          message.length + 1 := by simp
      obtain ⟨context'', hrun', htook'⟩ := ih htook (by omega)
      have hcount : (120 - message.length % 64) % 64 =
          (120 - (message.length + 1) % 64) % 64 + 1 := by omega
      refine ⟨context'', ?_, ?_⟩
      · rw [if_pos (mt hposition.1 hend), hrun]
        exact hrun'
      · rw [hlength] at htook'
        rw [hcount, List.replicate_succ]
        simpa using htook'

theorem sha1Byte_eq (word : UInt32) {i : ℕ} (hi : i < 4) :
    sha1Byte word i = UInt8.ofNat (word.toNat / 256 ^ (3 - i)) := by
  have hshift : (UInt32.ofNat ((3 - i % 4) * 8)).toNat = (3 - i) * 8 := by
    rw [UInt32.toNat_ofNat', Nat.mod_eq_of_lt hi]
    omega
  have hpower : 2 ^ ((3 - i) * 8) = 256 ^ (3 - i) := by
    rw [Nat.mul_comm, pow_mul]
    rfl
  have hand : (word >>> UInt32.ofNat ((3 - i % 4) * 8) &&& 255).toNat =
      word.toNat / 256 ^ (3 - i) % 256 := by
    rw [UInt32.toNat_and, UInt32.toNat_shiftRight, hshift, Nat.mod_eq_of_lt (by omega),
      Nat.shiftRight_eq_div_pow, hpower]
    exact Nat.and_two_pow_sub_one_eq_mod _ 8
  apply UInt8.toNat_inj.1
  rw [sha1Byte, UInt32.toNat_toUInt8, hand, UInt8.toNat_ofNat', Nat.mod_mod]

/-- The four bytes of a word, the highest first. -/
theorem sha1Byte_word (word : UInt32) :
    [sha1Byte word 0, sha1Byte word 1, sha1Byte word 2, sha1Byte word 3] = toBE 4 word.toNat := by
  rw [sha1Byte_eq word (by decide), sha1Byte_eq word (by decide), sha1Byte_eq word (by decide),
    sha1Byte_eq word (by decide)]
  rfl

/-- The eight bytes of the two counters. -/
theorem toBE_words {high low : UInt32} {value : ℕ}
    (h : high.toNat * 2 ^ 32 + low.toNat = value % 2 ^ 64) :
    toBE 4 high.toNat ++ toBE 4 low.toNat = toBE 8 value := by
  have hvalue : toBE 8 value = toBE 8 (value % 2 ^ 64) := by
    have hsplit : value = value / 2 ^ 64 * 256 ^ 8 + value % 2 ^ 64 := by omega
    rw [hsplit, toBE_mul_add, ← hsplit]
  have hread : ofBE (toBE 4 high.toNat ++ toBE 4 low.toNat) = value % 2 ^ 64 := by
    have hhigh : high.toNat < 256 ^ 4 := high.toNat_lt
    have hlow : low.toNat < 256 ^ 4 := low.toNat_lt
    rw [ofBE_append, ofBE_toBE_of_lt hhigh, ofBE_toBE_of_lt hlow, toBE_length, ← h]
    norm_num
  have hback := toBE_ofBE (toBE 4 high.toNat ++ toBE 4 low.toNat)
  rw [hread, List.length_append, toBE_length, toBE_length, ← hvalue] at hback
  exact hback.symm

/-- **The digest** of what a context has taken. -/
theorem sha1Final_eq (h : context.Took message) :
    sha1Final order context = some (Sha1.hash message) := by
  have hone : (1 : UInt32).toNat = 1 := rfl
  have height : (8 : UInt32).toNat = 8 := rfl
  have hfinalcount : ((List.range 8).map fun i =>
      sha1Byte (if i ≥ 4 then context.count0 else context.count1) i) =
      toBE 8 (8 * message.length) := by
    obtain ⟨stream, hrefines, -⟩ := h
    rw [← toBE_words hrefines.count, ← sha1Byte_word, ← sha1Byte_word]
    rfl
  -- the one bit, the zeros and the length
  obtain ⟨ended, hended, htook⟩ := h.update order [0x80] 1 (by simp) (by omega)
  have hlength : (message ++ ([0x80] : Bytes).take (1 : UInt32).toNat).length =
      message.length + 1 := by simp
  obtain ⟨filled, hfilled, htook'⟩ := htook.zeros order 65 (by omega)
  obtain ⟨whole, hwhole, stream, hrefines, hafter⟩ := htook'.update order
    (toBE 8 (8 * message.length)) 8 (by rw [toBE_length, height]) (by omega)
  have hpad : message ++ ([0x80] : Bytes).take (1 : UInt32).toNat ++
      List.replicate
        ((120 - (message ++ ([0x80] : Bytes).take (1 : UInt32).toNat).length % 64) % 64)
        0 ++ (toBE 8 (8 * message.length)).take (8 : UInt32).toNat = Sha1.pad message := by
    have hzeros : (120 - (message.length + 1) % 64) % 64 = Sha1.zeros message.length := by
      unfold Sha1.zeros
      omega
    have hbytes : (toBE 8 (8 * message.length)).take (8 : UInt32).toNat =
        toBE 8 (8 * message.length) := List.take_of_length_le (by rw [toBE_length, height])
    rw [hlength, hzeros, hbytes, Sha1.pad, hone, List.take_one]
    simp only [List.head?_cons, Option.toList_some, List.append_assoc, List.cons_append,
      List.nil_append]
  rw [hpad] at hafter
  have hchain : stateWords whole.state =
      (Sha1.blocks.compressAll Sha1.initial (Sha1.pad message)).1 := by
    rw [hrefines.state, ← hafter]
  have hdigest : (List.ofFn fun i : Fin 20 =>
      sha1Byte (whole.state.get ⟨i.val / 4, by omega⟩) i.val) = (stateWords whole.state).bytes := by
    have hbytes : (stateWords whole.state).bytes =
        toBE 4 whole.state[0].toNat ++ (toBE 4 whole.state[1].toNat ++
          (toBE 4 whole.state[2].toNat ++ (toBE 4 whole.state[3].toNat ++
            (toBE 4 whole.state[4].toNat ++ [])))) := rfl
    rw [hbytes, ← sha1Byte_word, ← sha1Byte_word, ← sha1Byte_word, ← sha1Byte_word,
      ← sha1Byte_word]
    rfl
  unfold sha1Final
  simp only [hfinalcount, hended, hfilled, hwhole, Option.bind_eq_bind, Option.bind_some,
    Option.pure_def, hdigest, hchain]
  rfl

/-! ## A message in pieces -/

/-- A caller that hands over a message in pieces. -/
def sha1Pieces (order : ByteOrder) (uninit : Bytes) (pieces : List Bytes) : Option Bytes := do
  let context ← pieces.foldlM
    (fun context piece => sha1Update order context piece (UInt32.ofNat piece.length))
    (sha1Init uninit)
  sha1Final order context

/-- At no piece do its length and the position in the buffer reach 2^32. -/
def PiecesFit : ℕ → List Bytes → Prop
  | _, [] => True
  | taken, piece :: pieces =>
    taken % 64 + piece.length < 2 ^ 32 ∧ PiecesFit (taken + piece.length) pieces

theorem Sha1Ctx.Took.pieces (h : context.Took message) (order : ByteOrder) {pieces : List Bytes}
    (hlengths : ∀ piece ∈ pieces, piece.length < 2 ^ 32) :
    (PiecesFit message.length pieces → ∃ context',
      pieces.foldlM (fun context piece =>
        sha1Update order context piece (UInt32.ofNat piece.length)) context = some context' ∧
      context'.Took (message ++ pieces.flatten)) ∧
    (¬ PiecesFit message.length pieces →
      pieces.foldlM (fun context piece =>
        sha1Update order context piece (UInt32.ofNat piece.length)) context = none) := by
  induction pieces generalizing context message with
  | nil => exact ⟨fun _ => ⟨context, rfl, by simpa using h⟩, fun hfit => absurd trivial hfit⟩
  | cons piece pieces ih =>
    have hlen : (UInt32.ofNat piece.length).toNat = piece.length :=
      UInt32.toNat_ofNat_of_lt' (hlengths piece (List.mem_cons_self ..))
    by_cases hroom : message.length % 64 + piece.length < 2 ^ 32
    · obtain ⟨next, hrun, htook⟩ := h.update order piece _ hlen.le
        (by rw [hlen]; exact hroom)
      have hlength : (message ++ piece).length = message.length + piece.length :=
        List.length_append
      rw [hlen, List.take_length] at htook
      have hrest := ih htook fun piece' hmem => hlengths piece' (List.mem_cons_of_mem _ hmem)
      rw [hlength, List.append_assoc] at hrest
      rw [List.foldlM_cons, hrun, List.flatten_cons]
      exact ⟨fun hfit => hrest.1 hfit.2, fun hfit => hrest.2 fun hfits => hfit ⟨hroom, hfits⟩⟩
    · refine ⟨fun hfit => absurd hfit.1 hroom, fun _ => ?_⟩
      rw [List.foldlM_cons, h.update_none hlen.le (by rw [hlen]; omega)]
      rfl

/-- **A message in pieces** has the digest of the whole, however it is cut and whatever the byte
order; the buffer is left exactly where the position and a length wrap around. -/
theorem sha1Pieces_eq (order : ByteOrder) (huninit : uninit.length = 64) (pieces : List Bytes)
    (hlengths : ∀ piece ∈ pieces, piece.length < 2 ^ 32) :
    (PiecesFit 0 pieces → sha1Pieces order uninit pieces = some (Sha1.hash pieces.flatten)) ∧
      (¬ PiecesFit 0 pieces → sha1Pieces order uninit pieces = none) := by
  obtain ⟨hsome, hnone⟩ := (took_init huninit).pieces order hlengths
  unfold sha1Pieces
  refine ⟨fun hfit => ?_, fun hfit => ?_⟩
  · obtain ⟨context, hrun, htook⟩ := hsome hfit
    rw [hrun]
    exact sha1Final_eq htook
  · rw [hnone hfit]
    rfl

theorem sha1Pieces_eq_abc :
    (PiecesFit 0 [ascii "ab", ascii "c"] →
        sha1Pieces .little (List.replicate 64 7) [ascii "ab", ascii "c"] =
          some (Sha1.hash [ascii "ab", ascii "c"].flatten)) ∧
      (¬ PiecesFit 0 [ascii "ab", ascii "c"] →
        sha1Pieces .little (List.replicate 64 7) [ascii "ab", ascii "c"] = none) :=
  sha1Pieces_eq .little List.length_replicate _ (by decide)

example : sha1Pieces .little (List.replicate 64 7) [ascii "ab", ascii "c"] =
    some [0xA9, 0x99, 0x3E, 0x36, 0x47, 0x06, 0x81, 0x6A, 0xBA, 0x3E, 0x25, 0x71, 0x78, 0x50,
      0xC2, 0x6C, 0x9C, 0xD0, 0xD8, 0x9D] := by decide +kernel

/-- `SHA1`: byte after byte, up to the length. -/
theorem sha1_eq (order : ByteOrder) (huninit : uninit.length = 64)
    (hlen : len.toNat ≤ data.length) :
    sha1 order uninit data len = some (Sha1.hash (data.take len.toNat)) := by
  have hone : (1 : UInt32).toNat = 1 := rfl
  have hrun : ∀ n ≤ len.toNat, ∃ context,
      (List.range n).foldlM (fun context ii => sha1Update order context (data.drop ii) 1)
        (sha1Init uninit) = some context ∧ context.Took (data.take n) := by
    intro n hn
    induction n with
    | zero => exact ⟨sha1Init uninit, rfl, took_init huninit⟩
    | succ n ih =>
      obtain ⟨context, hbefore, htook⟩ := ih (by omega)
      obtain ⟨context', hstep, htook'⟩ := htook.update order (data.drop n) 1
        (by rw [List.length_drop, hone]; omega) (by omega)
      refine ⟨context', ?_, ?_⟩
      · rw [List.range_succ, List.foldlM_append, hbefore]
        simp only [Option.bind_eq_bind, Option.bind_some, List.foldlM_cons, hstep, List.foldlM_nil,
          Option.pure_def]
      · rw [List.take_add, ← hone]
        exact htook'
  obtain ⟨context, hall, htook⟩ := hrun len.toNat le_rfl
  unfold sha1
  rw [hall]
  exact sha1Final_eq htook

/-- **The digest of a C string**: of as much of it as its length in 32 bits says. -/
theorem getSha1FromString_eq (order : ByteOrder) (huninit : uninit.length = 64) (string : Bytes) :
    getSha1FromString order uninit string =
      some (Sha1.hash (string.take (string.length % 2 ^ 32))) := by
  have hlen : (UInt32.ofNat string.length).toNat = string.length % 2 ^ 32 := UInt32.toNat_ofNat'
  obtain ⟨context, hrun, htook⟩ := (took_init huninit).update order string
    (UInt32.ofNat string.length) (by rw [hlen]; exact Nat.mod_le _ _) (by
      have hlt := (UInt32.ofNat string.length).toNat_lt
      have hnil : ([] : Bytes).length = 0 := rfl
      omega)
  rw [hlen, List.nil_append] at htook
  unfold getSha1FromString
  rw [hrun]
  exact sha1Final_eq htook

end SimpleServer.Generic
