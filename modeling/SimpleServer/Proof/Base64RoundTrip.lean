import Mathlib.Data.List.TakeWhile
import SimpleServer.Generic.Hash

/-!
# Encoding and decoding base64

The decoder takes a full chunk as a sign that there is more, and the read that finds nothing more as
an error.

* `base64DecodeLoop_eq`: what the loop returns, and when it has ended.
* `base64RoundTrips_iff`: **which byte strings come back.**
-/

namespace SimpleServer.Generic

open Lib

variable {bio : Base64Bio} {remaining : bio.State → Bytes} {bytes : Bytes}

/-! ## Lengths -/

theorem lengthAsInt_of_lt {n : ℕ} (h : n < 2 ^ 31) : lengthAsInt n = n :=
  Int32.toInt_ofNat_of_lt h

theorem lengthAsInt_le (n : ℕ) : lengthAsInt n < 2 ^ 31 := (Int32.ofNat n).toInt_lt

theorem lengthAsInt_of_ge {n : ℕ} (h : 2 ^ 31 ≤ n) (hlt : n < 2 ^ 32) : lengthAsInt n < 0 := by
  unfold lengthAsInt
  rw [Int32.toInt_ofNat', Int.bmod_def, Int32.size]
  split_ifs <;> omega

/-- A text without zero bytes is taken whole, as long as its length has 32 bits. -/
theorem memText_eq_self {text : Bytes} (hzero : 0 ∉ text) (h : text.length < 2 ^ 32) :
    memText text (lengthAsInt text.length) = text := by
  unfold memText
  by_cases hsmall : text.length < 2 ^ 31
  · rw [lengthAsInt_of_lt hsmall, if_neg (by omega), Int.toNat_natCast, List.take_length]
  · rw [if_pos (lengthAsInt_of_ge (by omega) h)]
    apply List.takeWhile_eq_self_iff.2
    intro c hc
    have hne : c ≠ 0 := by
      rintro rfl
      exact hzero hc
    exact decide_eq_true hne

/-! ## The loop -/

/-- **What the loop returns**: everything, unless it comes in full chunks. -/
theorem base64DecodeLoop_eq (hlaw : bio.Lawful remaining) (fuel : ℕ) (state : bio.State)
    (outputBuffer : Bytes) :
    base64DecodeLoop bio fuel state outputBuffer =
      if (remaining state).length < b64ChunkSize * fuel then
        some (if b64ChunkSize ∣ (remaining state).length then none
          else some (outputBuffer ++ remaining state))
      else none := by
  induction fuel generalizing state outputBuffer with
  | zero => simp [base64DecodeLoop]
  | succ fuel ih =>
    have hread := hlaw.read state b64ChunkSize
    have hrest := hlaw.rest state b64ChunkSize
    have hresult := hlaw.result state b64ChunkSize
    unfold base64DecodeLoop
    dsimp only
    simp only [ne_eq, hresult, not_not, hread, List.length_take]
    rcases Nat.lt_or_ge (remaining state).length b64ChunkSize with hless | hfull
    · have hend : (remaining state).length < b64ChunkSize * (fuel + 1) := by
        rw [Nat.mul_succ]
        omega
      rw [if_pos hend, List.take_of_length_le (Nat.le_of_lt hless)]
      by_cases hempty : remaining state = []
      · simp [hempty]
      · have hpos := List.length_pos_iff.2 hempty
        have hnot : ¬ b64ChunkSize ∣ (remaining state).length := Nat.not_dvd_of_pos_of_lt hpos hless
        rw [if_neg hempty, if_neg (by omega), if_neg hnot]
    · -- a full chunk: the rest has the same remainder
      have hne : (remaining state).take b64ChunkSize ≠ [] := by
        intro hempty
        have hlength := congrArg List.length hempty
        rw [List.length_take, List.length_nil, b64ChunkSize] at hlength
        rw [b64ChunkSize] at hfull
        omega
      have hdvd : b64ChunkSize ∣ (remaining state).length - b64ChunkSize ↔
          b64ChunkSize ∣ (remaining state).length :=
        Nat.dvd_sub_iff_left hfull dvd_rfl
      have hfuel : (remaining state).length - b64ChunkSize < b64ChunkSize * fuel ↔
          (remaining state).length < b64ChunkSize * (fuel + 1) := by
        rw [Nat.mul_succ]
        omega
      rw [if_neg hne, if_pos (Nat.min_eq_left hfull), ih, hrest, List.length_drop,
        List.append_assoc, List.take_append_drop]
      simp only [hdvd, hfuel]

/-- What the decoder makes of the base64 of a byte string. -/
theorem base64DecodeBuffer_encode (hlaw : bio.Lawful remaining) (h : bytes.length < 2 ^ 31)
    (fuel : ℕ) :
    base64DecodeBuffer bio fuel (Base64.encode bytes) =
      if bytes = [] then some (some [])
      else if bytes.length < b64ChunkSize * fuel then
        some (if b64ChunkSize ∣ bytes.length then none else some bytes)
      else none := by
  have hlength := Base64.length_encode bytes
  have htext : memText (Base64.encode bytes) (lengthAsInt (Base64.encode bytes).length) =
      Base64.encode bytes := memText_eq_self (Base64.zero_notMem_encode bytes) (by omega)
  have hremaining := hlaw.newMemBuf _ _ bytes (by rw [htext, Base64.decode_encode])
  unfold base64DecodeBuffer
  simp only [List.length_eq_zero_iff, Base64.encode_eq_nil]
  rw [base64DecodeLoop_eq hlaw, hremaining, List.nil_append]

/-! ## Round trip -/

/-- The decoder returns the bytes that were encoded. -/
def Base64RoundTrips (bio : Base64Bio) (bytes : Bytes) : Prop :=
  ∃ fuel, base64DecodeBuffer bio fuel (base64EncodeBuffer bio bytes) = some (some bytes)

/-- **Which byte strings come back**: those whose length is an `int` and that end in a chunk that is
not full, and the empty one. -/
theorem base64RoundTrips_iff (hlaw : bio.Lawful remaining) (bytes : Bytes) :
    Base64RoundTrips bio bytes ↔
      bytes.length < 2 ^ 31 ∧ (bytes = [] ∨ ¬ b64ChunkSize ∣ bytes.length) := by
  unfold Base64RoundTrips base64EncodeBuffer
  rw [hlaw.write]
  rcases Nat.lt_or_ge bytes.length (2 ^ 31) with hsmall | hlarge
  · rw [lengthAsInt_of_lt hsmall, Int.toNat_natCast, List.take_length, and_iff_right hsmall]
    simp only [base64DecodeBuffer_encode hlaw hsmall]
    by_cases hempty : bytes = []
    · simp [hempty]
    · simp only [hempty, false_or]
      constructor
      · rintro ⟨fuel, hdecode⟩ hdvd
        simp [hdvd] at hdecode
      · intro hnot
        refine ⟨bytes.length + 1, ?_⟩
        have hfuel : bytes.length < b64ChunkSize * (bytes.length + 1) := by
          rw [b64ChunkSize]
          omega
        rw [if_neg not_false, if_pos hfuel, if_neg hnot]
  · -- too few bytes are written
    have hle := lengthAsInt_le bytes.length
    generalize hwritten : bytes.take (lengthAsInt bytes.length).toNat = written
    have hlength : written.length < 2 ^ 31 := by
      rw [← hwritten, List.length_take]
      omega
    refine iff_of_false ?_ (by omega)
    rintro ⟨fuel, hdecode⟩
    rw [base64DecodeBuffer_encode hlaw hlength] at hdecode
    have hsame : written = bytes := by
      split_ifs at hdecode with hempty
      · rw [hempty]
        exact Option.some.inj (Option.some.inj hdecode)
      · cases hdecode
      · exact Option.some.inj (Option.some.inj hdecode)
    rw [hsame] at hlength
    omega

/-- A credential. -/
theorem base64RoundTrips_credential : Base64RoundTrips .plain (ascii "user:password") :=
  (base64RoundTrips_iff Base64Bio.plain_lawful _).2 ⟨by decide, .inr (by decide)⟩

/-- 512 bytes are a full chunk. -/
theorem fullChunk_lost : ¬ Base64RoundTrips .plain (List.replicate 512 0x61) := by
  rintro ⟨fuel, hdecode⟩
  have hlength : (List.replicate 512 (0x61 : UInt8)).length = 512 := List.length_replicate
  have hsmall : (List.replicate 512 (0x61 : UInt8)).length < 2 ^ 31 := by
    rw [hlength]
    decide
  have hne : List.replicate 512 (0x61 : UInt8) ≠ [] := List.ne_nil_of_length_pos (by omega)
  rw [base64EncodeBuffer, Base64Bio.plain_lawful.write, lengthAsInt_of_lt hsmall,
    Int.toNat_natCast, List.take_length, base64DecodeBuffer_encode Base64Bio.plain_lawful hsmall,
    if_neg hne, hlength, if_pos (show b64ChunkSize ∣ 512 from dvd_rfl)] at hdecode
  split_ifs at hdecode
  cases hdecode

end SimpleServer.Generic
