import SimpleServer.Lib.Base64
import SimpleServer.Utils.Bytes

/-!
# Base64 (`generic/hash.c`)

`base64_encode_buffer` and `base64_decode_buffer` with OpenSSL, whose base64 filter on top of a
memory BIO is a parameter (`Base64Bio`). Lengths are handed over as an `int`. Memory is found.
-/

namespace SimpleServer.Generic

open Lib

/-- A length as an `int`. -/
def lengthAsInt (n : ℕ) : ℤ := (Int32.ofNat n).toInt

/-- The base64 filter, for one line, on top of a memory BIO. -/
structure Base64Bio where
  State : Type
  /-- What the memory BIO holds after `BIO_write` and `BIO_flush`. -/
  write : Bytes → ℤ → Bytes
  /-- `BIO_new_mem_buf`, under the filter. -/
  newMemBuf : Bytes → ℤ → State
  /-- `BIO_read_ex`: the bytes that it stores, and its result. -/
  readEx : State → ℕ → State × Bytes × ℤ

/-- What `BIO_new_mem_buf` takes of a text: all up to the first zero byte for a negative length. -/
def memText (text : Bytes) (len : ℤ) : Bytes :=
  if len < 0 then text.takeWhile fun c => c ≠ 0 else text.take len.toNat

/-- What OpenSSL does: `BIO_write` writes nothing for a length that is not positive, and
`BIO_read_ex` delivers what `remaining` says is left, and fails at the end. -/
structure Base64Bio.Lawful (bio : Base64Bio) (remaining : bio.State → Bytes) : Prop where
  write : ∀ data len, bio.write data len = Base64.encode (data.take len.toNat)
  newMemBuf : ∀ text len bytes, Base64.decode (memText text len) = some bytes →
    remaining (bio.newMemBuf text len) = bytes
  read : ∀ state n, (bio.readEx state n).2.1 = (remaining state).take n
  rest : ∀ state n, remaining (bio.readEx state n).1 = (remaining state).drop n
  result : ∀ state n, (bio.readEx state n).2.2 = 1 ↔ (bio.readEx state n).2.1 ≠ []

/-- A filter that decodes everything at once. -/
def Base64Bio.plain : Base64Bio where
  State := Bytes
  write data len := Base64.encode (data.take len.toNat)
  newMemBuf text len := (Base64.decode (memText text len)).getD []
  readEx state n := (state.drop n, state.take n, if state.take n = [] then 0 else 1)

theorem Base64Bio.plain_lawful : Base64Bio.plain.Lawful id where
  write _ _ := rfl
  newMemBuf text len bytes h := by
    have hdecode : (Base64.decode (memText text len)).getD [] = bytes := by rw [h, Option.getD_some]
    exact hdecode
  read _ _ := rfl
  rest _ _ := rfl
  result state n := by
    dsimp only [plain]
    split_ifs with hempty <;> simp [hempty]

variable (bio : Base64Bio)

def base64EncodeBuffer (inputBuffer : Bytes) : Bytes :=
  bio.write inputBuffer (lengthAsInt inputBuffer.length)

/-- `B64_CHUNK_SIZE`. -/
def b64ChunkSize : ℕ := 512

/-- The loop of reads: `none` where it has not ended, `some none` for the empty buffer of the
error. -/
def base64DecodeLoop : ℕ → bio.State → Bytes → Option (Option Bytes)
  | 0, _, _ => none
  | fuel + 1, memInput, outputBuffer =>
    let (memInput, read, result) := bio.readEx memInput b64ChunkSize
    if result ≠ 1 then some none
    else if read.length = b64ChunkSize then
      base64DecodeLoop fuel memInput (outputBuffer ++ read)
    else some (some (outputBuffer ++ read))

def base64DecodeBuffer (fuel : ℕ) (inputBuffer : Bytes) : Option (Option Bytes) :=
  if inputBuffer.length = 0 then some (some [])
  else base64DecodeLoop bio fuel (bio.newMemBuf inputBuffer (lengthAsInt inputBuffer.length)) []

end SimpleServer.Generic
