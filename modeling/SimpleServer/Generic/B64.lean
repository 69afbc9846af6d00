import SimpleServer.Utils.Bytes

/-!
# Base64 without OpenSSL (`thirdparty/b64`)

`b64_encode` and `b64_decode_ex` with their buffer, and the two functions of `generic/hash.c` on top
of them. A buffer holds what was written to it, from its start on. Counters are of type `int`: where
one would overflow, and where a write would leave the buffer, the result is `none`. Memory is found.
-/

namespace SimpleServer.Generic.B64

/-! ## The buffer (`buffer.c`) -/

/-- `B64_BUFFER_SIZE`. -/
def b64BufferSize : ℕ := 1024 * 64

/-- `b64_buffer_t`: the number of its parts, and what was written so far. -/
structure B64Buffer where
  bufc : ℕ
  written : Bytes
deriving DecidableEq

def b64BufMalloc : B64Buffer := { bufc := 1, written := [] }

/-- `buf->bufc * B64_BUFFER_SIZE`. -/
def bufferRoom (bufc : ℕ) : Option ℕ :=
  if bufc * b64BufferSize < 2 ^ 31 then some (bufc * b64BufferSize) else none

/-- `while(size > buf->bufc * B64_BUFFER_SIZE)`. -/
def growBufc (size : ℕ) : ℕ → ℕ → Option ℕ
  | 0, _ => none
  | fuel + 1, bufc => do
    let room ← bufferRoom bufc
    if size > room then growBufc size fuel (bufc + 1) else some bufc

/-- The product of the loop overflows before `bufc` is 2^15. -/
def b64BufRealloc (buf : B64Buffer) (size : ℕ) : Option B64Buffer := do
  let room ← bufferRoom buf.bufc
  if size > room then
    let bufc ← growBufc size (2 ^ 15) buf.bufc
    return { buf with bufc := bufc }
  else return buf

/-- `ptr[size++] = c`. -/
def put (buf : B64Buffer) (c : UInt8) : Option B64Buffer :=
  if buf.written.length < buf.bufc * b64BufferSize then
    some { buf with written := buf.written ++ [c] }
  else none

/-- One more byte, with room for it. -/
def append (buf : B64Buffer) (c : UInt8) : Option B64Buffer := do
  let buf ← b64BufRealloc buf (buf.written.length + 1)
  put buf c

/-- `b64_table`. -/
def b64Table : Bytes :=
  ascii "ABCDEFGHIJKLMNOPQRSTUVWXYZabcdefghijklmnopqrstuvwxyz0123456789+/"

/-! ## Encoding (`encode.c`) -/

/-- What the loop works on. -/
structure Encoder where
  i : Fin 3
  tmp : Fin 3 → UInt8
  encbuf : B64Buffer

/-- The four parts of three bytes. -/
def encodeTmp (tmp : Fin 3 → UInt8) : Bytes :=
  [(tmp 0 &&& 0xFC) >>> 2,
    (tmp 0 &&& 0x03) <<< 4 + (tmp 1 &&& 0xF0) >>> 4,
    (tmp 1 &&& 0x0F) <<< 2 + (tmp 2 &&& 0xC0) >>> 6,
    tmp 2 &&& 0x3F]

/-- `b64_table[value]`. -/
def tableLetter (value : UInt8) : Option UInt8 := b64Table[value.toNat]?

/-- A round of the loop. -/
def encodeByte (encoder : Encoder) (c : UInt8) : Option Encoder :=
  let tmp := Function.update encoder.tmp encoder.i c
  if h : encoder.i.val + 1 = 3 then do
    let encbuf ← b64BufRealloc encoder.encbuf (encoder.encbuf.written.length + 4)
    let letters ← (encodeTmp tmp).mapM tableLetter
    let encbuf ← letters.foldlM put encbuf
    return { i := 0, tmp := tmp, encbuf := encbuf }
  else
    some { i := ⟨encoder.i.val + 1, by omega⟩, tmp := tmp, encbuf := encoder.encbuf }

/-- The last group, with `=` for the bytes that are missing. -/
def encodeRemainder (encoder : Encoder) : Option B64Buffer :=
  if encoder.i.val > 0 then do
    let tmp := fun j => if encoder.i ≤ j then 0 else encoder.tmp j
    let letters ← ((encodeTmp tmp).take (encoder.i.val + 1)).mapM tableLetter
    let encbuf ← letters.foldlM append encoder.encbuf
    (List.replicate (3 - encoder.i.val) 0x3D).foldlM append encbuf
  else some encoder.encbuf

/-- What lies at the pointer, up to the zero byte at the end; `tmp` is not initialised. -/
def b64Encode (uninit : Fin 3 → UInt8) (src : Bytes) : Option Bytes := do
  let encoder ← src.foldlM encodeByte { i := 0, tmp := uninit, encbuf := b64BufMalloc }
  let encbuf ← encodeRemainder encoder
  let encbuf ← append encbuf 0
  return encbuf.written

/-! ## Decoding (`decode.c`) -/

/-- `isalnum`. -/
def isalnum (c : UInt8) : Bool :=
  (0x30 ≤ c ∧ c ≤ 0x39) ∨ (0x41 ≤ c ∧ c ≤ 0x5A) ∨ (0x61 ≤ c ∧ c ≤ 0x7A)

/-- What the loop works on. -/
structure Decoder where
  i : Fin 4
  j : ℕ
  tmp : Fin 4 → UInt8
  decbuf : B64Buffer

/-- The place of a letter in the table. -/
def translate (c : UInt8) : UInt8 := (b64Table.idxOf? c).elim c UInt8.ofNat

/-- The three bytes of four parts. -/
def decodeTmp (tmp : Fin 4 → UInt8) : Bytes :=
  [tmp 0 <<< 2 + (tmp 1 &&& 0x30) >>> 4,
    (tmp 1 &&& 0x0F) <<< 4 + (tmp 2 &&& 0x3C) >>> 2,
    (tmp 2 &&& 0x03) <<< 6 + tmp 3]

/-- A round of the loop, for a letter. -/
def decodeByte (decoder : Decoder) (c : UInt8) : Option Decoder :=
  if 2 ^ 31 ≤ decoder.j + 1 then none
  else
    let tmp := Function.update decoder.tmp decoder.i c
    if h : decoder.i.val + 1 = 4 then do
      let decbuf ← b64BufRealloc decoder.decbuf (decoder.decbuf.written.length + 3)
      let decbuf ← (decodeTmp fun k => translate (tmp k)).foldlM put decbuf
      return { i := 0, j := decoder.j + 1, tmp := fun k => translate (tmp k), decbuf := decbuf }
    else
      some { i := ⟨decoder.i.val + 1, by omega⟩, j := decoder.j + 1, tmp := tmp,
             decbuf := decoder.decbuf }

/-- The loop, up to the first byte that is not a letter. -/
def decodeLoop : Bytes → Decoder → Option Decoder
  | [], decoder => some decoder
  | c :: src, decoder =>
    if c = 0x3D then some decoder
    else if !(isalnum c || c == 0x2B || c == 0x2F) then some decoder
    else do
      let decoder ← decodeByte decoder c
      decodeLoop src decoder

/-- The last group; `i - 1` bytes of it are written. -/
def decodeRemainder (decoder : Decoder) : Option B64Buffer :=
  if decoder.i.val > 0 then do
    let tmp := fun j => translate (if decoder.i ≤ j then 0 else decoder.tmp j)
    let decbuf ← b64BufRealloc decoder.decbuf
      (decoder.decbuf.written.length + (decoder.i.val - 1))
    ((decodeTmp tmp).take (decoder.i.val - 1)).foldlM put decbuf
  else some decoder.decbuf

/-- What lies at the pointer, with the zero byte, and `*decsize`. -/
def b64DecodeEx (uninit : Fin 4 → UInt8) (src : Bytes) : Option (Bytes × ℕ) := do
  let decoder ← decodeLoop src { i := 0, j := 0, tmp := uninit, decbuf := b64BufMalloc }
  let decbuf ← decodeRemainder decoder
  let size := decbuf.written.length
  let decbuf ← append decbuf 0
  return (decbuf.written, size)

/-! ## `generic/hash.c` -/

/-- `tstr_own_cstr`: up to the zero byte. -/
def base64EncodeBuffer (uninit : Fin 3 → UInt8) (inputBuffer : Bytes) : Option Bytes :=
  (b64Encode uninit inputBuffer).map fun result => result.takeWhile fun c => c ≠ 0

def base64DecodeBuffer (uninit : Fin 4 → UInt8) (inputBuffer : Bytes) : Option Bytes :=
  (b64DecodeEx uninit inputBuffer).map fun result => result.1.take result.2

end SimpleServer.Generic.B64
