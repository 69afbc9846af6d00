import SimpleServer.Lib.Buffer
import SimpleServer.Lib.Loop
import SimpleServer.Lib.StreamCodec
import SimpleServer.Utils.Bytes

/-!
# Compressing a buffer (`compression.c`)

Four loops call a library with the input that is left and with room in a buffer, which grows by a
chunk when it is full. The libraries are a parameter: they meet the contract of their streaming
functions. Memory is always found; what a fresh part of the buffer holds does not matter, it is
zero here. This is a build with assertions: one that fails is an outcome of its own.

* `compressBufferWithZlibImpl`, `decompressBufferWithZlibImpl`, `compressBufferWithBr`,
  `compressBufferWithZstd`: the functions, with fuel for their rounds.
-/

namespace SimpleServer.Http

open Lib Lib.Loop

/-- The streaming libraries; what they start with has not written anything. Brotli starts when its
instance is created and both parameters are set, Zstandard when its stream is created and set up. -/
structure CompressionLibraries where
  Deflate : Type
  Inflate : Type
  Brotli : Type
  Zstd : Type
  deflate : StreamEncoder Deflate UInt8
  deflateInit2 : ℤ → Option Deflate
  deflateEnd : Deflate → Bool
  deflate_fresh : ∀ bits state, deflateInit2 bits = some state → deflate.wrote state = []
  inflate : StreamCodec Inflate UInt8
  inflateInit2 : ℤ → Option Inflate
  inflateEnd : Inflate → Bool
  inflate_fresh : ∀ bits state, inflateInit2 bits = some state → inflate.wrote state = []
  brotli : StreamEncoder Brotli UInt8
  brotliEncoderCreateInstance : Option Brotli
  brotli_fresh : ∀ state, brotliEncoderCreateInstance = some state → brotli.wrote state = []
  zstd : StreamEncoder Zstd UInt8
  zstdInitCStream : Option Zstd
  zstd_fresh : ∀ state, zstdInitCStream = some state → zstd.wrote state = []

/-- How the stream stood when the buffer was returned: what the loop has not read of the input, and
whether the library reported the end. -/
structure StreamEnd (σ : Type) where
  state : σ
  unread : Bytes
  ended : Bool
deriving Repr, DecidableEq

/-- What a function comes to. Besides the buffer it says how the stream stood. -/
inductive StreamResult (σ : Type) where
  | buffer (data : Bytes) (size : ℕ) (stream : StreamEnd σ)
  | null
  | assertFailed
  /-- A write outside of the block, or through a pointer to a block that was moved. -/
  | undefined
deriving Repr, DecidableEq

/-- `realloc`. -/
def realloc (data : Bytes) (size : ℕ) : Bytes :=
  data.take size ++ List.replicate (size - data.length) 0

/-! ## zlib -/

inductive ZlibMode where
  | gzip
  | deflate
  | deflateRaw
deriving Repr, DecidableEq

/-- The window bits for a mode; `Z_GZIP_ENCODING` is 16. -/
def zlibWindowBits (maxWindowBits : ℕ) : ZlibMode → ℤ
  | .gzip => (maxWindowBits ||| 16 : ℕ)
  | .deflate => maxWindowBits
  | .deflateRaw => -maxWindowBits

/-- `z_stream`, with its pointers: the input behind `next_in`, and the index of `next_out`. -/
structure ZStream (σ : Type) where
  state : σ
  nextIn : Bytes
  availIn : ℕ
  nextOut : ℕ
  availOut : ℕ
  totalOut : ℕ
deriving Repr, DecidableEq

/-- A stream before the first call. `avail_in` has 32 bits. -/
def ZStream.start {σ : Type} (state : σ) (buffer : Bytes) (chunkSize : ℕ) : ZStream σ :=
  ⟨state, buffer, buffer.length % 2 ^ 32, 0, chunkSize, 0⟩

/-- `deflate` or `inflate`: the answer of the library, for what it is offered. -/
def ZStream.answer {σ : Type} (codec : StreamCodec σ UInt8) (op : StreamOp) (zstream : ZStream σ) :
    StreamCall σ UInt8 :=
  codec.call zstream.state op (zstream.nextIn.take zstream.availIn) zstream.availOut

/-- The stream after a call. -/
def ZStream.after {σ : Type} (zstream : ZStream σ) (answer : StreamCall σ UInt8) : ZStream σ where
  state := answer.state
  nextIn := zstream.nextIn.drop answer.consumed
  availIn := zstream.availIn - answer.consumed
  nextOut := zstream.nextOut + answer.written.length
  availOut := zstream.availOut - answer.written.length
  totalOut := zstream.totalOut + answer.written.length

/-- The variables of the two loops; there is no final pass when something is decompressed. -/
structure ZlibLoop (σ : Type) where
  zstream : ZStream σ
  data : Bytes
  size : ℕ
  finalPass : Bool
deriving Repr, DecidableEq

/-- The beginning of both functions, up to the loop; `none` is an error. -/
def zlibStart {σ : Type} (init : ℤ → Option σ) (buffer : Bytes) (mode : ZlibMode)
    (maxWindowBits : ℕ) : Option (ZlibLoop σ) :=
  if maxWindowBits < 8 ∨ maxWindowBits > 15 then none
  else
    (init (zlibWindowBits maxWindowBits mode)).map fun state =>
      ⟨.start state buffer (2 ^ maxWindowBits), List.replicate (2 ^ maxWindowBits) 0, 0, false⟩

/-- The end of both functions. -/
def endZlib {σ : Type} (streamEnd : σ → Bool) (data : Bytes) (size : ℕ) (zstream : ZStream σ)
    (ended : Bool) : StreamResult σ :=
  if size ≠ zstream.totalOut then .assertFailed
  else if streamEnd zstream.state then .buffer data size ⟨zstream.state, zstream.nextIn, ended⟩
  else .null

/-- The loop goes on with a chunk more of memory. -/
def ZlibLoop.grow {σ : Type} (chunkSize : ℕ) (s : ZlibLoop σ) : ZlibLoop σ :=
  { s with
    data := realloc s.data (s.size + chunkSize)
    zstream := { s.zstream with availOut := chunkSize, nextOut := s.size } }

/-- A round of the loop of `compress_buffer_with_zlib_impl`. -/
def deflateRound (libs : CompressionLibraries) (chunkSize : ℕ) (flushMode : StreamOp)
    (s : ZlibLoop libs.Deflate) : Round (ZlibLoop libs.Deflate) (StreamResult libs.Deflate) :=
  let answer := s.zstream.answer libs.deflate.toStreamCodec
    (if s.finalPass then .finish else flushMode)
  match Buffer.memcpy s.data s.zstream.nextOut answer.written with
  | none => .done .undefined
  | some data =>
    let zstream := s.zstream.after answer
    let size :=
      if !s.finalPass then s.size + (chunkSize - zstream.availOut) else zstream.totalOut
    if answer.report = .streamEnd then .done (endZlib libs.deflateEnd data size zstream true)
    else if (answer.report = .bufError ∨ answer.report = .ok) ∧ zstream.availOut = 0 then
      .again (ZlibLoop.grow chunkSize ⟨zstream, data, size, s.finalPass⟩)
    else if answer.report = .ok then .again ⟨zstream, data, size, true⟩
    else .done .null

/-- `compress_buffer_with_zlib_impl`. -/
def compressBufferWithZlibImpl (libs : CompressionLibraries) (buffer : Bytes) (mode : ZlibMode)
    (maxWindowBits : ℕ) (flushMode : StreamOp) (fuel : ℕ) : Option (StreamResult libs.Deflate) :=
  match zlibStart libs.deflateInit2 buffer mode maxWindowBits with
  | none => some .null
  | some start => run (deflateRound libs (2 ^ maxWindowBits) flushMode) fuel start

/-- A round of the loop of `decompress_buffer_with_zlib_impl`. -/
def inflateRound (libs : CompressionLibraries) (chunkSize : ℕ) (flushMode : StreamOp)
    (s : ZlibLoop libs.Inflate) : Round (ZlibLoop libs.Inflate) (StreamResult libs.Inflate) :=
  let answer := s.zstream.answer libs.inflate flushMode
  match Buffer.memcpy s.data s.zstream.nextOut answer.written with
  | none => .done .undefined
  | some data =>
    let zstream := s.zstream.after answer
    let size := s.size + (chunkSize - zstream.availOut)
    if answer.report = .streamEnd then .done (endZlib libs.inflateEnd data size zstream true)
    else if (answer.report = .bufError ∨ answer.report = .ok) ∧ zstream.availOut = 0 then
      -- "as we don't need more output, this buffer is enough, we are done"
      if zstream.availIn = 0 ∧ answer.report = .ok then
        .done (endZlib libs.inflateEnd data size zstream false)
      else .again (ZlibLoop.grow chunkSize ⟨zstream, data, size, s.finalPass⟩)
    else if answer.report = .ok then .done (endZlib libs.inflateEnd data size zstream false)
    else .done .null

/-- `decompress_buffer_with_zlib_impl`. -/
def decompressBufferWithZlibImpl (libs : CompressionLibraries) (buffer : Bytes) (mode : ZlibMode)
    (maxWindowBits : ℕ) (flushMode : StreamOp) (fuel : ℕ) : Option (StreamResult libs.Inflate) :=
  match zlibStart libs.inflateInit2 buffer mode maxWindowBits with
  | none => some .null
  | some start => run (inflateRound libs (2 ^ maxWindowBits) flushMode) fuel start

/-! ## Brotli -/

/-- The variables of `compress_buffer_with_br`. -/
structure BrotliLoop (σ : Type) where
  state : σ
  nextIn : Bytes
  nextOut : ℕ
  availableOut : ℕ
  data : Bytes
  size : ℕ
deriving Repr, DecidableEq

def brotliChunkSize : ℕ := 2 ^ 15 - 16

/-- `BrotliEncoderCompressStream`, with `BROTLI_OPERATION_FINISH` when nothing is left. -/
def BrotliLoop.answer {σ : Type} (codec : StreamCodec σ UInt8) (s : BrotliLoop σ) :
    StreamCall σ UInt8 :=
  codec.call s.state (if s.nextIn.length = 0 then .finish else .flush) s.nextIn s.availableOut

/-- A round of the loop. The library is finished when it reports the end. -/
def brotliRound (libs : CompressionLibraries) (s : BrotliLoop libs.Brotli) :
    Round (BrotliLoop libs.Brotli) (StreamResult libs.Brotli) :=
  let answer := s.answer libs.brotli.toStreamCodec
  match Buffer.memcpy s.data s.nextOut answer.written with
  | none => .done .undefined
  | some data =>
    if answer.report = .bufError ∨ answer.report = .error then .done .null
    else
      let nextIn := s.nextIn.drop answer.consumed
      let availableOut := s.availableOut - answer.written.length
      let size := s.size + (s.availableOut - availableOut)
      let next : BrotliLoop libs.Brotli :=
        if availableOut = 0 then
          ⟨answer.state, nextIn, size, availableOut + brotliChunkSize,
            realloc data (size + brotliChunkSize), size⟩
        else ⟨answer.state, nextIn, s.nextOut + answer.written.length, availableOut, data, size⟩
      if answer.report = .streamEnd then
        .done (.buffer next.data next.size ⟨answer.state, nextIn, true⟩)
      else .again next

/-- The variables before the loop. -/
def BrotliLoop.start {σ : Type} (state : σ) (buffer : Bytes) : BrotliLoop σ :=
  ⟨state, buffer, 0, brotliChunkSize, List.replicate brotliChunkSize 0, 0⟩

/-- `compress_buffer_with_br`. -/
def compressBufferWithBr (libs : CompressionLibraries) (buffer : Bytes) (fuel : ℕ) :
    Option (StreamResult libs.Brotli) :=
  match libs.brotliEncoderCreateInstance with
  | none => some .null
  | some state => run (brotliRound libs) fuel (.start state buffer)

/-! ## Zstandard -/

/-- The variables of `compress_buffer_with_zstd`: what is left of the input buffer, the position in
the output buffer and its size, and whether its pointer still points to the block. -/
structure ZstdLoop (σ : Type) where
  state : σ
  input : Bytes
  pos : ℕ
  outSize : ℕ
  stale : Bool
  data : Bytes
  size : ℕ
deriving Repr, DecidableEq

def zstdChunkSize : ℕ := 2 ^ 15

/-- The operation of a round. -/
def ZstdLoop.operation {σ : Type} (s : ZstdLoop σ) : StreamOp :=
  if s.input.length ≠ 0 then .flush else .finish

/-- `ZSTD_compressStream2`. -/
def ZstdLoop.answer {σ : Type} (codec : StreamCodec σ UInt8) (s : ZstdLoop σ) :
    StreamCall σ UInt8 :=
  codec.call s.state s.operation s.input (s.outSize - s.pos)

/-- A round of the loop. `realloc` may move the block, `moves` says for a size whether it does;
`out_buffer.dst` stays as it is. What the library still has to write is not looked at. -/
def zstdRound (libs : CompressionLibraries) (moves : ℕ → Bool) (s : ZstdLoop libs.Zstd) :
    Round (ZstdLoop libs.Zstd) (StreamResult libs.Zstd) :=
  let answer := s.answer libs.zstd.toStreamCodec
  if s.stale ∧ answer.written ≠ [] then .done .undefined
  else
    match Buffer.memcpy s.data s.pos answer.written with
    | none => .done .undefined
    | some data =>
      if answer.report = .bufError ∨ answer.report = .error then .done .null
      else
        let input := s.input.drop answer.consumed
        let pos := s.pos + answer.written.length
        let next : ZstdLoop libs.Zstd :=
          if s.outSize = pos then
            ⟨answer.state, input, pos, s.outSize + zstdChunkSize,
              s.stale || moves (pos + zstdChunkSize), realloc data (pos + zstdChunkSize), pos⟩
          else ⟨answer.state, input, pos, s.outSize, s.stale, data, pos⟩
        if s.operation ≠ .finish then .again next
        else if next.input.length = 0 then
          .done (.buffer next.data next.size ⟨answer.state, input, answer.report = .streamEnd⟩)
        else .again next

/-- The variables before the loop. -/
def ZstdLoop.start {σ : Type} (state : σ) (buffer : Bytes) : ZstdLoop σ :=
  ⟨state, buffer, 0, zstdChunkSize, false, List.replicate zstdChunkSize 0, 0⟩

/-- `compress_buffer_with_zstd`. -/
def compressBufferWithZstd (libs : CompressionLibraries) (moves : ℕ → Bool) (buffer : Bytes)
    (fuel : ℕ) : Option (StreamResult libs.Zstd) :=
  match libs.zstdInitCStream with
  | none => some .null
  | some state => run (zstdRound libs moves) fuel (.start state buffer)

end SimpleServer.Http
