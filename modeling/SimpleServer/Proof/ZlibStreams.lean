import SimpleServer.Http.Compression

/-!
# The streams of zlib

`deflate` is called until it reports the end. `inflate` is not called again when it has used up
input and memory together, and both get the length of the input in 32 bits.

* `StreamResult.Holds`: a buffer that is returned is complete.
* `Placed`: the block holds what was written so far, and room for the next call.
* `compress_iff`, `decompress_iff`: when the two functions lose nothing.
-/

namespace SimpleServer.Http

open Lib Lib.Loop

variable {σ : Type} {codec : StreamCodec σ UInt8} {libs : CompressionLibraries}
  {buffer data : Bytes} {mode : ZlibMode} {flushMode op : StreamOp}
  {maxWindowBits chunkSize nextOut availOut : ℕ} {state : σ}

/-! ## What is asked for -/

/-- The buffer holds what the library wrote, in order, and nothing is pending. -/
def StreamResult.Holds (codec : StreamCodec σ UInt8) (complete : StreamEnd σ → Prop) :
    StreamResult σ → Prop
  | .buffer data size stream =>
    size = (codec.wrote stream.state).length ∧ data.take size = codec.wrote stream.state ∧
      codec.pending stream.state = [] ∧ complete stream
  | .null => True
  | .assertFailed => False
  | .undefined => False

/-- All of the input was taken, and the end was reported. -/
def StreamEnd.Encoded (stream : StreamEnd σ) : Prop := stream.ended = true ∧ stream.unread = []

/-- All of the input was taken, or the end was reported before. -/
def StreamEnd.Decoded (stream : StreamEnd σ) : Prop := stream.ended = true ∨ stream.unread = []

/-! ## The block -/

/-- The block starts with what was written, and has room for the next call behind it. -/
structure Placed (codec : StreamCodec σ UInt8) (state : σ) (data : Bytes) (nextOut availOut : ℕ) :
    Prop where
  starts : codec.wrote state <+: data
  written : nextOut = (codec.wrote state).length
  room : data.length = nextOut + availOut

theorem Placed.start (h : codec.wrote state = []) (chunkSize : ℕ) :
    Placed codec state (List.replicate chunkSize 0) 0 chunkSize where
  starts := by
    rw [h]
    exact List.nil_prefix
  written := by rw [h, List.length_nil]
  room := by rw [List.length_replicate, Nat.zero_add]

/-- What a call writes fits into the block. -/
theorem Placed.call (h : Placed codec state data nextOut availOut) (op : StreamOp) (input : Bytes) :
    ∃ data', Buffer.memcpy data nextOut (codec.call state op input availOut).written = some data' ∧
      Placed codec (codec.call state op input availOut).state data'
        (nextOut + (codec.call state op input availOut).written.length)
        (availOut - (codec.call state op input availOut).written.length) := by
  have hle := codec.written_le state op input availOut
  have hroom := h.room
  obtain ⟨data', hcopy, hstarts, hlength⟩ :=
    Buffer.memcpy_of_starts nextOut (codec.call state op input availOut).written h.starts h.written
      (by omega)
  refine ⟨data', hcopy, ?_, ?_, ?_⟩
  · rw [codec.wrote_call]
    exact hstarts
  · rw [codec.wrote_call, List.length_append, ← h.written]
  · omega

/-- A block that is full gets a chunk more. -/
theorem Placed.grow (h : Placed codec state data nextOut 0) (chunkSize : ℕ) :
    Placed codec state (realloc data (nextOut + chunkSize)) nextOut chunkSize := by
  have hroom := h.room
  have hkept : data.take (nextOut + chunkSize) = data := List.take_of_length_le (by omega)
  refine ⟨?_, h.written, ?_⟩
  · rw [realloc, hkept]
    exact h.starts.trans (List.prefix_append _ _)
  · rw [realloc, hkept, List.length_append, List.length_replicate]
    omega

theorem Placed.content (h : Placed codec state data nextOut availOut) :
    data.take nextOut = codec.wrote state := by
  obtain ⟨rest, rfl⟩ := h.starts
  rw [h.written, List.take_left]

/-- What the block holds when the library has reported the end. -/
theorem Placed.holds {unread : Bytes} (h : Placed codec state data nextOut availOut)
    (hpending : codec.pending state = []) (hunread : unread = []) :
    (StreamResult.buffer data nextOut ⟨state, unread, true⟩).Holds codec StreamEnd.Encoded :=
  ⟨h.written, h.content, hpending, rfl, hunread⟩

/-! ## zlib -/

/-- The loops of zlib between two calls. -/
structure ZlibInv (codec : StreamCodec σ UInt8) (buffer : Bytes) (chunkSize : ℕ) (s : ZlibLoop σ) :
    Prop where
  placed : Placed codec s.zstream.state s.data s.zstream.nextOut s.zstream.availOut
  totalOut : s.zstream.totalOut = s.zstream.nextOut
  size : s.size = s.zstream.nextOut
  avail : 0 < s.zstream.availOut
  firstPass : s.finalPass = false → s.zstream.availOut = chunkSize
  unread : s.zstream.nextIn.length = s.zstream.availIn + (buffer.length - buffer.length % 2 ^ 32)

/-- The input that a call is offered. -/
def ZStream.offered (zstream : ZStream σ) : Bytes := zstream.nextIn.take zstream.availIn

theorem ZlibInv.offered_length {s : ZlibLoop σ} (h : ZlibInv codec buffer chunkSize s) :
    s.zstream.offered.length = s.zstream.availIn := by
  have hunread := h.unread
  rw [ZStream.offered, List.length_take]
  omega

theorem zlibInv_start {init : ℤ → Option σ} (hfresh : ∀ bits state, init bits = some state →
    codec.wrote state = []) {start : ZlibLoop σ}
    (h : zlibStart init buffer mode maxWindowBits = some start) :
    ZlibInv codec buffer (2 ^ maxWindowBits) start ∧ start.finalPass = false := by
  unfold zlibStart at h
  split_ifs at h
  obtain ⟨state, hstate, rfl⟩ := Option.map_eq_some_iff.1 h
  have hle := Nat.mod_le buffer.length (2 ^ 32)
  refine ⟨⟨.start (hfresh _ _ hstate) _, rfl, rfl, Nat.two_pow_pos _, fun _ => rfl, ?_⟩, rfl⟩
  simp only [ZStream.start]
  omega

/-- The stream behind a call, in a block that took what was written. -/
structure ZlibNext (codec : StreamCodec σ UInt8) (buffer : Bytes) (s : ZlibLoop σ) (op : StreamOp)
    (data : Bytes) : Prop where
  copied : Buffer.memcpy s.data s.zstream.nextOut (s.zstream.answer codec op).written = some data
  placed : Placed codec (s.zstream.answer codec op).state data
    (s.zstream.after (s.zstream.answer codec op)).nextOut
    (s.zstream.after (s.zstream.answer codec op)).availOut
  totalOut : (s.zstream.after (s.zstream.answer codec op)).totalOut =
    (s.zstream.after (s.zstream.answer codec op)).nextOut
  unread : (s.zstream.after (s.zstream.answer codec op)).nextIn.length =
    (s.zstream.after (s.zstream.answer codec op)).availIn +
      (buffer.length - buffer.length % 2 ^ 32)
  left : (s.zstream.after (s.zstream.answer codec op)).offered =
    s.zstream.offered.drop (s.zstream.answer codec op).consumed
  written_le : (s.zstream.answer codec op).written.length ≤ s.zstream.availOut

theorem ZlibInv.next {s : ZlibLoop σ} (h : ZlibInv codec buffer chunkSize s) (op : StreamOp) :
    ∃ data, ZlibNext codec buffer s op data := by
  obtain ⟨data, hcopy, hplaced⟩ := h.placed.call op s.zstream.offered
  have hconsumed := codec.consumed_le s.zstream.state op s.zstream.offered s.zstream.availOut
  have hunread := h.unread
  rw [h.offered_length] at hconsumed
  refine ⟨data, hcopy, hplaced, ?_, ?_, ?_, codec.written_le _ _ _ _⟩
  · simp only [ZStream.after]
    rw [h.totalOut]
  · have hanswer : (s.zstream.answer codec op).consumed ≤ s.zstream.availIn := hconsumed
    simp only [ZStream.after, List.length_drop]
    omega
  · simp only [ZStream.after, ZStream.offered]
    rw [List.drop_take]

/-- The memory grows when it is full. -/
theorem ZlibInv.grow {s : ZlibLoop σ} {data : Bytes} (hnext : ZlibNext codec buffer s op data)
    (hchunk : 0 < chunkSize) (hfull : (s.zstream.after (s.zstream.answer codec op)).availOut = 0)
    (finalPass : Bool) :
    ZlibInv codec buffer chunkSize (ZlibLoop.grow chunkSize
      ⟨s.zstream.after (s.zstream.answer codec op), data,
        (s.zstream.after (s.zstream.answer codec op)).nextOut, finalPass⟩) := by
  have hplaced := hnext.placed
  rw [hfull] at hplaced
  exact ⟨hplaced.grow chunkSize, hnext.totalOut, rfl, hchunk, fun _ => rfl, hnext.unread⟩

/-- A buffer error comes where nothing was written, so there is still room. -/
theorem ZlibInv.room_of_bufError {s : ZlibLoop σ} (h : ZlibInv codec buffer chunkSize s)
    (hreport : (s.zstream.answer codec op).report = .bufError) :
    (s.zstream.after (s.zstream.answer codec op)).availOut ≠ 0 := by
  have hnothing : (s.zstream.answer codec op).written = [] := (codec.stuck _ _ _ _ hreport).2
  have havail := h.avail
  simp only [ZStream.after, hnothing, List.length_nil]
  omega

/-- What is left to do. -/
def ZlibLoop.work (codec : StreamCodec σ UInt8) (op : ZlibLoop σ → StreamOp) (s : ZlibLoop σ) : ℕ :=
  codec.work s.zstream.state (op s) s.zstream.offered

/-- What is taken of all that was offered leaves what was not offered. -/
theorem ZlibNext.unread_eq_nil {s : ZlibLoop σ} {data : Bytes}
    (h : ZlibInv codec buffer chunkSize s) (hnext : ZlibNext codec buffer s op data)
    (hall : (s.zstream.answer codec op).consumed = s.zstream.offered.length) :
    (s.zstream.after (s.zstream.answer codec op)).nextIn = [] ↔ buffer.length < 2 ^ 32 := by
  have hunread := hnext.unread
  rw [h.offered_length] at hall
  have havail : (s.zstream.after (s.zstream.answer codec op)).availIn = 0 := by
    simp only [ZStream.after]
    omega
  rw [havail, Nat.zero_add] at hunread
  rw [← List.length_eq_zero_iff, hunread]
  have hle := Nat.mod_le buffer.length (2 ^ 32)
  constructor
  · intro hzero
    have hlt := Nat.mod_lt buffer.length (Nat.two_pow_pos 32)
    omega
  · intro hlt
    rw [Nat.mod_eq_of_lt hlt, Nat.sub_self]

/-- The end of a function of zlib, where all sizes agree. -/
theorem endZlib_eq {streamEnd : σ → Bool} {zstream : ZStream σ} {size : ℕ} {ended : Bool}
    (h : size = zstream.totalOut) : endZlib streamEnd data size zstream ended =
      if streamEnd zstream.state then .buffer data size ⟨zstream.state, zstream.nextIn, ended⟩
      else .null := by
  unfold endZlib
  rw [if_neg (not_not.2 h)]

/-- What a function of zlib returns when the library has written everything. -/
theorem ZlibNext.holds {s : ZlibLoop σ} {data : Bytes} (hnext : ZlibNext codec buffer s op data)
    {complete : StreamEnd σ → Prop} {streamEnd : Bool} {ended : Bool} :
    (if streamEnd then StreamResult.buffer data
        (s.zstream.after (s.zstream.answer codec op)).nextOut
        ⟨(s.zstream.answer codec op).state,
          (s.zstream.after (s.zstream.answer codec op)).nextIn, ended⟩
      else .null).Holds codec complete ↔
    (streamEnd = true → codec.pending (s.zstream.answer codec op).state = [] ∧
      complete ⟨(s.zstream.answer codec op).state,
        (s.zstream.after (s.zstream.answer codec op)).nextIn, ended⟩) := by
  cases streamEnd with
  | false => exact ⟨fun _ h => (nomatch h), fun _ => trivial⟩
  | true =>
    rw [if_pos rfl]
    constructor
    · intro hholds _
      exact hholds.2.2
    · intro h
      exact ⟨hnext.placed.written, hnext.placed.content, h rfl⟩

/-! ## `compress_buffer_with_zlib_impl` -/

/-- The operation of a round. -/
def deflateOp (flushMode : StreamOp) (s : ZlibLoop σ) : StreamOp :=
  if s.finalPass then .finish else flushMode

/-- What a round of the loop can do. -/
theorem deflateRound_cases (flushMode : StreamOp) {s : ZlibLoop libs.Deflate}
    (hchunk : 0 < chunkSize)
    (h : ZlibInv libs.deflate.toStreamCodec buffer chunkSize s) :
    let answer := s.zstream.answer libs.deflate.toStreamCodec (deflateOp flushMode s)
    (answer.report = .streamEnd ∧ ∃ data,
      ZlibNext libs.deflate.toStreamCodec buffer s (deflateOp flushMode s) data ∧
      deflateRound libs chunkSize flushMode s = .done
        (if libs.deflateEnd answer.state then
          .buffer data (s.zstream.after answer).nextOut
            ⟨answer.state, (s.zstream.after answer).nextIn, true⟩
        else .null)) ∨
    (answer.report = .ok ∧ ∃ t, deflateRound libs chunkSize flushMode s = .again t ∧
      ZlibInv libs.deflate.toStreamCodec buffer chunkSize t ∧
      t.zstream.state = answer.state ∧ t.zstream.offered = s.zstream.offered.drop answer.consumed ∧
      (t.finalPass = s.finalPass ∨ t.finalPass = true)) ∨
    ((answer.report = .bufError ∨ answer.report = .error) ∧
      deflateRound libs chunkSize flushMode s = .done .null) := by
  intro answer
  obtain ⟨data, hnext⟩ := h.next (deflateOp flushMode s)
  have hwritten : answer.written.length ≤ s.zstream.availOut := hnext.written_le
  -- the size is that of what was written, in both passes
  have hsize : (if !s.finalPass then s.size + (chunkSize - (s.zstream.after answer).availOut)
      else (s.zstream.after answer).totalOut) = (s.zstream.after answer).nextOut := by
    cases hpass : s.finalPass with
    | true => exact hnext.totalOut
    | false =>
      have havail := h.firstPass hpass
      have hsize := h.size
      simp only [Bool.not_false, if_true, ZStream.after]
      omega
  have hround : deflateRound libs chunkSize flushMode s =
      if answer.report = .streamEnd then .done (endZlib libs.deflateEnd data
        (s.zstream.after answer).nextOut (s.zstream.after answer) true)
      else if (answer.report = .bufError ∨ answer.report = .ok) ∧
          (s.zstream.after answer).availOut = 0 then
        .again (ZlibLoop.grow chunkSize
          ⟨s.zstream.after answer, data, (s.zstream.after answer).nextOut, s.finalPass⟩)
      else if answer.report = .ok then
        .again ⟨s.zstream.after answer, data, (s.zstream.after answer).nextOut, true⟩
      else .done .null := by
    unfold deflateRound
    dsimp only
    have hcopied := hnext.copied
    unfold deflateOp at hcopied
    rw [hcopied]
    dsimp only
    rewrite [← hsize]
    rfl
  rw [hround]
  cases hreport : answer.report with
  | streamEnd =>
    left
    refine ⟨rfl, data, hnext, ?_⟩
    rw [if_pos rfl, endZlib_eq hnext.totalOut.symm]
    rfl
  | ok =>
    right
    left
    refine ⟨rfl, ?_⟩
    rw [if_neg (by simp)]
    by_cases hfull : (s.zstream.after answer).availOut = 0
    · rw [if_pos ⟨.inr rfl, hfull⟩]
      exact ⟨_, rfl, ZlibInv.grow hnext hchunk hfull s.finalPass, rfl, hnext.left, .inl rfl⟩
    · rw [if_neg (fun h => hfull h.2), if_pos rfl]
      refine ⟨_, rfl, ?_, rfl, hnext.left, .inr rfl⟩
      exact ⟨hnext.placed, hnext.totalOut, rfl, Nat.pos_of_ne_zero hfull,
        fun hpass => (nomatch hpass), hnext.unread⟩
  | bufError =>
    right
    right
    have hroom := h.room_of_bufError hreport
    refine ⟨.inl rfl, ?_⟩
    rw [if_neg (by simp), if_neg (fun h => hroom h.2), if_neg (by simp)]
  | error =>
    right
    right
    refine ⟨.inr rfl, ?_⟩
    rw [if_neg (by simp), if_neg (by simp), if_neg (by simp)]

/-- The end of the encoder is the end of the whole buffer. -/
def DeflateTakesAll (libs : CompressionLibraries) (buffer : Bytes) (flushMode : StreamOp)
    (s : ZlibLoop libs.Deflate) : Prop :=
  (s.zstream.answer libs.deflate.toStreamCodec (deflateOp flushMode s)).report = .streamEnd →
    libs.deflateEnd (s.zstream.answer libs.deflate.toStreamCodec (deflateOp flushMode s)).state =
      true → buffer.length < 2 ^ 32

/-- A round that goes on leaves less to do. -/
theorem deflateRound_again (hchunk : 0 < chunkSize) {s t : ZlibLoop libs.Deflate}
    (hs : ZlibInv libs.deflate.toStreamCodec buffer chunkSize s)
    (hround : deflateRound libs chunkSize flushMode s = .again t) :
    (ZlibInv libs.deflate.toStreamCodec buffer chunkSize t ∧
      Descends (fun s => if s.finalPass then 0 else 1)
        (ZlibLoop.work libs.deflate.toStreamCodec (deflateOp flushMode)) t s) ∧
      DeflateTakesAll libs buffer flushMode s := by
  rcases deflateRound_cases flushMode hchunk hs with
    ⟨-, data, -, hdone⟩ | ⟨hok, u, hagain, hu, hstate, hleft, hpass⟩ | ⟨-, hdone⟩
  · rw [hdone] at hround
    cases hround
  · rw [hagain] at hround
    cases hround
    refine ⟨⟨hu, ?_⟩, ?_⟩
    · by_cases hsame : t.finalPass = s.finalPass
      · have hop : deflateOp flushMode t = deflateOp flushMode s := by
          rw [deflateOp, deflateOp, hsame]
        have hprogress := libs.deflate.progress _ _ _ _ hok
        apply Descends.of_work
        · rw [hsame]
        · unfold ZlibLoop.work
          rw [hstate, hleft, hop]
          exact hprogress
      · -- the final pass begins
        have hlast := hpass.resolve_left hsame
        have hfirst : s.finalPass = false := by
          rw [hlast] at hsame
          exact Bool.eq_false_iff.2 (Ne.symm hsame)
        apply Descends.of_phase
        rw [hlast, hfirst]
        decide
    · intro hreport
      rw [hok] at hreport
      cases hreport
  · rw [hdone] at hround
    cases hround

/-- The result of a last round. -/
theorem deflateRound_done (hchunk : 0 < chunkSize) {s : ZlibLoop libs.Deflate}
    {result : StreamResult libs.Deflate}
    (hs : ZlibInv libs.deflate.toStreamCodec buffer chunkSize s)
    (hround : deflateRound libs chunkSize flushMode s = .done result) :
    result.Holds libs.deflate.toStreamCodec StreamEnd.Encoded ↔
      DeflateTakesAll libs buffer flushMode s := by
  rcases deflateRound_cases flushMode hchunk hs with
    ⟨hreport, data, hnext, hdone⟩ | ⟨-, u, hagain, -⟩ | ⟨hbad, hdone⟩
  · rw [hdone] at hround
    cases hround
    have hwhole := hnext.unread_eq_nil hs (libs.deflate.takesAll _ _ _ _ hreport)
    rw [hnext.holds]
    constructor
    · intro h _ hend
      exact hwhole.1 (h hend).2.2
    · intro h hend
      exact ⟨libs.deflate.ended _ _ _ _ hreport, rfl, hwhole.2 (h hreport hend)⟩
  · rw [hagain] at hround
    cases hround
  · rw [hdone] at hround
    cases hround
    refine ⟨fun _ hreport => ?_, fun _ => trivial⟩
    rw [hreport] at hbad
    rcases hbad with hbad | hbad <;> cases hbad

/-- **Compressing with zlib** returns, and what it returns is complete if the encoder took all. -/
theorem compress_iff (libs : CompressionLibraries) (buffer : Bytes) (mode : ZlibMode)
    (maxWindowBits : ℕ) (flushMode : StreamOp) :
    (∃ fuel result,
      compressBufferWithZlibImpl libs buffer mode maxWindowBits flushMode fuel = some result ∧
        result.Holds libs.deflate.toStreamCodec StreamEnd.Encoded) ↔
    ∀ start, zlibStart libs.deflateInit2 buffer mode maxWindowBits = some start →
      ∀ s, Reaches (deflateRound libs (2 ^ maxWindowBits) flushMode) start s →
        DeflateTakesAll libs buffer flushMode s := by
  have hchunk : 0 < 2 ^ maxWindowBits := Nat.two_pow_pos _
  unfold compressBufferWithZlibImpl
  cases hstart : zlibStart libs.deflateInit2 buffer mode maxWindowBits with
  | none =>
    constructor
    · intro _ start hsome
      cases hsome
    · intro _
      exact ⟨0, .null, rfl, trivial⟩
  | some start =>
    obtain ⟨hinv, -⟩ := zlibInv_start libs.deflate_fresh hstart
    have hrounds := result_iff (descends_wf _ _)
      (fun s t hs (hround : deflateRound libs _ flushMode s = .again t) =>
        deflateRound_again hchunk hs hround)
      (fun s result hs hround => deflateRound_done hchunk hs hround) hinv
    constructor
    · intro h start' hsome
      cases hsome
      exact hrounds.1 h
    · intro h
      exact hrounds.2 (h start rfl)

/-! ## `decompress_buffer_with_zlib_impl` -/

/-- What a round of the loop can do. -/
theorem inflateRound_cases (flushMode : StreamOp) {s : ZlibLoop libs.Inflate}
    (hchunk : 0 < chunkSize)
    (h : ZlibInv libs.inflate buffer chunkSize s) (hpass : s.finalPass = false) :
    let answer := s.zstream.answer libs.inflate flushMode
    ((answer.report = .streamEnd ∨
        answer.report = .ok ∧ answer.consumed = s.zstream.offered.length) ∧ ∃ data,
      ZlibNext libs.inflate buffer s flushMode data ∧
      inflateRound libs chunkSize flushMode s = .done
        (if libs.inflateEnd answer.state then
          .buffer data (s.zstream.after answer).nextOut
            ⟨answer.state, (s.zstream.after answer).nextIn, answer.report = .streamEnd⟩
        else .null)) ∨
    (answer.report = .ok ∧ answer.consumed ≠ s.zstream.offered.length ∧
      ∃ t, inflateRound libs chunkSize flushMode s = .again t ∧
      ZlibInv libs.inflate buffer chunkSize t ∧ t.finalPass = false ∧
      t.zstream.state = answer.state ∧
      t.zstream.offered = s.zstream.offered.drop answer.consumed) ∨
    ((answer.report = .bufError ∨ answer.report = .error) ∧
      inflateRound libs chunkSize flushMode s = .done .null) := by
  intro answer
  obtain ⟨data, hnext⟩ := h.next flushMode
  have hwritten : answer.written.length ≤ s.zstream.availOut := hnext.written_le
  have hsize : s.size + (chunkSize - (s.zstream.after answer).availOut) =
      (s.zstream.after answer).nextOut := by
    have havail := h.firstPass hpass
    have hsize := h.size
    simp only [ZStream.after]
    omega
  have hround : inflateRound libs chunkSize flushMode s =
      if answer.report = .streamEnd then .done (endZlib libs.inflateEnd data
        (s.zstream.after answer).nextOut (s.zstream.after answer) true)
      else if (answer.report = .bufError ∨ answer.report = .ok) ∧
          (s.zstream.after answer).availOut = 0 then
        if (s.zstream.after answer).availIn = 0 ∧ answer.report = .ok then
          .done (endZlib libs.inflateEnd data (s.zstream.after answer).nextOut
            (s.zstream.after answer) false)
        else .again (ZlibLoop.grow chunkSize
          ⟨s.zstream.after answer, data, (s.zstream.after answer).nextOut, s.finalPass⟩)
      else if answer.report = .ok then
        .done (endZlib libs.inflateEnd data (s.zstream.after answer).nextOut
          (s.zstream.after answer) false)
      else .done .null := by
    unfold inflateRound
    dsimp only
    rw [hnext.copied]
    dsimp only
    rewrite [← hsize]
    rfl
  have hreturn : ∀ ended, endZlib libs.inflateEnd data (s.zstream.after answer).nextOut
      (s.zstream.after answer) ended = if libs.inflateEnd answer.state then
        .buffer data (s.zstream.after answer).nextOut
          ⟨answer.state, (s.zstream.after answer).nextIn, ended⟩
        else .null := fun ended => endZlib_eq hnext.totalOut.symm
  have hconsumed : answer.consumed ≤ s.zstream.offered.length := libs.inflate.consumed_le _ _ _ _
  have hlength := h.offered_length
  rw [hround]
  cases hreport : answer.report with
  | streamEnd =>
    left
    refine ⟨.inl rfl, data, hnext, ?_⟩
    rewrite [if_pos rfl, hreturn]
    rfl
  | ok =>
    rw [if_neg (by simp)]
    by_cases hfull : (s.zstream.after answer).availOut = 0
    · rw [if_pos ⟨.inr rfl, hfull⟩]
      by_cases hin : (s.zstream.after answer).availIn = 0
      · left
        have hall : answer.consumed = s.zstream.offered.length := by
          simp only [ZStream.after] at hin
          omega
        refine ⟨.inr ⟨rfl, hall⟩, data, hnext, ?_⟩
        rewrite [if_pos ⟨hin, rfl⟩, hreturn]
        rfl
      · right
        left
        have hleft : answer.consumed ≠ s.zstream.offered.length := by
          simp only [ZStream.after] at hin
          omega
        refine ⟨rfl, hleft, ?_⟩
        rw [if_neg (fun h => hin h.1)]
        exact ⟨_, rfl, ZlibInv.grow hnext hchunk hfull s.finalPass, hpass, rfl, hnext.left⟩
    · -- there is room left, so all of the input was taken
      left
      have hroom : answer.written.length < s.zstream.availOut := by
        simp only [ZStream.after] at hfull
        omega
      have hall := (libs.inflate.room _ _ _ _ hreport hroom).1
      refine ⟨.inr ⟨rfl, hall⟩, data, hnext, ?_⟩
      rewrite [if_neg (fun h => hfull h.2), if_pos rfl, hreturn]
      rfl
  | bufError =>
    right
    right
    have hroom := h.room_of_bufError hreport
    refine ⟨.inl rfl, ?_⟩
    rw [if_neg (by simp), if_neg (fun h => hroom h.2), if_neg (by simp)]
  | error =>
    right
    right
    refine ⟨.inr rfl, ?_⟩
    rw [if_neg (by simp), if_neg (by simp), if_neg (by simp)]

/-- A call of the decoder that uses up the input leaves nothing behind: nothing that is still to be
written, and nothing that did not fit into the 32 bits of `avail_in`. -/
def InflateDrained (libs : CompressionLibraries) (buffer : Bytes) (flushMode : StreamOp)
    (s : ZlibLoop libs.Inflate) : Prop :=
  (s.zstream.answer libs.inflate flushMode).report = .ok →
    (s.zstream.answer libs.inflate flushMode).consumed = s.zstream.offered.length →
      libs.inflateEnd (s.zstream.answer libs.inflate flushMode).state = true →
        libs.inflate.pending (s.zstream.answer libs.inflate flushMode).state = [] ∧
          buffer.length < 2 ^ 32

/-- A round that goes on leaves less to do. -/
theorem inflateRound_again (hchunk : 0 < chunkSize) {s t : ZlibLoop libs.Inflate}
    (hs : ZlibInv libs.inflate buffer chunkSize s ∧ s.finalPass = false)
    (hround : inflateRound libs chunkSize flushMode s = .again t) :
    ((ZlibInv libs.inflate buffer chunkSize t ∧ t.finalPass = false) ∧
      Descends (fun _ => 0) (ZlibLoop.work libs.inflate fun _ => flushMode) t s) ∧
      InflateDrained libs buffer flushMode s := by
  rcases inflateRound_cases flushMode hchunk hs.1 hs.2 with
    ⟨-, data, -, hdone⟩ | ⟨hok, hmore, u, hagain, hu, hpass, hstate, hleft⟩ | ⟨-, hdone⟩
  · rw [hdone] at hround
    cases hround
  · rw [hagain] at hround
    cases hround
    refine ⟨⟨⟨hu, hpass⟩, ?_⟩, ?_⟩
    · refine Descends.of_work rfl ?_
      unfold ZlibLoop.work
      rw [hstate, hleft]
      exact libs.inflate.progress _ _ _ _ hok
    · intro _ hall
      exact absurd hall hmore
  · rw [hdone] at hround
    cases hround

/-- The result of a last round. -/
theorem inflateRound_done (hchunk : 0 < chunkSize) {s : ZlibLoop libs.Inflate}
    {result : StreamResult libs.Inflate}
    (hs : ZlibInv libs.inflate buffer chunkSize s ∧ s.finalPass = false)
    (hround : inflateRound libs chunkSize flushMode s = .done result) :
    result.Holds libs.inflate StreamEnd.Decoded ↔ InflateDrained libs buffer flushMode s := by
  rcases inflateRound_cases flushMode hchunk hs.1 hs.2 with
    ⟨hreport, data, hnext, hdone⟩ | ⟨-, -, u, hagain, -⟩ | ⟨hbad, hdone⟩
  · rw [hdone] at hround
    cases hround
    rw [hnext.holds]
    rcases hreport with hreport | ⟨hreport, hall⟩
    · constructor
      · intro _ hok
        rw [hreport] at hok
        cases hok
      · intro _ _
        exact ⟨libs.inflate.ended _ _ _ _ hreport, .inl (decide_eq_true hreport)⟩
    · have hwhole := hnext.unread_eq_nil hs.1 hall
      constructor
      · intro h _ _ hend
        obtain ⟨hpending, hcomplete⟩ := h hend
        refine ⟨hpending, hwhole.1 (hcomplete.resolve_left ?_)⟩
        simp [hreport]
      · intro h hend
        obtain ⟨hpending, hlt⟩ := h hreport hall hend
        exact ⟨hpending, .inr (hwhole.2 hlt)⟩
  · rw [hagain] at hround
    cases hround
  · rw [hdone] at hround
    cases hround
    refine ⟨fun _ hreport => ?_, fun _ => trivial⟩
    rw [hreport] at hbad
    rcases hbad with hbad | hbad <;> cases hbad

/-- **Decompressing** returns, and what it returns is complete if the decoder was drained. -/
theorem decompress_iff (libs : CompressionLibraries) (buffer : Bytes) (mode : ZlibMode)
    (maxWindowBits : ℕ) (flushMode : StreamOp) :
    (∃ fuel result,
      decompressBufferWithZlibImpl libs buffer mode maxWindowBits flushMode fuel = some result ∧
        result.Holds libs.inflate StreamEnd.Decoded) ↔
    ∀ start, zlibStart libs.inflateInit2 buffer mode maxWindowBits = some start →
      ∀ s, Reaches (inflateRound libs (2 ^ maxWindowBits) flushMode) start s →
        InflateDrained libs buffer flushMode s := by
  have hchunk : 0 < 2 ^ maxWindowBits := Nat.two_pow_pos _
  unfold decompressBufferWithZlibImpl
  cases hstart : zlibStart libs.inflateInit2 buffer mode maxWindowBits with
  | none =>
    constructor
    · intro _ start hsome
      cases hsome
    · intro _
      exact ⟨0, .null, rfl, trivial⟩
  | some start =>
    have hinv := zlibInv_start libs.inflate_fresh hstart
    have hrounds := result_iff (descends_wf _ _)
      (fun s t hs (hround : inflateRound libs _ flushMode s = .again t) =>
        inflateRound_again hchunk hs hround)
      (fun s result hs hround => inflateRound_done hchunk hs hround) hinv
    constructor
    · intro h start' hsome
      cases hsome
      exact hrounds.1 h
    · intro h
      exact hrounds.2 (h start rfl)

end SimpleServer.Http
