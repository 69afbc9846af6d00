import SimpleServer.Proof.ZlibStreams

/-!
# Nothing is lost by streaming

A buffer that is returned has to hold everything that the library wrote, and the library must have
written everything. The encoder of Brotli is called until it reports the end.
`ZSTD_compressStream2` is called once for the end, through a pointer that `realloc` may have made
stale.

* `br_whole`, `zstd_iff`: Brotli loses nothing, and when Zstandard does not.
* `streamsWhole_iff`: **when nothing is lost** by any of the four functions.
-/

namespace SimpleServer.Http

open Lib Lib.Loop

variable {σ : Type} {codec : StreamCodec σ UInt8} {libs : CompressionLibraries}
  {moves : ℕ → Bool}

/-! ## Until the input is taken -/

/-- The operation of Brotli and Zstandard: they are finished when nothing is left of the input. -/
def inputOp (input : Bytes) : StreamOp := if input.length = 0 then .finish else .flush

/-- The two phases of these loops. -/
def inputPhase (input : Bytes) : ℕ := if input.length = 0 then 0 else 1

/-- A call that goes well makes progress, or begins the last phase. -/
theorem input_progress (codec : StreamCodec σ UInt8) (state : σ) (input : Bytes) (room : ℕ)
    (hok : (codec.call state (inputOp input) input room).report = .ok) :
    let answer := codec.call state (inputOp input) input room
    inputPhase (input.drop answer.consumed) < inputPhase input ∨
      inputPhase (input.drop answer.consumed) = inputPhase input ∧
        codec.work answer.state (inputOp (input.drop answer.consumed))
          (input.drop answer.consumed) < codec.work state (inputOp input) input := by
  intro answer
  have hprogress := codec.progress _ _ _ _ hok
  by_cases hsame : (input.drop answer.consumed).length = 0 ↔ input.length = 0
  · right
    have hop : inputOp (input.drop answer.consumed) = inputOp input := if_congr hsame rfl rfl
    refine ⟨if_congr hsame rfl rfl, ?_⟩
    rw [hop]
    exact hprogress
  · left
    rw [List.length_drop] at hsame
    unfold inputPhase
    rw [List.length_drop, if_pos (by omega), if_neg (by omega)]
    exact Nat.zero_lt_one

/-! ## `compress_buffer_with_br` -/

/-- The loop of Brotli between two calls. -/
structure BrotliInv (codec : StreamCodec σ UInt8) (s : BrotliLoop σ) : Prop where
  placed : Placed codec s.state s.data s.nextOut s.availableOut
  size : s.size = s.nextOut

/-- What a round of the loop can do. -/
theorem brotliRound_cases {s : BrotliLoop libs.Brotli}
    (h : BrotliInv libs.brotli.toStreamCodec s) :
    let answer := libs.brotli.call s.state (inputOp s.nextIn) s.nextIn s.availableOut
    (∃ next : BrotliLoop libs.Brotli, BrotliInv libs.brotli.toStreamCodec next ∧
      next.state = answer.state ∧ next.nextIn = s.nextIn.drop answer.consumed ∧
      (answer.report = .streamEnd ∧ brotliRound libs s =
          .done (.buffer next.data next.size ⟨next.state, next.nextIn, true⟩) ∨
        answer.report = .ok ∧ brotliRound libs s = .again next)) ∨
    brotliRound libs s = .done .null := by
  intro answer
  obtain ⟨data, hcopied, hplaced⟩ := h.placed.call (inputOp s.nextIn) s.nextIn
  have hwritten : answer.written.length ≤ s.availableOut := libs.brotli.written_le _ _ _ _
  -- the variables behind the call
  obtain ⟨size, hsize⟩ : ∃ size, size =
      s.size + (s.availableOut - (s.availableOut - answer.written.length)) := ⟨_, rfl⟩
  obtain ⟨next, hnext⟩ : ∃ next : BrotliLoop libs.Brotli, next =
      if s.availableOut - answer.written.length = 0 then
        ⟨answer.state, s.nextIn.drop answer.consumed, size,
          s.availableOut - answer.written.length + brotliChunkSize,
          realloc data (size + brotliChunkSize), size⟩
      else ⟨answer.state, s.nextIn.drop answer.consumed, s.nextOut + answer.written.length,
          s.availableOut - answer.written.length, data, size⟩ := ⟨_, rfl⟩
  have hround : brotliRound libs s =
      if answer.report = .bufError ∨ answer.report = .error then .done .null
      else if answer.report = .streamEnd then
        .done (.buffer next.data next.size ⟨answer.state, s.nextIn.drop answer.consumed, true⟩)
      else .again next := by
    unfold brotliRound BrotliLoop.answer
    unfold inputOp at hcopied
    dsimp only
    rw [hcopied]
    dsimp only
    rewrite [hnext, hsize]
    rfl
  have hplace : size = s.nextOut + answer.written.length := by
    have hbefore := h.size
    omega
  have hinv : BrotliInv libs.brotli.toStreamCodec next := by
    by_cases hfull : s.availableOut - answer.written.length = 0
    · rw [if_pos hfull] at hnext
      subst hnext
      refine ⟨?_, rfl⟩
      have hgrown : Placed libs.brotli.toStreamCodec answer.state data
          (s.nextOut + answer.written.length) 0 := hfull ▸ hplaced
      dsimp only
      rw [hfull, Nat.zero_add, hplace]
      exact hgrown.grow brotliChunkSize
    · rw [if_neg hfull] at hnext
      subst hnext
      exact ⟨hplaced, hplace⟩
  have hstate : next.state = answer.state ∧ next.nextIn = s.nextIn.drop answer.consumed := by
    rw [hnext]
    split <;> exact ⟨rfl, rfl⟩
  rw [hround]
  cases hreport : answer.report with
  | streamEnd =>
    left
    refine ⟨next, hinv, hstate.1, hstate.2, .inl ⟨rfl, ?_⟩⟩
    rw [if_neg (by simp), if_pos rfl, hstate.1, hstate.2]
  | ok =>
    left
    refine ⟨next, hinv, hstate.1, hstate.2, .inr ⟨rfl, ?_⟩⟩
    rw [if_neg (by simp), if_neg (by simp)]
  | bufError =>
    right
    rw [if_pos (.inl rfl)]
  | error =>
    right
    rw [if_pos (.inr rfl)]

/-- A round that goes on leaves less to do. -/
theorem brotliRound_again {s t : BrotliLoop libs.Brotli}
    (hs : BrotliInv libs.brotli.toStreamCodec s) (hround : brotliRound libs s = .again t) :
    BrotliInv libs.brotli.toStreamCodec t ∧
      Descends (fun s => inputPhase s.nextIn)
        (fun s => libs.brotli.work s.state (inputOp s.nextIn) s.nextIn) t s := by
  rcases brotliRound_cases hs with
    ⟨next, hnext, hstate, hleft, ⟨-, hdone⟩ | ⟨hok, hagain⟩⟩ | hdone
  · rw [hdone] at hround
    cases hround
  · rw [hagain] at hround
    cases hround
    refine ⟨hnext, ?_⟩
    rw [descends_iff, hstate, hleft]
    exact input_progress libs.brotli.toStreamCodec s.state s.nextIn s.availableOut hok
  · rw [hdone] at hround
    cases hround

/-- The result of a last round is complete. -/
theorem brotliRound_done {s : BrotliLoop libs.Brotli} {result : StreamResult libs.Brotli}
    (hs : BrotliInv libs.brotli.toStreamCodec s) (hround : brotliRound libs s = .done result) :
    result.Holds libs.brotli.toStreamCodec StreamEnd.Encoded := by
  rcases brotliRound_cases hs with
    ⟨next, hnext, hstate, hleft, ⟨hreport, hdone⟩ | ⟨-, hagain⟩⟩ | hdone
  · rw [hdone] at hround
    cases hround
    have hpending : libs.brotli.pending next.state = [] := by
      rw [hstate]
      exact libs.brotli.ended _ _ _ _ hreport
    have hunread : next.nextIn = [] := by
      rw [hleft, libs.brotli.takesAll _ _ _ _ hreport, List.drop_length]
    rw [hnext.size]
    exact hnext.placed.holds hpending hunread
  · rw [hagain] at hround
    cases hround
  · rw [hdone] at hround
    cases hround
    trivial

/-- **Compressing with Brotli** returns, and what it returns is complete. -/
theorem br_whole (libs : CompressionLibraries) (buffer : Bytes) :
    ∃ fuel result, compressBufferWithBr libs buffer fuel = some result ∧
      result.Holds libs.brotli.toStreamCodec StreamEnd.Encoded := by
  unfold compressBufferWithBr
  cases hstate : libs.brotliEncoderCreateInstance with
  | none => exact ⟨0, .null, rfl, trivial⟩
  | some state =>
    have hinv : BrotliInv libs.brotli.toStreamCodec (.start state buffer) :=
      ⟨.start (libs.brotli_fresh _ hstate) _, rfl⟩
    -- no round of this loop spoils the result
    have hrounds := result_iff (descends_wf _ _)
      (fun s t hs (hround : brotliRound libs s = .again t) =>
        ⟨brotliRound_again hs hround, trivial⟩)
      (fun s result hs hround => iff_true_intro (brotliRound_done hs hround)) hinv
    exact hrounds.2 fun _ _ => trivial

/-! ## `compress_buffer_with_zstd` -/

/-- The loop of Zstandard between two calls. -/
structure ZstdInv (codec : StreamCodec σ UInt8) (s : ZstdLoop σ) : Prop where
  placed : Placed codec s.state s.data s.pos (s.outSize - s.pos)
  le : s.pos ≤ s.outSize

/-- The answer of a round writes in place and ends what it was asked to end. -/
structure ZstdInPlace (libs : CompressionLibraries) (s : ZstdLoop libs.Zstd) : Prop where
  inPlace : s.stale = true → (s.answer libs.zstd.toStreamCodec).written = []
  ends : s.operation = .finish → (s.answer libs.zstd.toStreamCodec).report ≠ .ok

theorem operation_eq (s : ZstdLoop σ) : s.operation = inputOp s.input := ite_not _ _ _

/-- What a round of the loop can do. -/
theorem zstdRound_cases (moves : ℕ → Bool) {s : ZstdLoop libs.Zstd}
    (h : ZstdInv libs.zstd.toStreamCodec s) :
    let answer := s.answer libs.zstd.toStreamCodec
    (s.stale = true ∧ answer.written ≠ [] ∧ zstdRound libs moves s = .done .undefined) ∨
    ((s.stale = true → answer.written = []) ∧
      ((answer.report = .bufError ∨ answer.report = .error) ∧
          zstdRound libs moves s = .done .null ∨
        (answer.report = .ok ∨ answer.report = .streamEnd) ∧
          ∃ next : ZstdLoop libs.Zstd, ZstdInv libs.zstd.toStreamCodec next ∧
            next.size = next.pos ∧ next.state = answer.state ∧
            next.input = s.input.drop answer.consumed ∧
            (s.operation = .flush ∧ zstdRound libs moves s = .again next ∨
              s.operation = .finish ∧ zstdRound libs moves s = .done (.buffer next.data next.size
                ⟨next.state, next.input, answer.report = .streamEnd⟩)))) := by
  intro answer
  by_cases hstale : s.stale = true ∧ answer.written ≠ []
  · left
    refine ⟨hstale.1, hstale.2, ?_⟩
    unfold zstdRound
    exact if_pos hstale
  · right
    refine ⟨fun h => not_not.1 fun hne => hstale ⟨h, hne⟩, ?_⟩
    obtain ⟨data, hcopied, hplaced⟩ := h.placed.call s.operation s.input
    have hwritten : answer.written.length ≤ s.outSize - s.pos := libs.zstd.written_le _ _ _ _
    have hbefore := h.le
    obtain ⟨next, hnext⟩ : ∃ next : ZstdLoop libs.Zstd, next =
        if s.outSize = s.pos + answer.written.length then
          ⟨answer.state, s.input.drop answer.consumed, s.pos + answer.written.length,
            s.outSize + zstdChunkSize,
            s.stale || moves (s.pos + answer.written.length + zstdChunkSize),
            realloc data (s.pos + answer.written.length + zstdChunkSize),
            s.pos + answer.written.length⟩
        else ⟨answer.state, s.input.drop answer.consumed, s.pos + answer.written.length,
            s.outSize, s.stale, data, s.pos + answer.written.length⟩ := ⟨_, rfl⟩
    have hround : zstdRound libs moves s =
        if answer.report = .bufError ∨ answer.report = .error then .done .null
        else if s.operation ≠ .finish then .again next
        else if next.input.length = 0 then .done (.buffer next.data next.size
          ⟨answer.state, s.input.drop answer.consumed, answer.report = .streamEnd⟩)
        else .again next := by
      have hcopied' : Buffer.memcpy s.data s.pos (s.answer libs.zstd.toStreamCodec).written =
          some data := hcopied
      unfold zstdRound
      dsimp only
      rewrite [if_neg hstale, hcopied', hnext]
      rfl
    have hinv : ZstdInv libs.zstd.toStreamCodec next ∧ next.size = next.pos ∧
        next.state = answer.state ∧ next.input = s.input.drop answer.consumed := by
      by_cases hfull : s.outSize = s.pos + answer.written.length
      · rw [if_pos hfull] at hnext
        subst hnext
        refine ⟨⟨?_, ?_⟩, rfl, rfl, rfl⟩
        · have hgrown : Placed libs.zstd.toStreamCodec answer.state data
              (s.pos + answer.written.length) 0 := by
            have hnone : s.outSize - s.pos - answer.written.length = 0 := by omega
            rw [← hnone]
            exact hplaced
          have hroom : s.outSize + zstdChunkSize - (s.pos + answer.written.length) =
              zstdChunkSize := by omega
          dsimp only
          rw [hroom]
          exact hgrown.grow zstdChunkSize
        · dsimp only
          omega
      · rw [if_neg hfull] at hnext
        subst hnext
        refine ⟨⟨?_, ?_⟩, rfl, rfl, rfl⟩
        · dsimp only
          rw [← Nat.sub_sub]
          exact hplaced
        · dsimp only
          omega
    obtain ⟨hinv, hsize, hstate, hinput⟩ := hinv
    rw [hround]
    by_cases hbad : answer.report = .bufError ∨ answer.report = .error
    · left
      exact ⟨hbad, if_pos hbad⟩
    · right
      have hgood : answer.report = .ok ∨ answer.report = .streamEnd := by
        cases hreport : answer.report <;> simp [hreport] at hbad ⊢
      refine ⟨hgood, next, hinv, hsize, hstate, hinput, ?_⟩
      rw [if_neg hbad]
      by_cases hop : s.operation = .finish
      · right
        -- nothing was left of the input before the call
        have hnone : next.input.length = 0 := by
          rw [hinput, List.length_drop]
          rw [operation_eq, inputOp] at hop
          split_ifs at hop with hempty
          omega
        refine ⟨hop, ?_⟩
        rw [if_neg (not_not.2 hop), if_pos hnone, hstate, hinput]
      · left
        have hflush : s.operation = .flush := by
          cases h : s.operation with
          | flush => rfl
          | finish => exact absurd h hop
        exact ⟨hflush, if_pos hop⟩

/-- A round that goes on leaves less to do. -/
theorem zstdRound_again {s t : ZstdLoop libs.Zstd} (hs : ZstdInv libs.zstd.toStreamCodec s)
    (hround : zstdRound libs moves s = .again t) :
    (ZstdInv libs.zstd.toStreamCodec t ∧
      Descends (fun s => inputPhase s.input)
        (fun s => libs.zstd.work s.state (inputOp s.input) s.input) t s) ∧ ZstdInPlace libs s := by
  rcases zstdRound_cases moves hs with
    ⟨-, -, hdone⟩ | ⟨hplace, ⟨-, hdone⟩ | ⟨hgood, u, hu, -, hstate, hleft, hnext⟩⟩
  · rw [hdone] at hround
    cases hround
  · rw [hdone] at hround
    cases hround
  · rcases hnext with ⟨hflush, hagain⟩ | ⟨-, hdone⟩
    · rw [hagain] at hround
      cases hround
      refine ⟨⟨hu, ?_⟩, hplace, fun hfinish => ?_⟩
      · rw [descends_iff, hstate, hleft]
        rcases hgood with hok | hended
        · unfold ZstdLoop.answer at hok ⊢
          rw [operation_eq] at hok ⊢
          exact input_progress libs.zstd.toStreamCodec s.state s.input _ hok
        · -- the end is reported when all of the input was taken
          left
          have hall := libs.zstd.takesAll _ _ _ _ hended
          rw [operation_eq, inputOp] at hflush
          split_ifs at hflush with hempty
          unfold ZstdLoop.answer inputPhase
          rw [hall, List.drop_length, if_neg hempty]
          exact Nat.zero_lt_one
      · rw [hflush] at hfinish
        cases hfinish
    · rw [hdone] at hround
      cases hround

/-- The result of a last round. -/
theorem zstdRound_done {s : ZstdLoop libs.Zstd} {result : StreamResult libs.Zstd}
    (hs : ZstdInv libs.zstd.toStreamCodec s) (hround : zstdRound libs moves s = .done result) :
    result.Holds libs.zstd.toStreamCodec StreamEnd.Encoded ↔ ZstdInPlace libs s := by
  rcases zstdRound_cases moves hs with
    ⟨hstale, hwritten, hdone⟩ |
    ⟨hplace, ⟨hbad, hdone⟩ | ⟨hgood, u, hu, hsize, hstate, hleft, hnext⟩⟩
  · rw [hdone] at hround
    cases hround
    exact ⟨fun h => h.elim, fun h => hwritten (h.inPlace hstale)⟩
  · rw [hdone] at hround
    cases hround
    refine ⟨fun _ => ⟨hplace, fun _ hok => ?_⟩, fun _ => trivial⟩
    rw [hok] at hbad
    rcases hbad with hbad | hbad <;> cases hbad
  · rcases hnext with ⟨-, hagain⟩ | ⟨hfinish, hdone⟩
    · rw [hagain] at hround
      cases hround
    · rw [hdone] at hround
      cases hround
      constructor
      · intro hholds
        refine ⟨hplace, fun _ hok => ?_⟩
        have hended := of_decide_eq_true hholds.2.2.2.1
        rw [hok] at hended
        cases hended
      · intro hin
        have hended := hgood.resolve_left (hin.ends hfinish)
        have hpending : libs.zstd.pending u.state = [] := by
          rw [hstate]
          exact libs.zstd.ended _ _ _ _ hended
        have hunread : u.input = [] := by
          have hall := libs.zstd.takesAll _ _ _ _ hended
          rw [hleft, ZstdLoop.answer, hall, List.drop_length]
        rw [decide_eq_true hended, hsize]
        exact hu.placed.holds hpending hunread

/-- **Compressing with Zstandard** returns, and what it returns is complete if every call writes in
place and the first call that is to end the stream ends it. -/
theorem zstd_iff (libs : CompressionLibraries) (moves : ℕ → Bool) (buffer : Bytes) :
    (∃ fuel result, compressBufferWithZstd libs moves buffer fuel = some result ∧
      result.Holds libs.zstd.toStreamCodec StreamEnd.Encoded) ↔
    ∀ state, libs.zstdInitCStream = some state →
      ∀ s, Reaches (zstdRound libs moves) (.start state buffer) s → ZstdInPlace libs s := by
  unfold compressBufferWithZstd
  cases hstate : libs.zstdInitCStream with
  | none =>
    constructor
    · intro _ state hsome
      cases hsome
    · intro _
      exact ⟨0, .null, rfl, trivial⟩
  | some state =>
    have hinv : ZstdInv libs.zstd.toStreamCodec (.start state buffer) :=
      ⟨.start (libs.zstd_fresh _ hstate) _, Nat.zero_le _⟩
    have hrounds := result_iff (descends_wf _ _)
      (fun s t hs (hround : zstdRound libs moves s = .again t) => zstdRound_again hs hround)
      (fun s result hs hround => zstdRound_done hs hround) hinv
    constructor
    · intro h state' hsome
      cases hsome
      exact hrounds.1 h
    · intro h
      exact hrounds.2 (h state rfl)

/-! ## All of them -/

/-- **Nothing is lost**: every function returns, and a buffer that it returns is complete. -/
structure StreamsWhole (libs : CompressionLibraries) (moves : ℕ → Bool) (buffer : Bytes)
    (mode : ZlibMode) (maxWindowBits : ℕ) (flushMode : StreamOp) : Prop where
  compress : ∃ fuel result,
    compressBufferWithZlibImpl libs buffer mode maxWindowBits flushMode fuel = some result ∧
      result.Holds libs.deflate.toStreamCodec StreamEnd.Encoded
  decompress : ∃ fuel result,
    decompressBufferWithZlibImpl libs buffer mode maxWindowBits flushMode fuel = some result ∧
      result.Holds libs.inflate StreamEnd.Decoded
  br : ∃ fuel result, compressBufferWithBr libs buffer fuel = some result ∧
    result.Holds libs.brotli.toStreamCodec StreamEnd.Encoded
  zstd : ∃ fuel result, compressBufferWithZstd libs moves buffer fuel = some result ∧
    result.Holds libs.zstd.toStreamCodec StreamEnd.Encoded

/-- **When nothing is lost.** The encoder of zlib takes the whole buffer, the decoder is drained
when it has used up its input, and Zstandard writes in place and ends its stream at once. Brotli
never loses anything. -/
theorem streamsWhole_iff (libs : CompressionLibraries) (moves : ℕ → Bool) (buffer : Bytes)
    (mode : ZlibMode) (maxWindowBits : ℕ) (flushMode : StreamOp) :
    StreamsWhole libs moves buffer mode maxWindowBits flushMode ↔
      (∀ start, zlibStart libs.deflateInit2 buffer mode maxWindowBits = some start →
        ∀ s, Reaches (deflateRound libs (2 ^ maxWindowBits) flushMode) start s →
          DeflateTakesAll libs buffer flushMode s) ∧
      (∀ start, zlibStart libs.inflateInit2 buffer mode maxWindowBits = some start →
        ∀ s, Reaches (inflateRound libs (2 ^ maxWindowBits) flushMode) start s →
          InflateDrained libs buffer flushMode s) ∧
      ∀ state, libs.zstdInitCStream = some state →
        ∀ s, Reaches (zstdRound libs moves) (.start state buffer) s → ZstdInPlace libs s := by
  constructor
  · intro h
    exact ⟨(compress_iff _ _ _ _ _).1 h.compress, (decompress_iff _ _ _ _ _).1 h.decompress,
      (zstd_iff _ _ _).1 h.zstd⟩
  · rintro ⟨hcompress, hdecompress, hzstd⟩
    exact ⟨(compress_iff _ _ _ _ _).2 hcompress, (decompress_iff _ _ _ _ _).2 hdecompress,
      br_whole libs buffer, (zstd_iff _ _ _).2 hzstd⟩

/-- Libraries that write every byte several times. -/
def expanderLibraries (times : ℕ) : CompressionLibraries where
  Deflate := ExpanderState UInt8
  Inflate := ExpanderState UInt8
  Brotli := ExpanderState UInt8
  Zstd := ExpanderState UInt8
  deflate := expander times
  deflateInit2 _ := some ⟨[], []⟩
  deflateEnd _ := true
  deflate_fresh _ _ h := by
    cases h
    rfl
  inflate := (expander times).toStreamCodec
  inflateInit2 _ := some ⟨[], []⟩
  inflateEnd _ := true
  inflate_fresh _ _ h := by
    cases h
    rfl
  brotli := expander times
  brotliEncoderCreateInstance := some ⟨[], []⟩
  brotli_fresh _ h := by
    cases h
    rfl
  zstd := expander times
  zstdInitCStream := some ⟨[], []⟩
  zstd_fresh _ h := by
    cases h
    rfl

set_option maxRecDepth 20000 in
/-- A byte is still to be written when the memory is full and the input is used up. -/
theorem pendingByte_lost :
    ¬ StreamsWhole (expanderLibraries 257) (fun _ => false) [7] .deflateRaw 8 .flush := by
  intro h
  obtain ⟨fuel, result, hrun, hholds⟩ := h.decompress
  have hfirst : decompressBufferWithZlibImpl (expanderLibraries 257) [7] .deflateRaw 8 .flush 1 =
      some (.buffer (List.replicate 256 7) 256 ⟨⟨List.replicate 256 7, [7]⟩, [], false⟩) := rfl
  rw [run_unique hrun hfirst] at hholds
  exact List.cons_ne_nil _ _ hholds.2.2.1

end SimpleServer.Http
