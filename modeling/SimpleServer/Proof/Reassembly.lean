import SimpleServer.Lib.Run
import SimpleServer.Http2.Request

/-!
# Reassembly of the requests

The frames of all streams come interleaved; the blocks of a stream are collected in its
entry, and the request is handed on when the last of them is there. A frame that a handler
refuses with an error leaves no block behind. A refused frame of a stream that has an entry
closes the stream, a refused frame of one that has none leaves no trace at all.

* `Stores`: what one frame does to the entry of one stream: it appends the fragment of the
  frame, it keeps a complete entry complete, and only an incomplete one is finished.
* `processHttp2Frame_stores`: this holds of every frame and every stream.
* `run_blocks`: the blocks of a stream that is never closed, at the end of a run.
* `reassembly`: the blocks of every request that a run finishes, and that it finishes it once.
-/

namespace SimpleServer.Http2

open Lib

/-! ## The fragments of a run -/

/-- The handlers refuse a frame with an error. -/
def refused : Http2ProcessFrameResult → Bool
  | .error _ _ => true
  | _ => false

/-- The frames of a run that no handler refuses. -/
def acceptedFrames : HTTP2Context → List Http2Frame → List Http2Frame
  | _, [] => []
  | context, f :: fs =>
    if refused (processHttp2Frame context f).result then acceptedFrames (frameStep context f) fs
    else f :: acceptedFrames (frameStep context f) fs

/-- The block fragment that a HEADERS or CONTINUATION frame holds for stream `i`. -/
def headerFragment (i : ℕ) : Http2Frame → Bytes
  | .headers f => if f.identifier = i then f.blockFragment else []
  | .continuation f => if f.identifier = i then f.blockFragment else []
  | _ => []

/-- The block fragment of the PUSH_PROMISE frame that promises stream `i`. -/
def promisedFragment (i : ℕ) : Http2Frame → Bytes
  | .pushPromise f => if f.promisedStreamIdentifier = i then f.blockFragment else []
  | _ => []

/-- The content that a DATA frame holds for stream `i`. -/
def dataFragment (i : ℕ) : Http2Frame → Bytes
  | .data f => if f.identifier = i then f.content else []
  | _ => []

/-- The bytes of the header blocks in an entry. -/
def headersOf (slot : Option Http2Stream) : Bytes :=
  (slot.map fun s => http2ConcatDataBlocks s.headers.headerBlocks).getD []

/-- The bytes of the data blocks in an entry. -/
def contentOf (slot : Option Http2Stream) : Bytes :=
  (slot.map fun s => http2ConcatDataBlocks s.content.dataBlocks).getD []

@[simp] theorem headersOf_none : headersOf none = [] := rfl

@[simp] theorem contentOf_none : contentOf none = [] := rfl

@[simp] theorem headersOf_some (s : Http2Stream) :
    headersOf (some s) = http2ConcatDataBlocks s.headers.headerBlocks := rfl

@[simp] theorem contentOf_some (s : Http2Stream) :
    contentOf (some s) = http2ConcatDataBlocks s.content.dataBlocks := rfl

@[simp] theorem http2ConcatDataBlocks_nil : http2ConcatDataBlocks [] = [] := rfl

@[simp] theorem http2ConcatDataBlocks_snoc (blocks : List Bytes) (b : Bytes) :
    http2ConcatDataBlocks (blocks ++ [b]) = http2ConcatDataBlocks blocks ++ b := by
  simp [http2ConcatDataBlocks]

/-! ## One frame and one stream -/

/-- The header block is complete and the end of the stream has come. -/
def Complete (s : Http2Stream) : Prop := s.endStream = true ∧ s.headers.finished = true

/-- What a frame with the fragments `header` and `data` for stream `i` does to the entry of
`i`, which was `before`. -/
structure Stores (i : ℕ) (before : Option Http2Stream) (header data : Bytes) (p : Processed) :
    Prop where
  blocks : getHttp2StreamState p.context i ≠ .closed →
    headersOf (p.context.streams i) =
        headersOf before ++ (if refused p.result then [] else header) ∧
      contentOf (p.context.streams i) =
        contentOf before ++ (if refused p.result then [] else data)
  complete : ∀ s, before = some s → Complete s →
    (∃ s', p.context.streams i = some s' ∧ Complete s') ∧ p.result ≠ .newFinishedRequest i
  finished : p.result = .newFinishedRequest i →
    ∃ s, p.context.streams i = some s ∧ Complete s ∧ s.state = .halfClosed

variable {context : HTTP2Context} {i : ℕ} {before : Option Http2Stream} {s : Http2Stream}
  {header data : Bytes} {p : Processed}

/-- The entry is not touched: the frame is refused or has no fragment for it. -/
theorem stores_untouched (hslot : p.context.streams i = before)
    (hresult : p.result ≠ .newFinishedRequest i)
    (hfragment : refused p.result = true ∨ header = [] ∧ data = []) :
    Stores i before header data p := by
  refine ⟨?_, ?_, fun h => absurd h hresult⟩
  · intro _
    rw [hslot]
    rcases hfragment with h | ⟨rfl, rfl⟩
    · simp [h]
    · simp
  · intro s hs hc
    exact ⟨⟨s, hslot.trans hs, hc⟩, hresult⟩

/-- The entry is closed, and stays complete if it was. -/
theorem stores_closed {s' : Http2Stream} (hslot : p.context.streams i = some s')
    (hclosed : s'.state = .closed) (hcomplete : ∀ s, before = some s → Complete s → Complete s')
    (hresult : p.result ≠ .newFinishedRequest i) : Stores i before header data p := by
  refine ⟨?_, ?_, fun h => absurd h hresult⟩
  · intro hopen
    rw [getHttp2StreamState_some hslot] at hopen
    exact absurd hclosed hopen
  · intro s hs hc
    exact ⟨⟨s', hslot, hcomplete s hs hc⟩, hresult⟩

/-- A stream error closes the entry, if there is one, and keeps its flags. -/
theorem stores_streamError (context : HTTP2Context) (i : ℕ) (code : Http2ErrorCode) (m : String) :
    Stores i (context.streams i) header data (streamError context i code m) := by
  have hslot : (streamError context i code m).context.streams i =
      (context.streams i).map http2CloseStream := by simp [streamError]
  cases hs : context.streams i with
  | none =>
    rw [hs] at hslot
    exact stores_untouched hslot (by rintro ⟨⟩) (.inl rfl)
  | some s =>
    rw [hs] at hslot
    refine stores_closed hslot rfl ?_ (by rintro ⟨⟩)
    intro s' hs' hc
    obtain rfl : s = s' := Option.some.inj hs'
    exact hc

/-- The entry is written with the fragments appended. -/
theorem stores_setStream {s' : Http2Stream} {result : Http2ProcessFrameResult}
    (hheaders : http2ConcatDataBlocks s'.headers.headerBlocks = headersOf before ++ header)
    (hdata : http2ConcatDataBlocks s'.content.dataBlocks = contentOf before ++ data)
    (hcomplete : ∀ s, before = some s → Complete s → Complete s')
    (hresult : result = .ok) :
    Stores i before header data ⟨context.setStream i s', result, []⟩ := by
  subst hresult
  refine ⟨?_, ?_, nofun⟩
  · intro _
    simp [hheaders, hdata, refused]
  · intro s hs hc
    exact ⟨⟨s', by simp, hcomplete s hs hc⟩, nofun⟩

/-- The request is finished, which it was not before. -/
theorem stores_finishRequest {s' : Http2Stream}
    (hheaders : http2ConcatDataBlocks s'.headers.headerBlocks = headersOf before ++ header)
    (hdata : http2ConcatDataBlocks s'.content.dataBlocks = contentOf before ++ data)
    (hbefore : ∀ s, before = some s → ¬ Complete s) (hcomplete : Complete s') :
    Stores i before header data (finishRequest context i s') := by
  refine ⟨?_, fun s hs hc => absurd hc (hbefore s hs), ?_⟩
  · intro _
    simp [finishRequest, hheaders, hdata, refused]
  · intro _
    exact ⟨{ s' with state := .halfClosed }, by simp [finishRequest], hcomplete, rfl⟩

/-! ## The handlers -/

theorem stores_addHeadersAndFinish (context : HTTP2Context) {b : Bytes} (fin : Bool)
    (hheaders : http2ConcatDataBlocks s.headers.headerBlocks = headersOf before)
    (hdata : http2ConcatDataBlocks s.content.dataBlocks = contentOf before)
    (hopen : s.headers.finished = false) (hbefore : ∀ s, before = some s → ¬ Complete s) :
    Stores i before b [] (addHeadersAndFinish context i s b fin) := by
  unfold addHeadersAndFinish http2StreamAddHeaderBlock
  simp only [hopen, Bool.false_eq_true, if_false]
  split
  · rename_i hfin
    refine stores_finishRequest ?_ ?_ hbefore hfin
    · rw [http2ConcatDataBlocks_snoc, hheaders]
    · rw [hdata, List.append_nil]
  · refine stores_setStream ?_ ?_ (fun s hs hc => absurd hc (hbefore s hs)) rfl
    · rw [http2ConcatDataBlocks_snoc, hheaders]
    · rw [hdata, List.append_nil]

/-- A stream whose headers are open is not complete yet. -/
theorem stores_addHeadersAndFinish_open (context : HTTP2Context) {b : Bytes} (fin : Bool)
    {old : Http2Stream} (hheaders : s.headers = old.headers) (hcontent : s.content = old.content)
    (hopen : old.headers.finished = false) :
    Stores i (some old) b [] (addHeadersAndFinish context i s b fin) := by
  refine stores_addHeadersAndFinish context fin ?_ ?_ (by rw [hheaders, hopen]) ?_
  · rw [hheaders]
    rfl
  · rw [hcontent]
    rfl
  · intro s' h hc
    obtain rfl : old = s' := Option.some.inj h
    rw [hc.2] at hopen
    cases hopen

theorem stores_processDataFrame (context : HTTP2Context) (f : Http2DataFrame) :
    Stores f.identifier (context.streams f.identifier) [] f.content
      (processDataFrame context f) := by
  unfold processDataFrame
  dsimp only
  split
  · exact stores_streamError ..
  split
  · exact stores_untouched rfl nofun (.inl rfl)
  rename_i s hs
  split
  · exact stores_streamError ..
  split
  · exact stores_streamError ..
  rename_i hend hfin
  have hend : s.endStream = false := by simpa using hend
  have hfin : s.headers.finished = true := by simpa using hfin
  -- the end of the stream has not come yet, so the entry is not complete
  have hbefore : ∀ s', some s = some s' → ¬ Complete s' := by
    intro s' h hc
    obtain rfl : s = s' := Option.some.inj h
    rw [hc.1] at hend
    cases hend
  simp only [http2StreamAddContentBlock, hend, Bool.false_eq_true, if_false]
  rw [hs]
  split
  · rename_i hlast
    exact stores_finishRequest (by simp) (by simp) hbefore ⟨hlast, hfin⟩
  · exact stores_setStream (by simp) (by simp) (fun s hs hc => absurd hc (hbefore s hs)) rfl

theorem stores_processHeadersFrame (context : HTTP2Context) (f : Http2HeadersFrame) :
    Stores f.identifier (context.streams f.identifier) f.blockFragment []
      (processHeadersFrame context f) := by
  unfold processHeadersFrame
  dsimp only
  split
  · exact stores_streamError ..
  split
  · exact stores_streamError ..
  split
  · rename_i hnone
    simp only [addNewHttp2Stream, hnone, HTTP2Context.setStream_streams, if_true]
    exact stores_addHeadersAndFinish _ _ rfl rfl rfl (by rintro _ ⟨⟩)
  · rename_i s hs
    split
    · rename_i hfin
      have hclosed : ∀ s' code m,
          (streamError (context.setStream f.identifier s') f.identifier code m).context.streams
            f.identifier = some (http2CloseStream s') := by simp [streamError]
      refine stores_closed (hclosed _ _ _) rfl ?_ (by rintro ⟨⟩)
      intro s' hs' hc
      obtain rfl : s = s' := Option.some.inj (hs.symm.trans hs')
      exact ⟨by simp [http2CloseStream, hc.1], hc.2⟩
    · rename_i hfin
      rw [hs]
      exact stores_addHeadersAndFinish_open _ _ rfl rfl (by simpa using hfin)

theorem stores_processContinuationFrame (context : HTTP2Context) (f : Http2ContinuationFrame) :
    Stores f.identifier (context.streams f.identifier) f.blockFragment []
      (processContinuationFrame context f) := by
  unfold processContinuationFrame
  dsimp only
  split
  · exact stores_streamError ..
  split
  · exact stores_untouched rfl nofun (.inl rfl)
  rename_i s hs
  split
  · exact stores_streamError ..
  rename_i hfin
  split
  · exact stores_streamError ..
  rw [hs]
  exact stores_addHeadersAndFinish_open _ _ rfl rfl (by simpa using hfin)

theorem stores_processPriorityFrame (context : HTTP2Context) (f : Http2PriorityFrame) :
    Stores f.identifier (context.streams f.identifier) [] [] (processPriorityFrame context f) := by
  unfold processPriorityFrame
  split
  · rename_i hnone
    simp only [addNewHttp2Stream, hnone]
    exact stores_setStream rfl rfl nofun rfl
  · rename_i s hs
    rw [hs]
    refine stores_setStream (by simp) (by simp) ?_ rfl
    intro s' h hc
    obtain rfl : s = s' := Option.some.inj h
    exact hc

theorem stores_processRstStreamFrame (context : HTTP2Context) (f : Http2RstStreamFrame) :
    Stores f.identifier (context.streams f.identifier) [] []
      (processRstStreamFrame context f) := by
  unfold processRstStreamFrame
  dsimp only
  split
  · exact stores_streamError ..
  split
  · exact stores_untouched rfl nofun (.inl rfl)
  rename_i s hs
  -- closed or half closed, the entry keeps its flags
  have hkeep : ∀ s', some s = some s' → Complete s' → Complete s := by
    intro s' h hc
    obtain rfl : s = s' := Option.some.inj h
    exact hc
  rw [hs]
  split
  · have hslot : (context.setStream f.identifier (http2CloseStream s)).streams f.identifier =
        some (http2CloseStream s) := by simp
    exact stores_closed hslot rfl hkeep nofun
  · exact stores_setStream (by simp) (by simp) hkeep rfl

/-- A PUSH_PROMISE touches two entries: the one of its own stream, which it may close, and the
one it makes. -/
theorem stores_processPushPromiseFrame (context : HTTP2Context) (f : Http2PushPromiseFrame)
    (i : ℕ) :
    Stores i (context.streams i) (promisedFragment i (.pushPromise f)) []
      (processPushPromiseFrame context f) := by
  unfold processPushPromiseFrame
  dsimp only
  split
  · by_cases hi : i = f.identifier
    · rw [hi]
      exact stores_streamError ..
    · exact stores_untouched ((local_streamError ..).streams i hi) (by rintro ⟨⟩) (.inl rfl)
  split
  · exact stores_untouched rfl (by rintro ⟨⟩) (.inl rfl)
  rename_i s hs
  have hblocks : http2ConcatDataBlocks s.headers.headerBlocks = f.blockFragment ∧
      http2ConcatDataBlocks s.content.dataBlocks = [] := by
    split at hs
    · simp only [http2StreamAddHeaderBlock, emptyStreamHeaders, Bool.false_eq_true, if_false] at hs
      cases hs
      simp [http2ConcatDataBlocks, emptyStreamContent]
    · rename_i hlen
      have hnil : f.blockFragment = [] := List.length_eq_zero_iff.1 (by omega)
      cases hs
      rw [hnil]
      exact ⟨rfl, rfl⟩
  split
  · exact stores_untouched rfl (by rintro ⟨⟩) (.inl rfl)
  rename_i context' hadd
  obtain ⟨hnone, rfl⟩ := addNewHttp2Stream_eq_some hadd
  by_cases hi : i = f.promisedStreamIdentifier
  · subst hi
    rw [hnone]
    refine stores_setStream ?_ hblocks.2 (by rintro _ ⟨⟩) rfl
    simpa [promisedFragment] using hblocks.1
  · refine stores_untouched (by simp [hi]) (by rintro ⟨⟩) (.inr ⟨?_, rfl⟩)
    simp [promisedFragment, Ne.symm hi]

/-- **One frame.** Of its fragments, exactly those for stream `i` go to the entry of `i`, at
the end, and none if the frame is refused. -/
theorem processHttp2Frame_stores (context : HTTP2Context) (f : Http2Frame) (i : ℕ) :
    Stores i (context.streams i) (promisedFragment i f ++ headerFragment i f) (dataFragment i f)
      (processHttp2Frame context f) := by
  -- a handler stores the fragments of its own stream and does not touch another entry
  have handler : ∀ {id : ℕ} {p : Processed} {h d : Bytes},
      Local id (updateLastStreamId context id) p →
      Stores id ((updateLastStreamId context id).streams id) h d p →
      Stores i (context.streams i) (if id = i then h else []) (if id = i then d else []) p := by
    intro id p h d hlocal hown
    rw [updateLastStreamId_streams] at hown
    by_cases hi : id = i
    · subst hi
      simpa using hown
    · rw [if_neg hi, if_neg hi]
      refine stores_untouched ?_ (fun h => hi (hlocal.finished i h).symm) (.inr ⟨rfl, rfl⟩)
      rw [hlocal.streams i (Ne.symm hi), updateLastStreamId_streams]
  have conn : ∀ g, Stores i (context.streams i) [] []
      (processHttp2FrameForConnection (updateLastStreamId context 0) g) := by
    intro g
    refine stores_untouched ?_ (processHttp2FrameForConnection_result _ _ _) (.inr ⟨rfl, rfl⟩)
    rw [processHttp2FrameForConnection_streams, updateLastStreamId_streams]
  unfold processHttp2Frame
  cases f with
  | data f =>
    have := handler (local_processDataFrame _ f) (stores_processDataFrame _ f)
    rw [ite_self] at this
    exact this
  | headers f =>
    have := handler (local_processHeadersFrame _ f) (stores_processHeadersFrame _ f)
    rw [ite_self [] ] at this
    exact this
  | continuation f =>
    have := handler (local_processContinuationFrame _ f) (stores_processContinuationFrame _ f)
    rw [ite_self [] ] at this
    exact this
  | priority f =>
    have := handler (local_processPriorityFrame _ f) (stores_processPriorityFrame _ f)
    rw [ite_self] at this
    exact this
  | rstStream f =>
    have := handler (local_processRstStreamFrame _ f) (stores_processRstStreamFrame _ f)
    rw [ite_self] at this
    exact this
  | pushPromise f =>
    have := stores_processPushPromiseFrame (updateLastStreamId context f.identifier) f i
    rw [updateLastStreamId_streams] at this
    have hnil : headerFragment i (.pushPromise f) = [] := rfl
    rw [hnil, List.append_nil]
    exact this
  | windowUpdate f =>
    simp only [getHttp2FrameCategory]
    split
    · exact stores_untouched (by simp [processHttp2FrameForStream]) (by rintro ⟨⟩) (.inr ⟨rfl, rfl⟩)
    · exact conn _
  | settings f => exact conn _
  | ping f => exact conn _
  | goaway f => exact conn _

/-! ## Whole runs -/

/-- Stream `i` is closed in no state of the run over these frames, the last one included. -/
def NeverClosed (context : HTTP2Context) (i : ℕ) (frames : List Http2Frame) : Prop :=
  ∀ pre, pre <+: frames → getHttp2StreamState (runFrom frameStep context pre) i ≠ .closed

instance decidableNeverClosed (context : HTTP2Context) (i : ℕ) (frames : List Http2Frame) :
    Decidable (NeverClosed context i frames) :=
  decidable_of_iff
    (∀ pre ∈ frames.inits, getHttp2StreamState (runFrom frameStep context pre) i ≠ .closed)
    (by simp only [List.mem_inits, NeverClosed])

/-- **The blocks at the end of a run** of a stream that is never closed. -/
theorem run_blocks {frames : List Http2Frame} (h : NeverClosed context i frames) :
    headersOf ((runFrom frameStep context frames).streams i) =
        headersOf (context.streams i) ++ (acceptedFrames context frames).flatMap
          (fun f => promisedFragment i f ++ headerFragment i f) ∧
      contentOf ((runFrom frameStep context frames).streams i) =
        contentOf (context.streams i) ++
          (acceptedFrames context frames).flatMap (dataFragment i) := by
  induction frames generalizing context with
  | nil => simp [acceptedFrames]
  | cons f fs ih =>
    have hrest : NeverClosed (frameStep context f) i fs := by
      intro pre hpre
      exact h (f :: pre) (List.cons_prefix_cons.2 ⟨rfl, hpre⟩)
    have hafter : getHttp2StreamState (frameStep context f) i ≠ .closed :=
      hrest [] (List.nil_prefix)
    obtain ⟨hheaders, hcontent⟩ := (processHttp2Frame_stores context f i).blocks hafter
    obtain ⟨ihheaders, ihcontent⟩ := ih hrest
    have hstep : (frameStep context f).streams i =
        (processHttp2Frame context f).context.streams i := rfl
    rw [runFrom_cons, ihheaders, ihcontent, acceptedFrames, hstep, hheaders, hcontent]
    by_cases hr : refused (processHttp2Frame context f).result = true
    · simp [hr]
    · simp [hr]

/-- A complete entry stays complete and is never finished again. -/
theorem complete_run {frames : List Http2Frame} {f : Http2Frame}
    (h : ∃ s, context.streams i = some s ∧ Complete s) :
    (processHttp2Frame (runFrom frameStep context frames) f).result ≠ .newFinishedRequest i := by
  induction frames generalizing context with
  | nil =>
    obtain ⟨s, hs, hc⟩ := h
    exact ((processHttp2Frame_stores context f i).complete s hs hc).2
  | cons g fs ih =>
    obtain ⟨s, hs, hc⟩ := h
    exact ih ((processHttp2Frame_stores context g i).complete s hs hc).1

/-- The blocks of stream `i` after the run are the fragments of these frames, in their order:
`headers` gives those of the header blocks. -/
def Reassembled (context : HTTP2Context) (i : ℕ) (headers : Http2Frame → Bytes)
    (frames : List Http2Frame) : Prop :=
  ∃ s, context.streams i = some s ∧
    http2ConcatDataBlocks s.headers.headerBlocks = frames.flatMap headers ∧
    http2ConcatDataBlocks s.content.dataBlocks = frames.flatMap (dataFragment i)

/-- **Reassembly.** When a frame finishes a request, no frame before it has finished one of
this stream; and if the stream was never closed, its blocks are the fragments of the frames
that were accepted, in the order of arrival. A stream that a PUSH_PROMISE made starts with
the fragment of the promise. -/
theorem reassembly (frames : List Http2Frame) (f : Http2Frame) (i : ℕ)
    (hfinished : (processHttp2Frame (runFrom frameStep http2DefaultContext frames) f).result =
      .newFinishedRequest i) :
    (∀ pre g post, frames = pre ++ g :: post →
      (processHttp2Frame (runFrom frameStep http2DefaultContext pre) g).result ≠
        .newFinishedRequest i) ∧
    (NeverClosed http2DefaultContext i frames →
      Reassembled (runFrom frameStep http2DefaultContext (frames ++ [f])) i
        (fun g => promisedFragment i g ++ headerFragment i g)
        (acceptedFrames http2DefaultContext (frames ++ [f]))) := by
  have hstep := processHttp2Frame_stores (runFrom frameStep http2DefaultContext frames) f i
  constructor
  · rintro pre g post rfl hg
    -- after `g` the entry is complete, so `f` cannot finish it
    have hstep := processHttp2Frame_stores (runFrom frameStep http2DefaultContext pre) g i
    obtain ⟨s, hs, hc, -⟩ := hstep.finished hg
    rw [runFrom_append, runFrom_cons] at hfinished
    exact complete_run ⟨s, hs, hc⟩ hfinished
  · intro hopen
    obtain ⟨s, hs, -, hhalf⟩ := hstep.finished hfinished
    have hlast : (runFrom frameStep http2DefaultContext (frames ++ [f])).streams i = some s := by
      rw [runFrom_append]
      exact hs
    -- the last frame leaves the stream half closed
    have hnever : NeverClosed http2DefaultContext i (frames ++ [f]) := by
      intro pre hpre
      rcases List.prefix_concat_iff.1 hpre with rfl | hpre
      · rw [getHttp2StreamState_some hlast, hhalf]
        nofun
      · exact hopen pre hpre
    obtain ⟨hheaders, hcontent⟩ := run_blocks hnever
    rw [hlast] at hheaders hcontent
    exact ⟨s, hlast, hheaders, hcontent⟩

/-- A request of two interleaved streams. -/
theorem reassembly_interleaved :
    Reassembled (runFrom frameStep http2DefaultContext
      [.headers ⟨none, [0x82], 1, false, true⟩, .headers ⟨none, [0x84], 3, false, false⟩,
        .data ⟨[0x61], false, 1⟩, .continuation ⟨[0x86], 3, true⟩, .data ⟨[0x62], true, 1⟩]) 1
      (fun g => promisedFragment 1 g ++ headerFragment 1 g)
      [.headers ⟨none, [0x82], 1, false, true⟩, .headers ⟨none, [0x84], 3, false, false⟩,
        .data ⟨[0x61], false, 1⟩, .continuation ⟨[0x86], 3, true⟩, .data ⟨[0x62], true, 1⟩] := by
  refine (reassembly
    [.headers ⟨none, [0x82], 1, false, true⟩, .headers ⟨none, [0x84], 3, false, false⟩,
      .data ⟨[0x61], false, 1⟩, .continuation ⟨[0x86], 3, true⟩] (.data ⟨[0x62], true, 1⟩) 1
    (by decide)).2 (by decide)

/-- A DATA frame that comes before the HEADERS frame of its stream is refused: the stream has
no entry, so there is nothing to close, and the content is not in the request. -/
def dataFirst : List Http2Frame := [.data ⟨[0x78], true, 1⟩]

/-- A stream that a PUSH_PROMISE makes and a RST_STREAM leaves half closed. -/
def promiseFirst : List Http2Frame :=
  [.headers ⟨none, [0x82], 1, false, true⟩, .pushPromise ⟨2, [0x84], 1, true⟩,
    .rstStream ⟨.cancel, 2⟩]

/-- Neither request is made of the fragments of the HEADERS, CONTINUATION and DATA frames of
its stream: the first one misses a content, the second one has the fragment of the promise. -/
theorem dataFirst_promiseFirst_finish :
    ((processHttp2Frame (runFrom frameStep http2DefaultContext dataFirst)
          (.headers ⟨none, [0x82], 1, true, true⟩)).result = .newFinishedRequest 1 ∧
      NeverClosed http2DefaultContext 1 dataFirst ∧
      ¬ Reassembled (runFrom frameStep http2DefaultContext
          (dataFirst ++ [.headers ⟨none, [0x82], 1, true, true⟩])) 1 (headerFragment 1)
          (dataFirst ++ [.headers ⟨none, [0x82], 1, true, true⟩])) ∧
    (processHttp2Frame (runFrom frameStep http2DefaultContext promiseFirst)
          (.data ⟨[0x78], true, 2⟩)).result = .newFinishedRequest 2 ∧
      NeverClosed http2DefaultContext 2 promiseFirst ∧
      ¬ Reassembled (runFrom frameStep http2DefaultContext
          (promiseFirst ++ [.data ⟨[0x78], true, 2⟩])) 2 (headerFragment 2)
          (promiseFirst ++ [.data ⟨[0x78], true, 2⟩]) := by
  refine ⟨⟨by decide, by decide, ?_⟩, by decide, by decide, ?_⟩
  · rintro ⟨s, hs, -, hdata⟩
    rw [← contentOf_some, ← hs] at hdata
    revert hdata
    decide
  · rintro ⟨s, hs, hheaders, -⟩
    rw [← headersOf_some, ← hs] at hheaders
    revert hheaders
    decide

end SimpleServer.Http2
