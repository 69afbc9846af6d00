import SimpleServer.Proof.Priority
import SimpleServer.Http2.Request

/-!
# Header blocks on the wire and in the server

The decompress state is shared by all streams, so header blocks have to be decoded in the
order in which they end on the wire. The server keeps the blocks of a stream until the
request is finished and decodes them then.

* `Observed`: a connection together with what an observer of the wire notes: the blocks
  that are complete, and the blocks the server has decoded.
* `HeaderOrder`: when a request is finished, exactly the complete blocks are decoded, in
  their order, and the request carries the list the peer has encoded for the stream.
* `BlocksKept`: no block is completed while another stream waits for the rest of its
  request, and no complete block is refused or dropped.
* `processHeadersFrame_slot` and its like: what a handler does to the slot of its stream.
-/

namespace SimpleServer.Http2

open Lib Hpack

variable {Authority UrlPath : Type}

/-! ## Observing a connection -/

/-- The header blocks on the wire: the one whose end is still to come, and those that are
complete, with their streams. -/
structure Wire where
  partialBlock : Option (ℕ × Bytes)
  completed : List (ℕ × Bytes)
deriving Repr, DecidableEq

def Wire.step (w : Wire) : Http2Frame → Wire
  | .headers f =>
    if f.endHeaders then ⟨none, w.completed ++ [(f.identifier, f.blockFragment)]⟩
    else ⟨some (f.identifier, f.blockFragment), w.completed⟩
  | .continuation f =>
    match w.partialBlock with
    -- a CONTINUATION without an open block is none of HTTP/2; `WireAllowed` excludes it
    | none => w
    | some (i, block) =>
      if f.endHeaders then ⟨none, w.completed ++ [(i, block ++ f.blockFragment)]⟩
      else ⟨some (i, block ++ f.blockFragment), w.completed⟩
  | _ => w

/-- The header block the server decodes at a frame. -/
def decodedAt (context : HTTP2Context) (f : Http2Frame) : Option (ℕ × Bytes) :=
  match (processHttp2Frame context f).result with
  | .newFinishedRequest i =>
    ((processHttp2Frame context f).context.streams i).map fun s =>
      (i, http2ConcatDataBlocks s.headers.headerBlocks)
  | _ => none

/-- A connection, the wire, and the blocks that are decoded. -/
structure Observed where
  context : HTTP2Context
  wire : Wire
  decoded : List (ℕ × Bytes)

def observedStart : Observed := ⟨http2DefaultContext, ⟨none, []⟩, []⟩

def observe (uri : UriParser Authority UrlPath) (o : Observed) (f : Http2Frame) : Observed :=
  ⟨(requestStep uri o.context f).1, o.wire.step f, o.decoded ++ (decodedAt o.context f).toList⟩

/-- The header lists the peer has encoded, given that it encodes the blocks in this order
with one encoder: what a decoder reads that gets the blocks in this order. -/
def peerLists : HpackDecompressState → List (ℕ × Bytes) →
    Option (List (ℕ × List HttpHeaderField))
  | _, [] => some []
  | state, (i, block) :: blocks =>
    match http2HpackDecompressData state block with
    | (_, .error _) => none
    | (state, .ok fields) => (peerLists state blocks).map ((i, fields) :: ·)

/-- The decompress state of a new connection. -/
def startState : HpackDecompressState := getDefaultHpackDynamicTableState defaultHeaderTableSize

/-- **Blocks are decoded in wire order.** Whenever a frame finishes a request, all complete
blocks are decoded, once and in their order, and an accepted request is the one that the
peer's list for its stream stands for. -/
def HeaderOrder (uri : UriParser Authority UrlPath) (frames : List Http2Frame) : Prop :=
  ∀ pre f post i lists, frames = pre ++ f :: post →
    (processHttp2Frame (runFrom (observe uri) observedStart pre).context f).result =
      .newFinishedRequest i →
    peerLists startState (runFrom (observe uri) observedStart (pre ++ [f])).wire.completed =
      some lists →
    (runFrom (observe uri) observedStart (pre ++ [f])).decoded =
        (runFrom (observe uri) observedStart (pre ++ [f])).wire.completed ∧
      ∀ request,
        (requestStep uri (runFrom (observe uri) observedStart pre).context f).2 =
          some (.ok request) →
        ∃ fields, lists.lookup i = some fields ∧ headOfFields uri fields i = .ok request.head

/-- What HTTP/2 allows a client: the frames of a header block follow each other without any
other frame in between, and a client does not push. -/
def WireAllowed (o : Observed) : Http2Frame → Prop
  | .continuation f => o.wire.partialBlock.map Prod.fst = some f.identifier
  | .pushPromise _ => False
  | _ => o.wire.partialBlock = none

instance (o : Observed) : (f : Http2Frame) → Decidable (WireAllowed o f)
  | .continuation f =>
    inferInstanceAs (Decidable (o.wire.partialBlock.map Prod.fst = some f.identifier))
  | .pushPromise _ => isFalse id
  | .data _ | .headers _ | .priority _ | .rstStream _ | .settings _ | .ping _ | .goaway _
  | .windowUpdate _ => inferInstanceAs (Decidable (o.wire.partialBlock = none))

/-- A stream with a complete header block that waits for the rest of its request. -/
def Waiting (s : Http2Stream) : Prop := s.headers.finished = true ∧ s.endStream = false

/-- No stream waits. -/
def NoneWaiting (context : HTTP2Context) : Prop := ∀ i s, context.streams i = some s → ¬ Waiting s

/-- A header block is opened on a stream that has no entry yet (or an idle one, if the frame
holds the whole request) and is completed while no other stream waits; no empty CONTINUATION
ends it; a stream that waits is not reset; and SETTINGS leave the decompress table alone. -/
def BlocksKept (o : Observed) : Http2Frame → Prop
  | .headers f =>
    (o.context.streams f.identifier = none ∨
        IdleEntry o.context f.identifier ∧ f.endStream = true ∧ f.endHeaders = true) ∧
      (f.endHeaders = true → NoneWaiting o.context)
  | .continuation f => f.blockFragment ≠ [] ∧ (f.endHeaders = true → NoneWaiting o.context)
  | .rstStream f => ∀ s, o.context.streams f.identifier = some s → ¬ Waiting s
  | .settings f => f.ack = true ∨ ∀ entry ∈ f.entries, entry.identifier = .headerTableSize →
      setHpackDecompressStateSetting o.context.state.hpackState.decompressState entry.value =
        o.context.state.hpackState.decompressState
  | _ => True

/-! ## What the handlers do to their own slot -/

variable {context : HTTP2Context}

theorem addHeadersAndFinish_slot (context : HTTP2Context) (id : ℕ) {s : Http2Stream}
    (hs : s.headers.finished = false)
    (b : Bytes) (fin : Bool) :
    (addHeadersAndFinish context id s b fin).context.streams id =
        some { s with
          headers := ⟨fin, s.headers.headerBlocks ++ [b]⟩
          state := if s.endStream = true ∧ fin = true then .halfClosed else s.state } ∧
      (addHeadersAndFinish context id s b fin).result =
        if s.endStream = true ∧ fin = true then .newFinishedRequest id else .ok := by
  unfold addHeadersAndFinish http2StreamAddHeaderBlock
  simp only [hs, Bool.false_eq_true, if_false]
  by_cases h : s.endStream = true ∧ fin = true
  · simp [h, finishRequest]
  · simp [h]

/-- The HEADERS frame that opens a stream. -/
theorem processHeadersFrame_slot {f : Http2HeadersFrame}
    (h : context.streams f.identifier = none ∨
      ∃ p, context.streams f.identifier = some (idleStream p) ∧ f.endStream = true ∧
        f.endHeaders = true) :
    ∃ s, (processHeadersFrame context f).context.streams f.identifier = some s ∧
      s.headers = ⟨f.endHeaders, [f.blockFragment]⟩ ∧ s.endStream = f.endStream ∧
      s.state = (if f.endStream = true ∧ f.endHeaders = true then .halfClosed else .open) ∧
      (processHeadersFrame context f).result =
        if f.endStream = true ∧ f.endHeaders = true then .newFinishedRequest f.identifier
        else .ok := by
  unfold processHeadersFrame
  rcases h with h | ⟨p, h, he, hh⟩
  -- a new stream is added open, an idle entry keeps its state
  · simp only [getHttp2StreamState, h, addNewHttp2Stream, HTTP2Context.setStream_streams]
    obtain ⟨h1, h2⟩ := addHeadersAndFinish_slot
      (context.setStream f.identifier
        { state := .open, headers := emptyStreamHeaders, content := emptyStreamContent
          endStream := f.endStream, priority := f.priorityOpt.getD defaultStreamPriority })
      f.identifier
      (s := { state := .open, headers := emptyStreamHeaders, content := emptyStreamContent
              endStream := f.endStream, priority := f.priorityOpt.getD defaultStreamPriority })
      rfl f.blockFragment f.endHeaders
    exact ⟨_, h1, rfl, rfl, rfl, h2⟩
  · simp only [getHttp2StreamState, h, idleStream]
    obtain ⟨h1, h2⟩ := addHeadersAndFinish_slot context f.identifier
      (s := { state := .idle, headers := emptyStreamHeaders, content := emptyStreamContent
              endStream := f.endStream, priority := f.priorityOpt.getD p })
      rfl f.blockFragment f.endHeaders
    refine ⟨_, h1, rfl, rfl, ?_, h2⟩
    simp [he, hh]

/-- A CONTINUATION frame of an open header block. -/
theorem processContinuationFrame_slot {f : Http2ContinuationFrame} {s : Http2Stream}
    (hs : context.streams f.identifier = some s) (hopen : s.state = .open)
    (hfin : s.headers.finished = false) (hne : f.blockFragment ≠ []) :
    (processContinuationFrame context f).context.streams f.identifier =
        some { s with
          headers := ⟨f.endHeaders, s.headers.headerBlocks ++ [f.blockFragment]⟩
          state := if s.endStream = true ∧ f.endHeaders = true then .halfClosed else s.state } ∧
      (processContinuationFrame context f).result =
        if s.endStream = true ∧ f.endHeaders = true then .newFinishedRequest f.identifier
        else .ok := by
  have hlen : f.blockFragment.length ≠ 0 := by simpa using hne
  have := addHeadersAndFinish_slot context f.identifier hfin f.blockFragment
    f.endHeaders
  unfold processContinuationFrame
  simpa [getHttp2StreamState, hs, hopen, hfin, hlen] using this

/-- A DATA frame either adds to a stream that waits, or does not touch one that is open. -/
theorem processDataFrame_slot (context : HTTP2Context) (f : Http2DataFrame) :
    ((processDataFrame context f).context.streams f.identifier =
        (context.streams f.identifier).map http2CloseStream ∧
      (∀ i, (processDataFrame context f).result ≠ .newFinishedRequest i) ∧
      ∀ s, context.streams f.identifier = some s → s.state = .open → ¬ Waiting s) ∨
    ∃ s content, context.streams f.identifier = some s ∧ Waiting s ∧
      (processDataFrame context f).context.streams f.identifier =
        some { s with
          content := content
          endStream := f.isEnd
          state := if f.isEnd = true then .halfClosed else s.state } ∧
      (processDataFrame context f).result =
        if f.isEnd = true then .newFinishedRequest f.identifier else .ok := by
  unfold processDataFrame
  dsimp only
  split
  -- not open: the stream error closes the stream, if there is one
  · rename_i hst
    refine .inl ⟨by simp [streamError], by rintro _ ⟨⟩, ?_⟩
    intro s hs hopen
    rw [getHttp2StreamState_some hs] at hst
    exact absurd hopen hst.1
  split
  · rename_i hnone
    refine .inl ⟨by simp [connectionError, hnone], by rintro _ ⟨⟩, ?_⟩
    intro s hs
    rw [hnone] at hs
    cases hs
  rename_i s hs
  split
  -- END_STREAM has come already, so the stream does not wait
  · rename_i hend
    refine .inl ⟨by simp [streamError], by rintro _ ⟨⟩, ?_⟩
    intro s' hs' _ hw
    obtain rfl : s = s' := Option.some.inj (hs.symm.trans hs')
    rw [hw.2] at hend
    cases hend
  split
  -- the header block is still open, so the stream does not wait
  · rename_i hfin
    refine .inl ⟨by simp [streamError], by rintro _ ⟨⟩, ?_⟩
    intro s' hs' _ hw
    obtain rfl : s = s' := Option.some.inj (hs.symm.trans hs')
    exact hfin hw.1
  rename_i hend hfin
  have hw : Waiting s := ⟨by simpa using hfin, by simpa using hend⟩
  refine .inr ⟨s, ⟨s.content.finished, s.content.dataBlocks ++ [f.content]⟩, hs, hw, ?_⟩
  simp only [http2StreamAddContentBlock, hw.2, Bool.false_eq_true, if_false]
  cases f.isEnd <;> simp [finishRequest]

/-- A RST_STREAM frame keeps the flags of its stream. -/
theorem processRstStreamFrame_slot (context : HTTP2Context) (f : Http2RstStreamFrame) :
    (∀ i, (processRstStreamFrame context f).result ≠ .newFinishedRequest i) ∧
      (context.streams f.identifier = none →
        (processRstStreamFrame context f).context.streams f.identifier = none) ∧
      ∀ s, context.streams f.identifier = some s →
        ∃ s', (processRstStreamFrame context f).context.streams f.identifier = some s' ∧
          s'.state ≠ .idle ∧ (Waiting s' ↔ Waiting s) := by
  unfold processRstStreamFrame
  dsimp only
  split
  -- an idle stream is closed by the stream error
  · refine ⟨by rintro _ ⟨⟩, ?_, ?_⟩
    · intro h; simp [streamError, h]
    · intro s hs
      exact ⟨http2CloseStream s, by simp [streamError, hs], by simp [http2CloseStream], Iff.rfl⟩
  split
  · rename_i hnone
    refine ⟨by rintro _ ⟨⟩, fun _ => hnone, ?_⟩
    intro s hs
    rw [hnone] at hs
    cases hs
  rename_i s hs
  split
  · refine ⟨by rintro _ ⟨⟩, ?_, ?_⟩
    · intro h; rw [hs] at h; cases h
    intro s' hs'
    obtain rfl : s = s' := Option.some.inj (hs.symm.trans hs')
    exact ⟨http2CloseStream s, by simp, by simp [http2CloseStream], Iff.rfl⟩
  · refine ⟨by rintro _ ⟨⟩, ?_, ?_⟩
    · intro h; rw [hs] at h; cases h
    intro s' hs'
    obtain rfl : s = s' := Option.some.inj (hs.symm.trans hs')
    exact ⟨{ s with state := .halfClosed }, by simp, by simp, Iff.rfl⟩

end SimpleServer.Http2
