import SimpleServer.Http2.Frame

/-!
# Processing a frame (`process_http2_frame` in `v2.c`)

One handler for each frame type that belongs to a stream, the handler of the
connection frames, and `processHttp2Frame` over them. A handler returns the new
context, the result, and the frames it sends (which always succeeds).

* `Local`: a handler of stream `id` only writes the slot of `id`.
* `processPushPromiseFrame_cases`: a PUSH_PROMISE at most fills an empty slot.
* `processHttp2Frame_other`: a frame of another stream leaves a stream as it is.
-/

namespace SimpleServer.Http2

open Hpack

inductive Http2ProcessFrameResult where
  | ok
  | newFinishedRequest (identifier : ℕ)
  | error (isConnectionError : Bool) (message : String)
  | closeConnection
deriving Repr, DecidableEq

/-- The frames the server sends while it processes one. -/
inductive SentFrame where
  | rstStream (frame : Http2RstStreamFrame)
  | goaway (frame : Http2GoawayFrame)
  | settings (frame : Http2SettingsFrame)
  | ping (frame : Http2PingFrame)
deriving Repr, DecidableEq

/-- What processing a frame leaves behind. -/
structure Processed where
  context : HTTP2Context
  result : Http2ProcessFrameResult
  sent : List SentFrame

/-! ## Streams -/

def getHttp2StreamState (context : HTTP2Context) (identifier : ℕ) : Http2StreamState :=
  match context.streams identifier with
  | none => .idle
  | some stream => stream.state

/-- `add_new_http2_stream`: an entry that is there already is not overwritten. -/
def addNewHttp2Stream (context : HTTP2Context) (identifier : ℕ) (stream : Http2Stream) :
    Option HTTP2Context :=
  match context.streams identifier with
  | none => some (context.setStream identifier stream)
  | some _ => none

def http2StreamAddHeaderBlock (stream : Http2Stream) (headerBlock : Bytes) (finished : Bool) :
    Option Http2Stream :=
  if stream.headers.finished then none
  else some { stream with headers := ⟨finished, stream.headers.headerBlocks ++ [headerBlock]⟩ }

def http2StreamAddContentBlock (stream : Http2Stream) (contentBlock : Bytes) (endStream : Bool) :
    Option Http2Stream :=
  if stream.endStream then none
  else
    some { stream with
      content := ⟨stream.content.finished, stream.content.dataBlocks ++ [contentBlock]⟩
      endStream := endStream }

/-- `http2_close_stream`: the blocks are freed, the flags stay. -/
def http2CloseStream (stream : Http2Stream) : Http2Stream :=
  { stream with
    state := .closed
    headers := ⟨stream.headers.finished, []⟩
    content := ⟨stream.content.finished, []⟩ }

def http2CloseStreamByIdentifier (context : HTTP2Context) (identifier : ℕ) : HTTP2Context :=
  match context.streams identifier with
  | none => context
  | some stream => context.setStream identifier (http2CloseStream stream)

/-- The exits with a stream error: `http2_send_stream_error`, then the stream is closed. -/
def streamError (context : HTTP2Context) (identifier : ℕ) (errorCode : Http2ErrorCode)
    (message : String) : Processed :=
  ⟨http2CloseStreamByIdentifier context identifier, .error false message,
    [.rstStream ⟨errorCode, identifier⟩]⟩

/-- The exits with `http2_send_connection_error`. -/
def connectionError (context : HTTP2Context) (errorCode : Http2ErrorCode) (message : String) :
    Processed :=
  ⟨context, .error true message,
    [.goaway ⟨context.state.lastStreamId, errorCode, ascii message⟩]⟩

/-- The end of the handlers that can finish a request: the stream has everything it needs. -/
def finishRequest (context : HTTP2Context) (identifier : ℕ) (stream : Http2Stream) : Processed :=
  ⟨context.setStream identifier { stream with state := .halfClosed },
    .newFinishedRequest identifier, []⟩

/-! ## The handlers of `process_http2_frame_for_stream` -/

def processDataFrame (context : HTTP2Context) (frame : Http2DataFrame) : Processed :=
  let identifier := frame.identifier
  let streamState := getHttp2StreamState context identifier
  if streamState ≠ .open ∧ streamState ≠ .halfClosed then
    streamError context identifier .streamClosed "Data frame send on a stream in an invalid state"
  else
    match context.streams identifier with
    | none => connectionError context .internalError "Implementation error, stream not found"
    | some stream =>
      if stream.endStream then
        streamError context identifier .protocolError
          "Stream already finished but still received a data frame"
      else if ¬ stream.headers.finished then
        streamError context identifier .protocolError
          "Stream headers not finished, but already received a data frame"
      else
        match http2StreamAddContentBlock stream frame.content frame.isEnd with
        | none => ⟨context, .error true "stream content block add error", []⟩
        | some stream =>
          if stream.endStream then finishRequest context identifier stream
          else ⟨context.setStream identifier stream, .ok, []⟩

/-- The part of the handler of HEADERS after the stream is found or made: the block is
added, and the request may be finished. -/
def addHeadersAndFinish (context : HTTP2Context) (identifier : ℕ) (stream : Http2Stream)
    (blockFragment : Bytes) (endHeaders : Bool) : Processed :=
  match http2StreamAddHeaderBlock stream blockFragment endHeaders with
  | none => ⟨context.setStream identifier stream, .error true "stream header block add error", []⟩
  | some stream =>
    if stream.endStream ∧ stream.headers.finished then finishRequest context identifier stream
    else ⟨context.setStream identifier stream, .ok, []⟩

def processHeadersFrame (context : HTTP2Context) (frame : Http2HeadersFrame) : Processed :=
  let identifier := frame.identifier
  let streamState := getHttp2StreamState context identifier
  if streamState = .closed then
    streamError context identifier .protocolError
      "Headers frame send on a stream in an invalid state"
  else if streamState ≠ .idle then
    streamError context identifier .protocolError
      "Headers frame send on a stream in an invalid state (trailers not supported yet)"
  else
    match context.streams identifier with
    | none =>
      let newStream : Http2Stream :=
        { state := .open, headers := emptyStreamHeaders, content := emptyStreamContent
          endStream := frame.endStream, priority := frame.priorityOpt.getD defaultStreamPriority }
      match addNewHttp2Stream context identifier newStream with
      | none => ⟨context, .error true "stream insert error", []⟩
      | some context =>
        match context.streams identifier with
        | none =>
          connectionError context .internalError
            "Implementation error, stream not found (after insert)"
        | some stream =>
          addHeadersAndFinish context identifier stream frame.blockFragment frame.endHeaders
    | some stream =>
      -- an idle stream that a PRIORITY frame has created: its state is not changed here
      let stream := { stream with
        endStream := stream.endStream || frame.endStream
        priority := frame.priorityOpt.getD stream.priority }
      if stream.headers.finished then
        streamError (context.setStream identifier stream) identifier .protocolError
          "Headers already finished but still received a headers frame"
      else addHeadersAndFinish context identifier stream frame.blockFragment frame.endHeaders

def processPriorityFrame (context : HTTP2Context) (frame : Http2PriorityFrame) : Processed :=
  match context.streams frame.identifier with
  | none =>
    let newStream : Http2Stream :=
      { state := .idle, headers := emptyStreamHeaders, content := emptyStreamContent
        endStream := false, priority := frame.priority }
    match addNewHttp2Stream context frame.identifier newStream with
    | none => ⟨context, .error true "stream insert error", []⟩
    | some context => ⟨context, .ok, []⟩
  | some stream =>
    ⟨context.setStream frame.identifier { stream with priority := frame.priority }, .ok, []⟩

def processRstStreamFrame (context : HTTP2Context) (frame : Http2RstStreamFrame) : Processed :=
  let identifier := frame.identifier
  if getHttp2StreamState context identifier = .idle then
    streamError context identifier .protocolError
      "Rst Stream frame send on a stream in an invalid state"
  else
    match context.streams identifier with
    | none => connectionError context .internalError "Implementation error, stream not found"
    | some stream =>
      -- only a stream that is half closed is closed
      if stream.state = .halfClosed then
        ⟨context.setStream identifier (http2CloseStream stream), .ok, []⟩
      else ⟨context.setStream identifier { stream with state := .halfClosed }, .ok, []⟩

def processPushPromiseFrame (context : HTTP2Context) (frame : Http2PushPromiseFrame) : Processed :=
  let identifier := frame.identifier
  let streamState := getHttp2StreamState context identifier
  if streamState ≠ .open ∧ streamState ≠ .halfClosed then
    streamError context identifier .protocolError
      "Push promise frame send on a stream in an invalid state"
  else
    let newStream : Http2Stream :=
      { state := .reserved, headers := emptyStreamHeaders, content := emptyStreamContent
        endStream := false, priority := defaultStreamPriorityExt identifier }
    match
      (if frame.blockFragment.length > 0 then
        http2StreamAddHeaderBlock newStream frame.blockFragment frame.endHeaders
      else some newStream) with
    | none => ⟨context, .error true "stream header block add error", []⟩
    | some newStream =>
      match addNewHttp2Stream context frame.promisedStreamIdentifier newStream with
      | none => ⟨context, .error true "stream insert error", []⟩
      | some context => ⟨context, .ok, []⟩

def processContinuationFrame (context : HTTP2Context) (frame : Http2ContinuationFrame) :
    Processed :=
  let identifier := frame.identifier
  let streamState := getHttp2StreamState context identifier
  if streamState ≠ .open ∧ streamState ≠ .reserved then
    streamError context identifier .protocolError
      "Continuation frame send on a stream in an invalid state"
  else
    match context.streams identifier with
    | none => connectionError context .internalError "Implementation error, stream not found"
    | some stream =>
      if stream.headers.finished then
        streamError context identifier .protocolError
          "Headers already finished but still received a continuation frame"
      else if frame.blockFragment.length = 0 then
        streamError context identifier .protocolError "Continuation frame with empty headers block"
      else addHeadersAndFinish context identifier stream frame.blockFragment frame.endHeaders

/-- `process_http2_frame_for_stream`. -/
def processHttp2FrameForStream (context : HTTP2Context) : Http2Frame → Processed
  | .data frame => processDataFrame context frame
  | .headers frame => processHeadersFrame context frame
  | .priority frame => processPriorityFrame context frame
  | .rstStream frame => processRstStreamFrame context frame
  | .pushPromise frame => processPushPromiseFrame context frame
  | .windowUpdate _ => ⟨context, .ok, []⟩
  | .continuation frame => processContinuationFrame context frame
  | .settings _ | .ping _ | .goaway _ =>
    ⟨context, .error true "invalid frame type to process for a stream", []⟩

/-! ## The connection frames -/

/-- One round of the loop of `http2_apply_settings_frame`. -/
def applySetting (context : HTTP2Context) (entry : Http2SettingSingleValue) : HTTP2Context :=
  match entry.identifier with
  -- the value of the peer goes to the decompress table
  | .headerTableSize =>
    { context with settings := { context.settings with headerTableSize := entry.value } }
      |>.setDecompressState
        (setHpackDecompressStateSetting context.state.hpackState.decompressState entry.value)
  | .enablePush =>
    { context with settings := { context.settings with enablePush := entry.value != 0 } }
  | .maxConcurrentStreams =>
    { context with settings := { context.settings with maxConcurrentStreams := entry.value } }
  | .initialWindowSize =>
    { context with settings := { context.settings with initialWindowSize := entry.value } }
  | .maxFrameSize =>
    { context with settings := { context.settings with maxFrameSize := entry.value } }
  | .maxHeaderListSize =>
    { context with settings := { context.settings with maxHeaderListSize := entry.value } }

def http2ApplySettingsFrame (context : HTTP2Context) (frame : Http2SettingsFrame) : HTTP2Context :=
  frame.entries.foldl applySetting context

/-- `process_http2_frame_for_connection`. -/
def processHttp2FrameForConnection (context : HTTP2Context) : Http2Frame → Processed
  | .settings frame =>
    if ¬ frame.ack then ⟨http2ApplySettingsFrame context frame, .ok, [.settings ⟨true, []⟩]⟩
    else ⟨context, .ok, []⟩
  | .ping frame =>
    if ¬ frame.ack then ⟨context, .ok, [.ping ⟨true, frame.opaqueData⟩]⟩ else ⟨context, .ok, []⟩
  | .goaway frame =>
    ⟨{ context with state := { context.state with state := .closed frame.errorCode } },
      .closeConnection, []⟩
  | .windowUpdate _ => ⟨context, .ok, []⟩
  | .data _ | .headers _ | .priority _ | .rstStream _ | .pushPromise _ | .continuation _ =>
    ⟨context, .error true "invalid frame type to process for a connection", []⟩

/-- `get_http2_frame_category`: the stream a frame belongs to, if any. -/
def getHttp2FrameCategory : Http2Frame → Option ℕ
  | .data frame => some frame.identifier
  | .headers frame => some frame.identifier
  | .priority frame => some frame.identifier
  | .rstStream frame => some frame.identifier
  | .settings _ => none
  | .pushPromise frame => some frame.identifier
  | .ping _ => none
  | .goaway _ => none
  | .windowUpdate frame => if frame.identifier = 0 then none else some frame.identifier
  | .continuation frame => some frame.identifier

def updateLastStreamId (context : HTTP2Context) (identifier : ℕ) : HTTP2Context :=
  if context.state.lastStreamId < identifier then
    { context with state := { context.state with lastStreamId := identifier } }
  else context

/-- `process_http2_frame`. The identifier of a connection frame is zero. -/
def processHttp2Frame (context : HTTP2Context) (frame : Http2Frame) : Processed :=
  match getHttp2FrameCategory frame with
  | some identifier => processHttp2FrameForStream (updateLastStreamId context identifier) frame
  | none => processHttp2FrameForConnection (updateLastStreamId context 0) frame

/-! ## What a handler can change -/

@[simp] theorem updateLastStreamId_streams (context : HTTP2Context) (id : ℕ) :
    (updateLastStreamId context id).streams = context.streams := by
  unfold updateLastStreamId; split <;> rfl

@[simp] theorem updateLastStreamId_hpackState (context : HTTP2Context) (id : ℕ) :
    (updateLastStreamId context id).state.hpackState = context.state.hpackState := by
  unfold updateLastStreamId; split <;> rfl

theorem getHttp2StreamState_some {context : HTTP2Context} {id : ℕ} {s : Http2Stream}
    (h : context.streams id = some s) : getHttp2StreamState context id = s.state := by
  simp [getHttp2StreamState, h]

@[simp] theorem http2CloseStreamByIdentifier_streams (context : HTTP2Context) (id i : ℕ) :
    (http2CloseStreamByIdentifier context id).streams i =
      if i = id then (context.streams id).map http2CloseStream else context.streams i := by
  unfold http2CloseStreamByIdentifier
  split
  · rename_i h
    split
    · rename_i hi; subst hi; simp [h]
    · rfl
  · rename_i s h
    simp [h]

@[simp] theorem http2CloseStreamByIdentifier_state (context : HTTP2Context) (id : ℕ) :
    (http2CloseStreamByIdentifier context id).state = context.state := by
  unfold http2CloseStreamByIdentifier; split <;> rfl

theorem addNewHttp2Stream_eq_some {context context' : HTTP2Context} {id : ℕ} {s : Http2Stream}
    (h : addNewHttp2Stream context id s = some context') :
    context.streams id = none ∧ context' = context.setStream id s := by
  unfold addNewHttp2Stream at h
  split at h
  · rename_i hn
    exact ⟨hn, (Option.some.inj h).symm⟩
  · cases h

/-- A handler on stream `id`: it leaves the other streams alone and the HPACK states too,
it finishes no other request, and a stream it resets is closed afterwards. -/
structure Local (id : ℕ) (context : HTTP2Context) (p : Processed) : Prop where
  streams : ∀ i, i ≠ id → p.context.streams i = context.streams i
  hpack : p.context.state.hpackState = context.state.hpackState
  finished : ∀ i, p.result = .newFinishedRequest i → i = id
  reset : ∀ code i, .rstStream ⟨code, i⟩ ∈ p.sent → (context.streams i).isSome →
    getHttp2StreamState p.context i = .closed

theorem local_streamError (context : HTTP2Context) (id : ℕ) (code : Http2ErrorCode) (m : String) :
    Local id context (streamError context id code m) := by
  refine ⟨?_, ?_, ?_, ?_⟩
  · intro i hi; simp [streamError, hi]
  · simp [streamError]
  · intro i h; cases h
  · intro code' i hm hs
    simp only [streamError, List.mem_singleton, SentFrame.rstStream.injEq,
      Http2RstStreamFrame.mk.injEq] at hm
    obtain ⟨-, rfl⟩ := hm
    obtain ⟨s, hs⟩ := Option.isSome_iff_exists.1 hs
    simp [streamError, getHttp2StreamState, hs, http2CloseStream]

theorem local_connectionError (context : HTTP2Context) (id : ℕ) (code : Http2ErrorCode)
    (m : String) : Local id context (connectionError context code m) :=
  ⟨fun _ _ => rfl, rfl, nofun, fun _ _ hm => by simp [connectionError] at hm⟩

theorem local_unchanged {id : ℕ} {context : HTTP2Context} {r : Http2ProcessFrameResult}
    (hr : ∀ i, r ≠ .newFinishedRequest i) : Local id context ⟨context, r, []⟩ :=
  ⟨fun _ _ => rfl, rfl, fun i h => absurd h (hr i), nofun⟩

theorem local_setStream {id : ℕ} {context : HTTP2Context} {s : Http2Stream}
    {r : Http2ProcessFrameResult} (hr : ∀ i, r = .newFinishedRequest i → i = id) :
    Local id context ⟨context.setStream id s, r, []⟩ :=
  ⟨fun i hi => by simp [hi], rfl, hr, nofun⟩

/-- A handler that first writes the slot of its own stream. -/
theorem Local.of_setStream {id : ℕ} {context : HTTP2Context} {s : Http2Stream} {p : Processed}
    (h : Local id (context.setStream id s) p) : Local id context p := by
  refine ⟨?_, h.hpack, h.finished, ?_⟩
  · intro i hi; rw [h.streams i hi]; simp [hi]
  · intro code i hm hs
    refine h.reset code i hm ?_
    by_cases hi : i = id
    · simp [hi]
    · simpa [hi] using hs

theorem local_finishRequest (context : HTTP2Context) (id : ℕ) (s : Http2Stream) :
    Local id context (finishRequest context id s) :=
  local_setStream fun i h => by cases h; rfl

theorem local_addHeadersAndFinish (context : HTTP2Context) (id : ℕ) (s : Http2Stream) (b : Bytes)
    (fin : Bool) : Local id context (addHeadersAndFinish context id s b fin) := by
  unfold addHeadersAndFinish
  split
  · exact local_setStream nofun
  · split
    · exact local_finishRequest ..
    · exact local_setStream nofun

theorem local_processDataFrame (context : HTTP2Context) (f : Http2DataFrame) :
    Local f.identifier context (processDataFrame context f) := by
  unfold processDataFrame
  dsimp only
  split
  · exact local_streamError ..
  split
  · exact local_connectionError ..
  split
  · exact local_streamError ..
  split
  · exact local_streamError ..
  split
  · exact local_unchanged nofun
  split
  · exact local_finishRequest ..
  · exact local_setStream nofun

theorem local_processHeadersFrame (context : HTTP2Context) (f : Http2HeadersFrame) :
    Local f.identifier context (processHeadersFrame context f) := by
  unfold processHeadersFrame
  dsimp only
  split
  · exact local_streamError ..
  split
  · exact local_streamError ..
  split
  · split
    · exact local_unchanged nofun
    rename_i context' hadd
    obtain ⟨-, rfl⟩ := addNewHttp2Stream_eq_some hadd
    split
    · exact (local_connectionError ..).of_setStream
    · exact (local_addHeadersAndFinish ..).of_setStream
  · split
    · exact (local_streamError ..).of_setStream
    · exact local_addHeadersAndFinish ..

theorem local_processPriorityFrame (context : HTTP2Context) (f : Http2PriorityFrame) :
    Local f.identifier context (processPriorityFrame context f) := by
  unfold processPriorityFrame
  split
  · dsimp only
    split
    · exact local_unchanged nofun
    rename_i context' hadd
    obtain ⟨-, rfl⟩ := addNewHttp2Stream_eq_some hadd
    exact local_setStream nofun
  · exact local_setStream nofun

theorem local_processRstStreamFrame (context : HTTP2Context) (f : Http2RstStreamFrame) :
    Local f.identifier context (processRstStreamFrame context f) := by
  unfold processRstStreamFrame
  dsimp only
  split
  · exact local_streamError ..
  split
  · exact local_connectionError ..
  split <;> exact local_setStream nofun

theorem local_processContinuationFrame (context : HTTP2Context) (f : Http2ContinuationFrame) :
    Local f.identifier context (processContinuationFrame context f) := by
  unfold processContinuationFrame
  dsimp only
  split
  · exact local_streamError ..
  split
  · exact local_connectionError ..
  split
  · exact local_streamError ..
  split
  · exact local_streamError ..
  · exact local_addHeadersAndFinish ..

/-- What a PUSH_PROMISE can do: fail, or fill an empty slot with a reserved stream. -/
theorem processPushPromiseFrame_cases (context : HTTP2Context) (f : Http2PushPromiseFrame) :
    Local f.identifier context (processPushPromiseFrame context f) ∧
        (∀ i, (processPushPromiseFrame context f).result ≠ .newFinishedRequest i) ∨
      ∃ s : Http2Stream, s.state = .reserved ∧ s.endStream = false ∧
        context.streams f.promisedStreamIdentifier = none ∧
        processPushPromiseFrame context f =
          ⟨context.setStream f.promisedStreamIdentifier s, .ok, []⟩ := by
  unfold processPushPromiseFrame
  dsimp only
  split
  · exact .inl ⟨local_streamError .., nofun⟩
  split
  · exact .inl ⟨local_unchanged nofun, nofun⟩
  rename_i s hs
  split
  · exact .inl ⟨local_unchanged nofun, nofun⟩
  rename_i context' hadd
  obtain ⟨hnone, rfl⟩ := addNewHttp2Stream_eq_some hadd
  -- with or without a header block the new stream is reserved
  have hs' : s.state = .reserved ∧ s.endStream = false := by
    split at hs
    · simp only [http2StreamAddHeaderBlock, emptyStreamHeaders] at hs
      cases hs
      exact ⟨rfl, rfl⟩
    · cases hs
      exact ⟨rfl, rfl⟩
  exact .inr ⟨s, hs'.1, hs'.2, hnone, rfl⟩

@[simp] theorem applySetting_streams (context : HTTP2Context) (e : Http2SettingSingleValue) :
    (applySetting context e).streams = context.streams := by
  unfold applySetting; split <;> rfl

@[simp] theorem http2ApplySettingsFrame_streams (context : HTTP2Context) (f : Http2SettingsFrame) :
    (http2ApplySettingsFrame context f).streams = context.streams := by
  unfold http2ApplySettingsFrame
  induction f.entries generalizing context with
  | nil => rfl
  | cons e es ih => rw [List.foldl_cons, ih, applySetting_streams]

@[simp] theorem processHttp2FrameForConnection_streams (context : HTTP2Context) (f : Http2Frame) :
    (processHttp2FrameForConnection context f).context.streams = context.streams := by
  unfold processHttp2FrameForConnection
  split <;> first | rfl | (split <;> simp)

theorem processHttp2FrameForConnection_result (context : HTTP2Context) (f : Http2Frame) (i : ℕ) :
    (processHttp2FrameForConnection context f).result ≠ .newFinishedRequest i := by
  unfold processHttp2FrameForConnection
  split <;> first | (intro h; cases h) | (split <;> (intro h; cases h))

/-- **Frame lemma.** A frame that does not belong to stream `i` leaves a stream `i` that is
there as it is and finishes no request of it. -/
theorem processHttp2Frame_other {context : HTTP2Context} {f : Http2Frame} {i : ℕ} {s : Http2Stream}
    (hf : getHttp2FrameCategory f ≠ some i) (hs : context.streams i = some s) :
    (processHttp2Frame context f).context.streams i = some s ∧
      (processHttp2Frame context f).result ≠ .newFinishedRequest i := by
  -- the handlers of stream frames, and then those of connection frames
  have of_local : ∀ {id : ℕ} {p : Processed}, i ≠ id → Local id (updateLastStreamId context id) p →
      p.context.streams i = some s ∧ p.result ≠ .newFinishedRequest i := by
    intro id p hi hp
    refine ⟨?_, fun h => hi (hp.finished i h)⟩
    rw [hp.streams i hi, updateLastStreamId_streams, hs]
  have conn : ∀ g, (processHttp2FrameForConnection (updateLastStreamId context 0) g).context.streams
        i = some s ∧
      (processHttp2FrameForConnection (updateLastStreamId context 0) g).result ≠
        .newFinishedRequest i := by
    intro g
    refine ⟨?_, processHttp2FrameForConnection_result _ _ _⟩
    rw [processHttp2FrameForConnection_streams, updateLastStreamId_streams, hs]
  unfold processHttp2Frame
  cases f with
  | data f => exact of_local (fun h => hf (by rw [h]; rfl)) (local_processDataFrame _ f)
  | headers f => exact of_local (fun h => hf (by rw [h]; rfl)) (local_processHeadersFrame _ f)
  | priority f => exact of_local (fun h => hf (by rw [h]; rfl)) (local_processPriorityFrame _ f)
  | rstStream f => exact of_local (fun h => hf (by rw [h]; rfl)) (local_processRstStreamFrame _ f)
  | continuation f =>
    exact of_local (fun h => hf (by rw [h]; rfl)) (local_processContinuationFrame _ f)
  | pushPromise f =>
    have hi : i ≠ f.identifier := fun h => hf (by rw [h]; rfl)
    rcases processPushPromiseFrame_cases (updateLastStreamId context f.identifier) f with
      ⟨hl, -⟩ | ⟨s', -, -, hnone, heq⟩
    · exact of_local hi hl
    · -- the promised slot is empty, so it is not the slot of `i`
      have hne : i ≠ f.promisedStreamIdentifier := by
        intro h; rw [← h, updateLastStreamId_streams, hs] at hnone; cases hnone
      simp only [getHttp2FrameCategory, processHttp2FrameForStream, heq]
      refine ⟨?_, nofun⟩
      simp [hne, hs]
  | windowUpdate f =>
    simp only [getHttp2FrameCategory]
    split
    · rename_i hw
      refine ⟨?_, nofun⟩
      simp [processHttp2FrameForStream, hs]
    · exact conn _
  | settings f => exact conn _
  | ping f => exact conn _
  | goaway f => exact conn _

theorem processHttp2FrameForConnection_sent (context : HTTP2Context) (f : Http2Frame)
    (frame : Http2RstStreamFrame) :
    .rstStream frame ∉ (processHttp2FrameForConnection context f).sent := by
  unfold processHttp2FrameForConnection
  split <;> first | (intro h; cases h) | (split <;> simp)

/-- **A reset stream is closed.** When the server sends RST_STREAM for a stream that is
there, the stream is closed after that step. -/
theorem processHttp2Frame_reset {context : HTTP2Context} {f : Http2Frame} {code : Http2ErrorCode}
    {i : ℕ} (hm : .rstStream ⟨code, i⟩ ∈ (processHttp2Frame context f).sent)
    (hs : (context.streams i).isSome) :
    getHttp2StreamState (processHttp2Frame context f).context i = .closed := by
  have of_local : ∀ {id : ℕ} {p : Processed}, Local id (updateLastStreamId context id) p →
      .rstStream ⟨code, i⟩ ∈ p.sent → getHttp2StreamState p.context i = .closed := by
    intro id p hp hm
    exact hp.reset code i hm (by simpa using hs)
  unfold processHttp2Frame at hm ⊢
  cases f with
  | data f => exact of_local (local_processDataFrame _ f) hm
  | headers f => exact of_local (local_processHeadersFrame _ f) hm
  | priority f => exact of_local (local_processPriorityFrame _ f) hm
  | rstStream f => exact of_local (local_processRstStreamFrame _ f) hm
  | continuation f => exact of_local (local_processContinuationFrame _ f) hm
  | pushPromise f =>
    rcases processPushPromiseFrame_cases (updateLastStreamId context f.identifier) f with
      ⟨hl, -⟩ | ⟨s', -, -, -, heq⟩
    · exact of_local hl hm
    · simp only [getHttp2FrameCategory, processHttp2FrameForStream, heq] at hm
      cases hm
  | windowUpdate f =>
    simp only [getHttp2FrameCategory] at hm
    split at hm
    · cases hm
    · exact absurd hm (processHttp2FrameForConnection_sent _ _ _)
  | settings f => exact absurd hm (processHttp2FrameForConnection_sent _ _ _)
  | ping f => exact absurd hm (processHttp2FrameForConnection_sent _ _ _)
  | goaway f => exact absurd hm (processHttp2FrameForConnection_sent _ _ _)

/-- Only a SETTINGS frame changes the HPACK states. -/
theorem processHttp2Frame_hpackState (context : HTTP2Context) {f : Http2Frame}
    (hf : ∀ s, f ≠ .settings s) :
    (processHttp2Frame context f).context.state.hpackState = context.state.hpackState := by
  have of_local : ∀ {id : ℕ} {p : Processed}, Local id (updateLastStreamId context id) p →
      p.context.state.hpackState = context.state.hpackState := by
    intro id p hp
    rw [hp.hpack, updateLastStreamId_hpackState]
  unfold processHttp2Frame
  cases f with
  | data f => exact of_local (local_processDataFrame _ f)
  | headers f => exact of_local (local_processHeadersFrame _ f)
  | priority f => exact of_local (local_processPriorityFrame _ f)
  | rstStream f => exact of_local (local_processRstStreamFrame _ f)
  | continuation f => exact of_local (local_processContinuationFrame _ f)
  | pushPromise f =>
    rcases processPushPromiseFrame_cases (updateLastStreamId context f.identifier) f with
      ⟨hl, -⟩ | ⟨s', -, -, -, heq⟩
    · exact of_local hl
    · simp only [getHttp2FrameCategory, processHttp2FrameForStream, heq]
      simp
  | windowUpdate f =>
    simp only [getHttp2FrameCategory]
    split
    · simp [processHttp2FrameForStream]
    · simp [processHttp2FrameForConnection]
  | settings f => exact absurd rfl (hf f)
  | ping f =>
    simp only [getHttp2FrameCategory, processHttp2FrameForConnection]
    split <;> simp
  | goaway f => simp [getHttp2FrameCategory, processHttp2FrameForConnection]

@[simp] theorem updateLastStreamId_zero (context : HTTP2Context) :
    updateLastStreamId context 0 = context := by simp [updateLastStreamId]

/-- A SETTINGS frame is applied unless it is an acknowledgement. -/
theorem processHttp2Frame_settings (context : HTTP2Context) (s : Http2SettingsFrame) :
    (processHttp2Frame context (.settings s)).context =
        (if s.ack then context else http2ApplySettingsFrame context s) ∧
      (processHttp2Frame context (.settings s)).result = .ok := by
  simp only [processHttp2Frame, getHttp2FrameCategory, processHttp2FrameForConnection,
    updateLastStreamId_zero]
  cases s.ack <;> simp

/-- The context after a frame. -/
def frameStep (context : HTTP2Context) (f : Http2Frame) : HTTP2Context :=
  (processHttp2Frame context f).context

end SimpleServer.Http2
