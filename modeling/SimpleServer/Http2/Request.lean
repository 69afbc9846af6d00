import SimpleServer.Http2.Process

/-!
# Requests on a connection (`parse_http2_request` and the connection start in `v2.c`)

The header blocks of a stream are decoded when its request is finished, into the pseudo
header fields and the other fields of a request. `requestStep` is one round of the loop of
`parse_http2_request`, after the frame is read. The parsers of `uri.c` for the authority and
the path are a parameter (`UriParser`).

* `requestStep_streams`, `requestStep_hpackState`: a round changes the context as the frame
  does, and decodes the header blocks of a request that is finished.
-/

namespace SimpleServer.Http2

open Hpack

inductive HTTPRequestMethod where
  | get
  | post
  | head
  | options
  | connect
  | pri
deriving Repr, DecidableEq

def getHttpMethodFromString (method : Bytes) : Option HTTPRequestMethod :=
  if method = ascii "GET" then some .get
  else if method = ascii "POST" then some .post
  else if method = ascii "HEAD" then some .head
  else if method = ascii "OPTIONS" then some .options
  else if method = ascii "CONNECT" then some .connect
  else if method = ascii "PRI" then some .pri
  else none

/-- `parse_authority`, with what is left after the authority, and `parse_url_path`, which ends
the program (`UNREACHABLE`) where it is `none`. -/
structure UriParser (Authority UrlPath : Type) where
  parseAuthority : Bytes → Option (Authority × Bytes)
  parseUrlPath : Bytes → Option UrlPath

/-- The parser that keeps both strings as they are, as `uri.c` does for a host without user
or port and for a path without query or fragment. -/
def UriParser.plain : UriParser Bytes Bytes := ⟨fun str => some (str, []), some⟩

variable {Authority UrlPath : Type}

/-- The part of `HttpRequestHead` that the fields of a request fill. A pseudo header that
was not found is `none`. -/
structure HttpRequestHead (Authority UrlPath : Type) where
  streamIdentifier : ℕ
  method : Option HTTPRequestMethod
  scheme : Option Bytes
  authority : Option Authority
  path : Option UrlPath
  headerFields : List HttpHeaderField
deriving Repr, DecidableEq

/-- The head a parse starts with. -/
def HttpRequestHead.empty (streamIdentifier : ℕ) : HttpRequestHead Authority UrlPath :=
  ⟨streamIdentifier, none, none, none, none, []⟩

/-- One pseudo header field. A duplicate is noticed after the value is parsed. Where the program
ends nothing follows, as where the behaviour is undefined. -/
def parsePseudoHeader (uri : UriParser Authority UrlPath)
    (result : HttpRequestHead Authority UrlPath) (entry : HttpHeaderField) :
    Except Fault (HttpRequestHead Authority UrlPath) :=
  let once (found : Bool) (result : HttpRequestHead Authority UrlPath) :=
    if found then Except.error (Fault.error "duplicate pseudo header field found") else .ok result
  if entry.key = ascii ":method" then
    match getHttpMethodFromString entry.value with
    | none => .error (.error "invalid http method")
    | some method => once result.method.isSome { result with method := some method }
  else if entry.key = ascii ":scheme" then
    once result.scheme.isSome { result with scheme := some entry.value }
  else if entry.key = ascii ":authority" then
    match uri.parseAuthority entry.value with
    | none => .error (.error "Authority parse error: not a valid authority")
    | some (authority, after) =>
      if after.length ≠ 0 then
        .error (.error "Authority parse error: we got more data after the authority")
      else once result.authority.isSome { result with authority := some authority }
  else if entry.key = ascii ":path" then
    match uri.parseUrlPath entry.value with
    | none => .error .undefined
    | some path => once result.path.isSome { result with path := some path }
  else if entry.key = ascii ":status" then
    .error (.error "pseudo header status not allowed in request")
  else .error (.error "pseudo header field not recognized")

/-- The loop of `parse_http2_headers` over the decoded fields. -/
def parseHeaderFields (uri : UriParser Authority UrlPath) :
    List HttpHeaderField → Bool → HttpRequestHead Authority UrlPath →
      Except Fault (HttpRequestHead Authority UrlPath)
  | [], _, result => .ok result
  | entry :: fields, pseudoHeadersFinished, result =>
    if entry.key.head? = some 0x3A then
      if pseudoHeadersFinished then
        .error (.error "pseudo header field after normal header fields")
      else
        match parsePseudoHeader uri result entry with
        | .error e => .error e
        | .ok result => parseHeaderFields uri fields false result
    else
      parseHeaderFields uri fields true
        { result with headerFields := result.headerFields ++ [entry] }

/-- The request head a decoded header list stands for. -/
def headOfFields (uri : UriParser Authority UrlPath) (fields : List HttpHeaderField)
    (streamIdentifier : ℕ) : Except Fault (HttpRequestHead Authority UrlPath) :=
  match parseHeaderFields uri fields false (.empty streamIdentifier) with
  | .error e => .error e
  | .ok result =>
    -- the authority may be missing
    if result.method.isSome ∧ result.scheme.isSome ∧ result.path.isSome then .ok result
    else .error (.error "not all needed pseudo header fields were found")

/-- `http2_concat_data_blocks`. -/
def http2ConcatDataBlocks (dataBlocks : List Bytes) : Bytes := dataBlocks.flatten

def parseHttp2Headers (uri : UriParser Authority UrlPath)
    (hpackDecompressState : HpackDecompressState)
    (headers : Http2StreamHeaders) (streamIdentifier : ℕ) :
    HpackDecompressState × Except Fault (HttpRequestHead Authority UrlPath) :=
  match http2HpackDecompressData hpackDecompressState
      (http2ConcatDataBlocks headers.headerBlocks) with
  | (state, .error e) => (state, .error e)
  | (state, .ok fields) => (state, headOfFields uri fields streamIdentifier)

structure HttpRequest (Authority UrlPath : Type) where
  head : HttpRequestHead Authority UrlPath
  body : Bytes
deriving Repr, DecidableEq

inductive HttpRequestResult (Authority UrlPath : Type) where
  | ok (request : HttpRequest Authority UrlPath)
  | error (fault : Fault)
  | closeConnection
deriving Repr, DecidableEq

/-- `get_http2_request_from_finished_stream`. -/
def getHttp2RequestFromFinishedStream (uri : UriParser Authority UrlPath) (context : HTTP2Context)
    (stream : Http2Stream) (streamIdentifier : ℕ) :
    HTTP2Context × HttpRequestResult Authority UrlPath :=
  match parseHttp2Headers uri context.state.hpackState.decompressState stream.headers
      streamIdentifier with
  | (state, .error .undefined) => (context.setDecompressState state, .error .undefined)
  | (state, .error (.error _)) =>
    (context.setDecompressState state, .error (.error "parse error in parsing http2 headers"))
  | (state, .ok head) =>
    (context.setDecompressState state,
      .ok ⟨head, http2ConcatDataBlocks stream.content.dataBlocks⟩)

/-- One round of the loop of `parse_http2_request`: the new context, and the result when the
call returns. A stream error does not end the call. -/
def requestStep (uri : UriParser Authority UrlPath) (context : HTTP2Context) (frame : Http2Frame) :
    HTTP2Context × Option (HttpRequestResult Authority UrlPath) :=
  let p := processHttp2Frame context frame
  match p.result with
  | .error isConnectionError message =>
    if ¬ isConnectionError then (p.context, none) else (p.context, some (.error (.error message)))
  | .newFinishedRequest identifier =>
    match p.context.streams identifier with
    | none => (p.context, some (.error (.error "Implementation error, stream not found")))
    | some stream =>
      let r := getHttp2RequestFromFinishedStream uri p.context stream identifier
      (r.1, some r.2)
  | .ok => (p.context, none)
  | .closeConnection => (p.context, some .closeConnection)

/-- `parse_http2_request` on the frames the reader delivers: the context, the result, and the
frames it has not read. It has no result as long as no frame ends the call. -/
def parseHttp2Request (uri : UriParser Authority UrlPath) :
    HTTP2Context → List Http2Frame →
      HTTP2Context × Option (HttpRequestResult Authority UrlPath) × List Http2Frame
  | context, [] => (context, none, [])
  | context, frame :: frames =>
    match requestStep uri context frame with
    | (context, none) => parseHttp2Request uri context frames
    | (context, some result) => (context, some result, frames)

/-! ## What a round does to the context -/

variable (uri : UriParser Authority UrlPath)

theorem getHttp2RequestFromFinishedStream_hpackState (context : HTTP2Context) (s : Http2Stream)
    (id : ℕ) :
    (getHttp2RequestFromFinishedStream uri context s id).1.state.hpackState =
      ⟨context.state.hpackState.compressState,
        (http2HpackDecompressData context.state.hpackState.decompressState
          (http2ConcatDataBlocks s.headers.headerBlocks)).1⟩ := by
  have hstate : (parseHttp2Headers uri context.state.hpackState.decompressState s.headers id).1 =
      (http2HpackDecompressData context.state.hpackState.decompressState
        (http2ConcatDataBlocks s.headers.headerBlocks)).1 := by
    unfold parseHttp2Headers
    split
    · rename_i h; rw [h]
    · rename_i h
      rw [h]
  unfold getHttp2RequestFromFinishedStream
  rw [← hstate]
  split <;> rename_i h <;> rw [h] <;> rfl

/-- A round of `parse_http2_request` changes the HPACK states as the frame does and then, if
the request is finished, decodes its header blocks. -/
theorem requestStep_hpackState (context : HTTP2Context) (f : Http2Frame) :
    (requestStep uri context f).1.state.hpackState =
        (processHttp2Frame context f).context.state.hpackState ∨
      ∃ id s, (processHttp2Frame context f).result = .newFinishedRequest id ∧
        (processHttp2Frame context f).context.streams id = some s ∧
        (requestStep uri context f).1.state.hpackState =
          ⟨(processHttp2Frame context f).context.state.hpackState.compressState,
            (http2HpackDecompressData
              (processHttp2Frame context f).context.state.hpackState.decompressState
              (http2ConcatDataBlocks s.headers.headerBlocks)).1⟩ := by
  unfold requestStep
  dsimp only
  split
  · split <;> exact .inl rfl
  · rename_i id hid
    split
    · exact .inl rfl
    · rename_i s hs
      exact .inr ⟨id, s, hid, hs, getHttp2RequestFromFinishedStream_hpackState uri _ _ _⟩
  · exact .inl rfl
  · exact .inl rfl

theorem getHttp2RequestFromFinishedStream_streams (context : HTTP2Context) (s : Http2Stream)
    (id : ℕ) :
    (getHttp2RequestFromFinishedStream uri context s id).1.streams = context.streams := by
  unfold getHttp2RequestFromFinishedStream
  split <;> rfl

/-- Decoding does not touch the streams. -/
theorem requestStep_streams (context : HTTP2Context) (f : Http2Frame) :
    (requestStep uri context f).1.streams = (processHttp2Frame context f).context.streams := by
  unfold requestStep
  dsimp only
  split
  · split <;> rfl
  · split
    · rfl
    · exact getHttp2RequestFromFinishedStream_streams uri _ _ _
  · rfl
  · rfl

/-! ## The start of a connection -/

/-- `get_start_settings_frame`. -/
def getStartSettingsFrame (context : HTTP2Context) : HTTP2Context × Http2SettingsFrame :=
  (context.setCompressState
      (setHpackCompressStateSetting context.state.hpackState.compressState defaultHeaderTableSize),
    ⟨false, [⟨.headerTableSize, defaultHeaderTableSize⟩]⟩)

/-- The rest of `http2_send_and_receive_preface` and of `http2_receive_preface_with_magic`,
on the first frame of the client. -/
def receivePreface (context : HTTP2Context) (frame : Http2Frame) :
    HTTP2Context × Except String Unit :=
  match frame with
  | .settings _ =>
    let p := processHttp2Frame context frame
    match p.result with
    | .ok => (p.context, .ok ())
    | .error _ message => (p.context, .error message)
    | _ =>
      (p.context,
        .error "error: implementation error (settings frame can't result in a request)")
  | _ => (context, .error "first frame has to be a settings frame")

def http2SendAndReceivePreface (context : HTTP2Context) (frame : Http2Frame) :
    HTTP2Context × Except String Unit :=
  receivePreface (getStartSettingsFrame context).1 frame

/-- `http2_process_h2c_upgrade`, with the settings of the upgrade header and the client's
first frame after the magic. Stream 1 is the upgraded request. -/
def http2ProcessH2cUpgrade (context : HTTP2Context) (settings : Http2SettingsFrame)
    (frame : Http2Frame) : HTTP2Context × Except String Unit :=
  let context := http2ApplySettingsFrame (getStartSettingsFrame context).1 settings
  match receivePreface context frame with
  | (context, .error e) => (context, .error e)
  | (context, .ok ()) =>
    let newStream : Http2Stream :=
      { state := .halfClosed, headers := emptyStreamHeaders, content := emptyStreamContent
        endStream := true, priority := defaultStreamPriority }
    match addNewHttp2Stream context 1 newStream with
    | none => (context, .error "stream insert error")
    | some context => (context, .ok ())

end SimpleServer.Http2
