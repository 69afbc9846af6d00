import SimpleServer.Http.Send

/-!
# The connection handler (`http_socket_connection_handler` in `server.c`)

The loop of the handler as a state machine. A step is one call of `get_http_request`, or one
frame of `parse_http2_request` inside of it, and what the handler does with the result
(`httpConnectionStep`). The bytes that are written are kept in two lists, before and after
the general context has become HTTP/2.

What a request is answered with is a parameter (`Service`): all messages of
`process_http_request` go through `send_http_message_to_connection` with the settings of
the request. Where the behaviour of the code is undefined the machine stops.
-/

namespace SimpleServer.Http

open Utils Hpack Http2

variable {Uri Authority UrlPath : Type}

/-- A request, as it came. -/
inductive AnyRequest (Uri Authority UrlPath : Type) where
  | http1 (request : Http1Request Uri)
  | http2 (request : HttpRequest Authority UrlPath)

/-- The results of `process_http_request`. -/
inductive JobError where
  | none
  | cleanupConnection
  | connectionUpgrade
  | other
deriving Repr, DecidableEq

/-- What a connection is served with. -/
structure Service (Uri Authority UrlPath : Type) extends SendEnvironment where
  headParser : HeadParser Uri
  uriParser : UriParser Authority UrlPath
  /-- The messages a request is answered with, and the result. -/
  processHttpRequest :
    AnyRequest Uri Authority UrlPath → List HTTPResponseToSend × JobError
  /-- The compression of `get_send_settings`. -/
  compressionToUse : AnyRequest Uri Authority UrlPath → CompressionType
  /-- The time now, as a header value. -/
  date : Option Bytes
  /-- The memory behind the buffer of a reader. -/
  behind : BufferedReader → Bytes

/-! ## Errors -/

/-- The fields of a response that may hold a date. -/
def dateHeader (date : Option Bytes) : List HttpHeaderField :=
  match date with
  | none => []
  | some value => [⟨ascii "date", value⟩]

/-- The response to an error that is answered as a message. -/
def errorResponse (date : Option Bytes) (sendBody : Bool) :
    HttpRequestError → HTTPResponseToSend
  | .advanced message =>
    ⟨400, httpResponseBodyFromBytes (ascii "Bad Request: " ++ ascii message) sendBody,
      some (ascii "text/plain"), []⟩
  | .enumValue .invalidHttpVersion =>
    ⟨505, httpResponseBodyFromBytes (ascii "Only HTTP/1.1 is supported atm") sendBody,
      some (ascii "text/plain"), dateHeader date⟩
  | .enumValue .methodNotSupported =>
    ⟨405, httpResponseBodyFromBytes (ascii
        ("This primitive HTTP Server only supports GET, POST, HEAD, OPTIONS and CONNECT " ++
          "requests")) sendBody,
      some (ascii "text/plain"),
      ⟨ascii "allow", ascii "GET, POST, HEAD, OPTIONS, CONNECT"⟩ :: dateHeader date⟩
  | .enumValue .invalidNonEmptyBody =>
    ⟨400, httpResponseBodyFromBytes (ascii "A GET, HEAD or OPTIONS Request can't have a body")
        sendBody,
      some (ascii "text/plain"), []⟩
  | .enumValue .lengthRequired => ⟨411, httpResponseBodyEmpty, some (ascii "text/plain"), []⟩
  | .enumValue .protocolError =>
    ⟨400, httpResponseBodyFromBytes (ascii "Protocol Error") sendBody,
      some (ascii "text/plain"), []⟩
  | .enumValue .notSupported =>
    ⟨400, httpResponseBodyFromBytes (ascii "Not Supported") sendBody,
      some (ascii "text/plain"), []⟩
  -- the default of the switch; this one is answered with a GOAWAY before it
  | .enumValue .invalidHttp2Preface =>
    ⟨500, httpResponseBodyFromBytes (ascii "Internal Server Error 2") sendBody,
      some (ascii "text/plain"), []⟩

/-- `http2_send_connection_error`. -/
def http2SendConnectionError (context : HTTP2Context) (errorCode : Http2ErrorCode)
    (message : String) : List Bytes :=
  (http2SendGoawayFrame ⟨context.state.lastStreamId, errorCode, ascii message⟩).toList

/-- `process_http_error`. An invalid preface is answered with the context of HTTP/2, which is
`NULL` as long as there is none. -/
def processHttpError (env : SendEnvironment) (date : Option Bytes) (error : HttpRequestError)
    (generalContext : HTTPGeneralContext) (sendSettings : SendSettings) (sendBody : Bool) :
    Option Sending :=
  if error = .enumValue .invalidHttp2Preface then
    match generalContext with
    | .v1 => none
    | .v2 context =>
      some ⟨generalContext,
        http2SendConnectionError context .protocolError "invalid http2 preface"⟩
  else
    sendMessageToConnection env generalContext (errorResponse date sendBody error) sendSettings

/-! ## The frames that are sent -/

def SentFrame.bytes : SentFrame → Option Bytes
  | .rstStream frame => http2SendRstStreamFrame frame
  | .goaway frame => http2SendGoawayFrame frame
  | .settings frame => http2SendSettingsFrame frame
  | .ping frame => http2SendPingFrame frame

/-- What processing a frame writes. -/
def processedBytes (processed : Processed) : List Bytes := processed.sent.filterMap SentFrame.bytes

/-- What processing the first frame of the client writes, in `receivePreface`. -/
def prefaceBytes (context : HTTP2Context) (frame : Http2Frame) : List Bytes :=
  match frame with
  | .settings _ => processedBytes (processHttp2Frame context frame)
  | _ => []

/-- What a round of `parse_http2_request` writes after the frame is read. -/
def requestStepBytes (context : HTTP2Context) (frame : Http2Frame) : List Bytes :=
  let processed := processHttp2Frame context frame
  processedBytes processed ++
    match processed.result with
    | .newFinishedRequest identifier =>
      if (processed.context.streams identifier).isNone then
        http2SendConnectionError processed.context .internalError
          "Implementation error, stream not found"
      else []
    | _ => []

/-! ## The machine -/

inductive Phase where
  /-- `get_http_request` is called. -/
  | request
  /-- The next frame is read, in `parse_http2_request`. -/
  | frame
  | closed
  | undefined
deriving Repr, DecidableEq

structure HttpConnection where
  phase : Phase
  reader : HTTPReader
  /-- What was written before the general context became HTTP/2. -/
  sentHttp1 : List Bytes
  /-- What was written since then. -/
  sentHttp2 : List Bytes

/-- What `get_http_request` comes to, or that it reads on. -/
inductive RequestEvent (Uri Authority UrlPath : Type) where
  | readOn
  | ok (request : AnyRequest Uri Authority UrlPath) (protocolData : HttpProtocolData)
  | error (error : HttpRequestError)
  | closeConnection
  | undefined

/-- The bytes are written, in the list of the context the connection has. -/
def HttpConnection.write (connection : HttpConnection) (bytes : List Bytes) : HttpConnection :=
  match connection.reader.generalContext with
  | .v1 => { connection with sentHttp1 := connection.sentHttp1 ++ bytes }
  | .v2 _ => { connection with sentHttp2 := connection.sentHttp2 ++ bytes }

def HttpConnection.setContext (connection : HttpConnection) (context : HTTP2Context)
    (bufferedReader : BufferedReader) : HttpConnection :=
  { connection with
    reader := { connection.reader with
      generalContext := .v2 context, bufferedReader := bufferedReader } }

/-- The connection when a function that sends is done. -/
def HttpConnection.sending (connection : HttpConnection) (sending : Sending) : HttpConnection :=
  { connection.write sending.sent with
    reader := { connection.reader with generalContext := sending.generalContext } }

/-- The frame the server starts with, and the context for it. -/
def HttpConnection.sendStartSettings (connection : HttpConnection) (context : HTTP2Context) :
    HttpConnection :=
  let (context, frame) := getStartSettingsFrame context
  (connection.setContext context connection.reader.bufferedReader).write
    (http2SendSettingsFrame frame).toList

/-- The first frame of the client is read and processed, after the start settings are sent:
the rest of `http2_send_and_receive_preface` and of `http2_receive_preface_with_magic`. -/
def readPrefaceFrame (service : Service Uri Authority UrlPath) (connection : HttpConnection)
    (context : HTTP2Context) : HttpConnection × Except String HTTP2Context :=
  let bufferedReader := connection.reader.bufferedReader
  match (parseHttp2Frame context (service.behind bufferedReader)).run bufferedReader with
  | .error e bufferedReader =>
    ((connection.setContext context bufferedReader).write
        (http2SendConnectionError context e.errorCode e.message), .error e.message)
  | .ok frame bufferedReader =>
    let bufferedReader :=
      match frame with
      | .settings _ => bufferedReaderInvalidateOldData bufferedReader true
      | _ => bufferedReader
    let (context', result) := receivePreface context frame
    ((connection.setContext context' bufferedReader).write (prefaceBytes context frame),
      result.map fun _ => context')

/-- `http2_send_and_receive_preface`, and the error of `parse_first_http_request`. -/
def startPreface (service : Service Uri Authority UrlPath) (connection : HttpConnection)
    (agreed : Bool) : HttpConnection × RequestEvent Uri Authority UrlPath :=
  let context := (getStartSettingsFrame http2DefaultContext).1
  match readPrefaceFrame service (connection.sendStartSettings http2DefaultContext) context with
  | (connection, .error message) =>
    (connection, .error (if agreed then .enumValue .invalidHttp2Preface else .advanced message))
  | (connection, .ok _) => ({ connection with phase := .frame }, .readOn)

/-- `HTTP2_CLIENT_PREFACE`. -/
def http2ClientPreface : Bytes := ascii "PRI * HTTP/2.0\r\n\r\nSM\r\n\r\n"

/-- `http2_receive_preface_with_magic`. -/
def http2ReceivePrefaceWithMagic (service : Service Uri Authority UrlPath)
    (connection : HttpConnection) (context : HTTP2Context) :
    HttpConnection × Except String HTTP2Context :=
  match bufferedReaderGetAmount connection.reader.bufferedReader http2ClientPreface.length with
  | (bufferedReader, .ok buffer) =>
    let connection := connection.setContext context bufferedReader
    if buffer ≠ http2ClientPreface then (connection, .error "magic http2 preface not correct")
    else readPrefaceFrame service connection context
  | (bufferedReader, _) =>
    (connection.setContext context bufferedReader, .error "unable to read magic http2 preface")

/-- `http2_process_h2c_upgrade`. A GOAWAY is also sent when the settings of the request are
refused. -/
def processH2cUpgrade (service : Service Uri Authority UrlPath) (connection : HttpConnection)
    (request : Http1Request Uri) (settings : Bytes) :
    HttpConnection × RequestEvent Uri Authority UrlPath :=
  let context := (getStartSettingsFrame http2DefaultContext).1
  let connection := connection.sendStartSettings http2DefaultContext
  match parseRawHttp2SettingsFrame settings false with
  | .error e =>
    (connection.write (http2SendConnectionError context e.errorCode e.message),
      .error (.advanced e.message))
  | .ok frame =>
    match http2ReceivePrefaceWithMagic service connection (http2ApplySettingsFrame context frame)
      with
    | (connection, .error _) => (connection, .error (.enumValue .invalidHttp2Preface))
    | (connection, .ok context) =>
      let newStream : Http2Stream :=
        { state := .halfClosed, headers := emptyStreamHeaders, content := emptyStreamContent
          endStream := true, priority := defaultStreamPriority }
      match addNewHttp2Stream context 1 newStream with
      | none => (connection, .error (.advanced "stream insert error"))
      | some context =>
        (connection.setContext context connection.reader.bufferedReader,
          .ok (.http1 request) (.v2 1))

/-- The settings a request is answered with. -/
def getSendSettings (service : Service Uri Authority UrlPath)
    (request : AnyRequest Uri Authority UrlPath) (protocolData : HttpProtocolData) :
    SendSettings := ⟨service.compressionToUse request, protocolData⟩

/-- The protocol of a request line of HTTP/1. -/
def HTTPProtocolVersion.toData : HTTPProtocolVersion → HttpProtocolData
  | .v1Dot0 => .v1Dot0
  | .v1Dot1 => .v1Dot1
  | .v2 => .v2 0

/-- The answer to an upgrade to HTTP/2. -/
def switchingProtocols : HTTPResponseToSend :=
  ⟨101, httpResponseBodyEmpty, none,
    [⟨ascii "upgrade", ascii "h2c"⟩, ⟨ascii "connection", ascii "upgrade"⟩]⟩

/-- `process_http2_upgrade_request`: the answer is still one of HTTP/1. -/
def processHttp2UpgradeRequest (service : Service Uri Authority UrlPath)
    (connection : HttpConnection) (request : Http1Request Uri) (settings : Bytes) :
    HttpConnection × RequestEvent Uri Authority UrlPath :=
  let sendSettings := getSendSettings service (.http1 request) request.requestLine.version.toData
  let sending := sendMessageToConnectionHttp1 service.toSendEnvironment .v1 switchingProtocols
    sendSettings
  processH2cUpgrade service
    { connection with sentHttp1 := connection.sentHttp1 ++ sending.sent } request settings

/-- One round of the loop of `parse_http2_request`. -/
def parseHttp2RequestRound (service : Service Uri Authority UrlPath) (connection : HttpConnection)
    (context : HTTP2Context) : HttpConnection × RequestEvent Uri Authority UrlPath :=
  let bufferedReader := connection.reader.bufferedReader
  match (parseHttp2Frame context (service.behind bufferedReader)).run bufferedReader with
  | .error e bufferedReader =>
    ((connection.setContext context bufferedReader).write
        (http2SendConnectionError context e.errorCode e.message), .error (.advanced e.message))
  | .ok frame bufferedReader =>
    let (context', result) := requestStep service.uriParser context frame
    let connection :=
      (connection.setContext context' (bufferedReaderInvalidateOldData bufferedReader true)).write
        (requestStepBytes context frame)
    match result with
    | none => (connection, .readOn)
    | some (.ok request) => (connection, .ok (.http2 request) (.v2 request.head.streamIdentifier))
    | some (.error .undefined) => (connection, .undefined)
    | some (.error (.error message)) => (connection, .error (.advanced message))
    | some .closeConnection => (connection, .closeConnection)

/-- `get_http_request`, up to the next frame of HTTP/2. -/
def readHttpRequest (service : Service Uri Authority UrlPath) (connection : HttpConnection) :
    HttpConnection × RequestEvent Uri Authority UrlPath :=
  match connection.phase, connection.reader.generalContext with
  | .frame, .v2 context => parseHttp2RequestRound service connection context
  | _, _ =>
    match getHttpRequest service.headParser connection.reader with
    | (reader, .ok request) =>
      ({ connection with reader := reader },
        .ok (.http1 request) request.requestLine.version.toData)
    | (reader, .error e) => ({ connection with reader := reader }, .error e)
    | (reader, .http2Preface agreed) =>
      startPreface service { connection with reader := reader } agreed
    | (reader, .http2Upgrade request settings) =>
      processHttp2UpgradeRequest service { connection with reader := reader } request settings
    | (reader, .http2Request) =>
      ({ connection with phase := .frame, reader := reader }, .readOn)

def httpReaderMoreAvailable (reader : HTTPReader) : Bool :=
  match reader.state with
  | .empty | .reading => true
  | .ended | .error => false

/-- The settings an error is answered with, also on a connection of HTTP/2. -/
def defaultSendSettings : SendSettings := ⟨.none, defaultResponseProtocolData⟩

/-- What the handler does with the result of `get_http_request`. -/
def handleRequestEvent (service : Service Uri Authority UrlPath) (connection : HttpConnection) :
    RequestEvent Uri Authority UrlPath → HttpConnection
  | .readOn => connection
  | .undefined => { connection with phase := .undefined }
  | .closeConnection => { connection with phase := .closed }
  | .error e =>
    match processHttpError service.toSendEnvironment service.date e
        connection.reader.generalContext defaultSendSettings true with
    | none => { connection with phase := .undefined }
    | some sending => { connection.sending sending with phase := .closed }
  | .ok request protocolData =>
    let (messages, jobError) := service.processHttpRequest request
    match sendMessages service.toSendEnvironment (getSendSettings service request protocolData)
        connection.reader.generalContext messages with
    | none => { connection with phase := .undefined }
    | some sending =>
      if jobError = .none ∧ httpReaderMoreAvailable connection.reader then
        { connection.sending sending with phase := .request }
      else { connection.sending sending with phase := .closed }

/-- One step of the handler. -/
def httpConnectionStep (service : Service Uri Authority UrlPath) (connection : HttpConnection) :
    HttpConnection :=
  match connection.phase with
  | .closed | .undefined => connection
  | .request | .frame =>
    let (connection, event) := readHttpRequest service connection
    handleRequestEvent service connection event

/-- A connection, when the handler starts. -/
def httpSocketConnection (protocol : ProtocolSelected) (incoming : List Incoming) :
    HttpConnection :=
  ⟨.request, initializeHttpReaderFromConnection protocol incoming, [], []⟩

/-- The connection after some steps of `http_socket_connection_handler`. -/
def httpSocketConnectionHandler (service : Service Uri Authority UrlPath)
    (protocol : ProtocolSelected) (incoming : List Incoming) (steps : ℕ) : HttpConnection :=
  (httpConnectionStep service)^[steps] (httpSocketConnection protocol incoming)

end SimpleServer.Http
