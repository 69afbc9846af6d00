import SimpleServer.Http2.Request
import SimpleServer.Utils.BufferedReader
import SimpleServer.Utils.NumberParsing

/-!
# HTTP/1 requests (`parser.c`)

`getHttpRequest` reads the request line, the header lines and the body of a request through
the buffered reader. When the client turns out to speak HTTP/2 the outcome says so, with the
reader behind the bytes that were taken; what follows is `v2.c`.

The string functions of the tstr library, the parser of `uri.c` and the base64 decoder are a
parameter (`HeadParser`). The settings that a request asks for are a function of it and are
left out. Memory is always found.
-/

namespace SimpleServer.Http

open Utils Hpack Http2

inductive HTTPProtocolVersion where
  | v1Dot0
  | v1Dot1
  | v2
deriving Repr, DecidableEq

def getProtocolVersionFromString (protocolVersion : Bytes) : Option HTTPProtocolVersion :=
  if protocolVersion = ascii "HTTP/1.0" then some .v1Dot0
  else if protocolVersion = ascii "HTTP/1.1" then some .v1Dot1
  else if protocolVersion = ascii "HTTP/2.0" then some .v2
  else none

inductive ParsedURIType where
  | asterisk
  | absoluteURI
  | absPath
  | authority
deriving Repr, DecidableEq

/-- The functions on strings that the parser uses. -/
structure HeadParser (Uri : Type) where
  /-- The pieces that `tstr_split_next` delivers one after the other. -/
  tstrSplitPieces : Bytes → Bytes → List Bytes
  /-- `tstr_split`, at the first delimiter. -/
  tstrSplit : Bytes → Bytes → Option (Bytes × Bytes)
  tstrViewLstrip : Bytes → Bytes
  tstrEqIgnoreCase : Bytes → Bytes → Bool
  parseRequestUri : Bytes → Option Uri
  uriType : Uri → ParsedURIType
  base64DecodeBuffer : Bytes → Option Bytes

/-- Strings of one byte delimiters, a path or an asterisk, and no base64. -/
def HeadParser.plain : HeadParser Bytes where
  tstrSplitPieces value delimiter := value.splitOn (delimiter.headD 0)
  tstrSplit value delimiter :=
    if delimiter.headD 0 ∈ value then
      some (value.takeWhile (· ≠ delimiter.headD 0),
        (value.dropWhile (· ≠ delimiter.headD 0)).drop 1)
    else none
  tstrViewLstrip value := value.dropWhile (· = 0x20)
  tstrEqIgnoreCase a b :=
    let lower (c : UInt8) := if 0x41 ≤ c ∧ c ≤ 0x5A then c + 0x20 else c
    a.map lower = b.map lower
  parseRequestUri path := if path.length = 0 then none else some path
  uriType path := if path = ascii "*" then .asterisk else .absPath
  base64DecodeBuffer _ := none

variable {Uri : Type}

structure HttpRequestLine (Uri : Type) where
  method : HTTPRequestMethod
  uri : Uri
  version : HTTPProtocolVersion
deriving Repr, DecidableEq

inductive HttpRequestLineResult (Uri : Type) where
  | ok (line : HttpRequestLine Uri)
  | error
  | unsupportedHttpVersion
  | unsupportedMethod
  | uriError
deriving Repr, DecidableEq

structure Http1Request (Uri : Type) where
  requestLine : HttpRequestLine Uri
  headerFields : List HttpHeaderField
  body : Bytes
deriving Repr, DecidableEq

/-- `HTTP_LINE_SEPERATORS`. -/
def httpLineSeperators : Bytes := [0x0D, 0x0A]

/-- The three fields of a request line. -/
def parseRequestLine (p : HeadParser Uri) (requestLine : Bytes) : HttpRequestLineResult Uri :=
  match p.tstrSplitPieces requestLine (ascii " ") with
  | [method, path, protocolVersion] =>
    match p.parseRequestUri path with
    | none => .uriError
    | some uri =>
      match getHttpMethodFromString method with
      | none => .unsupportedMethod
      | some method =>
        match getProtocolVersionFromString protocolVersion with
        | none => .unsupportedHttpVersion
        | some version => .ok ⟨method, uri, version⟩
  | _ => .error

def parseHttp1RequestLine (p : HeadParser Uri) (reader : BufferedReader) :
    BufferedReader × HttpRequestLineResult Uri :=
  match bufferedReaderGetUntilDelimiter reader httpLineSeperators with
  | (reader, .ok requestLine) => (reader, parseRequestLine p requestLine)
  | (reader, _) => (reader, .error)

/-! ## The headers -/

inductive HTTPRequestLength where
  | noBody
  | close
  | contentLength (length : ℕ)
  | transferEncoded
deriving Repr, DecidableEq

inductive HTTPAnalyzeHeaderError where
  | protocolError
  | notSupported
deriving Repr, DecidableEq

inductive HttpAnalyzeConnection where
  | nothingSpecial
  | keepAlive
  | upgradeH2c (settings : Bytes)
deriving Repr, DecidableEq

/-- What the loop of `http_analyze_headers` works on. -/
structure AnalyzeState where
  length : HTTPRequestLength
  connection : HttpAnalyzeConnection
  upgradeH2cPresent : Bool
  connectionHasBothUpgradeAndH2Settings : Bool
  settingsBuffer : Option Bytes
deriving Repr, DecidableEq

/-- The `connection` header names both fields of an upgrade to HTTP/2. -/
def connectionNeededForH2c (p : HeadParser Uri) (value : Bytes) : Bool :=
  let names := (p.tstrSplitPieces value (ascii ",")).map p.tstrViewLstrip
  names.any (p.tstrEqIgnoreCase · (ascii "upgrade")) &&
    names.any (fun name => !p.tstrEqIgnoreCase name (ascii "upgrade") &&
      p.tstrEqIgnoreCase name (ascii "http2-settings"))

/-- One round of the loop of `http_analyze_headers`. -/
def analyzeHeader (p : HeadParser Uri) (state : AnalyzeState) (header : HttpHeaderField) :
    Except HTTPAnalyzeHeaderError AnalyzeState :=
  let key := p.tstrEqIgnoreCase header.key
  let value := p.tstrEqIgnoreCase header.value
  if key (ascii "content-length") then
    if state.length ≠ .noBody then .error .protocolError
    else
      match parseU64 header.value with
      | none => .error .protocolError
      | some contentLength => .ok { state with length := .contentLength contentLength }
  else if key (ascii "transfer-encoding") then
    if state.length ≠ .noBody then .error .protocolError
    else if ¬ value (ascii "chunked") then .error .notSupported
    else .ok { state with length := .transferEncoded }
  else if key (ascii "connection") then
    -- this overwrites a length that was there
    if value (ascii "close") then .ok { state with length := .close }
    else if value (ascii "keep-alive") then
      if state.connection ≠ .nothingSpecial then .error .protocolError
      else .ok { state with connection := .keepAlive }
    else if connectionNeededForH2c p header.value then
      .ok { state with connectionHasBothUpgradeAndH2Settings := true }
    else .ok state
  else if key (ascii "upgrade") then
    if value (ascii "h2c") then .ok { state with upgradeH2cPresent := true } else .ok state
  else if key (ascii "http2-settings") then
    .ok { state with settingsBuffer := p.base64DecodeBuffer header.value }
  else .ok state

structure HTTPAnalyzeHeaders where
  length : HTTPRequestLength
  connection : HttpAnalyzeConnection
deriving Repr, DecidableEq

def httpAnalyzeHeaders (p : HeadParser Uri) (version : HTTPProtocolVersion)
    (headerFields : List HttpHeaderField) : Except HTTPAnalyzeHeaderError HTTPAnalyzeHeaders :=
  match headerFields.foldlM (analyzeHeader p) ⟨.noBody, .nothingSpecial, false, false, none⟩ with
  | .error e => .error e
  | .ok state =>
    -- until the connection is closed only in HTTP/1.0
    let length := if state.length = .close ∧ version ≠ .v1Dot0 then .noBody else state.length
    match state.connectionHasBothUpgradeAndH2Settings && state.upgradeH2cPresent,
      state.settingsBuffer with
    | true, some settings =>
      if state.connection ≠ .nothingSpecial then .error .protocolError
      else .ok ⟨length, .upgradeH2c settings⟩
    | _, _ => .ok ⟨length, state.connection⟩

inductive HttpRequestErrorType where
  | invalidHttpVersion
  | methodNotSupported
  | invalidNonEmptyBody
  | invalidHttp2Preface
  | lengthRequired
  | protocolError
  | notSupported
deriving Repr, DecidableEq

inductive HttpRequestError where
  | enumValue (value : HttpRequestErrorType)
  | advanced (message : String)
deriving Repr, DecidableEq

/-- One header line, as a field. -/
def parseHeaderLine (p : HeadParser Uri) (headerLine : Bytes) : Option HttpHeaderField :=
  (p.tstrSplit headerLine (ascii ":")).map fun (key, value) => ⟨key, p.tstrViewLstrip value⟩

/-- The loop of `parse_http1_request` over the header lines, with fuel for its rounds. -/
def parseHeadersLoop (p : HeadParser Uri) :
    ℕ → BufferedReader → List HttpHeaderField →
      BufferedReader × Except HttpRequestError (List HttpHeaderField)
  | 0, reader, _ => (reader, .error (.advanced "Failed to parse headers"))
  | fuel + 1, reader, headerFields =>
    match bufferedReaderGetUntilDelimiter reader httpLineSeperators with
    | (reader, .ok headerLine) =>
      if headerLine.length = 0 then (reader, .ok headerFields)
      else
        match parseHeaderLine p headerLine with
        | none => (reader, .error (.advanced "Failed to parse header key"))
        | some field => parseHeadersLoop p fuel reader (headerFields ++ [field])
    | (reader, _) => (reader, .error (.advanced "Failed to parse headers"))

/-- Every line takes two bytes at least. -/
def parseHeaders (p : HeadParser Uri) (reader : BufferedReader) :
    BufferedReader × Except HttpRequestError (List HttpHeaderField) :=
  parseHeadersLoop p (reader.data.buffer.length - reader.data.cursor + reader.toCome + 1) reader []

/-! ## The request -/

/-- `get_http_body`. -/
def getHttpBody (reader : BufferedReader) : HTTPRequestLength → BufferedReader × Except String Bytes
  | .close =>
    match bufferedReaderGetUntilEnd reader with
    | (reader, .ok body) => (reader, .ok body)
    | (reader, _) => (reader, .error "read failed")
  | .contentLength length =>
    match bufferedReaderGetAmount reader length with
    | (reader, .ok body) => (reader, .ok body)
    | (reader, _) => (reader, .error "read failed")
  | .transferEncoded => (reader, .error "transfer encoding not yet implemented")
  | .noBody => (reader, .ok [])

/-- How reading a request ends: with a request, an error, or the functions of `v2.c`. -/
inductive HttpOutcome (Uri : Type) where
  | ok (request : Http1Request Uri)
  | error (error : HttpRequestError)
  /-- `http2_send_and_receive_preface`; the protocol was agreed on before, or it was not. -/
  | http2Preface (agreed : Bool)
  /-- `process_http2_upgrade_request`. -/
  | http2Upgrade (request : Http1Request Uri) (settings : Bytes)
  /-- `parse_http2_request`. -/
  | http2Request
deriving Repr, DecidableEq

/-- The outcome hands the connection over to HTTP/2. -/
def HttpOutcome.isHttp2 : HttpOutcome Uri → Bool
  | .http2Preface _ | .http2Upgrade _ _ => true
  | _ => false

/-- The methods of requests without a body. -/
def methodWithoutBody : HTTPRequestMethod → Bool
  | .get | .head | .options => true
  | _ => false

/-- The end of `parse_http1_request`, when head and body are read. -/
def finishHttp1Request (request : Http1Request Uri) (connection : HttpAnalyzeConnection)
    (firstRequest : Bool) : HttpOutcome Uri :=
  if methodWithoutBody request.requestLine.method ∧ request.body.length ≠ 0 then
    .error (.enumValue .invalidNonEmptyBody)
  else
    match connection with
    | .keepAlive | .nothingSpecial => .ok request
    | .upgradeH2c settings =>
      if ¬ firstRequest then .error (.advanced "only first http1 request can upgrade to http2")
      else .http2Upgrade request settings

def analyzeErrorType : HTTPAnalyzeHeaderError → HttpRequestErrorType
  | .protocolError => .protocolError
  | .notSupported => .notSupported

def parseHttp1Request (p : HeadParser Uri) (requestLine : HttpRequestLine Uri)
    (reader : BufferedReader) (firstRequest : Bool) : BufferedReader × HttpOutcome Uri :=
  match parseHeaders p reader with
  | (reader, .error e) => (reader, .error e)
  | (reader, .ok headerFields) =>
    match httpAnalyzeHeaders p requestLine.version headerFields with
    | .error e => (reader, .error (.enumValue (analyzeErrorType e)))
    | .ok analyze =>
      match getHttpBody reader analyze.length with
      | (reader, .error e) => (reader, .error (.advanced e))
      | (reader, .ok body) =>
        (reader,
          finishHttp1Request ⟨requestLine, headerFields, body⟩ analyze.connection firstRequest)

/-! ## The reader of a connection -/

/-- What was agreed on before the first byte, in the handshake of TLS. -/
inductive ProtocolSelected where
  | none
  | http1Dot1
  | http2
deriving Repr, DecidableEq

inductive HTTPReaderState where
  | empty
  | reading
  | ended
  | error
deriving Repr, DecidableEq

inductive HTTPGeneralContext where
  | v1
  | v2 (context : HTTP2Context)

structure HTTPReader where
  protocol : ProtocolSelected
  bufferedReader : BufferedReader
  state : HTTPReaderState
  generalContext : HTTPGeneralContext

def initializeHttpReaderFromConnection (protocol : ProtocolSelected) (incoming : List Incoming) :
    HTTPReader := ⟨protocol, getBufferedReader incoming, .empty, .v1⟩

/-- `HTTP2_CLIENT_PREFACE_AFTER_HTTP1_STATUS_LINE`. -/
def http2ClientPrefaceAfterHttp1StatusLine : Bytes := ascii "\r\nSM\r\n\r\n"

/-- `analyze_http2_preface`: the rest of the preface is taken when the request line is the
one of a preface. -/
def analyzeHttp2Preface (p : HeadParser Uri) (requestLine : HttpRequestLine Uri)
    (reader : BufferedReader) : BufferedReader × Bool :=
  if requestLine.version ≠ .v2 then (reader, false)
  else if requestLine.method ≠ .pri then (reader, false)
  else if p.uriType requestLine.uri ≠ .asterisk then (reader, false)
  else
    match bufferedReaderGetAmount reader http2ClientPrefaceAfterHttp1StatusLine.length with
    | (reader, .ok buffer) => (reader, buffer = http2ClientPrefaceAfterHttp1StatusLine)
    | (reader, _) => (reader, false)

/-- A request line of HTTP/2: the preface follows, or the request is refused. -/
def startHttp2 (p : HeadParser Uri) (reader : HTTPReader) (requestLine : HttpRequestLine Uri)
    (agreed : Bool) : HTTPReader × HttpOutcome Uri :=
  match analyzeHttp2Preface p requestLine reader.bufferedReader with
  | (bufferedReader, false) =>
    ({ reader with bufferedReader := bufferedReader }, .error (.enumValue .invalidHttp2Preface))
  | (bufferedReader, true) =>
    ({ reader with bufferedReader := bufferedReader, generalContext := .v2 http2DefaultContext },
      .http2Preface agreed)

/-- The checks of `parse_first_http_request` on a request line of HTTP/1. -/
def requestLineError (p : HeadParser Uri) (requestLine : HttpRequestLine Uri) :
    Option HttpRequestError :=
  if requestLine.method = .pri then some (.enumValue .invalidHttp2Preface)
  else if p.uriType requestLine.uri = .asterisk then
    if requestLine.method ≠ .options then
      some (.advanced
        "Invalid path in combination with method: path '*' is only supported with OPTIONS")
    else some (.advanced "not implemented for method OPTIONS: asterisk or normal request")
  else if p.uriType requestLine.uri = .authority then
    if requestLine.method ≠ .connect then
      some (.advanced
        "Invalid path in combination with method: path '*' is only supported with OPTIONS")
    else some (.advanced "not implemented for method CONNECT: authority or normal request")
  else none

/-- The end of `parse_first_http_request`: what is left in the buffer is looked at, also when
the request was refused. -/
def checkNothingLeft (reader : HTTPReader) (outcome : HttpOutcome Uri) :
    HTTPReader × HttpOutcome Uri :=
  if bufferedReaderHasMoreData reader.bufferedReader then
    ({ reader with state := .ended }, outcome)
  else ({ reader with state := .error }, .error (.enumValue .lengthRequired))

/-- The part of `parse_first_http_request` after a request line of HTTP/1. The connection
speaks HTTP/2 from the answer to an upgrade on. -/
def parseFirstHttp1Request (p : HeadParser Uri) (reader : HTTPReader)
    (requestLine : HttpRequestLine Uri) : HTTPReader × HttpOutcome Uri :=
  match requestLineError p requestLine with
  | some e => (reader, .error e)
  | none =>
    match parseHttp1Request p requestLine reader.bufferedReader true with
    | (bufferedReader, .http2Upgrade request settings) =>
      ({ reader with
          bufferedReader := bufferedReader, generalContext := .v2 http2DefaultContext },
        .http2Upgrade request settings)
    | (bufferedReader, outcome) =>
      checkNothingLeft { reader with bufferedReader := bufferedReader } outcome

/-- The error for a request line that could not be parsed. -/
def HttpRequestLineResult.toExcept :
    HttpRequestLineResult Uri → Except HttpRequestError (HttpRequestLine Uri)
  | .ok line => .ok line
  | .unsupportedHttpVersion => .error (.enumValue .invalidHttpVersion)
  | .unsupportedMethod => .error (.enumValue .methodNotSupported)
  | .uriError => .error (.advanced "failed to parse URi in request line")
  | .error => .error (.advanced "failed to parse request line")

def parseFirstHttpRequest (p : HeadParser Uri) (reader : HTTPReader) :
    HTTPReader × HttpOutcome Uri :=
  match parseHttp1RequestLine p reader.bufferedReader with
  | (bufferedReader, result) =>
    let reader := { reader with bufferedReader := bufferedReader }
    match result.toExcept with
    | .error e => (reader, .error e)
    | .ok requestLine =>
      match reader.protocol with
      | .http1Dot1 =>
        if requestLine.version = .v2 then (reader, .error (.enumValue .invalidHttpVersion))
        else parseFirstHttp1Request p reader requestLine
      | .http2 => startHttp2 p reader requestLine true
      | .none =>
        if requestLine.version = .v2 then startHttp2 p reader requestLine false
        else parseFirstHttp1Request p reader requestLine

/-- `get_http_request`, for a reader that is there. -/
def getHttpRequest (p : HeadParser Uri) (reader : HTTPReader) : HTTPReader × HttpOutcome Uri :=
  match reader.state with
  | .empty => parseFirstHttpRequest p { reader with state := .reading }
  | .reading =>
    match reader.generalContext with
    | .v1 =>
      (reader, .error (.advanced
        "HTTP reader tried to read more than one request on a non compatible connection"))
    | .v2 _ =>
      ({ reader with
          bufferedReader := bufferedReaderInvalidateOldData reader.bufferedReader true },
        .http2Request)
  | .ended | .error => (reader, .error (.advanced "HTTP reader state was invalid"))

/-! ## What a request comes to -/

/-- A request of HTTP/1 is complete, an upgrade, or refused; its length is never the reason. -/
inductive Http1Outcome : HttpOutcome Uri → Prop
  | ok (request : Http1Request Uri) : Http1Outcome (.ok request)
  | upgrade (request : Http1Request Uri) (settings : Bytes) :
    Http1Outcome (.http2Upgrade request settings)
  | error (e : HttpRequestError) (h : e ≠ .enumValue .lengthRequired) : Http1Outcome (.error e)

theorem finishHttp1Request_outcome (request : Http1Request Uri)
    (connection : HttpAnalyzeConnection) (firstRequest : Bool) :
    Http1Outcome (finishHttp1Request request connection firstRequest) := by
  unfold finishHttp1Request
  by_cases hbody : methodWithoutBody request.requestLine.method ∧ request.body.length ≠ 0
  · rw [if_pos hbody]
    exact .error _ nofun
  · rw [if_neg hbody]
    cases connection with
    | nothingSpecial => exact .ok request
    | keepAlive => exact .ok request
    | upgradeH2c settings =>
      cases firstRequest with
      | false => exact .error _ nofun
      | true => exact .upgrade request settings

/-- The head is refused with a text. -/
theorem parseHeadersLoop_error {p : HeadParser Uri} {fuel : ℕ} {reader : BufferedReader}
    {headerFields : List HttpHeaderField} {e : HttpRequestError}
    (h : (parseHeadersLoop p fuel reader headerFields).2 = .error e) :
    e ≠ .enumValue .lengthRequired := by
  induction fuel generalizing reader headerFields with
  | zero =>
    cases h
    nofun
  | succ fuel ih =>
    unfold parseHeadersLoop at h
    split at h
    · split_ifs at h
      split at h
      · cases h
        nofun
      · exact ih h
    · cases h
      nofun

theorem parseHttp1Request_outcome (p : HeadParser Uri) (requestLine : HttpRequestLine Uri)
    (reader : BufferedReader) (firstRequest : Bool) :
    Http1Outcome (parseHttp1Request p requestLine reader firstRequest).2 := by
  unfold parseHttp1Request
  split
  · rename_i e heq
    have herror : (parseHeaders p reader).2 = .error e := congrArg Prod.snd heq
    exact .error e (parseHeadersLoop_error herror)
  · split
    · rename_i e heq
      cases e
      · exact .error _ nofun
      · exact .error _ nofun
    · split
      · exact .error _ nofun
      · exact finishHttp1Request_outcome _ _ _

end SimpleServer.Http
