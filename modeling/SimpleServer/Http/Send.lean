import SimpleServer.Http.Parser
import SimpleServer.Http2.Send

/-!
# Sending a response (`send.c`)

A response goes out as HTTP/1 text or as the frames of a stream. Which of the two is decided
by the protocol of the send settings alone (`sendMessageToConnection`), whatever the
connection speaks.

The compressors, the version of the build and the port of the alternative service are a
parameter (`SendEnvironment`). Memory is always found, and writing to the connection succeeds.
-/

namespace SimpleServer.Http

open Utils Hpack Http2

inductive CompressionType where
  | none
  | gzip
  | deflate
  | br
  | zstd
  | compress
deriving Repr, DecidableEq

def getStringForCompressFormat : CompressionType → Bytes
  | .none => ascii "none"
  | .gzip => ascii "gzip"
  | .deflate => ascii "deflate"
  | .br => ascii "br"
  | .zstd => ascii "zstd"
  | .compress => ascii "compress"

structure HTTPResponseBody where
  content : SizedBuffer
  sendBodyData : Bool
  /-- The size that stands beside a content that is `NULL`. -/
  nullSize : ℕ

/-- The `size` of the content. -/
def HTTPResponseBody.contentSize (body : HTTPResponseBody) (content : SizedBuffer) : ℕ :=
  if content.data.isNone then body.nullSize else content.size

/-- `http_response_body_from_static_string` and `http_response_body_from_string_builder`. -/
def httpResponseBodyFromBytes (bytes : Bytes) (sendBody : Bool) : HTTPResponseBody :=
  ⟨sizedBufferAllocateFromReadonlyBuffer bytes, sendBody, 0⟩

def httpResponseBodyEmpty : HTTPResponseBody := ⟨getEmptySizedBuffer, false, 0⟩

structure HTTPResponseToSend where
  status : ℕ
  body : HTTPResponseBody
  mimeType : Option Bytes
  additionalHeaders : List HttpHeaderField

/-- `HttpProtocolData`: the version, and the stream for HTTP/2. -/
inductive HttpProtocolData where
  | v1Dot0
  | v1Dot1
  | v2 (streamIdentifier : ℕ)
deriving Repr, DecidableEq

/-- `DEFAULT_RESPONSE_PROTOCOL_DATA`. -/
def defaultResponseProtocolData : HttpProtocolData := .v1Dot1

def getHttpProtocolVersionString : HttpProtocolData → Bytes
  | .v1Dot0 => ascii "HTTP/1.0"
  | .v1Dot1 => ascii "HTTP/1.1"
  | .v2 _ => ascii "HTTP/2.0"

def HttpProtocolData.isV2 : HttpProtocolData → Bool
  | .v2 _ => true
  | _ => false

structure SendSettings where
  compressionToUse : CompressionType
  protocolData : HttpProtocolData

structure SendEnvironment where
  /-- `compress_buffer_with`. -/
  compressBufferWith : SizedBuffer → CompressionType → SizedBuffer
  /-- `VERSION_STRING`. -/
  versionString : Bytes
  /-- `g_alt_svc_constant_data`. -/
  altSvcConstantData : Bytes

/-! ## The head -/

/-- `get_status_message`. -/
def getStatusMessage : ℕ → Bytes
  | 100 => ascii "Continue"
  | 101 => ascii "Switching Protocols"
  | 200 => ascii "OK"
  | 201 => ascii "Created"
  | 202 => ascii "Accepted"
  | 203 => ascii "Non-Authoritative Information"
  | 204 => ascii "No Content"
  | 205 => ascii "Reset Content"
  | 206 => ascii "Partial Content"
  | 300 => ascii "Multiple Choices"
  | 301 => ascii "Moved Permanently"
  | 302 => ascii "Found"
  | 303 => ascii "See Other"
  | 304 => ascii "Not Modified"
  | 305 => ascii "Use Proxy"
  | 307 => ascii "Temporary Redirect"
  | 400 => ascii "Bad Request"
  | 401 => ascii "Unauthorized"
  | 402 => ascii "Payment Required"
  | 403 => ascii "Forbidden"
  | 404 => ascii "Not Found"
  | 405 => ascii "Method Not Allowed"
  | 406 => ascii "Not Acceptable"
  | 407 => ascii "Proxy Authentication Required"
  | 408 => ascii "Request Timeout"
  | 409 => ascii "Conflict"
  | 410 => ascii "Gone"
  | 411 => ascii "Length Required"
  | 412 => ascii "Precondition Failed"
  | 413 => ascii "Payload Too Large"
  | 414 => ascii "URI Too Long"
  | 415 => ascii "Unsupported Media Type"
  | 416 => ascii "Range Not Satisfiable"
  | 417 => ascii "Expectation Failed"
  | 426 => ascii "Upgrade Required"
  | 500 => ascii "Internal Server Error"
  | 501 => ascii "Not Implemented"
  | 502 => ascii "Bad Gateway"
  | 503 => ascii "Service Unavailable"
  | 504 => ascii "Gateway Timeout"
  | 505 => ascii "HTTP Version Not Supported"
  | _ => ascii "NOT SUPPORTED STATUS CODE"

/-- The format `%d` of a number. -/
def formatNumber (n : ℕ) : Bytes := ascii (toString n)

/-- The format `%s`: the bytes before the first zero byte. -/
def formatString (bytes : Bytes) : Bytes := bytes.takeWhile (· ≠ 0)

/-- `construct_http1_headers_for_request`; the response of HTTP/2 has these fields too. -/
def constructHttp1HeadersForRequest (env : SendEnvironment) (sendSettings : SendSettings)
    (mimeType : Option Bytes) (additionalHeaders : List HttpHeaderField)
    (compressionFormat : CompressionType) (bodySize : ℕ) (status : ℕ) :
    List HttpHeaderField :=
  let isV2 := sendSettings.protocolData.isV2
  [⟨ascii "content-type", mimeType.getD (ascii "text/html")⟩] ++
    (if ¬ isV2 then [⟨ascii "content-length", formatNumber bodySize⟩] else []) ++
    (if ¬ isV2 ∧ status ≠ 101 then [⟨ascii "connection", ascii "close"⟩] else []) ++
    [⟨ascii "server", ascii "Simple C HTTP Server: v" ++ env.versionString⟩] ++
    (if ¬ isV2 ∧ status ≠ 101 then [⟨ascii "alt-svc", env.altSvcConstantData⟩] else []) ++
    (if compressionFormat ≠ .none then
      [⟨ascii "content-encoding", getStringForCompressFormat compressionFormat⟩] else []) ++
    additionalHeaders

def constructHttp2HeadersForRequest (env : SendEnvironment) (sendSettings : SendSettings)
    (mimeType : Option Bytes) (additionalHeaders : List HttpHeaderField)
    (compressionFormat : CompressionType) (bodySize : ℕ) (status : ℕ) :
    List HttpHeaderField :=
  ⟨ascii ":status", formatNumber status⟩ ::
    constructHttp1HeadersForRequest env sendSettings mimeType additionalHeaders compressionFormat
      bodySize status

/-! ## The response -/

/-- The body of a response and the compression it has. When it cannot be compressed it is
sent as it is. -/
def compressBody (env : SendEnvironment) (body : SizedBuffer) (format : CompressionType) :
    SizedBuffer × CompressionType :=
  if body.data.isNone then (body, .none)
  else if format ≠ .none then
    let newBody := env.compressBufferWith body format
    if newBody.data.isNone then (body, .none) else (newBody, format)
  else (body, format)

structure Http1Response where
  protocolVersion : Bytes
  statusCodeStr : Bytes
  statusMessage : Bytes
  headerFields : List HttpHeaderField
  body : SizedBuffer

def constructHttp1Response (env : SendEnvironment) (toSend : HTTPResponseToSend)
    (sendSettings : SendSettings) : Http1Response :=
  let (body, formatUsed) := compressBody env toSend.body.content sendSettings.compressionToUse
  { protocolVersion := getHttpProtocolVersionString sendSettings.protocolData
    statusCodeStr := formatNumber toSend.status
    statusMessage := getStatusMessage toSend.status
    headerFields := constructHttp1HeadersForRequest env sendSettings toSend.mimeType
      toSend.additionalHeaders formatUsed (toSend.body.contentSize body) toSend.status
    body := if toSend.body.sendBodyData then body else getEmptySizedBuffer }

/-- `http1_response_concat`: the head as text, and the body. -/
def http1ResponseConcat (response : Http1Response) : Bytes :=
  formatString response.protocolVersion ++ ascii " " ++ formatString response.statusCodeStr ++
    ascii " " ++ formatString response.statusMessage ++ httpLineSeperators ++
    response.headerFields.flatMap (fun entry =>
      formatString entry.key ++ ascii ": " ++ formatString entry.value ++ httpLineSeperators) ++
    httpLineSeperators ++ response.body.bytes

/-- The options that every response is compressed with. -/
def defaultCompressOptions : Http2HpackCompressOptions := ⟨.auto, .staticTableUsage, .common⟩

/-- `construct_http2_response`: the response, if its header block could be built. -/
def constructHttp2Response (env : SendEnvironment) (compressState : HpackCompressState)
    (toSend : HTTPResponseToSend) (sendSettings : SendSettings) (streamIdentifier : ℕ) :
    HpackCompressState × Except Fault Http2Response :=
  let (body, formatUsed) := compressBody env toSend.body.content sendSettings.compressionToUse
  let resultHeaders := constructHttp2HeadersForRequest env sendSettings toSend.mimeType
    toSend.additionalHeaders formatUsed (toSend.body.contentSize body) toSend.status
  match http2HpackCompressData compressState resultHeaders defaultCompressOptions with
  | (compressState, .error e) => (compressState, .error e)
  | (compressState, .ok bytes) =>
    let hpackEncodedHeaders := sizedBufferAllocateFromReadonlyBuffer bytes
    if hpackEncodedHeaders.data.isNone then (compressState, .error nullBuffer)
    else
      (compressState, .ok
        { hpackEncodedHeaders := hpackEncodedHeaders
          body := if toSend.body.sendBodyData then body else getEmptySizedBuffer
          streamIdentifier := streamIdentifier })

/-! ## The connection -/

/-- What a function that sends leaves behind: the context, and what it wrote. -/
structure Sending where
  generalContext : HTTPGeneralContext
  sent : List Bytes

/-- The bytes of the frames that went out. -/
def sentBytes (built : Built) : List Bytes := built.filterMap Prod.snd

def sendMessageToConnectionHttp1 (env : SendEnvironment) (generalContext : HTTPGeneralContext)
    (toSend : HTTPResponseToSend) (sendSettings : SendSettings) : Sending :=
  ⟨generalContext, [http1ResponseConcat (constructHttp1Response env toSend sendSettings)]⟩

/-- A response that cannot be built is not sent; `none` is undefined behaviour. -/
def sendMessageToConnectionHttp2 (env : SendEnvironment) (context : HTTP2Context)
    (toSend : HTTPResponseToSend) (sendSettings : SendSettings) (streamIdentifier : ℕ) :
    Option Sending :=
  match constructHttp2Response env context.state.hpackState.compressState toSend sendSettings
      streamIdentifier with
  | (_, .error .undefined) => none
  | (compressState, .error (.error _)) => some ⟨.v2 (context.setCompressState compressState), []⟩
  | (compressState, .ok response) =>
    let context := context.setCompressState compressState
    some ⟨.v2 context, sentBytes (sendHttp2ResponseToConnection response context)⟩

def sendMessageToConnection (env : SendEnvironment) (generalContext : HTTPGeneralContext)
    (toSend : HTTPResponseToSend) (sendSettings : SendSettings) : Option Sending :=
  match sendSettings.protocolData with
  | .v2 streamIdentifier =>
    match generalContext with
    | .v1 => some ⟨generalContext, []⟩
    | .v2 context =>
      sendMessageToConnectionHttp2 env context toSend sendSettings streamIdentifier
  | _ => some (sendMessageToConnectionHttp1 env generalContext toSend sendSettings)

/-- Sends the messages one after the other. -/
def sendMessages (env : SendEnvironment) (sendSettings : SendSettings) :
    HTTPGeneralContext → List HTTPResponseToSend → Option Sending
  | generalContext, [] => some ⟨generalContext, []⟩
  | generalContext, toSend :: messages =>
    match sendMessageToConnection env generalContext toSend sendSettings with
    | none => none
    | some ⟨generalContext, sent⟩ =>
      (sendMessages env sendSettings generalContext messages).map fun sending =>
        ⟨sending.generalContext, sent ++ sending.sent⟩

end SimpleServer.Http
