import SimpleServer.Http.Parser
import SimpleServer.Lib.Decimal
import SimpleServer.Ws.Extension

/-!
# The WebSocket handshake (`ws/ws.c`, `ws/extension.c`)

`handle_ws_handshake` checks the headers of the request, reads the extensions that the client offers
and answers with the ones in use. The server is built with deflate, the answers are sent, and there
is always memory. `generate_key_answer` is a parameter, and so is zlib.
-/

namespace SimpleServer.Ws

open Lib Utils Hpack Http

variable {Uri : Type}

/-! ## The offered extensions -/

def defaultMaxWindowBits : ℕ := 15

def minMaxWindowBits : ℕ := 8

def maxMaxWindowBits : ℕ := 15

/-- One round of the loop of `parse_ws_extension_per_message_deflate_params`. -/
def deflateParam (p : HeadParser Uri) (options : WsDeflateOptions) (currentParam : Bytes) :
    Option WsDeflateOptions :=
  let currentParam := p.tstrViewLstrip currentParam
  let (name, value) := (p.tstrSplit currentParam (ascii "=")).getD (currentParam, [])
  if name = ascii "server_no_context_takeover" then
    if value.length ≠ 0 then none
    else some { options with server := { options.server with noContextTakeover := true } }
  else if name = ascii "server_max_window_bits" then
    if value.length ≠ 0 then
      match parseU64 value with
      | none => none
      | some parsedNumber =>
        if parsedNumber < minMaxWindowBits ∨ parsedNumber > maxMaxWindowBits then none
        else some { options with server := { options.server with maxWindowBits := parsedNumber } }
    else
      some { options with server := { options.server with maxWindowBits := defaultMaxWindowBits } }
  else if name = ascii "client_no_context_takeover" then
    if value.length ≠ 0 then none
    else some { options with client := { options.client with noContextTakeover := true } }
  else if name = ascii "client_max_window_bits" then
    if value.length ≠ 0 then
      match parseU64 value with
      | none => none
      | some parsedNumber =>
        -- here only the type is checked
        if parsedNumber > 255 then none
        else some { options with client := { options.client with maxWindowBits := parsedNumber } }
    else
      some { options with client := { options.client with maxWindowBits := defaultMaxWindowBits } }
  else none

def parseWsExtensionPerMessageDeflateParams (p : HeadParser Uri) (params : Bytes)
    (options : WsDeflateOptions) : Option WsDeflateOptions :=
  (p.tstrSplitPieces params (ascii ";")).foldlM (deflateParam p) options

def defaultDeflateOptions : WsDeflateOptions where
  client := ⟨false, defaultMaxWindowBits⟩
  server := ⟨true, defaultMaxWindowBits⟩

def parseWsExtensionValue (p : HeadParser Uri) (value : Bytes) : Option WSExtension :=
  let (name, params) :=
    match p.tstrSplit value (ascii ";") with
    | some (first, second) => (first, p.tstrViewLstrip second)
    | none => (value, [])
  if name = ascii "permessage-deflate" then
    if params.length ≠ 0 then
      (parseWsExtensionPerMessageDeflateParams p params defaultDeflateOptions).map
        .perMessageDeflate
    else some (.perMessageDeflate defaultDeflateOptions)
  else none

/-- `parse_ws_extensions`: the extensions that are appended. -/
def parseWsExtensions (p : HeadParser Uri) (value : Bytes) : List WSExtension :=
  (p.tstrSplitPieces value (ascii ",")).filterMap (parseWsExtensionValue p)

/-! ## The extensions of the answer -/

def appendWsExtensionAsString : WSExtension → Bytes
  | .perMessageDeflate options =>
    let additionalOptionsCount :=
      (if options.client.noContextTakeover then 1 else 0) +
        (if options.server.noContextTakeover then 1 else 0)
    ascii "permessage-deflate;" ++
      ascii "server_max_window_bits=" ++ decimalText options.server.maxWindowBits ++ ascii ";" ++
      ascii "client_max_window_bits=" ++ decimalText options.client.maxWindowBits ++
      (if additionalOptionsCount ≠ 0 then ascii ";" else []) ++
      (if options.server.noContextTakeover then
        ascii "server_no_context_takeover" ++
          (if additionalOptionsCount ≠ 1 then ascii ";" else [])
      else []) ++
      (if options.client.noContextTakeover then ascii "client_no_context_takeover" else [])

def getAcceptedWsExtensionsAsString (extensions : List WSExtension) : Bytes :=
  (ascii ",").intercalate (extensions.map appendWsExtensionAsString)

/-! ## The handshake -/

/-- The answers to a failed handshake. -/
inductive HandshakeFailure where
  | badRequest (errorReason : String)
  | upgradeRequired
deriving Repr, DecidableEq

def handshakeHeaderHost : UInt8 := 0b1

def handshakeHeaderUpgrade : UInt8 := 0b10

def handshakeHeaderConnection : UInt8 := 0b100

def handshakeHeaderSecWebsocketKey : UInt8 := 0b1000

def handshakeHeaderSecWebsocketVersion : UInt8 := 0b10000

def handshakeHeaderAllFound : UInt8 := 0b11111

/-- What the loop over the headers works on. -/
structure HandshakeState where
  foundList : UInt8
  secKey : Option Bytes
  extensions : List WSExtension

def HandshakeState.found (state : HandshakeState) (header : UInt8) : HandshakeState :=
  { state with foundList := state.foundList ||| header }

def expectedWsHeaderSecKeyLength : ℕ := 16

def isValidSecKey (p : HeadParser Uri) (key : Bytes) : Bool :=
  (p.base64DecodeBuffer key).any fun result => result.length = expectedWsHeaderSecKeyLength

/-- `process_delimitered_header_value` with `process_ws_header`. -/
def containsWsHeader (p : HeadParser Uri) (value fieldName : Bytes) : Bool :=
  (p.tstrSplitPieces value (ascii ",")).any fun result =>
    p.tstrEqIgnoreCase (p.tstrViewLstrip result) fieldName

/-- One round of the loop over the headers. -/
def handshakeHeader (p : HeadParser Uri) (state : HandshakeState) (header : HttpHeaderField) :
    Except HandshakeFailure HandshakeState :=
  if p.tstrEqIgnoreCase header.key (ascii "host") then .ok (state.found handshakeHeaderHost)
  else if p.tstrEqIgnoreCase header.key (ascii "upgrade") then
    if !containsWsHeader p header.value (ascii "websocket") then
      .error (.badRequest "upgrade does not contain 'websocket'")
    else .ok (state.found handshakeHeaderUpgrade)
  else if p.tstrEqIgnoreCase header.key (ascii "connection") then
    if !containsWsHeader p header.value (ascii "upgrade") then .error .upgradeRequired
    else .ok (state.found handshakeHeaderConnection)
  else if p.tstrEqIgnoreCase header.key (ascii "sec-websocket-key") then
    if isValidSecKey p header.value then
      .ok { state.found handshakeHeaderSecWebsocketKey with secKey := some header.value }
    else .error (.badRequest "sec-websocket-key is invalid")
  else if p.tstrEqIgnoreCase header.key (ascii "sec-websocket-version") then
    if header.value ≠ ascii "13" then
      .error (.badRequest "sec-websocket-version has invalid value")
    else .ok (state.found handshakeHeaderSecWebsocketVersion)
  else if p.tstrEqIgnoreCase header.key (ascii "sec-websocket-extensions") then
    .ok { state with extensions := state.extensions ++ parseWsExtensions p header.value }
  else .ok state

def areExtensionsSupported (extensions : List WSExtension) : Except HandshakeFailure Unit :=
  match extensions with
  | [] => .ok ()
  | [.perMessageDeflate deflate] =>
    if !deflate.client.noContextTakeover then
      .error (.badRequest
        "client needs to set the option no_context_takeover, takeover not supported")
    else if !deflate.server.noContextTakeover then
      .error (.badRequest
        "server needs to set the option no_context_takeover, takeover not supported")
    else .ok ()
  | _ => .error (.badRequest "only one extension supported atm")

/-- A handshake that succeeds: the extensions in use and the headers of the answer. -/
structure Handshake where
  extensions : List WSExtension
  additionalHeaders : List HttpHeaderField
deriving DecidableEq

/-- The headers of the answer. -/
def handshakeAnswer (generateKeyAnswer : Bytes → Option Bytes) (secKey : Bytes)
    (extensions : List WSExtension) : List HttpHeaderField :=
  [⟨ascii "upgrade", ascii "websocket"⟩, ⟨ascii "connection", ascii "upgrade"⟩] ++
    (match generateKeyAnswer secKey with
    | none => []
    | some keyAnswer => [⟨ascii "sec-websocket-accept", keyAnswer⟩]) ++
    (if extensions.isEmpty then []
    else [⟨ascii "sec-websocket-extensions", getAcceptedWsExtensionsAsString extensions⟩])

def handleWsHandshake (p : HeadParser Uri) (generateKeyAnswer : Bytes → Option Bytes)
    (headerFields : List HttpHeaderField) : Except HandshakeFailure Handshake := do
  let state ← headerFields.foldlM (handshakeHeader p) ⟨0, none, []⟩
  if handshakeHeaderAllFound &&& state.foundList ≠ handshakeHeaderAllFound then
    if state.foundList &&& handshakeHeaderUpgrade = 0 then .error .upgradeRequired
    else .error (.badRequest "missing required headers")
  else
    areExtensionsSupported state.extensions
    return ⟨state.extensions,
      handshakeAnswer generateKeyAnswer (state.secKey.getD []) state.extensions⟩

/-! ## zlib -/

def zMinWindowBits : ℕ := 8

def zMaxWindowBits : ℕ := 15

/-- The functions of zlib that take the window bits, and what the loops of `compression.c` then make
of a buffer. -/
structure ZlibStreams where
  deflateInit2 : ℤ → Option (SizedBuffer → SizedBuffer)
  inflateInit2 : ℤ → Option (Bytes → Option Bytes)

/-- `compress_buffer_with_zlib_for_ws`; negative window bits stand for raw deflate. -/
def compressBufferWithZlibForWs (streams : ZlibStreams) (buffer : SizedBuffer)
    (maxWindowBits : ℕ) : SizedBuffer :=
  if maxWindowBits < zMinWindowBits ∨ maxWindowBits > zMaxWindowBits then getEmptySizedBuffer
  else
    match streams.deflateInit2 (-maxWindowBits) with
    | none => getEmptySizedBuffer
    | some deflate => deflate buffer

/-- `decompress_buffer_with_zlib_for_ws`. -/
def decompressBufferWithZlibForWs (streams : ZlibStreams) (buffer : Bytes) (maxWindowBits : ℕ) :
    Option Bytes :=
  if maxWindowBits < zMinWindowBits ∨ maxWindowBits > zMaxWindowBits then none
  else
    match streams.inflateInit2 (-maxWindowBits) with
    | none => none
    | some inflate => inflate buffer

def ZlibStreams.zlib (streams : ZlibStreams) : Zlib where
  compress := compressBufferWithZlibForWs streams
  decompress := decompressBufferWithZlibForWs streams

end SimpleServer.Ws
