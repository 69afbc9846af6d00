import SimpleServer.Http2.Process
import SimpleServer.Lib.Reading
import SimpleServer.Utils.BufferedReader
import SimpleServer.Utils.Serialize

/-!
# Frames on the wire (`http2_send_*_frame` and `parse_http2_frame` in `v2.c`)

A frame is nine bytes of header, which hold the length of the payload in 24 bits, and the
payload. The functions that send return the bytes they write, or `none` where they refuse
or an assertion stops them; writing to the connection and allocating a frame succeed.
The parsers read from the buffered reader. All their error exits are alike: a GOAWAY with an
error code and a text, which is also the error returned (`FrameError`).
-/

namespace SimpleServer.Http2

open SimpleServer.Utils Lib

/-! ## Numbers of the protocol -/

/-- `HTTP2_HEADER_SIZE`. -/
def http2HeaderSize : ℕ := 9

def Http2ErrorCode.toCode : Http2ErrorCode → ℕ
  | .noError => 0x0
  | .protocolError => 0x1
  | .internalError => 0x2
  | .flowControlError => 0x3
  | .settingsTimeout => 0x4
  | .streamClosed => 0x5
  | .frameSizeError => 0x6
  | .refusedStream => 0x7
  | .cancel => 0x8
  | .compressionError => 0x9
  | .connectError => 0xa
  | .enhanceYourCalm => 0xb
  | .inadequateSecurity => 0xc
  | .http1Dot1Required => 0xd
  | .unknown code => code

def Http2ErrorCode.ofCode : ℕ → Http2ErrorCode
  | 0x0 => .noError
  | 0x1 => .protocolError
  | 0x2 => .internalError
  | 0x3 => .flowControlError
  | 0x4 => .settingsTimeout
  | 0x5 => .streamClosed
  | 0x6 => .frameSizeError
  | 0x7 => .refusedStream
  | 0x8 => .cancel
  | 0x9 => .compressionError
  | 0xa => .connectError
  | 0xb => .enhanceYourCalm
  | 0xc => .inadequateSecurity
  | 0xd => .http1Dot1Required
  | code => .unknown code

def Http2SettingsFrameIdentifier.toCode : Http2SettingsFrameIdentifier → ℕ
  | .headerTableSize => 0x1
  | .enablePush => 0x2
  | .maxConcurrentStreams => 0x3
  | .initialWindowSize => 0x4
  | .maxFrameSize => 0x5
  | .maxHeaderListSize => 0x6

def Http2SettingsFrameIdentifier.ofCode : ℕ → Option Http2SettingsFrameIdentifier
  | 0x1 => some .headerTableSize
  | 0x2 => some .enablePush
  | 0x3 => some .maxConcurrentStreams
  | 0x4 => some .initialWindowSize
  | 0x5 => some .maxFrameSize
  | 0x6 => some .maxHeaderListSize
  | _ => none

/-- `Http2FrameType`. -/
inductive Http2FrameType where
  | data
  | headers
  | priority
  | rstStream
  | settings
  | pushPromise
  | ping
  | goaway
  | windowUpdate
  | continuation
deriving Repr, DecidableEq

def Http2FrameType.toByte : Http2FrameType → UInt8
  | .data => 0x00
  | .headers => 0x01
  | .priority => 0x02
  | .rstStream => 0x03
  | .settings => 0x04
  | .pushPromise => 0x05
  | .ping => 0x06
  | .goaway => 0x07
  | .windowUpdate => 0x08
  | .continuation => 0x09

/-- The cases of the switch over the type in `parse_http2_frame`. -/
def Http2FrameType.ofByte (type : UInt8) : Option Http2FrameType :=
  if type = 0x00 then some .data
  else if type = 0x01 then some .headers
  else if type = 0x02 then some .priority
  else if type = 0x03 then some .rstStream
  else if type = 0x04 then some .settings
  else if type = 0x05 then some .pushPromise
  else if type = 0x06 then some .ping
  else if type = 0x07 then some .goaway
  else if type = 0x08 then some .windowUpdate
  else if type = 0x09 then some .continuation
  else none

theorem Http2FrameType.ofByte_toByte (type : Http2FrameType) :
    Http2FrameType.ofByte type.toByte = some type := by
  cases type <;> rfl

theorem Http2FrameType.eq_toByte_of_ofByte {byte : UInt8} {type : Http2FrameType}
    (h : Http2FrameType.ofByte byte = some type) : byte = type.toByte := by
  unfold Http2FrameType.ofByte at h
  simp only [ite_eq_iff, Option.some.injEq, reduceCtorEq, and_false, or_false] at h
  rcases h with ⟨h, rfl⟩ | ⟨-, ⟨h, rfl⟩ | ⟨-, ⟨h, rfl⟩ | ⟨-, ⟨h, rfl⟩ | ⟨-, ⟨h, rfl⟩ |
    ⟨-, ⟨h, rfl⟩ | ⟨-, ⟨h, rfl⟩ | ⟨-, ⟨h, rfl⟩ | ⟨-, ⟨h, rfl⟩ | ⟨-, h, rfl⟩⟩⟩⟩⟩⟩⟩⟩⟩
  all_goals exact h

/-- `Http2FrameFlagEndStream`, the same bit as the ACK flag of SETTINGS and PING. -/
def flagEndStream : UInt8 := 0x01

def flagAck : UInt8 := 0x01

def flagEndHeaders : UInt8 := 0x04

def flagPadded : UInt8 := 0x08

def flagPriority : UInt8 := 0x20

/-- `(flags & flag) != 0`. -/
def hasFlag (flags flag : UInt8) : Bool := flags &&& flag != 0

/-- The `Http2*FrameFlagsAllowed`. -/
def Http2FrameType.flagsAllowed : Http2FrameType → UInt8
  | .data => flagEndStream ||| flagPadded
  | .headers => flagEndStream ||| flagEndHeaders ||| flagPadded ||| flagPriority
  | .priority => 0
  | .rstStream => 0
  | .settings => flagAck
  | .pushPromise => flagEndHeaders ||| flagPadded
  | .ping => flagAck
  | .goaway => 0
  | .windowUpdate => 0
  | .continuation => flagEndHeaders

/-! ## The header of a frame -/

/-- `Http2RawHeader`: the length is a bit field of 24 bits. -/
structure Http2RawHeader where
  length : ℕ
  fits : length < 2 ^ 24
  type : UInt8
  flags : UInt8
  streamIdentifier : ℕ
deriving Repr, DecidableEq

/-- A header; the length is cut to the bits of its field. -/
def Http2RawHeader.of (length : ℕ) (type flags : UInt8) (streamIdentifier : ℕ) : Http2RawHeader :=
  ⟨length % 2 ^ 24, Nat.mod_lt _ (Nat.two_pow_pos 24), type, flags, streamIdentifier⟩

def serializeIdentifier (identifier : ℕ) : Bytes := serializeU32HostToBe (identifier % 2 ^ 31)

/-- The highest bit is reserved and ignored. -/
def deserializeIdentifier (bytes : Bytes) : ℕ := deserializeU32BeToHost bytes % 2 ^ 31

def deserializeU24BeToHost (bytes : Bytes) : ℕ := deserializeU32BeToHost (0 :: bytes)

def parseHttp2RawHeader (headerData : Bytes) : Http2RawHeader :=
  .of (deserializeU24BeToHost headerData) (headerData.getD 3 0) (headerData.getD 4 0)
    (deserializeIdentifier (headerData.drop 5))

/-! ## Sending -/

/-- The bytes of a header. -/
def headerBuffer (header : Http2RawHeader) : Bytes :=
  (serializeU32HostToBe header.length).drop 1 ++ [header.type, header.flags] ++
    serializeIdentifier header.streamIdentifier

def http2SendRawFrame (header : Http2RawHeader) (data : Bytes) : Option Bytes :=
  if data.length ≠ header.length then none else some (headerBuffer header ++ data)

/-- `HTTP2_FRAME_GOAWAY_BASE_SIZE`, `BASE_HTTP2_GOAWAY_FRAME_SIZE`. -/
def goawayBaseSize : ℕ := 8

def http2SendGoawayFrame (frame : Http2GoawayFrame) : Option Bytes :=
  let length := (frame.additionalDebugData.length + goawayBaseSize) % 2 ^ 32
  let header := Http2RawHeader.of length Http2FrameType.goaway.toByte 0 0
  let data := serializeIdentifier frame.lastStreamId ++
    serializeU32HostToBe frame.errorCode.toCode ++ frame.additionalDebugData
  -- assert: "implemented goaway serialization incorrectly"
  if data.length ≠ length then none else http2SendRawFrame header data

def http2SendRstStreamFrame (frame : Http2RstStreamFrame) : Option Bytes :=
  http2SendRawFrame (.of 4 Http2FrameType.rstStream.toByte 0 frame.identifier)
    (serializeU32HostToBe frame.errorCode.toCode)

/-- The loop over the entries: entry `i` is written to the six bytes from byte `i` on. -/
def writeSettings : ℕ → List Http2SettingSingleValue → Bytes → Bytes
  | _, [], data => data
  | i, entry :: entries, data =>
    writeSettings (i + 1) entries
      (writeAt data i (serializeU16HostToBe entry.identifier.toCode ++
        serializeU32HostToBe entry.value))

/-- One byte is allocated for each entry. The last entry reaches five bytes beyond them, into
memory that is not the frame's. -/
def http2SendSettingsFrame (frame : Http2SettingsFrame) : Option Bytes :=
  let length := frame.entries.length % 2 ^ 32
  let header := Http2RawHeader.of length Http2FrameType.settings.toByte
    (if frame.ack then flagAck else 0) 0
  if frame.ack ∧ length ≠ 0 then none
  else
    let memory := List.replicate (length + 5) 0
    http2SendRawFrame header ((writeSettings 0 frame.entries memory).take length)

/-- `HTTP2_PING_FRAME_SIZE`. -/
def http2PingFrameSize : ℕ := 8

def http2SendPingFrame (frame : Http2PingFrame) : Option Bytes :=
  if frame.opaqueData.length ≠ http2PingFrameSize then none
  else
    http2SendRawFrame (.of http2PingFrameSize Http2FrameType.ping.toByte
      (if frame.ack then flagAck else 0) 0) frame.opaqueData

def http2SendDataFrame (frame : Http2DataFrame) : Option Bytes :=
  http2SendRawFrame (.of frame.content.length Http2FrameType.data.toByte
    (if frame.isEnd then flagEndStream else 0) frame.identifier) frame.content

def http2SendHeadersFrame (frame : Http2HeadersFrame) : Option Bytes :=
  -- assert: a priority is "not yet implemented"
  if frame.priorityOpt.isSome then none
  else
    let flags := (if frame.endStream then flagEndStream else 0) |||
      (if frame.endHeaders then flagEndHeaders else 0)
    http2SendRawFrame (.of frame.blockFragment.length Http2FrameType.headers.toByte flags
      frame.identifier) frame.blockFragment

def http2SendContinuationFrame (frame : Http2ContinuationFrame) : Option Bytes :=
  http2SendRawFrame (.of frame.blockFragment.length Http2FrameType.continuation.toByte
    (if frame.endHeaders then flagEndHeaders else 0) frame.identifier) frame.blockFragment

/-- The `http2_send_*_frame` for a frame; there is none for the last three kinds. -/
def http2SendFrame : Http2Frame → Option Bytes
  | .data frame => http2SendDataFrame frame
  | .headers frame => http2SendHeadersFrame frame
  | .rstStream frame => http2SendRstStreamFrame frame
  | .settings frame => http2SendSettingsFrame frame
  | .ping frame => http2SendPingFrame frame
  | .goaway frame => http2SendGoawayFrame frame
  | .continuation frame => http2SendContinuationFrame frame
  | .priority _ => none
  | .pushPromise _ => none
  | .windowUpdate _ => none

/-! ## Parsing -/

/-- An error exit of a parser. -/
structure FrameError where
  errorCode : Http2ErrorCode
  message : String
deriving Repr, DecidableEq

abbrev FrameParser := EStateM FrameError BufferedReader

/-- `buffered_reader_get_amount` and the check of its result. -/
def readAmount (amount : ℕ) (message : String) : FrameParser Bytes := fun reader =>
  match bufferedReaderGetAmount reader amount with
  | (reader, .ok bytes) => .ok bytes reader
  | (reader, _) => .error ⟨.internalError, message⟩ reader

/-- The check of the flags of a frame. -/
def checkFlags (type : Http2FrameType) (header : Http2RawHeader) (message : String) :
    FrameParser Unit :=
  failIf (header.flags &&& type.flagsAllowed ≠ header.flags) ⟨.protocolError, message⟩

/-- The lengths of the padding and of what is before it; a frame without the flag has no
padding. -/
def readPaddingLength (header : Http2RawHeader) : FrameParser (ℕ × ℕ) := do
  let payloadLength := header.length
  if hasFlag header.flags flagPadded then
    failIf (payloadLength < 1)
      ⟨.protocolError, "not enough frame data for padding length field(1 byte)"⟩
    let paddingData ← readAmount 1 "Failed to read enough data for the frame header"
    let paddingLength := (paddingData.getD 0 0).toNat
    failIf (paddingLength ≥ payloadLength - 1)
      ⟨.protocolError, "padding length is greater than remaining length in frame"⟩
    return (paddingLength, payloadLength - 1 - paddingLength)
  else
    return (0, payloadLength)

/-- The content of a frame, copied unless it is empty. -/
def readContent (payloadLength : ℕ) (allocationError : String) : FrameParser Bytes := do
  let raw ← readAmount payloadLength "Failed to read enough data for the frame data"
  if raw.length = 0 then
    return getEmptySizedBuffer.bytes
  else
    let result := sizedBufferAllocateFromReadonlyBuffer raw
    failIf (result.data = none) ⟨.internalError, allocationError⟩
    return result.bytes

def readPadding (paddingLength : ℕ) : FrameParser Unit := do
  if paddingLength ≠ 0 then
    let paddingData ← readAmount paddingLength "Failed to read enough data for the padding data"
    failIf (∃ b ∈ paddingData, b ≠ 0) ⟨.protocolError, "padding bytes are not 0"⟩

def parseHttp2DataFrame (header : Http2RawHeader) : FrameParser Http2Frame := do
  failIf (header.streamIdentifier = 0) ⟨.protocolError, "Data Frame doesn't allow stream id 0"⟩
  checkFlags .data header "invalid data frame flags"
  let (paddingLength, payloadLength) ← readPaddingLength header
  let content ← readContent payloadLength "Failed allocate frame data content buffer"
  readPadding paddingLength
  return .data ⟨content, hasFlag header.flags flagEndStream, header.streamIdentifier⟩

/-- `HTTP2_PRIORITY_INFO_SIZE`. -/
def http2PriorityInfoSize : ℕ := 5

def getHttp2PriorityInfoFromRawData (rawData : Bytes) : Http2FramePriority where
  exclusive := deserializeU32BeToHost rawData / 2 ^ 31 ≠ 0
  dependencyIdentifier := deserializeU32BeToHost rawData % 2 ^ 31
  weight := (rawData.getD 4 0).toNat

/-- The priority in a HEADERS frame, and the length that is left. -/
def readPriority (header : Http2RawHeader) (payloadLength : ℕ) :
    FrameParser (Option Http2FramePriority × ℕ) := do
  if hasFlag header.flags flagPriority then
    failIf (payloadLength < http2PriorityInfoSize)
      ⟨.protocolError, "not enough frame data for priority info"⟩
    let priorityData ← readAmount http2PriorityInfoSize
      "Failed to read enough data for the frame header"
    return (some (getHttp2PriorityInfoFromRawData priorityData),
      payloadLength - http2PriorityInfoSize)
  else
    return (none, payloadLength)

def parseHttp2HeadersFrame (header : Http2RawHeader) : FrameParser Http2Frame := do
  failIf (header.streamIdentifier = 0) ⟨.protocolError, "Headers Frame doesn't allow stream id 0"⟩
  checkFlags .headers header "invalid headers frame flags"
  let (paddingLength, payloadLength) ← readPaddingLength header
  let (priorityOpt, payloadLength) ← readPriority header payloadLength
  let blockFragment ← readContent payloadLength "Failed allocate headers block fragment buffer"
  readPadding paddingLength
  return .headers ⟨priorityOpt, blockFragment, header.streamIdentifier,
    hasFlag header.flags flagEndStream, hasFlag header.flags flagEndHeaders⟩

def parseHttp2PriorityFrame (header : Http2RawHeader) : FrameParser Http2Frame := do
  failIf (header.streamIdentifier = 0) ⟨.protocolError, "Priority Frame doesn't allow stream id 0"⟩
  checkFlags .priority header "invalid priority frame flags"
  failIf (header.length ≠ http2PriorityInfoSize)
    ⟨.frameSizeError, "not enough frame data for priority info"⟩
  let priorityData ← readAmount http2PriorityInfoSize
    "Failed to read enough data for the frame header"
  return .priority ⟨getHttp2PriorityInfoFromRawData priorityData, header.streamIdentifier⟩

/-- `HTTP2_RST_STREAM_SIZE`. -/
def http2RstStreamSize : ℕ := 4

def parseHttp2RstStreamFrame (header : Http2RawHeader) : FrameParser Http2Frame := do
  failIf (header.streamIdentifier = 0)
    ⟨.protocolError, "Rst stream Frame doesn't allow stream id 0"⟩
  checkFlags .rstStream header "invalid rst stream frame flags"
  failIf (header.length ≠ http2RstStreamSize)
    ⟨.frameSizeError, "not enough frame data for rst stream data"⟩
  let errorCodeData ← readAmount http2RstStreamSize
    "Failed to read enough data for the frame header"
  return .rstStream ⟨.ofCode (deserializeU32BeToHost errorCodeData), header.streamIdentifier⟩

/-- `MAX_FLOW_CONTROL_WINDOW_SIZE`. -/
def maxFlowControlWindowSize : ℕ := 2 ^ 31 - 1

/-- `MAX_MAX_FRAME_SIZE`. -/
def maxMaxFrameSize : ℕ := 16777215

/-- `DEFAULT_SETTINGS_MAX_FRAME_SIZE`. -/
def defaultSettingsMaxFrameSize : ℕ := 2 ^ 14

/-- `HTTP2_SETTINGS_FRAME_SINGLE_SIZE`. -/
def http2SettingsFrameSingleSize : ℕ := 6

/-- The checks on the value of a setting. -/
def settingsValueError (identifier : Http2SettingsFrameIdentifier) (value : ℕ) :
    Option FrameError :=
  match identifier with
  | .enablePush =>
    if value ≠ 0 ∧ value ≠ 1 then
      some ⟨.protocolError, "Invalid SETTINGS_ENABLE_PUSH settings value"⟩
    else none
  | .initialWindowSize =>
    if value > maxFlowControlWindowSize then
      some ⟨.flowControlError, "Invalid SETTINGS_INITIAL_WINDOW_SIZE settings value"⟩
    else none
  | .maxFrameSize =>
    if value > maxMaxFrameSize + 1 ∨ value < defaultSettingsMaxFrameSize then
      some ⟨.protocolError, "Invalid SETTINGS_MAX_FRAME_SIZE settings value"⟩
    else none
  | _ => none

/-- The loop of `parse_raw_http2_settings_frame` from byte `i` on. -/
def parseSettingsLoop (data : Bytes) :
    ℕ → ℕ → List Http2SettingSingleValue → Except FrameError (List Http2SettingSingleValue)
  | 0, _, entries => .ok entries
  | rounds + 1, i, entries =>
    let value := deserializeU32BeToHost (data.drop (i + 2))
    match Http2SettingsFrameIdentifier.ofCode (deserializeU16BeToHost (data.drop i)) with
    -- an unknown setting is ignored
    | none => parseSettingsLoop data rounds (i + http2SettingsFrameSingleSize) entries
    | some identifier =>
      match settingsValueError identifier value with
      | some e => .error e
      | none =>
        parseSettingsLoop data rounds (i + http2SettingsFrameSingleSize)
          (entries ++ [⟨identifier, value⟩])

def parseRawHttp2SettingsFrame (input : Bytes) (ack : Bool) :
    Except FrameError Http2SettingsFrame :=
  if input.length % http2SettingsFrameSingleSize ≠ 0 then
    .error ⟨.frameSizeError, "invalid settings frame length, not a multiple of 6"⟩
  else
    match parseSettingsLoop input (input.length / http2SettingsFrameSingleSize) 0 [] with
    | .error e => .error e
    | .ok entries => .ok ⟨ack, entries⟩

/-- The payload of a SETTINGS frame. -/
def readSettingsData (length : ℕ) : FrameParser Bytes :=
  if length > 0 then readAmount length "Failed to read enough data for the frame data"
  else pure getEmptySizedBuffer.bytes

def parseHttp2SettingsFrame (header : Http2RawHeader) : FrameParser Http2Frame := do
  failIf (header.streamIdentifier ≠ 0) ⟨.protocolError, "Settings Frame only allows stream id 0"⟩
  checkFlags .settings header "invalid settings frame flags"
  if hasFlag header.flags flagAck then
    failIf (header.length ≠ 0)
      ⟨.frameSizeError, "ack in settings frame with a non zero payload is invalid"⟩
    return .settings ⟨true, []⟩
  else
    failIf (header.length % http2SettingsFrameSingleSize ≠ 0)
      ⟨.frameSizeError, "invalid settings frame length, not a multiple of 6"⟩
    let frameData ← readSettingsData header.length
    -- the copy is not checked, and one that fails is an empty frame
    match parseRawHttp2SettingsFrame (sizedBufferAllocateFromReadonlyBuffer frameData).bytes
      false with
    | .error e => throw e
    | .ok frame => return .settings frame

/-- The memory from the last byte the reader delivered on: the rest of its buffer, and what
is behind the buffer. -/
def memoryFromLastByte (behind : Bytes) (reader : BufferedReader) : Bytes :=
  reader.data.buffer.drop (reader.data.cursor - 1) ++ behind

/-- One byte is read for the promised stream identifier, but four bytes are looked at. -/
def parseHttp2PushPromiseFrame (context : HTTP2Context) (behind : Bytes)
    (header : Http2RawHeader) : FrameParser Http2Frame := do
  failIf (header.streamIdentifier ≠ 0)
    ⟨.protocolError, "Push promise Frame only allows stream id 0"⟩
  checkFlags .pushPromise header "invalid push promise frame flags"
  failIf (context.settings.enablePush = false)
    ⟨.protocolError, "push promise frames are disabled per settings"⟩
  let (paddingLength, payloadLength) ← readPaddingLength header
  failIf (payloadLength < 4)
    ⟨.protocolError, "not enough frame data for promised stream identifier field(4 bytes)"⟩
  let _ ← readAmount 1 "Failed to read enough data for the frame header"
  let reader ← get
  let promisedStreamIdentifier := deserializeIdentifier (memoryFromLastByte behind reader)
  let blockFragment ← readContent (payloadLength - 4)
    "Failed allocate headers block fragment buffer"
  readPadding paddingLength
  return .pushPromise ⟨promisedStreamIdentifier, blockFragment, header.streamIdentifier,
    hasFlag header.flags flagEndHeaders⟩

def parseHttp2PingFrame (header : Http2RawHeader) : FrameParser Http2Frame := do
  failIf (header.streamIdentifier ≠ 0) ⟨.protocolError, "The ping Frame only allows stream id 0"⟩
  checkFlags .ping header "invalid ping frame flags"
  failIf (header.length ≠ http2PingFrameSize)
    ⟨.frameSizeError, "not enough frame data for ping data"⟩
  let raw ← readAmount http2PingFrameSize "Failed to read enough data for the frame header"
  let opaqueData := sizedBufferAllocateFromReadonlyBuffer raw
  failIf (opaqueData.data = none) ⟨.internalError, "Failed allocate frame data content buffer"⟩
  return .ping ⟨hasFlag header.flags flagAck, opaqueData.bytes⟩

/-- The debug data of a GOAWAY. -/
def readDebugData (additionalDataSize : ℕ) : FrameParser Bytes := do
  if additionalDataSize > 0 then
    let raw ← readAmount additionalDataSize "Failed to read enough data for the frame data"
    let additionalDebugData := sizedBufferAllocateFromReadonlyBuffer raw
    failIf (additionalDebugData.data = none)
      ⟨.internalError, "Failed allocate frame data content buffer"⟩
    return additionalDebugData.bytes
  else
    return []

def parseHttp2GoawayFrame (header : Http2RawHeader) : FrameParser Http2Frame := do
  failIf (header.streamIdentifier ≠ 0)
    ⟨.protocolError, "The goaway Frame only allows stream id 0"⟩
  checkFlags .goaway header "invalid goaway frame flags"
  failIf (header.length < goawayBaseSize)
    ⟨.frameSizeError, "invalid goaway frame length, not enough data"⟩
  let data ← readAmount goawayBaseSize "Failed to read enough data for the frame data"
  let additionalDebugData ← readDebugData (header.length - goawayBaseSize)
  return .goaway ⟨deserializeIdentifier data, .ofCode (deserializeU32BeToHost (data.drop 4)),
    additionalDebugData⟩

/-- `HTTP2_WINDOW_UPDATE_FRAME_SIZE`. -/
def http2WindowUpdateFrameSize : ℕ := 4

def parseHttp2WindowUpdateFrame (header : Http2RawHeader) : FrameParser Http2Frame := do
  checkFlags .windowUpdate header "invalid windows update frame flags"
  failIf (header.length ≠ http2WindowUpdateFrameSize)
    ⟨.frameSizeError, "invalid window update frame length, not enough data"⟩
  let data ← readAmount http2WindowUpdateFrameSize
    "Failed to read enough data for the frame header"
  return .windowUpdate ⟨deserializeU32BeToHost data % 2 ^ 31, header.streamIdentifier⟩

def parseHttp2ContinuationFrame (header : Http2RawHeader) : FrameParser Http2Frame := do
  failIf (header.streamIdentifier = 0)
    ⟨.protocolError, "Continuation Frame doesn't allow stream id 0"⟩
  checkFlags .continuation header "invalid continuation frame flags"
  let blockFragment ← readContent header.length "Failed allocate headers block fragment buffer"
  return .continuation ⟨blockFragment, header.streamIdentifier,
    hasFlag header.flags flagEndHeaders⟩

/-- The switch of `parse_http2_frame` over the type. -/
def parseHttp2FramePayload (context : HTTP2Context) (behind : Bytes) (header : Http2RawHeader) :
    FrameParser Http2Frame :=
  match Http2FrameType.ofByte header.type with
  | some .data => parseHttp2DataFrame header
  | some .headers => parseHttp2HeadersFrame header
  | some .priority => parseHttp2PriorityFrame header
  | some .rstStream => parseHttp2RstStreamFrame header
  | some .settings => parseHttp2SettingsFrame header
  | some .pushPromise => parseHttp2PushPromiseFrame context behind header
  | some .ping => parseHttp2PingFrame header
  | some .goaway => parseHttp2GoawayFrame header
  | some .windowUpdate => parseHttp2WindowUpdateFrame header
  | some .continuation => parseHttp2ContinuationFrame header
  | none => throw ⟨.internalError, "Unrecognized frame type"⟩

/-- `behind` is the memory behind the buffer of the reader, which only a PUSH_PROMISE meets. -/
def parseHttp2Frame (context : HTTP2Context) (behind : Bytes) : FrameParser Http2Frame := do
  let headerData ← readAmount http2HeaderSize "Failed to read enough data for the frame header"
  let header := parseHttp2RawHeader headerData
  failIf (header.length > context.settings.maxFrameSize) ⟨.frameSizeError, "Header size too big"⟩
  parseHttp2FramePayload context behind header

end SimpleServer.Http2
