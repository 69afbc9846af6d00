import SimpleServer.Hpack.Encode

/-!
# Frames, streams and the connection context (`v2.h`, `v2.c`)

The data model of an HTTP/2 connection: the ten frame types as the frame parser
delivers them, the stream map and the connection state with its two HPACK states.
Buffers are byte lists. Stream identifiers are numbers; the map is a function.
-/

namespace SimpleServer.Http2

open Hpack

structure Http2FramePriority where
  exclusive : Bool
  dependencyIdentifier : ℕ
  weight : ℕ
deriving Repr, DecidableEq

/-- `DEFAULT_STREAM_PRIORITY_EXT`. -/
def defaultStreamPriorityExt (identifier : ℕ) : Http2FramePriority := ⟨false, identifier, 16⟩

/-- `DEFAULT_STREAM_PRIORITY`. -/
def defaultStreamPriority : Http2FramePriority := defaultStreamPriorityExt 0

/-- The error codes; a frame of the peer may also hold a number that is none of them. -/
inductive Http2ErrorCode where
  | noError
  | protocolError
  | internalError
  | flowControlError
  | settingsTimeout
  | streamClosed
  | frameSizeError
  | refusedStream
  | cancel
  | compressionError
  | connectError
  | enhanceYourCalm
  | inadequateSecurity
  | http1Dot1Required
  | unknown (code : ℕ)
deriving Repr, DecidableEq

structure Http2DataFrame where
  content : Bytes
  isEnd : Bool
  identifier : ℕ
deriving Repr, DecidableEq

structure Http2HeadersFrame where
  priorityOpt : Option Http2FramePriority
  blockFragment : Bytes
  identifier : ℕ
  endStream : Bool
  endHeaders : Bool
deriving Repr, DecidableEq

structure Http2PriorityFrame where
  priority : Http2FramePriority
  identifier : ℕ
deriving Repr, DecidableEq

structure Http2RstStreamFrame where
  errorCode : Http2ErrorCode
  identifier : ℕ
deriving Repr, DecidableEq

/-- The identifiers the settings parser lets through; all others are dropped there. -/
inductive Http2SettingsFrameIdentifier where
  | headerTableSize
  | enablePush
  | maxConcurrentStreams
  | initialWindowSize
  | maxFrameSize
  | maxHeaderListSize
deriving Repr, DecidableEq

structure Http2SettingSingleValue where
  identifier : Http2SettingsFrameIdentifier
  value : ℕ
deriving Repr, DecidableEq

structure Http2SettingsFrame where
  ack : Bool
  entries : List Http2SettingSingleValue
deriving Repr, DecidableEq

structure Http2PushPromiseFrame where
  promisedStreamIdentifier : ℕ
  blockFragment : Bytes
  identifier : ℕ
  endHeaders : Bool
deriving Repr, DecidableEq

structure Http2PingFrame where
  ack : Bool
  opaqueData : Bytes
deriving Repr, DecidableEq

structure Http2GoawayFrame where
  lastStreamId : ℕ
  errorCode : Http2ErrorCode
  additionalDebugData : Bytes
deriving Repr, DecidableEq

structure Http2WindowUpdateFrame where
  windowSizeIncrement : ℕ
  identifier : ℕ
deriving Repr, DecidableEq

structure Http2ContinuationFrame where
  blockFragment : Bytes
  identifier : ℕ
  endHeaders : Bool
deriving Repr, DecidableEq

inductive Http2Frame where
  | data (frame : Http2DataFrame)
  | headers (frame : Http2HeadersFrame)
  | priority (frame : Http2PriorityFrame)
  | rstStream (frame : Http2RstStreamFrame)
  | settings (frame : Http2SettingsFrame)
  | pushPromise (frame : Http2PushPromiseFrame)
  | ping (frame : Http2PingFrame)
  | goaway (frame : Http2GoawayFrame)
  | windowUpdate (frame : Http2WindowUpdateFrame)
  | continuation (frame : Http2ContinuationFrame)
deriving Repr, DecidableEq

structure Http2Settings where
  headerTableSize : ℕ
  enablePush : Bool
  maxConcurrentStreams : ℕ
  initialWindowSize : ℕ
  maxFrameSize : ℕ
  maxHeaderListSize : ℕ
deriving Repr, DecidableEq

inductive Http2StreamState where
  | idle
  | reserved
  | open
  | halfClosed
  | closed
deriving Repr, DecidableEq

structure Http2StreamHeaders where
  finished : Bool
  headerBlocks : List Bytes
deriving Repr, DecidableEq

structure Http2StreamContent where
  finished : Bool
  dataBlocks : List Bytes
deriving Repr, DecidableEq

structure Http2Stream where
  state : Http2StreamState
  headers : Http2StreamHeaders
  content : Http2StreamContent
  endStream : Bool
  priority : Http2FramePriority
deriving Repr, DecidableEq

/-- `EMPTY_STREAM_HEADERS`. -/
def emptyStreamHeaders : Http2StreamHeaders := ⟨false, []⟩

/-- `EMPTY_STREAM_CONTENT`. -/
def emptyStreamContent : Http2StreamContent := ⟨false, []⟩

inductive Http2State where
  | open
  | closed (closedReason : Http2ErrorCode)
deriving Repr, DecidableEq

structure Http2HpackState where
  compressState : HpackCompressState
  decompressState : HpackDecompressState

structure Http2ContextState where
  lastStreamId : ℕ
  state : Http2State
  hpackState : Http2HpackState

structure HTTP2Context where
  settings : Http2Settings
  streams : ℕ → Option Http2Stream
  state : Http2ContextState

/-- `DEFAULT_HEADER_TABLE_SIZE`. -/
def defaultHeaderTableSize : ℕ := 4096

def http2DefaultSettings : Http2Settings where
  headerTableSize := defaultHeaderTableSize
  enablePush := true
  maxConcurrentStreams := 2 ^ 32 - 1
  initialWindowSize := 65535
  maxFrameSize := 2 ^ 14
  maxHeaderListSize := 2 ^ 32 - 1

/-- `get_default_hpack_state`. -/
def getDefaultHpackState (maxDynamicTableByteSize : ℕ) : Http2HpackState :=
  ⟨getDefaultHpackDynamicTableState maxDynamicTableByteSize,
    getDefaultHpackDynamicTableState maxDynamicTableByteSize⟩

def http2DefaultContext : HTTP2Context where
  settings := http2DefaultSettings
  streams := fun _ => none
  state := ⟨0, .open, getDefaultHpackState defaultHeaderTableSize⟩

namespace HTTP2Context

/-- The context with another slot for one stream. -/
def setStream (context : HTTP2Context) (identifier : ℕ) (stream : Http2Stream) : HTTP2Context :=
  { context with streams := fun i => if i = identifier then some stream else context.streams i }

/-- The context with other HPACK states. -/
def setDecompressState (context : HTTP2Context) (decompressState : HpackDecompressState) :
    HTTP2Context :=
  { context with
    state := { context.state with
      hpackState := { context.state.hpackState with decompressState := decompressState } } }

def setCompressState (context : HTTP2Context) (compressState : HpackCompressState) :
    HTTP2Context :=
  { context with
    state := { context.state with
      hpackState := { context.state.hpackState with compressState := compressState } } }

@[simp] theorem setStream_streams (context : HTTP2Context) (id i : ℕ) (s : Http2Stream) :
    (context.setStream id s).streams i = if i = id then some s else context.streams i := rfl

@[simp] theorem setStream_state (context : HTTP2Context) (id : ℕ) (s : Http2Stream) :
    (context.setStream id s).state = context.state := rfl

end HTTP2Context

end SimpleServer.Http2
