import SimpleServer.Ws.Frame

/-!
# WebSocket extensions (`ws/extension.c`)

The pipeline of the negotiated extensions. The one extension is `permessage-deflate`: a message
is compressed exactly when the first bit of the three reserved ones is set in its first frame,
and a reply is compressed when the message it answers was. The compressors are a parameter
(`Zlib`).
-/

namespace SimpleServer.Ws

open SimpleServer.Utils

structure WsDeflateSingleOption where
  noContextTakeover : Bool
  maxWindowBits : ℕ
deriving Repr, DecidableEq

structure WsDeflateOptions where
  client : WsDeflateSingleOption
  server : WsDeflateSingleOption
deriving Repr, DecidableEq

inductive WSExtension
  | perMessageDeflate (options : WsDeflateOptions)
deriving Repr, DecidableEq

/-- A message to be sent. -/
structure WebSocketMessage where
  isText : Bool
  buffer : SizedBuffer

/-- A message as it is put together from its frames; there is memory for it. -/
structure ReceivedMessage where
  isText : Bool
  buffer : Bytes
deriving Repr, DecidableEq

/-- `compress_buffer_with_zlib_for_ws` and `decompress_buffer_with_zlib_for_ws`; `NULL` is an
error. -/
structure Zlib where
  compress : SizedBuffer → ℕ → SizedBuffer
  decompress : Bytes → ℕ → Option Bytes

structure ExtensionMessageReceiveState where
  isCompressedMessage : Bool
deriving Repr, DecidableEq

/-- `WsExtensionMaskPerMessageDeflate`. -/
def wsExtensionMaskPerMessageDeflate : UInt8 := 0x01

/-- The bit for a compressed message, of the three reserved bits. -/
def rsvCompressed : UInt8 := 0b100

/-- The pipeline; its functions are those of the extensions, in order. -/
structure ExtensionPipeline where
  settings : ExtensionReceivePipelineSettings
  processFns : List WSExtension
  extensionMask : UInt8
deriving Repr, DecidableEq

def ExtensionPipeline.activeExtensions (pipeline : ExtensionPipeline) : ℕ :=
  pipeline.processFns.length

def getPipelineSettings (extensions : List WSExtension) : ExtensionReceivePipelineSettings :=
  ⟨extensions.foldl
    (fun allowed extension =>
      match extension with
      | .perMessageDeflate _ => allowed ||| rsvCompressed) 0⟩

def getExtensionPipeline (extensions : List WSExtension) : ExtensionPipeline where
  settings := getPipelineSettings extensions
  processFns := extensions
  extensionMask := extensions.foldl
    (fun mask extension =>
      match extension with
      | .perMessageDeflate _ => mask ||| wsExtensionMaskPerMessageDeflate) 0

/-- `permessage-deflate` is one of the extensions. -/
def ExtensionPipeline.deflates (pipeline : ExtensionPipeline) : Bool :=
  pipeline.extensionMask &&& wsExtensionMaskPerMessageDeflate != 0

/-- `init_extension_receive_message_state`; without extensions there is none. -/
def initExtensionReceiveMessageState (pipeline : ExtensionPipeline) :
    Option ExtensionMessageReceiveState :=
  if pipeline.activeExtensions = 0 then none else some ⟨false⟩

/-- The message that is received, or was received, is compressed. -/
def isCompressed (state : Option ExtensionMessageReceiveState) : Bool :=
  state.any ExtensionMessageReceiveState.isCompressedMessage

/-! ## Compression -/

/-- The tail of a DEFLATE block that is left out in messages. -/
def wsTrailerData : Bytes := [0x00, 0x00, 0xff, 0xff]

def decompressWsMessage (zlib : Zlib) (options : WsDeflateOptions) (message : ReceivedMessage) :
    Except String ReceivedMessage :=
  if !options.client.noContextTakeover then .error "client context takeover is not supported"
  else
    match zlib.decompress (message.buffer ++ wsTrailerData) options.client.maxWindowBits with
    | none => .error "decompress error"
    | some result => .ok { message with buffer := result }

def compressWsMessage (zlib : Zlib) (options : WsDeflateOptions) (message : WebSocketMessage) :
    Except String WebSocketMessage :=
  if !options.server.noContextTakeover then .error "server context takeover is not supported"
  else
    let result := zlib.compress message.buffer options.server.maxWindowBits
    if result.data.isNone then .error "compress error"
    else .ok { message with buffer := result }

/-! ## Receiving -/

def extensionReceivePipelineIsValidContFrame (pipeline : ExtensionPipeline)
    (message : WebSocketRawMessage) : Option String :=
  if pipeline.activeExtensions = 0 then none
  else if pipeline.deflates then
    if message.rsvBytes &&& rsvCompressed ≠ 0 then
      some "Received Opcode CONTINUATION with compressed bit set, this is an extension error"
    else none
  else none

def extensionReceivePipelineProcessStartMessage (pipeline : ExtensionPipeline)
    (state : Option ExtensionMessageReceiveState) (message : WebSocketRawMessage) :
    Option ExtensionMessageReceiveState :=
  if pipeline.activeExtensions = 0 then state
  else if pipeline.deflates then
    state.map fun _ => ⟨message.rsvBytes &&& rsvCompressed != 0⟩
  else state

/-- `extension_receive_pipeline_process_finished_message`; the extensions are run in reverse. -/
def extensionReceivePipelineProcessFinishedMessage (zlib : Zlib) (pipeline : ExtensionPipeline)
    (state : Option ExtensionMessageReceiveState) (message : ReceivedMessage) :
    Except String ReceivedMessage :=
  if pipeline.activeExtensions = 0 then .ok message
  else
    pipeline.processFns.reverse.foldlM
      (fun message extension =>
        match extension with
        | .perMessageDeflate options =>
          if !isCompressed state then .ok message else decompressWsMessage zlib options message)
      message

/-! ## Sending -/

/-- `ExtensionSendState`. -/
structure ExtensionSendState where
  extensionPipeline : ExtensionPipeline
  messageState : Option ExtensionMessageReceiveState

def extensionSendPipelineProcessInitialMessage (zlib : Zlib) (sendState : ExtensionSendState)
    (message : WebSocketMessage) : Except String WebSocketMessage :=
  if sendState.extensionPipeline.activeExtensions = 0 then .ok message
  else
    sendState.extensionPipeline.processFns.foldlM
      (fun message extension =>
        match extension with
        | .perMessageDeflate options =>
          if !isCompressed sendState.messageState then .ok message
          else compressWsMessage zlib options message)
      message

def extensionSendPipelineProcessStartMessage (sendState : ExtensionSendState)
    (message : WebSocketRawMessage) : WebSocketRawMessage :=
  if sendState.extensionPipeline.activeExtensions = 0 then message
  else if sendState.extensionPipeline.deflates then
    if isCompressed sendState.messageState then
      { message with rsvBytes := message.rsvBytes ||| rsvCompressed }
    else message
  else message

/-- `extension_send_pipeline_process_cont_message`. -/
def extensionSendPipelineProcessContMessage (_sendState : ExtensionSendState)
    (message : WebSocketRawMessage) : WebSocketRawMessage :=
  message

end SimpleServer.Ws
