import SimpleServer.Lib.Fragments
import SimpleServer.Ws.Extension

/-!
# Sending WebSocket messages (`ws_send_message` in `ws/thread_manager.c`)

A message goes through the extensions and is sent in one frame, or is cut into fragments. The
connection is taken to accept every frame; after one that it does not accept, nothing more of
the message is sent.
-/

namespace SimpleServer.Ws

open SimpleServer.Utils

def wsOpcodeCont : WsOpcode := 0x0

def wsOpcodeText : WsOpcode := 0x1

def wsOpcodeBin : WsOpcode := 0x2

def wsOpcodeClose : WsOpcode := 0x8

def wsOpcodePing : WsOpcode := 0x9

def wsOpcodePong : WsOpcode := 0xA

inductive WsFragmentOption
  | off
  | auto
  | set (fragmentSize : ℕ)
deriving Repr, DecidableEq

/-- `WS_MINIMUM_FRAGMENT_SIZE`. -/
def wsMinimumFragmentSize : ℕ := 16

/-- `WS_MAXIMUM_HEADER_LENGTH`. -/
def wsMaximumHeaderLength : ℕ :=
  rawMessageHeaderSize + rawMessagePayload2Size + rawMessageMaskByteSize

/-- `DEFAULT_AUTO_FRAGMENT_SIZE`. -/
def defaultAutoFragmentSize : ℕ := 4096

/-- What sending depends on outside. -/
structure SendEnv where
  zlib : Zlib
  /-- The send buffer of the socket, if `getsockopt` tells it. -/
  sndbuf : Option ℤ

/-- The opcode of the first frame. -/
def startOpcode (isText : Bool) : WsOpcode := if isText then wsOpcodeText else wsOpcodeBin

/-- The frame of `ws_send_message_internal_normal`. -/
def normalFrame (message : WebSocketMessage) (sendState : ExtensionSendState) :
    WebSocketRawMessage :=
  extensionSendPipelineProcessStartMessage sendState
    ⟨true, startOpcode message.isText, message.buffer, 0b000⟩

/-- A part of the buffer. -/
def partOf (buffer : SizedBuffer) (start length : ℕ) : SizedBuffer :=
  ⟨some ((buffer.bytes.drop start).take length), by
    have hfits := buffer.fits
    simp only [Option.getD_some, List.length_take, List.length_drop]
    exact lt_of_le_of_lt (le_trans (min_le_right _ _) (Nat.sub_le _ _)) hfits⟩

/-- The frame of a part of the message, before the extensions see it. -/
def partFrame (message : WebSocketMessage) (part : Lib.Fragment UInt8) : WebSocketRawMessage :=
  ⟨part.last, if part.offset = 0 then startOpcode message.isText else wsOpcodeCont,
    partOf message.buffer part.offset part.content.length, 0b000⟩

/-- The frames of the loop in `ws_send_message_internal_fragmented`. A part that does not start
at 0 is put through the pipeline for start messages, the first one through that for
continuations. -/
def fragmentedFrames (message : WebSocketMessage) (fragmentSize : ℕ)
    (sendState : ExtensionSendState) : List WebSocketRawMessage :=
  (Lib.fragments fragmentSize message.buffer.bytes).map fun part =>
    if part.offset ≠ 0 then
      extensionSendPipelineProcessStartMessage sendState (partFrame message part)
    else extensionSendPipelineProcessContMessage sendState (partFrame message part)

/-- The frames that `ws_send_message_internal_fragmented` makes. -/
def framesWithSize (message : WebSocketMessage) (fragmentSize : ℕ)
    (sendState : ExtensionSendState) : List WebSocketRawMessage :=
  let fragmentSize :=
    if fragmentSize < wsMinimumFragmentSize then wsMinimumFragmentSize else fragmentSize
  if message.buffer.size < fragmentSize then [normalFrame message sendState]
  else fragmentedFrames message fragmentSize sendState

/-- The size for `WsFragmentOptionAuto`. -/
def autoFragmentSize (sndbuf : Option ℤ) : ℕ :=
  match sndbuf with
  | none => defaultAutoFragmentSize - wsMaximumHeaderLength
  | some bufferSize =>
    if bufferSize ≥ wsMaximumHeaderLength then bufferSize.toNat - wsMaximumHeaderLength
    else defaultAutoFragmentSize - wsMaximumHeaderLength

/-- The frames of a message that has been through the extensions. -/
def messageFrames (env : SendEnv) (fragmentOption : WsFragmentOption)
    (message : WebSocketMessage) (sendState : ExtensionSendState) : List WebSocketRawMessage :=
  match fragmentOption with
  | .off => [normalFrame message sendState]
  | .auto => framesWithSize message (autoFragmentSize env.sndbuf) sendState
  | .set fragmentSize => framesWithSize message fragmentSize sendState

/-- `ws_send_message`: the frames that are sent, or `none` for an error of an extension. -/
def wsSendMessage (env : SendEnv) (message : WebSocketMessage) (fragmentOption : WsFragmentOption)
    (sendState : ExtensionSendState) : Option (List WebSocketRawMessage) :=
  match extensionSendPipelineProcessInitialMessage env.zlib sendState message with
  | .error _ => none
  | .ok message => some (messageFrames env fragmentOption message sendState)

end SimpleServer.Ws
