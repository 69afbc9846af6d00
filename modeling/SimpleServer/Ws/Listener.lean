import SimpleServer.Utils.Bytes
import SimpleServer.Ws.Send

/-!
# The WebSocket listener (`ws_listener_function` in `ws/thread_manager.c`)

The loop of one connection: a frame is read, checked and handled, and a message whose last frame
arrived is passed to the function of the connection. A step is one frame. What survives from one
frame to the next is the message that is put together (`Receiving`).

`utf8proc` and the function of the connection are parameters. Allocations are taken to
succeed.
-/

namespace SimpleServer.Ws

open SimpleServer.Utils

/-! ## UTF-8 (`utils/utf8_helper.c`) -/

/-- The bytes encode some characters. -/
def ValidUtf8 (bytes : Bytes) : Prop :=
  ∃ chars : List Char, chars.flatMap String.utf8EncodeChar = bytes

/-- `utf8proc_decompose`, which gives the number of code points or the text of
`utf8proc_errmsg`. -/
structure Utf8proc where
  decompose : Bytes → Except Bytes ℕ
  /-- It succeeds on UTF-8. -/
  ok_iff : ∀ bytes, (∃ size, decompose bytes = .ok size) ↔ ValidUtf8 bytes
  /-- The texts are short. -/
  errmsg_length : ∀ bytes text, decompose bytes = .error text → text.length ≤ 60

/-- The core library knows which bytes these are. -/
theorem validUtf8_iff (bytes : Bytes) :
    ValidUtf8 bytes ↔ ByteArray.IsValidUTF8 bytes.toByteArray := by
  constructor
  · rintro ⟨chars, hchars⟩
    exact ⟨chars, by rw [← hchars]; rfl⟩
  · rintro ⟨chars, hchars⟩
    refine ⟨chars, ?_⟩
    have := congrArg (fun array => array.data.toList) hchars
    simpa [List.utf8Encode] using this.symm

/-- A decoder as `utf8proc` is one. -/
instance : Inhabited Utf8proc where
  default :=
    { decompose := fun bytes =>
        match bytes.toByteArray.utf8Decode? with
        | some chars => .ok chars.size
        | none => .error (ascii "Invalid UTF-8 string")
      ok_iff := by
        intro bytes
        rw [validUtf8_iff, ← ByteArray.isSome_utf8Decode?_iff]
        cases bytes.toByteArray.utf8Decode? with
        | some chars => simp
        | none => simp
      errmsg_length := by
        intro bytes text h
        cases hdecoded : bytes.toByteArray.utf8Decode? with
        | some chars =>
          rw [hdecoded] at h
          cases h
        | none =>
          rw [hdecoded] at h
          cases h
          decide }

def getUtf8String (utf8 : Utf8proc) (bytes : Bytes) : Except Bytes ℕ := utf8.decompose bytes

/-! ## Closing -/

/-- A code and a text for the peer. -/
structure CloseReason where
  code : ℕ
  message : Option Bytes
deriving Repr, DecidableEq

def closeCodeNormalClosure : ℕ := 1000

def closeCodeProtocolError : ℕ := 1002

def closeCodeInvalidFramePayloadData : ℕ := 1007

/-- `CloseCodeProtocolError` with a text. -/
def protocolError (text : String) : CloseReason := ⟨closeCodeProtocolError, some (ascii text)⟩

def maybeParseCloseReason (frame : WebSocketRawMessage) (alsoParseMessage : Bool) :
    Option CloseReason :=
  if frame.opCode ≠ wsOpcodeClose then none
  else if frame.payload.size < 2 then none
  else
    let code := deserializeU16BeToHost frame.payload.bytes
    if frame.payload.size > maxControlFramePayload then none
    else if frame.payload.size > 2 ∧ alsoParseMessage then
      some ⟨code, some (frame.payload.bytes.drop 2)⟩
    else some ⟨code, none⟩

def isValidCloseCode (closeCode : ℕ) : Bool :=
  if closeCode ≤ 999 then false
  else if closeCode ≥ 3000 ∧ closeCode ≤ 4999 then true
  else if closeCode ≥ 1000 ∧ closeCode ≤ 2999 then
    if closeCode ≥ 1004 ∧ closeCode ≤ 1006 then false
    else if closeCode ≥ 1015 then false
    else true
  else false

/-- The frame of `ws_send_close_message_raw_internal`. -/
def closeFrame (reason : CloseReason) : WebSocketRawMessage where
  fin := true
  opCode := wsOpcodeClose
  payload := sizedBufferAllocateFromReadonlyBuffer
    (serializeU16HostToBe reason.code ++ reason.message.getD [])
  rsvBytes := 0b000

/-- What the listener does that can be seen. -/
inductive ListenerOutput
  | delivered (message : ReceivedMessage)
  /-- The frame is handed to the connection. -/
  | sent (frame : WebSocketRawMessage)

/-- `ws_send_message_raw_internal` without a mask. -/
def sendRaw (frame : WebSocketRawMessage) : List ListenerOutput :=
  if (wsSendMessageRawInternal frame false 0).isSome then [.sent frame] else []

def closeWebsocketConnection (reason : CloseReason) : List ListenerOutput :=
  sendRaw (closeFrame reason)

/-! ## Frames -/

/-- The message that is put together, and whether there is one. -/
structure Receiving where
  hasMessage : Bool
  currentMessage : ReceivedMessage
  messageReceiveState : Option ExtensionMessageReceiveState

def startReceiving (pipeline : ExtensionPipeline) : Receiving :=
  ⟨false, ⟨true, []⟩, initExtensionReceiveMessageState pipeline⟩

/-- The additional checks for control frames. -/
def checkControlFrame (utf8 : Utf8proc) (frame : WebSocketRawMessage) : Option CloseReason :=
  if isControlOpCode frame.opCode then
    if !frame.fin then some (protocolError "Received fragmented control frame")
    else if frame.payload.size > maxControlFramePayload then
      some (protocolError "Control frame payload to large")
    else if frame.opCode = wsOpcodeClose then
      -- the message of a close frame may be empty, else it starts with a code
      if frame.payload.size ≠ 0 then
        if frame.payload.size < 2 then
          some (protocolError "Close data has invalid code, it has to be at least 2 bytes long")
        else
          match getUtf8String utf8 (frame.payload.bytes.drop 2) with
          | .error text =>
            some ⟨closeCodeInvalidFramePayloadData,
              some (ascii "Invalid utf8 payload in control frame: " ++ text)⟩
          | .ok _ => none
      else none
    else none
  else none

/-- What a close frame of the peer is answered with. -/
def closingReason (frame : WebSocketRawMessage) : CloseReason :=
  let planned : CloseReason := ⟨closeCodeNormalClosure, some (ascii "Planned close")⟩
  if frame.payload.size ≠ 0 then
    match maybeParseCloseReason frame true with
    | none => planned
    | some reason =>
      if !isValidCloseCode reason.code then protocolError "Invalid Close Code" else reason
  else planned

/-- What becomes of a frame. -/
inductive FrameStep
  | close (reason : CloseReason)
  | pong (frame : WebSocketRawMessage)
  | next (receiving : Receiving)
  /-- The message is complete; `fragmented` if it had more than one frame. -/
  | complete (receiving : Receiving) (fragmented : Bool)

/-- The `switch` over the opcode. -/
def handleFrame (pipeline : ExtensionPipeline) (receiving : Receiving)
    (frame : WebSocketRawMessage) : FrameStep :=
  if frame.opCode = wsOpcodeCont then
    if !receiving.hasMessage then
      .close (protocolError "Received Opcode CONTINUATION, but no start frame received")
    else
      match extensionReceivePipelineIsValidContFrame pipeline frame with
      | some error => .close (protocolError error)
      | none =>
        let message := { receiving.currentMessage with
          buffer := receiving.currentMessage.buffer ++ frame.payload.bytes }
        let receiving := { receiving with currentMessage := message }
        if !frame.fin then .next receiving else .complete receiving true
  else if frame.opCode = wsOpcodeText ∨ frame.opCode = wsOpcodeBin then
    if receiving.hasMessage then
      .close (protocolError "Received other op_code than CONTINUATION after the first fragment")
    else
      let receiving : Receiving :=
        ⟨true, ⟨frame.opCode = wsOpcodeText, frame.payload.bytes⟩,
          extensionReceivePipelineProcessStartMessage pipeline receiving.messageReceiveState
            frame⟩
      if !frame.fin then .next receiving else .complete receiving false
  else if frame.opCode = wsOpcodeClose then .close (closingReason frame)
  else if frame.opCode = wsOpcodePing then
    .pong ⟨true, wsOpcodePong, frame.payload, frame.rsvBytes⟩
  else if frame.opCode = wsOpcodePong then .next receiving
  else .close (protocolError "Received Opcode that is not supported")

/-- What is done to a complete message before it is passed on. -/
def finishMessage (zlib : Zlib) (utf8 : Utf8proc) (pipeline : ExtensionPipeline)
    (receiving : Receiving) (fragmented : Bool) : Except CloseReason ReceivedMessage :=
  match extensionReceivePipelineProcessFinishedMessage zlib pipeline
      receiving.messageReceiveState receiving.currentMessage with
  | .error error =>
    .error ⟨closeCodeInvalidFramePayloadData,
      some (ascii "Couldn't parse message at end: " ++ ascii error)⟩
  | .ok message =>
    if message.isText then
      match getUtf8String utf8 message.buffer with
      | .error text =>
        .error ⟨closeCodeInvalidFramePayloadData,
          some (ascii (if fragmented then "Invalid utf8 payload in fragmented message: "
            else "Invalid utf8 payload in un-fragmented message: ") ++ text)⟩
      | .ok _ => .ok message
    else .ok message

/-! ## The loop -/

inductive WebSocketAction
  | continue
  | error
  | close
deriving Repr, DecidableEq

/-- The parameters of a listener, with the function of the connection, which has a state of its
own. -/
structure ListenerEnv (A : Type) where
  pipeline : ExtensionPipeline
  zlib : Zlib
  utf8 : Utf8proc
  function : A → ReceivedMessage → ExtensionSendState → A × WebSocketAction

structure ListenerState (A : Type) where
  application : A
  receiving : Receiving
  running : Bool

/-- What a round gets: what was read, and whether an answer to it can be sent. -/
structure ListenerInput where
  read : Except String WebSocketRawMessage
  sends : Bool

variable {A : Type}

/-- The listener closes the connection and ends. -/
def ListenerState.closed (state : ListenerState A) (reason : CloseReason) :
    ListenerState A × List ListenerOutput :=
  ({ state with running := false }, closeWebsocketConnection reason)

/-- `handle_message`. -/
def handleMessage (env : ListenerEnv A) (state : ListenerState A) (receiving : Receiving)
    (message : ReceivedMessage) : ListenerState A × List ListenerOutput :=
  let result := env.function state.application message
    ⟨env.pipeline, receiving.messageReceiveState⟩
  let state := { state with application := result.1, receiving := startReceiving env.pipeline }
  match result.2 with
  | .continue => (state, [.delivered message])
  | .close =>
    ({ state with running := false }, .delivered message :: closeWebsocketConnection
      ⟨closeCodeNormalClosure, some (ascii "ServerApplication requested shutdown")⟩)
  | .error =>
    ({ state with running := false }, .delivered message :: closeWebsocketConnection
      (protocolError "ServerApplication callback has an error"))

/-- A message whose last frame arrived is finished and handled. -/
def completeMessage (env : ListenerEnv A) (state : ListenerState A) (receiving : Receiving)
    (fragmented : Bool) : ListenerState A × List ListenerOutput :=
  match finishMessage env.zlib env.utf8 env.pipeline receiving fragmented with
  | .error reason => state.closed reason
  | .ok message => handleMessage env state receiving message

/-- One round of the loop. -/
def listenerStep (env : ListenerEnv A) (state : ListenerState A) (input : ListenerInput) :
    ListenerState A × List ListenerOutput :=
  if !state.running then (state, [])
  else
    match input.read with
    | .error error =>
      state.closed (protocolError
        ("Error while reading the needed bytes for a frame: " ++ error))
    | .ok frame =>
      match checkControlFrame env.utf8 frame with
      | some reason => state.closed reason
      | none =>
        match handleFrame env.pipeline state.receiving frame with
        | .close reason => state.closed reason
        | .pong pong =>
          if input.sends then (state, sendRaw pong)
          else
            ({ state with running := false },
              sendRaw pong ++ closeWebsocketConnection (protocolError "Couldn't send PONG op_code"))
        | .next receiving => ({ state with receiving := receiving }, [])
        | .complete receiving fragmented => completeMessage env state receiving fragmented

/-- `ws_listener_function`: the state after some rounds, and what was done in them. -/
def wsListenerFunction (env : ListenerEnv A) :
    ListenerState A → List ListenerInput → ListenerState A × List ListenerOutput
  | state, [] => (state, [])
  | state, input :: inputs =>
    let (state, outputs) := listenerStep env state input
    let (state, more) := wsListenerFunction env state inputs
    (state, outputs ++ more)

/-- The listener before its first round. -/
def startListener (env : ListenerEnv A) (application : A) : ListenerState A :=
  ⟨application, startReceiving env.pipeline, true⟩

/-! ## With the connection -/

/-- The listener and the reader of its connection. -/
structure ListenerConnection (A : Type) where
  listener : ListenerState A
  reader : BufferedReader

/-- A round with what is read; the flags say whether an answer can be sent and whether there is
memory for the rest of the buffer. -/
def connectionRound (env : ListenerEnv A) (connection : ListenerConnection A)
    (flags : Bool × Bool) : ListenerConnection A × List ListenerOutput :=
  if !connection.listener.running then (connection, [])
  else
    match readRawMessage connection.reader env.pipeline.settings with
    | (reader, .error error) =>
      let (listener, outputs) := listenerStep env connection.listener ⟨.error error, flags.1⟩
      (⟨listener, reader⟩, outputs)
    | (reader, .ok frame) =>
      let (listener, outputs) := listenerStep env connection.listener ⟨.ok frame, flags.1⟩
      (⟨listener, bufferedReaderInvalidateOldData reader flags.2⟩, outputs)

/-- The connection before its first round. -/
def startConnection (env : ListenerEnv A) (application : A) (incoming : List Incoming) :
    ListenerConnection A :=
  ⟨startListener env application, getBufferedReader incoming⟩

end SimpleServer.Ws
