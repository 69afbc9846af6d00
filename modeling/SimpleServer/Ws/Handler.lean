import SimpleServer.Http.Uri
import SimpleServer.Utils.NumberParsing
import SimpleServer.Ws.Listener

/-!
# The WebSocket application (`ws/handler.c`)

The function of a connection sends every message back. How it is cut depends on the path that the
client asked for (`get_ws_args_from_http_request` in `ws/ws.c`).

* `websocketFunction`: what the application adds to the frames that were sent.
* `serverRun`: the connection with the application, and the frames that it sends, in their order.
-/

namespace SimpleServer.Ws

open SimpleServer.Utils

/-! ## The arguments -/

/-- `WsConnectionArgs`; the flag for the log is left out. -/
structure WsConnectionArgs where
  fragmentOption : WsFragmentOption
  extensions : List WSExtension
deriving Repr, DecidableEq

def findSearchKey (searchPath : List (Bytes × Bytes)) (key : Bytes) : Option Bytes :=
  searchPath.lookup key

def getWsFragmentArgsFromHttpRequest (path : Http.ParsedURLPath) : WsFragmentOption :=
  match findSearchKey path.searchPath (ascii "fragmented") with
  | none => .off
  | some _ =>
    match findSearchKey path.searchPath (ascii "fragment_size") with
    | none => .auto
    | some value =>
      -- a value that is no number is passed over
      match parseU64 value with
      | none => .auto
      | some fragmentSize => .set fragmentSize

def getWsArgsFromHttpRequest (path : Http.ParsedURLPath) (extensions : List WSExtension) :
    WsConnectionArgs :=
  ⟨getWsFragmentArgsFromHttpRequest path, extensions⟩

/-! ## The function of the connection -/

/-- A received message as one that is sent. -/
def ReceivedMessage.toSend (message : ReceivedMessage) : WebSocketMessage :=
  ⟨message.isText, sizedBufferAllocateFromReadonlyBuffer message.buffer⟩

/-- `websocket_function`: the message goes back. -/
def websocketFunction (env : SendEnv) (args : WsConnectionArgs)
    (sent : List WebSocketRawMessage) (message : ReceivedMessage)
    (sendState : ExtensionSendState) : List WebSocketRawMessage × WebSocketAction :=
  match wsSendMessage env message.toSend args.fragmentOption sendState with
  | none => (sent, .error)
  | some frames => (sent ++ frames, .continue)

/-- The listener of a connection of the server. -/
def wsServer (env : SendEnv) (utf8 : Utf8proc) (args : WsConnectionArgs) :
    ListenerEnv (List WebSocketRawMessage) where
  pipeline := getExtensionPipeline args.extensions
  zlib := env.zlib
  utf8 := utf8
  function := websocketFunction env args

/-! ## What is sent -/

def ListenerOutput.frame? : ListenerOutput → Option WebSocketRawMessage
  | .delivered _ => none
  | .sent frame => some frame

/-- A round, and its frames: the function of the connection is done when the listener sends
something itself. -/
def serverRound (env : ListenerEnv (List WebSocketRawMessage))
    (connection : ListenerConnection (List WebSocketRawMessage)) (flags : Bool × Bool) :
    ListenerConnection (List WebSocketRawMessage) × List WebSocketRawMessage :=
  let (connection, outputs) := connectionRound env
    { connection with listener := { connection.listener with application := [] } } flags
  (connection, connection.listener.application ++ outputs.filterMap ListenerOutput.frame?)

/-- The rounds of a connection, and all frames. -/
def serverRun (env : ListenerEnv (List WebSocketRawMessage)) :
    ListenerConnection (List WebSocketRawMessage) → List (Bool × Bool) →
      ListenerConnection (List WebSocketRawMessage) × List WebSocketRawMessage
  | connection, [] => (connection, [])
  | connection, flags :: rounds =>
    let (connection, frames) := serverRound env connection flags
    let (connection, more) := serverRun env connection rounds
    (connection, frames ++ more)

/-- The bytes of frames, each with its mask, if it has one. -/
def wireBytes (frames : List (WebSocketRawMessage × Option UInt32)) : Bytes :=
  frames.flatMap fun frame =>
    (wsSendMessageRawInternal frame.1 frame.2.isSome (frame.2.getD 0)).getD []

/-- The bytes of the frames of the server, which have no mask. -/
def serverBytes (frames : List WebSocketRawMessage) : Bytes :=
  wireBytes (frames.map fun frame => (frame, none))

/-! ## The client -/

/-- What one side does for its messages, seen from the other side. -/
def WSExtension.mirrored : WSExtension → WSExtension
  | .perMessageDeflate options => .perMessageDeflate ⟨options.server, options.client⟩

/-- A client that keeps what it receives. -/
def wsClient (zlib : Zlib) (utf8 : Utf8proc) (extensions : List WSExtension) :
    ListenerEnv (List ReceivedMessage) where
  pipeline := getExtensionPipeline (extensions.map WSExtension.mirrored)
  zlib := zlib
  utf8 := utf8
  function := fun received message _ => (received ++ [message], .continue)

/-- The rounds of a connection, and what was done in them. -/
def connectionRun {A : Type} (env : ListenerEnv A) :
    ListenerConnection A → List (Bool × Bool) → ListenerConnection A × List ListenerOutput
  | connection, [] => (connection, [])
  | connection, flags :: rounds =>
    let (connection, outputs) := connectionRound env connection flags
    let (connection, more) := connectionRun env connection rounds
    (connection, outputs ++ more)

end SimpleServer.Ws
