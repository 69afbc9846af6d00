import SimpleServer.Http2.Codec
import SimpleServer.Hpack.Decode

/-!
# A client of HTTP/2

The other end of a connection behind its start, as the protocol says: what the server writes is for
this client, but for its own SETTINGS frame at the start, which no client can read.
A header block is a HEADERS frame and its CONTINUATION frames with nothing between them, a stream
has one header block, and its body ends with END_STREAM. Blocks are decoded in the order in which
they end. The client reads frames with the parser of the server, and gives up at the first thing
that is not allowed.

* `Client.receive`: one frame.
* `Client.read`: frames from a reader.
-/

namespace SimpleServer.Http2

open SimpleServer.Utils Hpack

/-- A response, as far as it has come. -/
structure ClientStream where
  fields : List HttpHeaderField
  body : Bytes
  ended : Bool
deriving Repr, DecidableEq

/-- A header block that has not ended. -/
structure OpenBlock where
  identifier : ℕ
  endStream : Bool
  block : Bytes
deriving Repr, DecidableEq

structure Client where
  decompressState : HpackDecompressState
  openBlock : Option OpenBlock
  streams : ℕ → Option ClientStream

namespace Client

/-- A client whose decoder has a table of the default size. -/
def start : Client := ⟨getDefaultHpackDynamicTableState defaultHeaderTableSize, none, fun _ => none⟩

/-- The end of a header block. -/
def endBlock (client : Client) (block : OpenBlock) : Option Client :=
  match http2HpackDecompressData client.decompressState block.block with
  | (_, .error _) => none
  | (decompressState, .ok fields) =>
    some
      { decompressState := decompressState
        openBlock := none
        streams := Function.update client.streams block.identifier
          (some ⟨fields, [], block.endStream⟩) }

/-- A part of a header block. -/
def addBlock (client : Client) (block : OpenBlock) (endHeaders : Bool) : Option Client :=
  if endHeaders then client.endBlock block else some { client with openBlock := some block }

/-- A frame. The ones that report an error, and those a server does not send, are not allowed. -/
def receive (client : Client) : Http2Frame → Option Client
  | .headers frame =>
    if client.openBlock.isSome ∨ (client.streams frame.identifier).isSome then none
    else
      client.addBlock ⟨frame.identifier, frame.endStream, frame.blockFragment⟩ frame.endHeaders
  | .continuation frame =>
    match client.openBlock with
    | none => none
    | some block =>
      if frame.identifier ≠ block.identifier then none
      else
        client.addBlock { block with block := block.block ++ frame.blockFragment } frame.endHeaders
  | .data frame =>
    match client.openBlock, client.streams frame.identifier with
    | none, some stream =>
      if stream.ended then none
      else
        some { client with
          streams := Function.update client.streams frame.identifier
            (some ⟨stream.fields, stream.body ++ frame.content, frame.isEnd⟩) }
    | _, _ => none
  | .settings _ | .ping _ => if client.openBlock.isSome then none else some client
  | _ => none

/-- Reads a number of frames; the client accepts those of its own frame size. -/
def read (client : Client) (context : HTTP2Context) :
    ℕ → BufferedReader → Option (Client × BufferedReader)
  | 0, reader => some (client, reader)
  | frames + 1, reader =>
    match (parseHttp2Frame context []).run reader with
    | .error _ _ => none
    | .ok frame reader =>
      match client.receive frame with
      | none => none
      | some client => client.read context frames reader

theorem read_succ (context : HTTP2Context) (frames : ℕ) (client : Client)
    (reader : BufferedReader) :
    client.read context (frames + 1) reader =
      match (parseHttp2Frame context []).run reader with
      | .error _ _ => none
      | .ok frame reader =>
        match client.receive frame with
        | none => none
        | some client => client.read context frames reader := rfl

end Client

end SimpleServer.Http2
