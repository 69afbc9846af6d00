import SimpleServer.Http2.Codec
import SimpleServer.Lib.Fragments

/-!
# Sending a response (`http2_send_headers`, `http2_send_data` in `v2.c`, `send.c`)

A buffer is cut into parts that fit into the frames the peer accepts (`Lib.fragmentLoop` is
the loop of both functions), and each part is sent as one frame. The first frame that is
refused ends the response.

* `sent_of_accepted`, `sent_of_refused`: which frames are built and sent.
-/

namespace SimpleServer.Http2

open SimpleServer.Utils Lib

/-- The frames a function builds, in order, with the bytes each one put on the connection. -/
abbrev Built := List (Http2Frame × Option Bytes)

/-- The frames that went out. -/
def Built.sent (built : Built) : List Http2Frame :=
  built.filterMap fun p => p.2.map fun _ => p.1

/-- A frame was refused, and the function returned the error. -/
def Built.failed (built : Built) : Bool := built.any fun p => p.2.isNone

/-- Sends the frames as far as none is refused. -/
def sendFrames : List Http2Frame → Built
  | [] => []
  | frame :: frames =>
    match http2SendFrame frame with
    | none => [(frame, none)]
    | some bytes => (frame, some bytes) :: sendFrames frames

/-- `ADDITIONAL_HEADERS_DATA_SIZE`. -/
def additionalHeadersDataSize : ℕ := 6

/-- The assertion that something is left holds for every size the settings parser admits. -/
def getMaxHeadersOrContinuationContentsize (settings : Http2Settings) : ℕ :=
  settings.maxFrameSize - additionalHeadersDataSize

def getMaxDataContentSize (settings : Http2Settings) : ℕ := settings.maxFrameSize

/-- The frame of a part of the header block. -/
def headerFrameOf (identifier : ℕ) (headersAreEndStream : Bool) (fragment : Fragment UInt8) :
    Http2Frame :=
  if fragment.offset = 0 then
    .headers ⟨none, fragment.content, identifier, headersAreEndStream, fragment.last⟩
  else .continuation ⟨fragment.content, identifier, fragment.last⟩

def http2SendHeaders (identifier : ℕ) (settings : Http2Settings) (buffer : SizedBuffer)
    (headersAreEndStream : Bool) : Built :=
  sendFrames ((fragments (getMaxHeadersOrContinuationContentsize settings) buffer.bytes).map
    (headerFrameOf identifier headersAreEndStream))

/-- The frame of a part of the body. -/
def dataFrameOf (identifier : ℕ) (fragment : Fragment UInt8) : Http2Frame :=
  .data ⟨fragment.content, fragment.last, identifier⟩

def http2SendData (identifier : ℕ) (settings : Http2Settings) (buffer : SizedBuffer) : Built :=
  sendFrames ((fragments (getMaxDataContentSize settings) buffer.bytes).map
    (dataFrameOf identifier))

structure Http2Response where
  hpackEncodedHeaders : SizedBuffer
  body : SizedBuffer
  streamIdentifier : ℕ

def sendHttp2ResponseToConnection (response : Http2Response) (context : HTTP2Context) : Built :=
  let headersAreEndStream := response.body.data.isNone
  let headers := http2SendHeaders response.streamIdentifier context.settings
    response.hpackEncodedHeaders headersAreEndStream
  if headers.failed then headers
  else if response.body.data.isSome then
    headers ++ http2SendData response.streamIdentifier context.settings response.body
  else headers

/-! ## Which frames go out -/

theorem sendFrames_accepted {frames : List Http2Frame}
    (h : ∀ f ∈ frames, (http2SendFrame f).isSome) :
    sendFrames frames = frames.map fun f => (f, http2SendFrame f) := by
  induction frames with
  | nil => rfl
  | cons f frames ih =>
    obtain ⟨bytes, hbytes⟩ := Option.isSome_iff_exists.1 (h f List.mem_cons_self)
    rw [sendFrames, hbytes, List.map_cons, hbytes,
      ih (fun g hg => h g (List.mem_cons_of_mem f hg))]

theorem sent_of_accepted {frames : List Http2Frame}
    (h : ∀ f ∈ frames, (http2SendFrame f).isSome) :
    (sendFrames frames).sent = frames ∧ (sendFrames frames).failed = false := by
  rw [sendFrames_accepted h]
  constructor
  · unfold Built.sent
    rw [List.filterMap_map]
    rw [List.filterMap_congr (g := some), List.filterMap_some]
    intro f hf
    obtain ⟨bytes, hbytes⟩ := Option.isSome_iff_exists.1 (h f hf)
    simp [hbytes]
  · unfold Built.failed
    rw [List.any_map, List.any_eq_false]
    intro f hf
    simpa [Option.isNone_iff_eq_none, Option.ne_none_iff_isSome] using h f hf

/-- A frame that is refused is the last one that is built. -/
theorem sent_of_refused {f : Http2Frame} {frames : List Http2Frame} (h : http2SendFrame f = none) :
    (sendFrames (f :: frames)).sent = [] := by
  rw [sendFrames, h]
  rfl

theorem Built.sent_append (built built' : Built) :
    Built.sent (built ++ built') = built.sent ++ built'.sent := List.filterMap_append

end SimpleServer.Http2
