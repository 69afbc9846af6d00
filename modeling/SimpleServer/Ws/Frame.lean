import SimpleServer.Utils.BufferedReader
import SimpleServer.Utils.Serialize

/-!
# WebSocket frames (`ws/thread_manager.c`)

`wsSendMessageRawInternal` lays a raw message out in one buffer, `readRawMessage` reads
one from the connection. Both know three encodings of the length and an optional mask.
-/

namespace SimpleServer.Ws

open SimpleServer.Utils

/-- `WsOpcode`: four bits of a frame; the values without a name are reserved. -/
abbrev WsOpcode := UInt8

structure WebSocketRawMessage where
  fin : Bool
  opCode : WsOpcode
  payload : SizedBuffer
  rsvBytes : UInt8

/-- The first two bytes of a frame. -/
structure RawHeaderOne where
  fin : Bool
  opCode : WsOpcode
  hasMask : Bool
  payloadLen : UInt8
  rsvBytes : UInt8
deriving Repr, DecidableEq

/-- `ExtensionReceivePipelineSettings`. -/
structure ExtensionReceivePipelineSettings where
  allowedRsvBytes : UInt8
deriving Repr, DecidableEq

/-- `RAW_MESSAGE_HEADER_SIZE`. -/
def rawMessageHeaderSize : ℕ := 2

/-- `RAW_MESSAGE_PAYLOAD_1_SIZE`. -/
def rawMessagePayload1Size : ℕ := 2

/-- `RAW_MESSAGE_PAYLOAD_2_SIZE`. -/
def rawMessagePayload2Size : ℕ := 8

/-- `RAW_MESSAGE_MASK_BYTE_SIZE`. -/
def rawMessageMaskByteSize : ℕ := 4

/-- `MAX_CONTROL_FRAME_PAYLOAD`. -/
def maxControlFramePayload : ℕ := 125

/-- `EXTENDED_PAYLOAD_MAGIC_NUMBER1`: the length is in the next two bytes. -/
def extendedPayloadMagicNumber1 : ℕ := 126

/-- `EXTENDED_PAYLOAD_MAGIC_NUMBER2`: the length is in the next eight bytes. -/
def extendedPayloadMagicNumber2 : ℕ := 127

/-! ## Reading -/

def getRawHeader (headerBytes : Bytes) (allowedRsvBytes : UInt8) : Except String RawHeaderOne :=
  let first := headerBytes.getD 0 0
  let second := headerBytes.getD 1 0
  let rsvBytes := (first >>> 4) &&& 0b111
  if allowedRsvBytes = 0 ∧ rsvBytes ≠ 0 then .error "only 0 allowed for the rsv bytes"
  else if allowedRsvBytes ≠ 0 ∧ rsvBytes ||| allowedRsvBytes ≠ allowedRsvBytes then
    .error "invalid rsv bits set"
  else
    .ok
      { fin := (first >>> 7) &&& 0b1 != 0
        opCode := first &&& 0b1111
        hasMask := (second >>> 7) &&& 0b1 != 0
        payloadLen := second &&& 0x7F
        rsvBytes := rsvBytes }

def isControlOpCode (opCode : WsOpcode) : Bool :=
  -- wrong opcodes, they only can be 4 bits large
  if opCode > 0xF then false else opCode &&& 0b1000 != 0

/-- The loop that applies the mask: byte `i` of the payload meets byte `i % 4` of the mask. -/
def applyMask (mask : Bytes) (payload : Bytes) : Bytes :=
  payload.mapIdx fun i b => b ^^^ mask.getD (i % 4) 0

@[simp] theorem applyMask_length (mask payload : Bytes) :
    (applyMask mask payload).length = payload.length := by
  simp [applyMask]

/-- The buffer with the mask applied in place. -/
def maskedBuffer (mask : Bytes) (buffer : SizedBuffer) : SizedBuffer :=
  ⟨buffer.data.map (applyMask mask), by
    have h := buffer.fits
    cases hdata : buffer.data with
    | none => exact Nat.two_pow_pos 63
    | some bytes =>
      rw [hdata] at h
      simpa using h⟩

/-- The length of the payload: in the header, or in the bytes after it. -/
def readPayloadLength (reader : BufferedReader) (payloadLen : ℕ) :
    BufferedReader × Except String ℕ :=
  if payloadLen = extendedPayloadMagicNumber1 then
    match bufferedReaderGetAmount reader rawMessagePayload1Size with
    | (reader, .ok bytes) => (reader, .ok (deserializeU16BeToHost bytes))
    | (reader, _) => (reader, .error "couldn't read extended payload length bytes (2)")
  else if payloadLen = extendedPayloadMagicNumber2 then
    match bufferedReaderGetAmount reader rawMessagePayload2Size with
    | (reader, .ok bytes) => (reader, .ok (deserializeU64BeToHost bytes))
    | (reader, _) => (reader, .error "couldn't read extended payload length bytes (8)")
  else (reader, .ok payloadLen)

def readMask (reader : BufferedReader) (hasMask : Bool) :
    BufferedReader × Except String SizedBuffer :=
  if hasMask then
    match bufferedReaderGetAmount reader rawMessageMaskByteSize with
    | (reader, .ok bytes) => (reader, .ok (sizedBufferAllocateFromReadonlyBuffer bytes))
    | (reader, _) => (reader, .error "couldn't read mask bytes (4)")
  else (reader, .ok getEmptySizedBuffer)

def readPayload (reader : BufferedReader) (payloadLen : ℕ) :
    BufferedReader × Except String SizedBuffer :=
  if payloadLen ≠ 0 then
    match bufferedReaderGetAmount reader payloadLen with
    | (reader, .ok bytes) => (reader, .ok (sizedBufferAllocateFromReadonlyBuffer bytes))
    | (reader, _) => (reader, .error "couldn't read payload bytes")
  else (reader, .ok getEmptySizedBuffer)

def readRawMessage (reader : BufferedReader) (settings : ExtensionReceivePipelineSettings) :
    BufferedReader × Except String WebSocketRawMessage :=
  match bufferedReaderGetAmount reader rawMessageHeaderSize with
  | (reader, .ok headerBytes) =>
    match getRawHeader headerBytes settings.allowedRsvBytes with
    | .error e => (reader, .error e)
    | .ok rawHeader =>
      match readPayloadLength reader rawHeader.payloadLen.toNat with
      | (reader, .error e) => (reader, .error e)
      | (reader, .ok payloadLen) =>
        match readMask reader rawHeader.hasMask with
        | (reader, .error e) => (reader, .error e)
        | (reader, .ok maskBytes) =>
          match readPayload reader payloadLen with
          | (reader, .error e) => (reader, .error e)
          | (reader, .ok payload) =>
            (reader, .ok
              { fin := rawHeader.fin
                opCode := rawHeader.opCode
                payload :=
                  if rawHeader.hasMask then maskedBuffer maskBytes.bytes payload
                  else payload
                rsvBytes := rawHeader.rsvBytes })
  | (reader, _) => (reader, .error "couldn't read header bytes (2)")

/-! ## Sending -/

/-- The four bytes of a `uint32_t` in the memory of the host. -/
def hostBytes (value : UInt32) : Bytes :=
  [value.toUInt8, (value >>> 8).toUInt8, (value >>> 16).toUInt8, (value >>> 24).toUInt8]

/-- How many bytes the length needs beside the ones in the header. -/
def payloadAdditionalLen (size : ℕ) : ℕ :=
  if size < extendedPayloadMagicNumber1 then 0 else if size < 0x10000 then 2 else 8

/-- The first byte of a frame. -/
def headerOne (message : WebSocketRawMessage) : UInt8 :=
  ((if message.fin then 1 else 0 : UInt8) <<< 7) ||| ((message.rsvBytes &&& 0b111) <<< 4) |||
    (message.opCode &&& 0b1111)

/-- The second byte of a frame. -/
def headerTwo (size : ℕ) (hasMask : Bool) : UInt8 :=
  let additionalPayloadLen2 :=
    if payloadAdditionalLen size = 2 then extendedPayloadMagicNumber1
    else extendedPayloadMagicNumber2
  let payloadLen1 : UInt8 :=
    UInt8.ofNat (if payloadAdditionalLen size = 0 then size else additionalPayloadLen2)
  ((if hasMask then 1 else 0 : UInt8) <<< 7) ||| (payloadLen1 &&& 0x7F)

/-- The frame of a message, written into `memory`, the bytes `malloc` returned; `random` is
what `get_random_byte` gives. -/
def resultingFrame (message : WebSocketRawMessage) (hasMask : Bool) (random : UInt32)
    (memory : Bytes) : Bytes :=
  let size := message.payload.size
  let additional := payloadAdditionalLen size
  let headerOffset := rawMessageHeaderSize + additional + (if hasMask then 4 else 0)
  let frame := writeAt memory 0 [headerOne message]
  let frame := writeAt frame 1 [headerTwo size hasMask]
  let frame :=
    if additional = 2 then writeAt frame 2 (serializeU16HostToBe (size % 2 ^ 16))
    else if additional = 8 then writeAt frame 2 (serializeU64HostToBe size)
    else frame
  let frame := if size ≠ 0 then writeAt frame headerOffset message.payload.bytes else frame
  if hasMask then
    let frame := writeAt frame (rawMessageHeaderSize + additional) (hostBytes random)
    writeAt frame headerOffset (applyMask (hostBytes random) message.payload.bytes)
  else frame

/-- The bytes handed to `send_data_to_connection`, or `none` for a message that is not sent.
The allocation of the frame is taken to succeed. -/
def wsSendMessageRawInternal (message : WebSocketRawMessage) (hasMask : Bool) (random : UInt32) :
    Option Bytes :=
  if message.payload.data = none ∧ message.payload.size ≠ 0 then none
  else
    let size := rawMessageHeaderSize + payloadAdditionalLen message.payload.size +
      (if hasMask then 4 else 0) + message.payload.size
    let frame := resultingFrame message hasMask random (List.replicate size 0)
    -- checked after the frame is built
    if isControlOpCode message.opCode then
      if !message.fin then none
      else if message.payload.size > maxControlFramePayload then none
      else some frame
    else some frame

end SimpleServer.Ws
