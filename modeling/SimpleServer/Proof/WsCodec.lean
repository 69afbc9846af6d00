import SimpleServer.Ws.Frame
import SimpleServer.Utils.ReaderSpec

/-!
# The WebSocket frame codec

A frame is its two header bytes, the extended length, the mask and the payload, in this
order and with nothing between them (`resultingFrame_eq`); the reader takes them apart in
the same order.

* `getRawHeader_headers`: the two header bytes carry fin, RSV bits, opcode, mask bit and
  length field.
* `readPayloadLength_length`: each of the three encodings of the length is read back.
* `applyMask_applyMask`: the mask undoes itself.
* `wsFrame_codec`: **what is sent is read**, and only bad control frames are not sent.
-/

namespace SimpleServer.Ws

open SimpleServer.Utils

/-! ## The parts of a frame -/

/-- The bytes of the extended length. -/
def extendedLength (size : ℕ) : Bytes :=
  if payloadAdditionalLen size = 2 then serializeU16HostToBe size
  else if payloadAdditionalLen size = 8 then serializeU64HostToBe size
  else []

theorem payloadAdditionalLen_cases (size : ℕ) :
    (payloadAdditionalLen size = 0 ∧ size < 126) ∨
    (payloadAdditionalLen size = 2 ∧ 126 ≤ size ∧ size < 2 ^ 16) ∨
    (payloadAdditionalLen size = 8 ∧ 2 ^ 16 ≤ size) := by
  unfold payloadAdditionalLen extendedPayloadMagicNumber1
  split_ifs <;> omega

@[simp] theorem extendedLength_length (size : ℕ) :
    (extendedLength size).length = payloadAdditionalLen size := by
  unfold extendedLength serializeU16HostToBe serializeU64HostToBe
  rcases payloadAdditionalLen_cases size with ⟨h, -⟩ | ⟨h, -⟩ | ⟨h, -⟩ <;> simp [h]

/-- What follows the length: the mask, if there is one, and the payload under it. -/
def maskedPayload (hasMask : Bool) (random : UInt32) (payload : Bytes) : Bytes :=
  if hasMask then hostBytes random ++ applyMask (hostBytes random) payload else payload

@[simp] theorem hostBytes_length (random : UInt32) : (hostBytes random).length = 4 := rfl

/-- Writing over a part of the same length. -/
theorem writeAt_part {before part after bytes : Bytes} {offset : ℕ}
    (hoffset : before.length = offset) (hpart : part.length = bytes.length) :
    writeAt (before ++ (part ++ after)) offset bytes = before ++ (bytes ++ after) := by
  subst hoffset
  unfold writeAt
  rw [List.take_left, ← List.append_assoc before part after,
    List.drop_append_of_le_length (by rw [List.length_append]; omega),
    List.drop_of_length_le (by rw [List.length_append]; omega), List.nil_append,
    List.append_assoc]

/-- The size of the frame of a payload. -/
def frameSize (size : ℕ) (hasMask : Bool) : ℕ :=
  rawMessageHeaderSize + payloadAdditionalLen size + (if hasMask then 4 else 0) + size

/-- The memory of a frame, cut at the places where its parts go. -/
theorem replicate_frame (size : ℕ) (hasMask : Bool) (b : UInt8) :
    List.replicate (frameSize size hasMask) b = [b] ++ ([b] ++
      (List.replicate (payloadAdditionalLen size) b ++
        (List.replicate (if hasMask then 4 else 0) b ++ List.replicate size b))) := by
  have h : frameSize size hasMask =
      1 + (1 + (payloadAdditionalLen size + ((if hasMask then 4 else 0) + size))) := by
    unfold frameSize rawMessageHeaderSize
    omega
  rw [h, List.replicate_add, List.replicate_add, List.replicate_add, List.replicate_add]
  rfl

/-- The two header bytes. -/
theorem write_header (h1 h2 b : UInt8) (rest : Bytes) :
    writeAt (writeAt ([b] ++ ([b] ++ rest)) 0 [h1]) 1 [h2] = [h1, h2] ++ rest := by
  have hone : writeAt ([] ++ ([b] ++ ([b] ++ rest))) 0 [h1] = [] ++ ([h1] ++ ([b] ++ rest)) :=
    writeAt_part rfl rfl
  have htwo : writeAt ([h1] ++ ([b] ++ rest)) 1 [h2] = [h1] ++ ([h2] ++ rest) :=
    writeAt_part rfl rfl
  rw [List.nil_append, List.nil_append] at hone
  rw [hone, htwo]
  rfl

/-- The extended length goes behind the header. -/
theorem write_extendedLength (h1 h2 b : UInt8) (size : ℕ) (rest : Bytes) :
    (if payloadAdditionalLen size = 2 then
        writeAt ([h1, h2] ++ (List.replicate (payloadAdditionalLen size) b ++ rest)) 2
          (serializeU16HostToBe (size % 2 ^ 16))
      else if payloadAdditionalLen size = 8 then
        writeAt ([h1, h2] ++ (List.replicate (payloadAdditionalLen size) b ++ rest)) 2
          (serializeU64HostToBe size)
      else [h1, h2] ++ (List.replicate (payloadAdditionalLen size) b ++ rest)) =
      [h1, h2] ++ extendedLength size ++ rest := by
  unfold extendedLength
  rw [List.append_assoc]
  rcases payloadAdditionalLen_cases size with ⟨h, -⟩ | ⟨h, -, hlt⟩ | ⟨h, -⟩
  · simp [h]
  · rw [if_pos h, if_pos h, Nat.mod_eq_of_lt hlt, h]
    exact writeAt_part rfl (by simp [serializeU16HostToBe])
  · rw [if_neg (by omega), if_pos h, if_neg (by omega), if_pos h, h]
    exact writeAt_part rfl (by simp [serializeU64HostToBe])

/-- Writing over the last part. -/
theorem writeAt_end {before part bytes : Bytes} {offset : ℕ} (hoffset : before.length = offset)
    (hpart : part.length = bytes.length) :
    writeAt (before ++ part) offset bytes = before ++ bytes := by
  have h : writeAt (before ++ (part ++ [])) offset bytes = before ++ (bytes ++ []) :=
    writeAt_part hoffset hpart
  rwa [List.append_nil, List.append_nil] at h

/-- **The layout of a frame.** -/
theorem resultingFrame_eq (message : WebSocketRawMessage) (hasMask : Bool) (random : UInt32) :
    resultingFrame message hasMask random
        (List.replicate (frameSize message.payload.size hasMask) 0) =
      [headerOne message, headerTwo message.payload.size hasMask] ++
        extendedLength message.payload.size ++
          maskedPayload hasMask random message.payload.bytes := by
  set size := message.payload.size with hsize
  have hpayload : message.payload.bytes.length = size := rfl
  unfold resultingFrame
  dsimp only
  rw [← hsize, replicate_frame, write_header, write_extendedLength]
  generalize hhead : [headerOne message, headerTwo size hasMask] ++ extendedLength size = head
  have hlen : head.length = rawMessageHeaderSize + payloadAdditionalLen size := by
    rw [← hhead, List.length_append, extendedLength_length]
    rfl
  -- the payload is only copied when there is one
  have hcopy : ∀ before part : Bytes, part.length = size →
      (if size ≠ 0 then writeAt (before ++ part) before.length message.payload.bytes
        else before ++ part) = before ++ message.payload.bytes := by
    intro before part hpart
    split_ifs with hzero
    · exact writeAt_end rfl (hpart.trans hpayload.symm)
    · have hpart' : part = [] := List.eq_nil_of_length_eq_zero (by omega)
      have hbytes : message.payload.bytes = [] := List.eq_nil_of_length_eq_zero (by omega)
      rw [hpart', hbytes]
  cases hasMask with
  | false =>
    simp only [Bool.false_eq_true, if_false, List.replicate_zero, List.nil_append, Nat.add_zero,
      maskedPayload]
    rw [← hlen]
    exact hcopy head _ List.length_replicate
  | true =>
    simp only [if_true, maskedPayload]
    have hmask : (head ++ List.replicate 4 (0 : UInt8)).length =
        rawMessageHeaderSize + payloadAdditionalLen size + 4 := by
      rw [List.length_append, hlen, List.length_replicate]
    have hwritten := hcopy (head ++ List.replicate 4 0) (List.replicate size 0)
      List.length_replicate
    rw [hmask, List.append_assoc] at hwritten
    have hfour : (List.replicate 4 (0 : UInt8)).length = (hostBytes random).length := rfl
    rw [hwritten, List.append_assoc, writeAt_part hlen hfour, ← List.append_assoc, writeAt_end]
    · rw [List.append_assoc]
    · rw [List.length_append, hlen, hostBytes_length]
    · rw [applyMask_length]

/-! ## Reading the parts -/

theorem headerOne_fields (fin : Bool) : ∀ rsv : Fin 8, ∀ op : Fin 16,
    let first : UInt8 := ((if fin then 1 else 0 : UInt8) <<< 7) |||
      ((UInt8.ofNat rsv &&& 0b111) <<< 4) ||| (UInt8.ofNat op &&& 0b1111)
    ((first >>> 7) &&& 0b1 != 0) = fin ∧ (first >>> 4) &&& 0b111 = UInt8.ofNat rsv ∧
      first &&& 0b1111 = UInt8.ofNat op := by
  cases fin <;> decide +kernel

theorem headerTwo_fields (hasMask : Bool) : ∀ len : Fin 128,
    let second : UInt8 := ((if hasMask then 1 else 0 : UInt8) <<< 7) |||
      (UInt8.ofNat len &&& 0x7F)
    ((second >>> 7) &&& 0b1 != 0) = hasMask ∧ second &&& 0x7F = UInt8.ofNat len := by
  cases hasMask <;> decide +kernel

/-- The value of the length field of the header. -/
def lengthField (size : ℕ) : ℕ :=
  if payloadAdditionalLen size = 0 then size
  else if payloadAdditionalLen size = 2 then extendedPayloadMagicNumber1
  else extendedPayloadMagicNumber2

/-- The three encodings of the length. -/
theorem lengthField_cases (size : ℕ) :
    (size < 126 ∧ lengthField size = size ∧ extendedLength size = []) ∨
    (size < 2 ^ 16 ∧ lengthField size = 126 ∧ extendedLength size = serializeU16HostToBe size) ∨
    (lengthField size = 127 ∧ extendedLength size = serializeU64HostToBe size) := by
  unfold lengthField extendedLength
  rcases payloadAdditionalLen_cases size with ⟨h, hlt⟩ | ⟨h, -, hlt⟩ | ⟨h, -⟩
  · rw [if_pos h, if_neg (by omega), if_neg (by omega)]
    exact .inl ⟨hlt, rfl, rfl⟩
  · rw [if_neg (by omega), if_pos h, if_pos h]
    exact .inr (.inl ⟨hlt, rfl, rfl⟩)
  · rw [if_neg (by omega), if_neg (by omega), if_neg (by omega), if_pos h]
    exact .inr (.inr ⟨rfl, rfl⟩)

theorem lengthField_lt (size : ℕ) : lengthField size < 128 := by
  rcases lengthField_cases size with ⟨hlt, h, -⟩ | ⟨-, h, -⟩ | ⟨h, -⟩ <;> omega

theorem headerTwo_eq (size : ℕ) (hasMask : Bool) : headerTwo size hasMask =
    ((if hasMask then 1 else 0 : UInt8) <<< 7) ||| (UInt8.ofNat (lengthField size) &&& 0x7F) :=
  rfl

/-- **The header bytes carry the fields.** -/
theorem getRawHeader_headers {message : WebSocketRawMessage} {allowed : UInt8}
    (hop : message.opCode < 16) (hrsv : message.rsvBytes < 8)
    (hallowed : message.rsvBytes ||| allowed = allowed) (size : ℕ) (hasMask : Bool) :
    getRawHeader [headerOne message, headerTwo size hasMask] allowed =
      .ok ⟨message.fin, message.opCode, hasMask, UInt8.ofNat (lengthField size),
        message.rsvBytes⟩ := by
  have hone := headerOne_fields message.fin ⟨message.rsvBytes.toNat, hrsv⟩
    ⟨message.opCode.toNat, hop⟩
  have htwo := headerTwo_fields hasMask ⟨lengthField size, lengthField_lt size⟩
  dsimp only at hone htwo
  rw [UInt8.ofNat_toNat, UInt8.ofNat_toNat] at hone
  rw [← headerTwo_eq] at htwo
  obtain ⟨hfin, hrsv', hop'⟩ := hone
  obtain ⟨hmask, hlen⟩ := htwo
  have hnone : ¬ (allowed = 0 ∧ message.rsvBytes ≠ 0) := by
    rintro ⟨rfl, hne⟩
    rw [UInt8.or_zero] at hallowed
    exact hne hallowed
  unfold getRawHeader
  simp only [List.getD_cons_zero, List.getD_cons_succ]
  unfold headerOne
  rw [hrsv', hfin, hop', hmask, hlen, if_neg hnone, if_neg (by simp [hallowed])]

variable {reader : BufferedReader} {rest : Bytes}

/-- Each encoding of the length is read back. -/
theorem readPayloadLength_length {size : ℕ} (hsize : size < 2 ^ 64) (h : reader.Ready)
    (hunread : reader.unread = extendedLength size ++ rest) :
    ∃ reader', readPayloadLength reader (lengthField size) = (reader', .ok size) ∧
      reader'.Ready ∧ reader'.unread = rest := by
  unfold readPayloadLength extendedPayloadMagicNumber1 extendedPayloadMagicNumber2
  rcases lengthField_cases size with ⟨hlt, hfield, hext⟩ | ⟨hlt, hfield, hext⟩ | ⟨hfield, hext⟩
  · rw [hext] at hunread
    rw [hfield, if_neg (by omega), if_neg (by omega)]
    exact ⟨reader, rfl, h, hunread⟩
  · rw [hext] at hunread
    rw [hfield, if_pos rfl]
    obtain ⟨reader', hread, hready, hrest⟩ := bufferedReaderGetAmount_append h hunread
      (show _ = rawMessagePayload1Size by simp [serializeU16HostToBe, rawMessagePayload1Size])
    have hvalue := deserializeU16BeToHost_serialize hlt []
    rw [List.append_nil] at hvalue
    rw [hread]
    dsimp only
    rw [hvalue]
    exact ⟨reader', rfl, hready, hrest⟩
  · rw [hext] at hunread
    rw [hfield, if_neg (by decide), if_pos rfl]
    obtain ⟨reader', hread, hready, hrest⟩ := bufferedReaderGetAmount_append h hunread
      (show _ = rawMessagePayload2Size by simp [serializeU64HostToBe, rawMessagePayload2Size])
    have hvalue := deserializeU64BeToHost_serialize hsize []
    rw [List.append_nil] at hvalue
    rw [hread]
    dsimp only
    rw [hvalue]
    exact ⟨reader', rfl, hready, hrest⟩

/-- The mask undoes itself. -/
theorem applyMask_applyMask (mask payload : Bytes) :
    applyMask mask (applyMask mask payload) = payload := by
  unfold applyMask
  apply List.ext_getElem
  · simp
  · intro i h1 h2
    simp only [List.getElem_mapIdx]
    rw [UInt8.xor_assoc, UInt8.xor_self, UInt8.xor_zero]

theorem maskedBuffer_bytes (mask : Bytes) (buffer : SizedBuffer) :
    (maskedBuffer mask buffer).bytes = applyMask mask buffer.bytes := by
  obtain ⟨data, hfits⟩ := buffer
  cases data <;> rfl

/-- The bytes of the payload are read as they are. -/
theorem readPayload_bytes {bytes : Bytes} (hfits : bytes.length < ptrdiffLimit)
    (h : reader.Ready) (hunread : reader.unread = bytes ++ rest) :
    ∃ reader' payload, readPayload reader bytes.length = (reader', .ok payload) ∧
      payload.bytes = bytes ∧ reader'.Ready ∧ reader'.unread = rest := by
  unfold readPayload
  by_cases hzero : bytes.length = 0
  · have hnil : bytes = [] := List.eq_nil_of_length_eq_zero hzero
    subst hnil
    exact ⟨reader, getEmptySizedBuffer, rfl, rfl, h, hunread⟩
  · rw [if_pos hzero]
    obtain ⟨reader', hread, hready, hrest⟩ := bufferedReaderGetAmount_append h hunread rfl
    rw [hread]
    exact ⟨reader', _, rfl, allocateFromReadonlyBuffer_bytes hfits, hready, hrest⟩

/-- Mask and payload together. -/
theorem readMask_readPayload {payload : Bytes} (hfits : payload.length < ptrdiffLimit)
    (hasMask : Bool) (random : UInt32) (h : reader.Ready)
    (hunread : reader.unread = maskedPayload hasMask random payload ++ rest) :
    ∃ reader₁ mask reader₂ buffer, readMask reader hasMask = (reader₁, .ok mask) ∧
      readPayload reader₁ payload.length = (reader₂, .ok buffer) ∧
      (if hasMask then maskedBuffer mask.bytes buffer else buffer).bytes = payload ∧
      reader₂.Ready ∧ reader₂.unread = rest := by
  unfold maskedPayload at hunread
  unfold readMask
  cases hasMask with
  | false =>
    obtain ⟨reader', buffer, hread, hbytes, hready, hrest⟩ := readPayload_bytes hfits h hunread
    exact ⟨reader, getEmptySizedBuffer, reader', buffer, rfl, hread, hbytes, hready, hrest⟩
  | true =>
    rw [if_pos rfl, List.append_assoc] at hunread
    obtain ⟨reader₁, hread₁, hready₁, hrest₁⟩ := bufferedReaderGetAmount_append h hunread
      (show _ = rawMessageMaskByteSize from hostBytes_length random)
    have hfits' : (applyMask (hostBytes random) payload).length < ptrdiffLimit := by
      rwa [applyMask_length]
    obtain ⟨reader₂, buffer, hread₂, hbytes, hready₂, hrest₂⟩ :=
      readPayload_bytes hfits' hready₁ hrest₁
    rw [applyMask_length] at hread₂
    have hmask : (hostBytes random).length < ptrdiffLimit := by
      rw [hostBytes_length]
      decide
    refine ⟨reader₁, sizedBufferAllocateFromReadonlyBuffer (hostBytes random), reader₂, buffer,
      ?_, hread₂, ?_, hready₂, hrest₂⟩
    · rw [if_pos rfl, hread₁]
    · rw [if_pos rfl, maskedBuffer_bytes, hbytes,
        allocateFromReadonlyBuffer_bytes hmask, applyMask_applyMask]

/-! ## The codec -/

/-- A frame, whatever the network makes of its bytes, is read back and consumed. -/
theorem readRawMessage_resultingFrame {message : WebSocketRawMessage}
    {settings : ExtensionReceivePipelineSettings} (hop : message.opCode < 16)
    (hrsv : message.rsvBytes < 8)
    (hallowed : message.rsvBytes ||| settings.allowedRsvBytes = settings.allowedRsvBytes)
    (hasMask : Bool) (random : UInt32) (h : reader.Ready)
    (hunread : reader.unread = resultingFrame message hasMask random
      (List.replicate (frameSize message.payload.size hasMask) 0) ++ rest) :
    ∃ reader' read, readRawMessage reader settings = (reader', .ok read) ∧
      read.fin = message.fin ∧ read.opCode = message.opCode ∧
      read.rsvBytes = message.rsvBytes ∧ read.payload.bytes = message.payload.bytes ∧
      reader'.Ready ∧ reader'.unread = rest := by
  have hfits := message.payload.size_lt
  have hsize : message.payload.size < 2 ^ 64 := lt_trans hfits (by decide)
  rw [resultingFrame_eq, List.append_assoc, List.append_assoc] at hunread
  obtain ⟨reader₁, hread₁, hready₁, hrest₁⟩ := bufferedReaderGetAmount_append h hunread
    (show _ = rawMessageHeaderSize from rfl)
  obtain ⟨reader₂, hread₂, hready₂, hrest₂⟩ := readPayloadLength_length hsize hready₁ hrest₁
  obtain ⟨reader₃, mask, reader₄, buffer, hread₃, hread₄, hbytes, hready₄, hrest₄⟩ :=
    readMask_readPayload hfits hasMask random hready₂ hrest₂
  have hfield : (UInt8.ofNat (lengthField message.payload.size)).toNat =
      lengthField message.payload.size :=
    UInt8.toNat_ofNat_of_lt' (lt_trans (lengthField_lt _) (by decide))
  unfold readRawMessage
  rw [hread₁]
  dsimp only
  rw [getRawHeader_headers hop hrsv hallowed]
  dsimp only
  rw [hfield, hread₂]
  dsimp only
  rw [hread₃]
  dsimp only
  rw [show message.payload.size = message.payload.bytes.length from rfl, hread₄]
  exact ⟨reader₄, _, rfl, rfl, rfl, rfl, hbytes, hready₄, hrest₄⟩

/-- A control frame that must not be sent. -/
def badControlFrame (message : WebSocketRawMessage) : Prop :=
  isControlOpCode message.opCode = true ∧
    (message.fin = false ∨ maxControlFramePayload < message.payload.size)

theorem wsSendMessageRawInternal_cases (message : WebSocketRawMessage) (hasMask : Bool)
    (random : UInt32) :
    (badControlFrame message ∧ wsSendMessageRawInternal message hasMask random = none) ∨
    (¬ badControlFrame message ∧ wsSendMessageRawInternal message hasMask random =
      some (resultingFrame message hasMask random
        (List.replicate (frameSize message.payload.size hasMask) 0))) := by
  have hnull : ¬ (message.payload.data = none ∧ message.payload.size ≠ 0) := by
    rintro ⟨hdata, hne⟩
    apply hne
    unfold SizedBuffer.size SizedBuffer.bytes
    rw [hdata]
    rfl
  unfold wsSendMessageRawInternal badControlFrame
  rw [if_neg hnull]
  dsimp only
  cases hcontrol : isControlOpCode message.opCode with
  | false =>
    right
    refine ⟨?_, rfl⟩
    rintro ⟨hbad, -⟩
    cases hbad
  | true =>
    cases hfin : message.fin with
    | false => exact .inl ⟨⟨rfl, .inl rfl⟩, rfl⟩
    | true =>
      by_cases hlong : message.payload.size > maxControlFramePayload
      · left
        refine ⟨⟨rfl, .inr hlong⟩, ?_⟩
        simp [hlong]
      · right
        refine ⟨fun hbad => hbad.2.elim nofun hlong, ?_⟩
        rw [if_pos rfl, if_neg (by simp), if_neg hlong]
        rfl

/-- **The frame codec.** A message that is sent is read back, whatever follows it and
however it arrives, and its bytes are consumed; every message is sent except the control
frames that are fragmented or too long. -/
theorem wsFrame_codec (message : WebSocketRawMessage) (hasMask : Bool) (random : UInt32)
    (settings : ExtensionReceivePipelineSettings) (hop : message.opCode < 16)
    (hrsv : message.rsvBytes < 8)
    (hallowed : message.rsvBytes ||| settings.allowedRsvBytes = settings.allowedRsvBytes) :
    (∀ frame, wsSendMessageRawInternal message hasMask random = some frame →
      ∀ (reader : BufferedReader) (rest : Bytes), reader.Ready →
        reader.unread = frame ++ rest →
        ∃ reader' read, readRawMessage reader settings = (reader', .ok read) ∧
          read.fin = message.fin ∧ read.opCode = message.opCode ∧
          read.rsvBytes = message.rsvBytes ∧ read.payload.bytes = message.payload.bytes ∧
          reader'.Ready ∧ reader'.unread = rest) ∧
      ((wsSendMessageRawInternal message hasMask random).isSome ↔ ¬ badControlFrame message) := by
  rcases wsSendMessageRawInternal_cases message hasMask random with ⟨hbad, hnone⟩ | ⟨hgood, hsome⟩
  · refine ⟨?_, ?_⟩
    · intro frame hsend
      rw [hnone] at hsend
      cases hsend
    · rw [hnone]
      simp [hbad]
  · refine ⟨?_, ?_⟩
    · intro frame hsend reader rest hready hunread
      rw [hsome] at hsend
      cases hsend
      exact readRawMessage_resultingFrame hop hrsv hallowed hasMask random hready hunread
    · rw [hsome]
      simp [hgood]

/-- A ping with two bytes, masked. -/
def pingMessage : WebSocketRawMessage := ⟨true, 9, ⟨some [0x68, 0x69], by decide⟩, 0⟩

/-- It is sent, and its ten bytes are read from a connection that delivers them in two parts
with more behind them. -/
theorem wsFrame_codec_ping :
    ∃ frame, wsSendMessageRawInternal pingMessage true 7 = some frame ∧
      ∃ reader' read, readRawMessage (getBufferedReader
          [.bytes 0x89 [0x82, 7], .bytes 0 [0, 0, 0x6f, 0x69, 0x81]]) ⟨0⟩ = (reader', .ok read) ∧
        read.opCode = 9 ∧ read.payload.bytes = [0x68, 0x69] ∧ reader'.unread = [0x81] := by
  refine ⟨[0x89, 0x82, 7, 0, 0, 0, 0x6f, 0x69], by decide, ?_⟩
  obtain ⟨reader', read, hread, -, hop, -, hbytes, -, hrest⟩ :=
    (wsFrame_codec pingMessage true 7 ⟨0⟩ (by decide) (by decide) (by decide)).1
      [0x89, 0x82, 7, 0, 0, 0, 0x6f, 0x69] (by decide)
      (getBufferedReader [.bytes 0x89 [0x82, 7], .bytes 0 [0, 0, 0x6f, 0x69, 0x81]]) [0x81]
      ⟨rfl, le_rfl⟩ rfl
  exact ⟨reader', read, hread, hop, hbytes, hrest⟩

end SimpleServer.Ws
