import SimpleServer.Proof.FrameBoundary

/-!
# The frame codec

A frame that is sent is a header and a payload of the length in the header
(`http2SendRawFrame_of_lt`), and the header is read back as it was (`parseHttp2RawHeader_buffer`).
What is left is one lemma for each kind of payload.

* `http2SendSettingsFrame_short`: for SETTINGS with entries too few bytes are sent.
* `http2Frame_codec`: **what is sent is read**, but for SETTINGS with entries and for payloads
  that the 24 bits of the length cannot count.
-/

namespace SimpleServer.Http2

open SimpleServer.Utils Lib

/-! ## The frames that are sent -/

/-- The error codes of the protocol by their names, and the others by their number. -/
def Http2ErrorCode.Canonical : Http2ErrorCode → Prop
  | .unknown code => 14 ≤ code ∧ code < 2 ^ 32
  | _ => True

/-- The frames the server can build. The parser admits the values of the settings. -/
def Buildable : Http2Frame → Prop
  | .settings frame => (frame.ack = true → frame.entries = []) ∧
      ∀ entry ∈ frame.entries,
        settingsValueError entry.identifier entry.value = none ∧ entry.value < 2 ^ 32
  | .ping frame => frame.opaqueData.length = http2PingFrameSize
  | .goaway frame => frame.lastStreamId < 2 ^ 31 ∧ frame.errorCode.Canonical
  | .rstStream frame => 0 < frame.identifier ∧ frame.identifier < 2 ^ 31 ∧
      frame.errorCode.Canonical
  | .headers frame => 0 < frame.identifier ∧ frame.identifier < 2 ^ 31 ∧ frame.priorityOpt = none
  | .continuation frame => 0 < frame.identifier ∧ frame.identifier < 2 ^ 31
  | .data frame => 0 < frame.identifier ∧ frame.identifier < 2 ^ 31
  | _ => False

/-- The number of bytes the payload of a frame has in the protocol. -/
def payloadSize : Http2Frame → ℕ
  | .settings frame => http2SettingsFrameSingleSize * frame.entries.length
  | .ping frame => frame.opaqueData.length
  | .goaway frame => goawayBaseSize + frame.additionalDebugData.length
  | .rstStream _ => http2RstStreamSize
  | .headers frame => frame.blockFragment.length
  | .continuation frame => frame.blockFragment.length
  | .data frame => frame.content.length
  | _ => 0

/-- The frame is written as a header of nine bytes and a payload, which are read back from
every reader that holds them, and nothing else is consumed. -/
def RoundTrips (context : HTTP2Context) (frame : Http2Frame) : Prop :=
  ∃ header payload, header.length = http2HeaderSize ∧
    http2SendFrame frame = some (header ++ payload) ∧
    ∀ behind reader rest, BufferedReader.Ready reader →
      reader.unread = header ++ payload ++ rest →
        ∃ reader', (parseHttp2Frame context behind).run reader = .ok frame reader' ∧
          reader'.Ready ∧ reader'.unread = rest

/-! ## The header -/

variable {header : Http2RawHeader} {context : HTTP2Context} {reader : BufferedReader}
  {rest : Bytes}

@[simp] theorem headerBuffer_length (header : Http2RawHeader) :
    (headerBuffer header).length = http2HeaderSize := by
  simp [headerBuffer, serializeIdentifier, serializeU32HostToBe, http2HeaderSize]

theorem deserializeIdentifier_serialize {identifier : ℕ} (h : identifier < 2 ^ 31)
    (rest : Bytes) : deserializeIdentifier (serializeIdentifier identifier ++ rest) =
      identifier := by
  unfold deserializeIdentifier serializeIdentifier
  rw [Nat.mod_eq_of_lt h, deserializeU32BeToHost_serialize (by omega), Nat.mod_eq_of_lt h]

/-- The highest byte of a length is zero, and the parser puts it back. -/
theorem serializeU32_of_lt {length : ℕ} (h : length < 2 ^ 24) :
    serializeU32HostToBe length = 0 :: (serializeU32HostToBe length).drop 1 := by
  have hzero : length / 256 ^ 3 = 0 := Nat.div_eq_of_lt h
  have hcons : serializeU32HostToBe length = UInt8.ofNat (length / 256 ^ 3) :: toBE 3 length := rfl
  rw [hcons, hzero]
  rfl

/-- The header is read back as it was. -/
theorem parseHttp2RawHeader_buffer (h : header.streamIdentifier < 2 ^ 31) :
    parseHttp2RawHeader (headerBuffer header) = header := by
  obtain ⟨length, hfits, type, flags, identifier⟩ := header
  have hlength : deserializeU24BeToHost (headerBuffer ⟨length, hfits, type, flags, identifier⟩) =
      length := by
    unfold deserializeU24BeToHost headerBuffer
    rw [List.append_assoc, ← List.cons_append, ← serializeU32_of_lt hfits]
    exact deserializeU32BeToHost_serialize (by omega) _
  have hdrop : (headerBuffer ⟨length, hfits, type, flags, identifier⟩).drop 5 =
      serializeIdentifier identifier ++ [] := by
    unfold headerBuffer
    rw [List.append_nil]
    exact List.drop_left' rfl
  unfold parseHttp2RawHeader
  rw [hlength, hdrop, deserializeIdentifier_serialize h]
  unfold Http2RawHeader.of
  simp only [Http2RawHeader.mk.injEq]
  exact ⟨Nat.mod_eq_of_lt hfits, rfl, rfl, trivial⟩

theorem Http2RawHeader.of_length {length : ℕ} (h : length < 2 ^ 24) (type flags : UInt8)
    (identifier : ℕ) : (Http2RawHeader.of length type flags identifier).length = length :=
  Nat.mod_eq_of_lt h

theorem http2SendRawFrame_of_lt {data : Bytes} (h : data.length < 2 ^ 24) (type flags : UInt8)
    (identifier : ℕ) : http2SendRawFrame (.of data.length type flags identifier) data =
      some (headerBuffer (.of data.length type flags identifier) ++ data) := by
  unfold http2SendRawFrame
  rw [if_neg (not_not.2 (Http2RawHeader.of_length h type flags identifier).symm)]

theorem http2SendRawFrame_some {data bytes : Bytes}
    (h : http2SendRawFrame header data = some bytes) :
    bytes = headerBuffer header ++ data ∧ data.length = header.length := by
  unfold http2SendRawFrame at h
  split_ifs at h with hlen
  exact ⟨(Option.some.inj h).symm, not_not.1 hlen⟩

/-- What the length field cannot count is not sent. -/
theorem http2SendRawFrame_lt {data bytes : Bytes}
    (h : http2SendRawFrame header data = some bytes) : data.length < 2 ^ 24 := by
  rw [(http2SendRawFrame_some h).2]
  exact header.fits

/-- Parsing a frame is parsing its payload, once the header is read. -/
theorem parseHttp2Frame_of_header (behind : Bytes) {payload : Bytes} (hready : reader.Ready)
    (hid : header.streamIdentifier < 2 ^ 31) (hsize : header.length ≤ context.settings.maxFrameSize)
    (hunread : reader.unread = headerBuffer header ++ payload ++ rest) :
    ∃ reader₁, (parseHttp2Frame context behind).run reader =
        (parseHttp2FramePayload context behind header).run reader₁ ∧
      reader₁.Ready ∧ reader₁.unread = payload ++ rest := by
  rw [List.append_assoc] at hunread
  obtain ⟨reader₁, hread, hreads⟩ := readAmount_append hready hunread (headerBuffer_length header)
    "Failed to read enough data for the frame header"
  refine ⟨reader₁, ?_, hreads.ready', ?_⟩
  · unfold parseHttp2Frame
    rw [run_bind_of_ok hread, parseHttp2RawHeader_buffer hid, run_failIf_bind (not_lt.2 hsize)]
  · rw [hreads.drop, hunread, List.drop_left]

/-- A kind of frame is read back when its payload is. -/
theorem RoundTrips.of_payload {frame : Http2Frame} (type : Http2FrameType) {flags : UInt8}
    {identifier : ℕ} (payload : Bytes) (hfits : payload.length < 2 ^ 24)
    (hsize : payload.length ≤ context.settings.maxFrameSize) (hid : identifier < 2 ^ 31)
    (hsend : http2SendFrame frame =
      http2SendRawFrame (.of payload.length type.toByte flags identifier) payload)
    (hparse : ∀ behind reader rest, BufferedReader.Ready reader →
      reader.unread = payload ++ rest → ∃ reader',
        (parseHttp2FramePayload context behind
          (.of payload.length type.toByte flags identifier)).run reader = .ok frame reader' ∧
        Reads reader payload reader') :
    RoundTrips context frame := by
  refine ⟨_, payload, headerBuffer_length _,
    hsend.trans (http2SendRawFrame_of_lt hfits type.toByte flags identifier), ?_⟩
  intro behind reader rest hready hunread
  have hlength := Http2RawHeader.of_length hfits type.toByte flags identifier
  obtain ⟨reader₁, hrun, hready₁, hunread₁⟩ :=
    parseHttp2Frame_of_header behind hready hid (hlength.le.trans hsize) hunread
  obtain ⟨reader', hok, hreads⟩ := hparse behind reader₁ rest hready₁ hunread₁
  refine ⟨reader', hrun.trans hok, hreads.ready', ?_⟩
  rw [hreads.drop, hunread₁, List.drop_left]

/-! ## The payloads -/

theorem run_checkFlags_bind {type : Http2FrameType} {message : String} {α : Type}
    (h : header.flags &&& type.flagsAllowed = header.flags) (f : Unit → FrameParser α) :
    (checkFlags type header message >>= f).run reader = (f ()).run reader :=
  run_failIf_bind (not_not.2 h) f

/-- A frame without the flag has no padding. -/
theorem readPaddingLength_of_not (h : hasFlag header.flags flagPadded = false) :
    (readPaddingLength header).run reader = .ok (0, header.length) reader := by
  unfold readPaddingLength
  rw [h]
  rfl

theorem readPadding_zero : (readPadding 0).run reader = .ok () reader := rfl

/-- The flags a DATA frame is sent with. -/
theorem dataFlags : ∀ isEnd : Bool, let flags := if isEnd then flagEndStream else 0
    flags &&& Http2FrameType.data.flagsAllowed = flags ∧ hasFlag flags flagPadded = false ∧
      hasFlag flags flagEndStream = isEnd := by
  decide

/-- The flags a HEADERS frame is sent with. -/
theorem headersFlags : ∀ endStream endHeaders : Bool,
    let flags := (if endStream then flagEndStream else 0) |||
      (if endHeaders then flagEndHeaders else 0)
    flags &&& Http2FrameType.headers.flagsAllowed = flags ∧ hasFlag flags flagPadded = false ∧
      hasFlag flags flagPriority = false ∧ hasFlag flags flagEndStream = endStream ∧
      hasFlag flags flagEndHeaders = endHeaders := by
  decide

/-- The flags a CONTINUATION frame is sent with. -/
theorem continuationFlags : ∀ endHeaders : Bool,
    let flags := if endHeaders then flagEndHeaders else 0
    flags &&& Http2FrameType.continuation.flagsAllowed = flags ∧
      hasFlag flags flagEndHeaders = endHeaders := by
  decide

/-- The flags a PING or a SETTINGS frame is sent with. -/
theorem ackFlags : ∀ ack : Bool, let flags := if ack then flagAck else 0
    flags &&& Http2FrameType.ping.flagsAllowed = flags ∧
      flags &&& Http2FrameType.settings.flagsAllowed = flags ∧ hasFlag flags flagAck = ack := by
  decide

/-- A HEADERS frame without the flag has no priority. -/
theorem readPriority_of_not (h : hasFlag header.flags flagPriority = false) (length : ℕ) :
    (readPriority header length).run reader = .ok (none, length) reader := by
  unfold readPriority
  rw [h]
  rfl

theorem roundTrips_data {frame : Http2DataFrame} (h : Buildable (.data frame))
    (hfits : frame.content.length < 2 ^ 24)
    (hsize : frame.content.length ≤ context.settings.maxFrameSize) :
    RoundTrips context (.data frame) := by
  obtain ⟨content, isEnd, identifier⟩ := frame
  obtain ⟨hpos, hid⟩ := h
  refine RoundTrips.of_payload .data content hfits hsize hid rfl ?_
  intro behind reader rest hready hunread
  obtain ⟨reader', hread, hreads⟩ := readContent_append hready hunread rfl
    (hfits.trans (by decide)) "Failed allocate frame data content buffer"
  refine ⟨reader', ?_, hreads⟩
  simp only [parseHttp2FramePayload, Http2RawHeader.of, Http2FrameType.ofByte_toByte,
    Nat.mod_eq_of_lt hfits]
  obtain ⟨hallowed, hpadded, hend⟩ := dataFlags isEnd
  unfold parseHttp2DataFrame
  rw [run_failIf_bind (Nat.ne_of_gt hpos), run_checkFlags_bind hallowed,
    run_bind_of_ok (readPaddingLength_of_not hpadded), run_bind_of_ok hread,
    run_bind_of_ok readPadding_zero, EStateM.run_pure, hend]

theorem roundTrips_headers {frame : Http2HeadersFrame} (h : Buildable (.headers frame))
    (hfits : frame.blockFragment.length < 2 ^ 24)
    (hsize : frame.blockFragment.length ≤ context.settings.maxFrameSize) :
    RoundTrips context (.headers frame) := by
  obtain ⟨priorityOpt, blockFragment, identifier, endStream, endHeaders⟩ := frame
  obtain ⟨hpos, hid, hnone⟩ := h
  cases hnone
  refine RoundTrips.of_payload .headers blockFragment hfits hsize hid rfl ?_
  intro behind reader rest hready hunread
  obtain ⟨reader', hread, hreads⟩ := readContent_append hready hunread rfl
    (hfits.trans (by decide)) "Failed allocate headers block fragment buffer"
  refine ⟨reader', ?_, hreads⟩
  simp only [parseHttp2FramePayload, Http2RawHeader.of, Http2FrameType.ofByte_toByte,
    Nat.mod_eq_of_lt hfits]
  unfold parseHttp2HeadersFrame
  obtain ⟨hallowed, hpadded, hpriority, hstream, hheaders⟩ := headersFlags endStream endHeaders
  rw [run_failIf_bind (Nat.ne_of_gt hpos), run_checkFlags_bind hallowed,
    run_bind_of_ok (readPaddingLength_of_not hpadded),
    run_bind_of_ok (readPriority_of_not hpriority _), run_bind_of_ok hread,
    run_bind_of_ok readPadding_zero, EStateM.run_pure, hstream, hheaders]

theorem roundTrips_continuation {frame : Http2ContinuationFrame}
    (h : Buildable (.continuation frame)) (hfits : frame.blockFragment.length < 2 ^ 24)
    (hsize : frame.blockFragment.length ≤ context.settings.maxFrameSize) :
    RoundTrips context (.continuation frame) := by
  obtain ⟨blockFragment, identifier, endHeaders⟩ := frame
  obtain ⟨hpos, hid⟩ := h
  refine RoundTrips.of_payload .continuation blockFragment hfits hsize hid rfl ?_
  intro behind reader rest hready hunread
  obtain ⟨reader', hread, hreads⟩ := readContent_append hready hunread rfl
    (hfits.trans (by decide)) "Failed allocate headers block fragment buffer"
  refine ⟨reader', ?_, hreads⟩
  simp only [parseHttp2FramePayload, Http2RawHeader.of, Http2FrameType.ofByte_toByte,
    Nat.mod_eq_of_lt hfits]
  obtain ⟨hallowed, hheaders⟩ := continuationFlags endHeaders
  unfold parseHttp2ContinuationFrame
  rw [run_failIf_bind (Nat.ne_of_gt hpos), run_checkFlags_bind hallowed, run_bind_of_ok hread,
    EStateM.run_pure, hheaders]

theorem Http2ErrorCode.Canonical.toCode_lt {code : Http2ErrorCode} (h : code.Canonical) :
    code.toCode < 2 ^ 32 := by
  cases code with
  | unknown code => exact h.2
  | _ => decide

theorem Http2ErrorCode.Canonical.ofCode_toCode {code : Http2ErrorCode} (h : code.Canonical) :
    Http2ErrorCode.ofCode code.toCode = code := by
  cases code with
  | unknown code =>
    obtain ⟨n, rfl⟩ := Nat.exists_eq_add_of_le' h.1
    rfl
  | _ => rfl

/-- Error codes are read back. -/
theorem ofCode_deserialize {code : Http2ErrorCode} (h : code.Canonical) (rest : Bytes) :
    Http2ErrorCode.ofCode (deserializeU32BeToHost (serializeU32HostToBe code.toCode ++ rest)) =
      code := by
  rw [deserializeU32BeToHost_serialize h.toCode_lt, h.ofCode_toCode]

theorem roundTrips_rstStream {frame : Http2RstStreamFrame} (h : Buildable (.rstStream frame))
    (hsize : http2RstStreamSize ≤ context.settings.maxFrameSize) :
    RoundTrips context (.rstStream frame) := by
  obtain ⟨errorCode, identifier⟩ := frame
  obtain ⟨hpos, hid, hcode⟩ := h
  have hfour : (serializeU32HostToBe errorCode.toCode).length = http2RstStreamSize :=
    toBE_length 4 _
  have hfits : (serializeU32HostToBe errorCode.toCode).length < 2 ^ 24 := by
    rw [hfour]
    decide
  refine RoundTrips.of_payload .rstStream (serializeU32HostToBe errorCode.toCode) hfits
    (hfour.le.trans hsize) hid rfl ?_
  intro behind reader rest hready hunread
  obtain ⟨reader', hread, hreads⟩ := readAmount_append hready hunread hfour
    "Failed to read enough data for the frame header"
  refine ⟨reader', ?_, hreads⟩
  simp only [parseHttp2FramePayload, Http2RawHeader.of, Http2FrameType.ofByte_toByte,
    Nat.mod_eq_of_lt hfits]
  unfold parseHttp2RstStreamFrame
  have hvalue := ofCode_deserialize hcode []
  rw [List.append_nil] at hvalue
  rw [run_failIf_bind (Nat.ne_of_gt hpos), run_checkFlags_bind UInt8.zero_and,
    run_failIf_bind (not_not.2 hfour), run_bind_of_ok hread, EStateM.run_pure, hvalue]

theorem roundTrips_ping {frame : Http2PingFrame} (h : Buildable (.ping frame))
    (hsize : frame.opaqueData.length ≤ context.settings.maxFrameSize) :
    RoundTrips context (.ping frame) := by
  obtain ⟨ack, opaqueData⟩ := frame
  have height : opaqueData.length = http2PingFrameSize := h
  have hfits : opaqueData.length < 2 ^ 24 := by rw [height]; decide
  have hsend : http2SendFrame (.ping ⟨ack, opaqueData⟩) =
      http2SendRawFrame (.of opaqueData.length Http2FrameType.ping.toByte
        (if ack then flagAck else 0) 0) opaqueData := by
    simp only [http2SendFrame, http2SendPingFrame]
    rw [if_neg (not_not.2 height), height]
  refine RoundTrips.of_payload .ping opaqueData hfits hsize (by decide) hsend ?_
  intro behind reader rest hready hunread
  obtain ⟨reader', hread, hreads⟩ := readAmount_append hready hunread height
    "Failed to read enough data for the frame header"
  refine ⟨reader', ?_, hreads⟩
  obtain ⟨hallowed, -, hack⟩ := ackFlags ack
  have hcopy : opaqueData.length < ptrdiffLimit := hfits.trans (by decide)
  simp only [parseHttp2FramePayload, Http2RawHeader.of, Http2FrameType.ofByte_toByte,
    Nat.mod_eq_of_lt hfits]
  unfold parseHttp2PingFrame
  rw [run_failIf_bind (not_not.2 rfl), run_checkFlags_bind hallowed,
    run_failIf_bind (not_not.2 height), run_bind_of_ok hread,
    run_failIf_bind (by simp [sizedBufferAllocateFromReadonlyBuffer, hcopy]),
    allocateFromReadonlyBuffer_bytes hcopy, EStateM.run_pure, hack]

theorem readDebugData_append {bytes : Bytes} (hready : reader.Ready)
    (hunread : reader.unread = bytes ++ rest) (hfits : bytes.length < ptrdiffLimit) :
    ∃ reader', (readDebugData bytes.length).run reader = .ok bytes reader' ∧
      Reads reader bytes reader' := by
  unfold readDebugData
  by_cases hzero : bytes.length = 0
  · have hnil : bytes = [] := List.eq_nil_of_length_eq_zero hzero
    subst hnil
    exact ⟨reader, rfl, Reads.refl hready⟩
  · obtain ⟨reader', hread, hreads⟩ := readAmount_append hready hunread rfl
      "Failed to read enough data for the frame data"
    refine ⟨reader', ?_, hreads⟩
    rw [if_pos (Nat.pos_of_ne_zero hzero), run_bind_of_ok hread,
      run_failIf_bind (by simp [sizedBufferAllocateFromReadonlyBuffer, hfits]),
      allocateFromReadonlyBuffer_bytes hfits, EStateM.run_pure]

/-- The payload of a GOAWAY. -/
def goawayPayload (frame : Http2GoawayFrame) : Bytes :=
  serializeIdentifier frame.lastStreamId ++ serializeU32HostToBe frame.errorCode.toCode ++
    frame.additionalDebugData

theorem goawayPayload_length (frame : Http2GoawayFrame) :
    (goawayPayload frame).length = goawayBaseSize + frame.additionalDebugData.length := by
  simp only [goawayPayload, serializeIdentifier, serializeU32HostToBe, goawayBaseSize,
    List.length_append, toBE_length]

/-- The length of a GOAWAY is one of 32 bits before it is one of 24 bits. -/
theorem http2SendGoawayFrame_eq {frame : Http2GoawayFrame}
    (h : (goawayPayload frame).length < 2 ^ 32) : http2SendGoawayFrame frame =
      http2SendRawFrame (.of (goawayPayload frame).length Http2FrameType.goaway.toByte 0 0)
        (goawayPayload frame) := by
  have hlen := goawayPayload_length frame
  have hmod : (frame.additionalDebugData.length + goawayBaseSize) % 2 ^ 32 =
      (goawayPayload frame).length := by
    rw [Nat.mod_eq_of_lt (by omega)]
    omega
  unfold http2SendGoawayFrame
  rw [hmod]
  exact if_neg (not_not.2 rfl)

theorem roundTrips_goaway {frame : Http2GoawayFrame} (h : Buildable (.goaway frame))
    (hfits : payloadSize (.goaway frame) < 2 ^ 24)
    (hsize : payloadSize (.goaway frame) ≤ context.settings.maxFrameSize) :
    RoundTrips context (.goaway frame) := by
  obtain ⟨hid, hcode⟩ := h
  have hlen : payloadSize (.goaway frame) = (goawayPayload frame).length :=
    (goawayPayload_length frame).symm
  rw [hlen] at hfits hsize
  refine RoundTrips.of_payload .goaway (goawayPayload frame) hfits hsize (by decide)
    (http2SendGoawayFrame_eq (by omega)) ?_
  intro behind reader rest hready hunread
  have hunread' := hunread
  unfold goawayPayload at hunread'
  rw [List.append_assoc] at hunread'
  obtain ⟨reader₁, hread₁, hreads₁⟩ := readAmount_append hready hunread'
    (show _ = goawayBaseSize by simp [serializeIdentifier, serializeU32HostToBe, goawayBaseSize])
    "Failed to read enough data for the frame data"
  have hunread₁ : reader₁.unread = frame.additionalDebugData ++ rest := by
    rw [hreads₁.drop, hunread', List.drop_left]
  have hdebug : frame.additionalDebugData.length < ptrdiffLimit := by
    rw [goawayPayload_length] at hfits
    exact (show _ < 2 ^ 24 by omega).trans (by decide)
  obtain ⟨reader₂, hread₂, hreads₂⟩ := readDebugData_append hreads₁.ready' hunread₁ hdebug
  refine ⟨reader₂, ?_, hreads₁.trans hreads₂⟩
  have hbase : goawayBaseSize ≤ (goawayPayload frame).length := by
    rw [goawayPayload_length]
    omega
  have hleft : (goawayPayload frame).length - goawayBaseSize =
      frame.additionalDebugData.length := by
    rw [goawayPayload_length]
    omega
  have hlast := deserializeIdentifier_serialize hid (serializeU32HostToBe frame.errorCode.toCode)
  have hvalue := ofCode_deserialize hcode []
  rw [List.append_nil] at hvalue
  simp only [parseHttp2FramePayload, Http2RawHeader.of, Http2FrameType.ofByte_toByte,
    Nat.mod_eq_of_lt hfits]
  unfold parseHttp2GoawayFrame
  rw [run_failIf_bind (not_not.2 rfl), run_checkFlags_bind UInt8.zero_and,
    run_failIf_bind (not_lt.2 hbase), run_bind_of_ok hread₁, hleft,
    run_bind_of_ok hread₂, EStateM.run_pure, hlast,
    List.drop_left' (show (serializeIdentifier _).length = 4 from toBE_length 4 _), hvalue]

/-! ## SETTINGS -/

theorem parseSettingsLoop_length {data : Bytes} {rounds i : ℕ}
    {entries entries' : List Http2SettingSingleValue}
    (h : parseSettingsLoop data rounds i entries = .ok entries') :
    entries'.length ≤ entries.length + rounds := by
  induction rounds generalizing i entries with
  | zero =>
    cases h
    exact le_rfl
  | succ rounds ih =>
    unfold parseSettingsLoop at h
    dsimp only at h
    split at h
    · have hle := ih h
      omega
    · split at h
      · cases h
      · have hle := ih h
        rw [List.length_append, List.length_singleton] at hle
        omega

/-- Six bytes of the payload are needed for an entry. -/
theorem parseHttp2SettingsFrame_entries {frame : Http2SettingsFrame} {reader' : BufferedReader}
    (h : (parseHttp2SettingsFrame header).run reader = .ok (.settings frame) reader') :
    http2SettingsFrameSingleSize * frame.entries.length ≤ header.length := by
  unfold parseHttp2SettingsFrame checkFlags at h
  simp only [run_bind_eq_ok, run_failIf_eq_ok] at h
  obtain ⟨-, _, ⟨-, rfl⟩, -, _, ⟨-, rfl⟩, h⟩ := h
  split at h
  · simp only [run_bind_eq_ok, run_failIf_eq_ok, run_pure_eq_ok, Http2Frame.settings.injEq] at h
    obtain ⟨-, _, ⟨-, rfl⟩, rfl, -⟩ := h
    exact Nat.zero_le _
  · simp only [run_bind_eq_ok, run_failIf_eq_ok] at h
    obtain ⟨-, _, ⟨-, rfl⟩, bytes, reader₁, hread, h⟩ := h
    have hbytes : bytes.length = header.length := by
      unfold readSettingsData at hread
      split at hread
      · exact (readAmount_ok hread).2
      · rename_i hzero
        obtain ⟨rfl, -⟩ := run_pure_eq_ok.1 hread
        exact (Nat.eq_zero_of_not_pos hzero).symm
    have hcopy : bytes.length < ptrdiffLimit := by
      rw [hbytes]
      exact header.fits.trans (by decide)
    rw [allocateFromReadonlyBuffer_bytes hcopy] at h
    split at h
    · cases h
    · rename_i frame' hraw
      obtain ⟨heq, -⟩ := run_pure_eq_ok.1 h
      cases heq
      unfold parseRawHttp2SettingsFrame at hraw
      split at hraw
      · cases hraw
      · split at hraw
        · cases hraw
        · rename_i entries hloop
          cases hraw
          have hle := parseSettingsLoop_length hloop
          rw [List.length_nil, Nat.zero_add, hbytes] at hle
          have hdiv := Nat.mul_div_le header.length http2SettingsFrameSingleSize
          exact (Nat.mul_le_mul_left _ hle).trans hdiv

/-- Of a SETTINGS frame with entries less is sent than a frame with these entries needs. -/
theorem http2SendSettingsFrame_short {frame : Http2SettingsFrame} {bytes : Bytes}
    (h : http2SendSettingsFrame frame = some bytes) :
    ∃ header payload, bytes = headerBuffer header ++ payload ∧
      header.type = Http2FrameType.settings.toByte ∧ header.streamIdentifier = 0 ∧
      header.length ≤ frame.entries.length := by
  unfold http2SendSettingsFrame at h
  dsimp only at h
  split at h
  · cases h
  · refine ⟨_, _, (http2SendRawFrame_some h).1, rfl, rfl, ?_⟩
    exact (Nat.mod_le _ _).trans (Nat.mod_le _ _)

/-- There is a reader for every input. -/
theorem exists_reader (bytes : Bytes) :
    ∃ reader : BufferedReader, reader.Ready ∧ reader.unread = bytes := by
  refine ⟨⟨[], .open, ⟨0, bytes⟩, []⟩, ⟨rfl, Nat.zero_le _⟩, ?_⟩
  simp [BufferedReader.unread, arriving]

/-- SETTINGS with entries are refused, or read without some of their entries. -/
theorem not_roundTrips_settings {frame : Http2SettingsFrame} (hne : frame.entries ≠ [])
    (hsize : payloadSize (.settings frame) ≤ context.settings.maxFrameSize) :
    ¬ RoundTrips context (.settings frame) := by
  rintro ⟨front, payload, hnine, hsend, hparse⟩
  obtain ⟨header, payload', hbytes, htype, hid, hlen⟩ := http2SendSettingsFrame_short hsend
  have hpos : 0 < frame.entries.length := List.length_pos_of_ne_nil hne
  simp only [payloadSize, http2SettingsFrameSingleSize] at hsize
  obtain ⟨reader, hready, hunread⟩ := exists_reader (front ++ payload ++ [])
  obtain ⟨reader', hrun, -, -⟩ := hparse [] reader [] hready hunread
  rw [hbytes] at hunread
  obtain ⟨reader₁, hrun₁, -, -⟩ := parseHttp2Frame_of_header [] hready
    (hid.trans_lt (by decide)) (show _ ≤ context.settings.maxFrameSize by omega) hunread
  rw [hrun₁] at hrun
  simp only [parseHttp2FramePayload, htype, Http2FrameType.ofByte_toByte] at hrun
  have hentries := parseHttp2SettingsFrame_entries hrun
  simp only [http2SettingsFrameSingleSize] at hentries
  omega

theorem roundTrips_settings {frame : Http2SettingsFrame} (hnil : frame.entries = []) :
    RoundTrips context (.settings frame) := by
  obtain ⟨ack, entries⟩ := frame
  cases hnil
  have hsend : http2SendFrame (.settings ⟨ack, []⟩) =
      http2SendRawFrame (.of ([] : Bytes).length Http2FrameType.settings.toByte
        (if ack then flagAck else 0) 0) [] := by
    cases ack <;> rfl
  refine RoundTrips.of_payload .settings [] (by decide) (Nat.zero_le _) (by decide) hsend ?_
  intro behind reader rest hready hunread
  refine ⟨reader, ?_, Reads.refl hready⟩
  obtain ⟨-, hallowed, hack⟩ := ackFlags ack
  simp only [parseHttp2FramePayload, Http2RawHeader.of, Http2FrameType.ofByte_toByte]
  unfold parseHttp2SettingsFrame
  rw [run_failIf_bind (not_not.2 rfl), run_checkFlags_bind hallowed, hack]
  cases ack <;> rfl

/-! ## The codec -/

/-- The payload of a frame that is sent. -/
theorem payloadSize_lt_of_send {frame : Http2Frame} {bytes : Bytes} (hbuild : Buildable frame)
    (hsettings : ∀ f, frame ≠ .settings f) (hsend : http2SendFrame frame = some bytes) :
    payloadSize frame < 2 ^ 24 := by
  cases frame with
  | data frame => exact http2SendRawFrame_lt hsend
  | headers frame =>
    obtain ⟨-, -, hnone⟩ := hbuild
    simp only [http2SendFrame, http2SendHeadersFrame, hnone] at hsend
    exact http2SendRawFrame_lt hsend
  | continuation frame => exact http2SendRawFrame_lt hsend
  | goaway frame =>
    have hlen := goawayPayload_length frame
    simp only [http2SendFrame, http2SendGoawayFrame] at hsend
    split at hsend
    · cases hsend
    · have hlt : (goawayPayload frame).length < 2 ^ 24 := http2SendRawFrame_lt hsend
      rwa [hlen] at hlt
  | settings frame => exact absurd rfl (hsettings frame)
  | ping frame =>
    have height : frame.opaqueData.length = http2PingFrameSize := hbuild
    simp only [payloadSize, height]
    decide
  | rstStream frame =>
    simp only [payloadSize]
    decide
  | priority frame => exact absurd hbuild id
  | pushPromise frame => exact absurd hbuild id
  | windowUpdate frame => exact absurd hbuild id

/-- **What is sent is read**: the frames the server can build, with a payload of at most the
frame size of the receiver, except SETTINGS with entries and payloads of 2^24 bytes. -/
theorem http2Frame_codec (context : HTTP2Context) (frame : Http2Frame) (hbuild : Buildable frame)
    (hsize : payloadSize frame ≤ context.settings.maxFrameSize) :
    RoundTrips context frame ↔
      (∀ settings, frame = .settings settings → settings.entries = []) ∧
        payloadSize frame < 2 ^ 24 := by
  constructor
  · intro h
    have hentries : ∀ settings, frame = .settings settings → settings.entries = [] := by
      rintro settings rfl
      by_contra hne
      exact not_roundTrips_settings hne hsize h
    refine ⟨hentries, ?_⟩
    by_cases hsettings : ∃ f, frame = .settings f
    · obtain ⟨f, rfl⟩ := hsettings
      simp [payloadSize, hentries f rfl]
    · obtain ⟨front, payload, -, hsend, -⟩ := h
      exact payloadSize_lt_of_send hbuild (fun f hf => hsettings ⟨f, hf⟩) hsend
  · rintro ⟨hentries, hfits⟩
    cases frame with
    | data frame => exact roundTrips_data hbuild hfits hsize
    | headers frame => exact roundTrips_headers hbuild hfits hsize
    | continuation frame => exact roundTrips_continuation hbuild hfits hsize
    | goaway frame => exact roundTrips_goaway hbuild hfits hsize
    | settings frame => exact roundTrips_settings (hentries frame rfl)
    | ping frame => exact roundTrips_ping hbuild hsize
    | rstStream frame => exact roundTrips_rstStream hbuild hsize
    | priority frame => exact absurd hbuild id
    | pushPromise frame => exact absurd hbuild id
    | windowUpdate frame => exact absurd hbuild id

/-- A HEADERS frame of stream 1. -/
theorem http2Frame_codec_headers :
    RoundTrips http2DefaultContext (.headers ⟨none, [0x88], 1, false, true⟩) :=
  (http2Frame_codec http2DefaultContext (.headers ⟨none, [0x88], 1, false, true⟩)
    (by simp [Buildable]) (by decide)).2 ⟨nofun, by decide⟩

/-- The SETTINGS frame a connection starts with: one byte is sent for its entry, and the parser
refuses it. -/
theorem http2Frame_codec_settings :
    Buildable (.settings ⟨false, [⟨.headerTableSize, 4096⟩]⟩) ∧
    http2SendFrame (.settings ⟨false, [⟨.headerTableSize, 4096⟩]⟩) =
      some [0, 0, 1, 4, 0, 0, 0, 0, 0, 0] ∧
    (∃ reader', (parseHttp2Frame http2DefaultContext []).run
        (getBufferedReader [.bytes 0 [0, 1, 4, 0, 0, 0, 0, 0, 0]]) =
      .error ⟨.frameSizeError, "invalid settings frame length, not a multiple of 6"⟩ reader') ∧
    ¬ RoundTrips http2DefaultContext (.settings ⟨false, [⟨.headerTableSize, 4096⟩]⟩) := by
  refine ⟨?_, rfl, ⟨_, rfl⟩, ?_⟩
  · simp [Buildable, settingsValueError]
  · exact not_roundTrips_settings (by simp) (by decide)

end SimpleServer.Http2
