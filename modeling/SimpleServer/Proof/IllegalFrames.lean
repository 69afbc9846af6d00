import SimpleServer.Lib.Bits
import SimpleServer.Lib.ByteOrder
import SimpleServer.Lib.Run
import SimpleServer.Proof.WsRounds

/-!
# Illegal WebSocket frames

The header is checked for the reserved bits that no extension uses, and a frame that continues a
message for the bit of a compressed one. Nothing looks for a mask, or for the bit in a control
frame.

* `connectionRound_refused`: the frames that a listener refuses with a protocol error.
* `refusesIllegal_iff`: **when all illegal frames are refused.**
-/

namespace SimpleServer.Ws

open Lib Utils

variable {A : Type}

/-! ## What is asked -/

/-- The opcode in the header. -/
def headerOpCode (header : Bytes) : WsOpcode := header.getD 0 0 &&& 0b1111

/-- The reserved bits in the header. -/
def headerRsv (header : Bytes) : UInt8 := (header.getD 0 0 >>> 4) &&& 0b111

/-- The header announces a mask. -/
def headerMasked (header : Bytes) : Bool := (header.getD 1 0 >>> 7) &&& 0b1 != 0

/-- A frame that a client must not send. -/
inductive IllegalHeader (extensions : List WSExtension) (header : Bytes) : Prop
  | unmasked (h : headerMasked header = false)
  | reserved (h : headerRsv header &&& 0b011 ≠ 0)
  | notNegotiated (h : headerRsv header &&& rsvCompressed ≠ 0) (hnone : extensions = [])
  | compressedControl (h : headerRsv header &&& rsvCompressed ≠ 0)
      (hop : isControlOpCode (headerOpCode header) = true)
  | compressedCont (h : headerRsv header &&& rsvCompressed ≠ 0)
      (hop : headerOpCode header = wsOpcodeCont)

/-- The header that the next round reads. -/
def NextHeader (connection : ListenerConnection A) (header : Bytes) : Prop :=
  connection.listener.running = true ∧
    (bufferedReaderGetAmount connection.reader rawMessageHeaderSize).2 = .ok header

/-- A close frame with the code of a protocol error. -/
def IsProtocolError (frame : WebSocketRawMessage) : Prop :=
  frame.opCode = wsOpcodeClose ∧
    deserializeU16BeToHost frame.payload.bytes = closeCodeProtocolError

/-- The round ends the listener, and all that it does is closing the connection with a protocol
error. -/
def RefusedRound (result : ListenerConnection A × List ListenerOutput) : Prop :=
  result.1.listener.running = false ∧
    ∃ frame, result.2 = [.sent frame] ∧ IsProtocolError frame

/-- Every illegal frame of a run is refused. -/
def RefusesIllegal (env : ListenerEnv A) (extensions : List WSExtension)
    (connection : ListenerConnection A) (rounds : List (Bool × Bool)) : Prop :=
  Along (fun connection flags => (connectionRound env connection flags).1)
    (fun connection flags => ∀ header, NextHeader connection header →
      IllegalHeader extensions header → RefusedRound (connectionRound env connection flags))
    connection rounds

/-! ## What is refused for other reasons -/

/-- A frame that is answered with a protocol error, whatever its mask and its reserved bits are. -/
inductive ProtocolOffence (utf8 : Utf8proc) (receiving : Receiving) (frame : WebSocketRawMessage) :
    Prop
  | noStart (hop : frame.opCode = wsOpcodeCont) (hmessage : receiving.hasMessage = false)
  | insideMessage (hop : frame.opCode = wsOpcodeText ∨ frame.opCode = wsOpcodeBin)
      (hmessage : receiving.hasMessage = true)
  | fragmentedControl (hop : isControlOpCode frame.opCode = true) (hfin : frame.fin = false)
  | largeControl (hop : isControlOpCode frame.opCode = true)
      (hsize : maxControlFramePayload < frame.payload.size)
  | shortClose (hop : frame.opCode = wsOpcodeClose) (hsize : frame.payload.size = 1)
  | closeCode (hop : frame.opCode = wsOpcodeClose) (hsize : 2 ≤ frame.payload.size)
      (htext : ValidUtf8 (frame.payload.bytes.drop 2))
      (hcode : isValidCloseCode (deserializeU16BeToHost frame.payload.bytes) = false ∨
        deserializeU16BeToHost frame.payload.bytes = closeCodeProtocolError)
  | unknownOpcode (hop : frame.opCode ∉ [wsOpcodeCont, wsOpcodeText, wsOpcodeBin, wsOpcodeClose,
      wsOpcodePing, wsOpcodePong])

/-! ## Closing -/

/-- The code of a close frame that is sent. -/
theorem closeFrame_code {reason : CloseReason} (h : reason.Short) (hcode : reason.code < 2 ^ 16) :
    deserializeU16BeToHost (closeFrame reason).payload.bytes = reason.code := by
  obtain ⟨-, -, hbytes, -⟩ := closeFrame_spec h
  rw [hbytes, deserializeU16BeToHost_serialize hcode]

/-- A round that closes the connection is refused if its code is the one of a protocol error. -/
theorem refused_closed {reader : BufferedReader} {state : ListenerState A} {reason : CloseReason}
    (h : reason.Short)
    (hcode : reason.code < 2 ^ 16) :
    RefusedRound ((⟨(state.closed reason).1, reader⟩, (state.closed reason).2) :
        ListenerConnection A × List ListenerOutput) ↔ reason.code = closeCodeProtocolError := by
  rw [closed_sent state h]
  constructor
  · rintro ⟨-, frame, hframe, -, herror⟩
    cases hframe
    rwa [closeFrame_code h hcode] at herror
  · intro herror
    exact ⟨rfl, closeFrame reason, rfl, rfl, by rw [closeFrame_code h hcode, herror]⟩

/-- The texts of the errors while a frame is read. -/
def readErrors : List String :=
  ["couldn't read header bytes (2)", "only 0 allowed for the rsv bytes", "invalid rsv bits set",
    "couldn't read extended payload length bytes (2)",
    "couldn't read extended payload length bytes (8)", "couldn't read mask bytes (4)",
    "couldn't read payload bytes"]

theorem getRawHeader_error {header : Bytes} {allowed : UInt8} {error : String}
    (h : getRawHeader header allowed = .error error) : error ∈ readErrors := by
  unfold getRawHeader at h
  dsimp only at h
  split_ifs at h
  · cases h
    decide
  · cases h
    decide

theorem readPayloadLength_error {reader reader' : BufferedReader} {length : ℕ} {error : String}
    (h : readPayloadLength reader length = (reader', .error error)) : error ∈ readErrors := by
  unfold readPayloadLength at h
  split_ifs at h
  · split at h <;> cases h
    decide
  · split at h <;> cases h
    decide
  · cases h

theorem readMask_error {reader reader' : BufferedReader} {hasMask : Bool} {error : String}
    (h : readMask reader hasMask = (reader', .error error)) : error ∈ readErrors := by
  unfold readMask at h
  split_ifs at h
  · split at h <;> cases h
    decide
  · cases h

theorem readPayload_error {reader reader' : BufferedReader} {length : ℕ} {error : String}
    (h : readPayload reader length = (reader', .error error)) : error ∈ readErrors := by
  unfold readPayload at h
  split_ifs at h
  · split at h <;> cases h
    decide
  · cases h

theorem readRawMessage_error {reader reader' : BufferedReader}
    {settings : ExtensionReceivePipelineSettings} {error : String}
    (h : readRawMessage reader settings = (reader', .error error)) : error ∈ readErrors := by
  unfold readRawMessage at h
  split at h
  · split at h
    · rename_i e he
      cases h
      exact getRawHeader_error he
    · split at h
      · rename_i e he
        cases h
        exact readPayloadLength_error he
      · split at h
        · rename_i e he
          cases h
          exact readMask_error he
        · split at h
          · rename_i e he
            cases h
            exact readPayload_error he
          · cases h
  · cases h
    decide

theorem readErrors_short : ∀ error ∈ readErrors,
    (protocolError ("Error while reading the needed bytes for a frame: " ++ error)).Short := by
  decide

/-! ## Messages that are complete -/

theorem decompressWsMessage_error {zlib : Zlib} {options : WsDeflateOptions}
    {message : ReceivedMessage} {error : String}
    (h : decompressWsMessage zlib options message = .error error) :
    error = "client context takeover is not supported" ∨ error = "decompress error" := by
  unfold decompressWsMessage at h
  split_ifs at h
  · cases h
    exact .inl rfl
  · split at h
    · cases h
      exact .inr rfl
    · cases h

/-- The extensions have two texts for errors. -/
theorem processFinishedMessage_error {zlib : Zlib} {pipeline : ExtensionPipeline}
    {state : Option ExtensionMessageReceiveState} {message : ReceivedMessage} {error : String}
    (h : extensionReceivePipelineProcessFinishedMessage zlib pipeline state message =
      .error error) :
    error = "client context takeover is not supported" ∨ error = "decompress error" := by
  unfold extensionReceivePipelineProcessFinishedMessage at h
  by_cases hactive : pipeline.activeExtensions = 0
  · rw [if_pos hactive] at h
    cases h
  · rw [if_neg hactive] at h
    generalize pipeline.processFns.reverse = extensions at h
    induction extensions generalizing message with
    | nil => cases h
    | cons extension extensions ih =>
      obtain ⟨options⟩ := extension
      rw [List.foldlM_cons] at h
      dsimp only at h
      by_cases hcompressed : isCompressed state = true
      · rw [if_neg (by simp [hcompressed])] at h
        cases hdecompress : decompressWsMessage zlib options message with
        | ok message' =>
          rw [hdecompress] at h
          exact ih h
        | error error' =>
          rw [hdecompress] at h
          cases h
          exact decompressWsMessage_error hdecompress
      · rw [if_pos (by simp [hcompressed])] at h
        exact ih h

/-- A message that is not accepted is no protocol error. -/
theorem finishMessage_error {zlib : Zlib} {utf8 : Utf8proc} {pipeline : ExtensionPipeline}
    {receiving : Receiving} {fragmented : Bool} {reason : CloseReason}
    (h : finishMessage zlib utf8 pipeline receiving fragmented = .error reason) :
    reason.Short ∧ reason.code = closeCodeInvalidFramePayloadData := by
  unfold finishMessage at h
  cases hprocess : extensionReceivePipelineProcessFinishedMessage zlib pipeline
      receiving.messageReceiveState receiving.currentMessage with
  | error error =>
    rw [hprocess] at h
    cases h
    refine ⟨?_, rfl⟩
    rcases processFinishedMessage_error hprocess with rfl | rfl
    · decide
    · decide
  | ok message =>
    rw [hprocess] at h
    dsimp only at h
    by_cases htext : message.isText = true
    · rw [if_pos htext] at h
      cases hutf8 : getUtf8String utf8 message.buffer with
      | ok size =>
        rw [hutf8] at h
        cases h
      | error text =>
        rw [hutf8] at h
        cases h
        refine ⟨short_append ?_ (utf8.errmsg_length _ _ hutf8), rfl⟩
        cases fragmented <;> decide
    · rw [if_neg htext] at h
      cases h

/-- A message that is complete is delivered, or closes the connection without a protocol error. -/
theorem completeMessage_not_refused (env : ListenerEnv A) (state : ListenerState A)
    (receiving : Receiving) (fragmented : Bool) (reader : BufferedReader) :
    ¬ RefusedRound (⟨(completeMessage env state receiving fragmented).1, reader⟩,
      (completeMessage env state receiving fragmented).2) := by
  unfold completeMessage
  cases hfinish : finishMessage env.zlib env.utf8 env.pipeline receiving fragmented with
  | error reason =>
    obtain ⟨hshort, hcode⟩ := finishMessage_error hfinish
    dsimp only
    rw [refused_closed hshort (by rw [hcode]; decide), hcode]
    decide
  | ok message =>
    rintro ⟨-, frame, hframe, -⟩
    dsimp only at hframe
    unfold handleMessage at hframe
    dsimp only at hframe
    split at hframe <;> cases hframe

/-! ## One frame -/

variable {utf8 : Utf8proc} {receiving : Receiving} {frame : WebSocketRawMessage}

/-- The known opcodes of control frames. -/
theorem controlOpCodes (h : frame.opCode = wsOpcodeClose ∨ frame.opCode = wsOpcodePing ∨
    frame.opCode = wsOpcodePong) : isControlOpCode frame.opCode = true ∧
      isData frame = false := by
  rcases h with hop | hop | hop <;> simp [isData, hop] <;> decide

/-- A data frame offends if it does not fit to what was received. -/
theorem protocolOffence_data (h : isData frame = true) :
    ProtocolOffence utf8 receiving frame ↔
      if frame.opCode = wsOpcodeCont then receiving.hasMessage = false
      else receiving.hasMessage = true := by
  have hops := (isData_iff frame).1 h
  have hcontrol := isData_control h
  have hclose : frame.opCode ≠ wsOpcodeClose := by
    intro hop
    rw [hop] at hcontrol
    cases hcontrol
  constructor
  · intro hoffence
    cases hoffence with
    | noStart hop hmessage => rw [if_pos hop, hmessage]
    | insideMessage hop hmessage =>
      have hcont : frame.opCode ≠ wsOpcodeCont := by
        rcases hop with hop | hop <;> rw [hop] <;> decide
      rw [if_neg hcont, hmessage]
    | fragmentedControl hop hfin =>
      rw [hcontrol] at hop
      cases hop
    | largeControl hop hsize =>
      rw [hcontrol] at hop
      cases hop
    | shortClose hop hsize => exact absurd hop hclose
    | closeCode hop hsize htext hcode => exact absurd hop hclose
    | unknownOpcode hop =>
      simp only [List.mem_cons, List.not_mem_nil, or_false, not_or] at hop
      exact absurd hops (by simp [hop])
  · by_cases hcont : frame.opCode = wsOpcodeCont
    · rw [if_pos hcont]
      exact .noStart hcont
    · rw [if_neg hcont]
      exact .insideMessage (hops.resolve_left hcont)

/-- A PING or a PONG offends by its form alone. -/
theorem protocolOffence_ping (h : frame.opCode = wsOpcodePing ∨ frame.opCode = wsOpcodePong) :
    ProtocolOffence utf8 receiving frame ↔
      frame.fin = false ∨ maxControlFramePayload < frame.payload.size := by
  obtain ⟨hcontrol, hdata⟩ := controlOpCodes (.inr h)
  have hclose : frame.opCode ≠ wsOpcodeClose := by
    rcases h with hop | hop <;> rw [hop] <;> decide
  have hno : ¬ (frame.opCode = wsOpcodeCont ∨ frame.opCode = wsOpcodeText ∨
      frame.opCode = wsOpcodeBin) := by
    rw [← isData_iff, hdata]
    exact Bool.false_ne_true
  constructor
  · intro hoffence
    cases hoffence with
    | noStart hop hmessage => exact absurd (.inl hop) hno
    | insideMessage hop hmessage => exact absurd (.inr hop) hno
    | fragmentedControl hop hfin => exact .inl hfin
    | largeControl hop hsize => exact .inr hsize
    | shortClose hop hsize => exact absurd hop hclose
    | closeCode hop hsize htext hcode => exact absurd hop hclose
    | unknownOpcode hop =>
      simp only [List.mem_cons, List.not_mem_nil, or_false, not_or] at hop
      exact absurd h (by simp [hop])
  · rintro (hfin | hsize)
    · exact .fragmentedControl hcontrol hfin
    · exact .largeControl hcontrol hsize

/-- A CLOSE offends by its form or by its code. -/
theorem protocolOffence_close (hop : frame.opCode = wsOpcodeClose) (hfin : frame.fin = true)
    (hsize : frame.payload.size ≤ maxControlFramePayload) :
    ProtocolOffence utf8 receiving frame ↔ frame.payload.size = 1 ∨
      2 ≤ frame.payload.size ∧ ValidUtf8 (frame.payload.bytes.drop 2) ∧
        (isValidCloseCode (deserializeU16BeToHost frame.payload.bytes) = false ∨
          deserializeU16BeToHost frame.payload.bytes = closeCodeProtocolError) := by
  constructor
  · intro hoffence
    cases hoffence with
    | noStart hop' hmessage =>
      rw [hop] at hop'
      exact absurd hop' (by decide)
    | insideMessage hop' hmessage =>
      rw [hop] at hop'
      exact absurd hop' (by decide)
    | fragmentedControl hop' hfin' =>
      rw [hfin] at hfin'
      cases hfin'
    | largeControl hop' hsize' => omega
    | shortClose hop' hone => exact .inl hone
    | closeCode hop' htwo htext hcode => exact .inr ⟨htwo, htext, hcode⟩
    | unknownOpcode hop' => simp [hop] at hop'
  · rintro (hone | ⟨htwo, htext, hcode⟩)
    · exact .shortClose hop hone
    · exact .closeCode hop htwo htext hcode

/-- What the checks for control frames refuse: an offence, or a text that is no UTF-8. -/
theorem checkControlFrame_some {reason : CloseReason}
    (h : checkControlFrame utf8 frame = some reason) :
    reason.code < 2 ^ 16 ∧
      (reason.code = closeCodeProtocolError ↔ ProtocolOffence utf8 receiving frame) := by
  unfold checkControlFrame at h
  by_cases hcontrol : isControlOpCode frame.opCode = true
  · rw [if_pos hcontrol] at h
    by_cases hfin : frame.fin = true
    · rw [if_neg (by simp [hfin])] at h
      by_cases hlarge : frame.payload.size > maxControlFramePayload
      · rw [if_pos hlarge] at h
        cases h
        exact ⟨by decide, fun _ => .largeControl hcontrol hlarge, fun _ => rfl⟩
      · rw [if_neg hlarge] at h
        by_cases hclose : frame.opCode = wsOpcodeClose
        · have hiff := @protocolOffence_close utf8 receiving frame hclose hfin (not_lt.1 hlarge)
          rw [if_pos hclose] at h
          split_ifs at h with hsize hshort
          · cases h
            exact ⟨by decide, fun _ => hiff.2 (.inl (by omega)), fun _ => rfl⟩
          · cases hutf8 : getUtf8String utf8 (frame.payload.bytes.drop 2) with
            | ok size =>
              rw [hutf8] at h
              cases h
            | error text =>
              rw [hutf8] at h
              cases h
              refine ⟨show closeCodeInvalidFramePayloadData < 2 ^ 16 by decide,
                fun hcode => absurd (show closeCodeInvalidFramePayloadData = _ from hcode)
                  (by decide), ?_⟩
              intro hoffence
              rcases hiff.1 hoffence with hone | ⟨-, htext, -⟩
              · omega
              · obtain ⟨size, hok⟩ := (utf8.ok_iff _).2 htext
                rw [getUtf8String, hok] at hutf8
                cases hutf8
        · rw [if_neg hclose] at h
          cases h
    · rw [if_pos (by simpa using hfin)] at h
      cases h
      exact ⟨by decide, fun _ => .fragmentedControl hcontrol (by simpa using hfin), fun _ => rfl⟩
  · rw [if_neg hcontrol] at h
    cases h

/-- The answer to a CLOSE that passes the checks. -/
theorem closingReason_code (hop : frame.opCode = wsOpcodeClose)
    (hcheck : checkControlFrame utf8 frame = none) :
    (closingReason frame).Short ∧ (closingReason frame).code < 2 ^ 16 ∧
      ((closingReason frame).code = closeCodeProtocolError ↔
        ProtocolOffence utf8 receiving frame) := by
  have hcontrol := (controlOpCodes (.inl hop)).1
  obtain ⟨hfin, hlarge⟩ := checkControlFrame_none hcontrol hcheck
  refine ⟨closingReason_short hlarge, ?_⟩
  rw [protocolOffence_close hop hfin hlarge]
  unfold checkControlFrame at hcheck
  rw [if_pos hcontrol, if_neg (by simp [hfin]), if_neg (by omega), if_pos hop] at hcheck
  unfold closingReason
  by_cases hzero : frame.payload.size = 0
  · rw [if_neg (by omega)]
    refine ⟨by decide, fun hcode => absurd hcode (by decide), ?_⟩
    rintro (hone | ⟨htwo, -⟩) <;> omega
  · rw [if_pos hzero] at hcheck ⊢
    split_ifs at hcheck with hshort
    have htext : ValidUtf8 (frame.payload.bytes.drop 2) := by
      rw [← utf8.ok_iff]
      cases hutf8 : utf8.decompose (frame.payload.bytes.drop 2) with
      | ok size => exact ⟨size, rfl⟩
      | error text =>
        rw [getUtf8String, hutf8] at hcheck
        cases hcheck
    have hparsed : ∃ message, maybeParseCloseReason frame true =
        some ⟨deserializeU16BeToHost frame.payload.bytes, message⟩ := by
      unfold maybeParseCloseReason
      rw [if_neg (by simp [hop]), if_neg hshort]
      dsimp only
      rw [if_neg (by omega)]
      split_ifs
      · exact ⟨_, rfl⟩
      · exact ⟨_, rfl⟩
    obtain ⟨message, hparsed⟩ := hparsed
    rw [hparsed]
    dsimp only
    by_cases hvalid : isValidCloseCode (deserializeU16BeToHost frame.payload.bytes) = true
    · rw [if_neg (by simp [hvalid])]
      have hcode : deserializeU16BeToHost frame.payload.bytes < 2 ^ 16 := by
        have hvalue := ofBE_lt (frame.payload.bytes.take 2)
        have hlength : (frame.payload.bytes.take 2).length ≤ 2 := List.length_take_le 2 _
        have hpow : 256 ^ (frame.payload.bytes.take 2).length ≤ 256 ^ 2 :=
          Nat.pow_le_pow_right (by decide) hlength
        exact lt_of_lt_of_le hvalue hpow
      refine ⟨hcode, fun hsame => .inr ⟨by omega, htext, .inr hsame⟩, ?_⟩
      rintro (hone | ⟨-, -, hinvalid | hsame⟩)
      · omega
      · rw [hvalid] at hinvalid
        cases hinvalid
      · exact hsame
    · rw [if_pos (by simpa using hvalid)]
      refine ⟨by decide, fun _ => .inr ⟨by omega, htext, .inl (by simpa using hvalid)⟩,
        fun _ => rfl⟩

/-- A frame that continues a compressed message must not have the bit. -/
def CompressedCont (extensions : List WSExtension) (frame : WebSocketRawMessage) : Prop :=
  frame.opCode = wsOpcodeCont ∧ frame.rsvBytes &&& rsvCompressed ≠ 0 ∧ extensions ≠ []

theorem isValidContFrame_iff {extensions : List WSExtension} :
    extensionReceivePipelineIsValidContFrame (getExtensionPipeline extensions) frame = none ↔
      ¬ (frame.rsvBytes &&& rsvCompressed ≠ 0 ∧ extensions ≠ []) := by
  unfold extensionReceivePipelineIsValidContFrame
  rw [getExtensionPipeline_deflates]
  by_cases hnone : extensions = []
  · rw [if_pos ((activeExtensions_eq_zero extensions).2 hnone)]
    simp [hnone]
  · rw [if_neg (mt (activeExtensions_eq_zero extensions).1 hnone), if_pos (by simpa using hnone)]
    by_cases hbit : frame.rsvBytes &&& rsvCompressed = 0 <;> simp [hbit, hnone]

theorem isValidContFrame_short {pipeline : ExtensionPipeline} {error : String}
    (h : extensionReceivePipelineIsValidContFrame pipeline frame = some error) :
    (protocolError error).Short := by
  unfold extensionReceivePipelineIsValidContFrame at h
  split_ifs at h
  cases h
  decide

theorem refused_running {state : ListenerState A} {reader : BufferedReader}
    {outputs : List ListenerOutput} (h : state.running = true) :
    ¬ RefusedRound (⟨state, reader⟩, outputs) := by
  rintro ⟨hstopped, -⟩
  exact absurd (h.symm.trans hstopped) (by decide)

theorem compressedCont_data {extensions : List WSExtension}
    (h : CompressedCont extensions frame) : isData frame = true :=
  (isData_iff frame).2 (.inl h.1)

section Step

variable {extensions : List WSExtension} {env : ListenerEnv A} {state : ListenerState A}
variable {reader : BufferedReader} {flags : Bool × Bool}

/-- What a round does with a frame. -/
def frameRound (env : ListenerEnv A) (state : ListenerState A) (frame : WebSocketRawMessage)
    (sends : Bool) (reader : BufferedReader) : ListenerConnection A × List ListenerOutput :=
  (⟨(listenerStep env state ⟨.ok frame, sends⟩).1, reader⟩,
    (listenerStep env state ⟨.ok frame, sends⟩).2)

theorem frameRound_close {reason : CloseReason} (reader : BufferedReader) (sends : Bool)
    (hrunning : state.running = true)
    (hcheck : checkControlFrame env.utf8 frame = none)
    (h : handleFrame env.pipeline state.receiving frame = .close reason) :
    frameRound env state frame sends reader =
      (⟨(state.closed reason).1, reader⟩, (state.closed reason).2) := by
  unfold frameRound listenerStep
  rw [if_neg (by simp [hrunning])]
  simp only [hcheck, h]

/-- A data frame. -/
theorem frameRound_data (hpipeline : env.pipeline = getExtensionPipeline extensions)
    (hrunning : state.running = true) (hdata : isData frame = true) (sends : Bool) :
    RefusedRound (frameRound env state frame sends reader) ↔
      ProtocolOffence env.utf8 state.receiving frame ∨ CompressedCont extensions frame := by
  have hcheck := checkControlFrame_data env.utf8 frame (isData_control hdata)
  have hops := (isData_iff frame).1 hdata
  have htaken : ∀ receiving fragmented,
      handleFrame env.pipeline state.receiving frame =
        (if !frame.fin then FrameStep.next receiving else .complete receiving fragmented) →
      ¬ RefusedRound (frameRound env state frame sends reader) := by
    intro receiving fragmented hhandle
    unfold frameRound listenerStep
    rw [if_neg (by simp [hrunning])]
    simp only [hcheck, hhandle]
    cases hfin : frame.fin with
    | true => exact completeMessage_not_refused env state receiving fragmented reader
    | false => exact refused_running hrunning
  rw [protocolOffence_data hdata]
  by_cases hcont : frame.opCode = wsOpcodeCont
  · rw [if_pos hcont]
    by_cases hmessage : state.receiving.hasMessage = true
    · cases hvalid : extensionReceivePipelineIsValidContFrame env.pipeline frame with
      | none =>
        have hnot : ¬ CompressedCont extensions frame := by
          rintro ⟨-, hbit, hsome⟩
          rw [hpipeline, isValidContFrame_iff] at hvalid
          exact hvalid ⟨hbit, hsome⟩
        have hrefused := htaken { state.receiving with
          currentMessage := { state.receiving.currentMessage with
            buffer := state.receiving.currentMessage.buffer ++ frame.payload.bytes } } true (by
          unfold handleFrame
          rw [if_pos hcont, if_neg (by simp [hmessage])]
          simp only [hvalid])
        simp [hmessage, hnot, hrefused]
      | some error =>
        have hcompressed : CompressedCont extensions frame := by
          refine ⟨hcont, ?_⟩
          by_contra hnot
          rw [hpipeline, isValidContFrame_iff.2 hnot] at hvalid
          cases hvalid
        have hround := frameRound_close reader sends hrunning hcheck (by
          unfold handleFrame
          rw [if_pos hcont, if_neg (by simp [hmessage])]
          simp only [hvalid]
          rfl)
        rw [hround, refused_closed (isValidContFrame_short hvalid)
          (show closeCodeProtocolError < 2 ^ 16 by decide)]
        exact ⟨fun _ => .inr hcompressed, fun _ => rfl⟩
    · have hround := frameRound_close reader sends hrunning hcheck (by
        unfold handleFrame
        rw [if_pos hcont, if_pos (by simpa using hmessage)])
      rw [hround, refused_closed (by decide) (by decide)]
      exact ⟨fun _ => .inl (by simpa using hmessage), fun _ => rfl⟩
  · have hstart := hops.resolve_left hcont
    have hnot : ¬ CompressedCont extensions frame := fun h => hcont h.1
    rw [if_neg hcont]
    by_cases hmessage : state.receiving.hasMessage = true
    · have hround := frameRound_close reader sends hrunning hcheck (by
        unfold handleFrame
        rw [if_neg hcont, if_pos hstart, if_pos hmessage])
      rw [hround, refused_closed (by decide) (by decide)]
      exact ⟨fun _ => .inl hmessage, fun _ => rfl⟩
    · have hrefused := htaken ⟨true, ⟨frame.opCode = wsOpcodeText, frame.payload.bytes⟩,
          extensionReceivePipelineProcessStartMessage env.pipeline
            state.receiving.messageReceiveState frame⟩ false (by
        unfold handleFrame
        rw [if_neg hcont, if_pos hstart, if_neg hmessage])
      simp [hmessage, hnot, hrefused]

/-- A frame that is none of the data frames. -/
theorem frameRound_other (hrunning : state.running = true) (hdata : isData frame = false)
    (sends : Bool) :
    RefusedRound (frameRound env state frame sends reader) ↔
      ProtocolOffence env.utf8 state.receiving frame := by
  have hno : ¬ (frame.opCode = wsOpcodeCont ∨ frame.opCode = wsOpcodeText ∨
      frame.opCode = wsOpcodeBin) := by
    rw [← isData_iff, hdata]
    exact Bool.false_ne_true
  have hcont : frame.opCode ≠ wsOpcodeCont := fun h => hno (.inl h)
  have hstart : ¬ (frame.opCode = wsOpcodeText ∨ frame.opCode = wsOpcodeBin) :=
    fun h => hno (.inr h)
  cases hcheck : checkControlFrame env.utf8 frame with
  | some reason =>
    have hround : frameRound env state frame sends reader =
        (⟨(state.closed reason).1, reader⟩, (state.closed reason).2) := by
      unfold frameRound listenerStep
      rw [if_neg (by simp [hrunning])]
      simp only [hcheck]
    obtain ⟨hcode, hiff⟩ := checkControlFrame_some hcheck
    rw [hround, refused_closed (checkControlFrame_short hcheck) hcode, hiff]
  | none =>
    by_cases hclose : frame.opCode = wsOpcodeClose
    · obtain ⟨hshort, hcode, hiff⟩ := closingReason_code hclose hcheck
      have hround := frameRound_close reader sends hrunning hcheck (by
        unfold handleFrame
        rw [if_neg hcont, if_neg hstart, if_pos hclose])
      rw [hround, refused_closed hshort hcode, hiff]
    · by_cases hping : frame.opCode = wsOpcodePing ∨ frame.opCode = wsOpcodePong
      · obtain ⟨hfin, hsize⟩ := checkControlFrame_none (controlOpCodes (.inr hping)).1 hcheck
        have hoffence : ¬ ProtocolOffence env.utf8 state.receiving frame := by
          rw [protocolOffence_ping hping]
          simp [hfin]
          omega
        have hrefused : ¬ RefusedRound (frameRound env state frame sends reader) := by
          unfold frameRound listenerStep
          rw [if_neg (by simp [hrunning])]
          by_cases hop : frame.opCode = wsOpcodePing
          · have hhandle : handleFrame env.pipeline state.receiving frame =
                .pong ⟨true, wsOpcodePong, frame.payload, frame.rsvBytes⟩ := by
              unfold handleFrame
              rw [if_neg hcont, if_neg hstart, if_neg hclose, if_pos hop]
            simp only [hcheck, hhandle]
            cases sends with
            | true => exact refused_running hrunning
            | false =>
              -- the PONG is handed over before the connection is closed
              rintro ⟨-, sent, hsent, -⟩
              have hpong : sendRaw ⟨true, wsOpcodePong, frame.payload, frame.rsvBytes⟩ =
                  [.sent ⟨true, wsOpcodePong, frame.payload, frame.rsvBytes⟩] :=
                sendRaw_sent rfl hsize
              simp only [Bool.false_eq_true, if_false, hpong,
                closeWebsocketConnection_sent
                  (show (protocolError "Couldn't send PONG op_code").Short by decide)] at hsent
              cases hsent
          · have hhandle :
                handleFrame env.pipeline state.receiving frame = .next state.receiving := by
              unfold handleFrame
              rw [if_neg hcont, if_neg hstart, if_neg hclose, if_neg hop,
                if_pos (hping.resolve_left hop)]
            simp only [hcheck, hhandle]
            exact refused_running hrunning
        exact ⟨fun h => absurd h hrefused, fun h => absurd h hoffence⟩
      · have hround := frameRound_close reader sends hrunning hcheck (by
          rw [not_or] at hping
          unfold handleFrame
          rw [if_neg hcont, if_neg hstart, if_neg hclose, if_neg hping.1, if_neg hping.2])
        rw [hround, refused_closed (by decide) (by decide)]
        refine ⟨fun _ => .unknownOpcode ?_, fun _ => rfl⟩
        simp only [List.mem_cons, List.not_mem_nil, or_false]
        tauto

/-- **The frames that are refused**: the ones that offend, and compressed ones that continue a
message. -/
theorem frameRound_refused (hpipeline : env.pipeline = getExtensionPipeline extensions)
    (hrunning : state.running = true) (sends : Bool) :
    RefusedRound (frameRound env state frame sends reader) ↔
      ProtocolOffence env.utf8 state.receiving frame ∨ CompressedCont extensions frame := by
  cases hdata : isData frame with
  | true => exact frameRound_data hpipeline hrunning hdata sends
  | false =>
    have hnot : ¬ CompressedCont extensions frame := by
      intro hcompressed
      rw [compressedCont_data hcompressed] at hdata
      cases hdata
    rw [frameRound_other hrunning hdata sends]
    simp [hnot]

/-- A frame that cannot be read is refused. -/
theorem errorRound_refused {error : String} (hrunning : state.running = true)
    (h : error ∈ readErrors) (sends : Bool) :
    RefusedRound (⟨(listenerStep env state ⟨.error error, sends⟩).1, reader⟩,
      (listenerStep env state ⟨.error error, sends⟩).2) := by
  unfold listenerStep
  rw [if_neg (by simp [hrunning])]
  exact (refused_closed (readErrors_short error h)
    (show closeCodeProtocolError < 2 ^ 16 by decide)).2 rfl

end Step

/-! ## One round -/

/-- The reserved bits are none, or the one of the extension that is in use. -/
def RsvAllowed (extensions : List WSExtension) (rsv : UInt8) : Prop :=
  rsv = 0 ∨ rsv = rsvCompressed ∧ extensions ≠ []

theorem allowedRsvBytes_eq (extensions : List WSExtension) :
    (getExtensionPipeline extensions).settings.allowedRsvBytes =
      if extensions = [] then 0 else rsvCompressed := by
  cases extensions with
  | nil => rfl
  | cons extension extensions =>
    cases extension with
    | perMessageDeflate options =>
      unfold getExtensionPipeline getPipelineSettings
      dsimp only
      rw [List.foldl_cons, List.foldl_fixed' (fun other => by cases other; rfl)]
      rfl

theorem or_rsvCompressed : ∀ rsv : UInt8,
    rsv ||| rsvCompressed = rsvCompressed ↔ rsv = 0 ∨ rsv = rsvCompressed :=
  forall_byte (by decide +kernel)

/-- The header of a frame is taken if its reserved bits are allowed. -/
theorem getRawHeader_ok {extensions : List WSExtension} {header : Bytes} {rawHeader : RawHeaderOne}
    (h : getRawHeader header (getExtensionPipeline extensions).settings.allowedRsvBytes =
      .ok rawHeader) :
    RsvAllowed extensions (headerRsv header) ∧ rawHeader.opCode = headerOpCode header ∧
      rawHeader.rsvBytes = headerRsv header := by
  rw [allowedRsvBytes_eq] at h
  unfold getRawHeader at h
  unfold headerRsv
  dsimp only at h
  generalize (header.getD 0 0 >>> 4) &&& 0b111 = rsv at h ⊢
  by_cases hnone : extensions = []
  · rw [if_pos hnone] at h
    by_cases hzero : rsv = 0
    · rw [if_neg (by simp [hzero]), if_neg (by simp)] at h
      cases h
      exact ⟨.inl hzero, rfl, rfl⟩
    · rw [if_pos ⟨rfl, hzero⟩] at h
      cases h
  · have hsome : rsvCompressed ≠ 0 := by decide
    rw [if_neg hnone, if_neg (by simp [hsome])] at h
    by_cases hbits : rsv ||| rsvCompressed = rsvCompressed
    · rw [if_neg (by simp [hbits])] at h
      cases h
      exact ⟨((or_rsvCompressed _).1 hbits).imp id fun hset => ⟨hset, hnone⟩, rfl, rfl⟩
    · rw [if_pos ⟨hsome, hbits⟩] at h
      cases h

/-- What is read belongs to the header. -/
theorem readRawMessage_header {reader reader' : BufferedReader} {extensions : List WSExtension}
    {header : Bytes}
    (hheader : (bufferedReaderGetAmount reader rawMessageHeaderSize).2 = .ok header)
    (h : readRawMessage reader (getExtensionPipeline extensions).settings = (reader', .ok frame)) :
    RsvAllowed extensions (headerRsv header) ∧ frame.opCode = headerOpCode header ∧
      frame.rsvBytes = headerRsv header := by
  unfold readRawMessage at h
  split at h
  · rename_i reader₁ headerBytes hread
    rw [hread] at hheader
    cases hheader
    split at h
    · cases h
    · rename_i rawHeader hraw
      obtain ⟨hallowed, hop, hrsv⟩ := getRawHeader_ok hraw
      split at h
      · cases h
      · split at h
        · cases h
        · split at h
          · cases h
          · cases h
            exact ⟨hallowed, hop, hrsv⟩
  · cases h

/-- **A round with a frame that offends, or that cannot be read, is refused.** -/
theorem connectionRound_refused {extensions : List WSExtension} (env : ListenerEnv A)
    (hpipeline : env.pipeline = getExtensionPipeline extensions)
    {connection : ListenerConnection A} (hrunning : connection.listener.running = true)
    (flags : Bool × Bool) :
    RefusedRound (connectionRound env connection flags) ↔
      ∀ reader frame, readRawMessage connection.reader env.pipeline.settings = (reader, .ok frame) →
        ProtocolOffence env.utf8 connection.listener.receiving frame ∨
          CompressedCont extensions frame := by
  unfold connectionRound
  rw [if_neg (by simp [hrunning])]
  cases hread : readRawMessage connection.reader env.pipeline.settings with
  | mk reader result =>
    cases result with
    | error error =>
      have hrefused := @errorRound_refused A env connection.listener reader error hrunning
        (readRawMessage_error hread) flags.1
      exact ⟨fun _ reader' frame hok => (by cases hok), fun _ => hrefused⟩
    | ok frame =>
      have hiff := @frameRound_refused A frame extensions env connection.listener
        (bufferedReaderInvalidateOldData reader flags.2) hpipeline hrunning flags.1
      constructor
      · intro hrefused reader' frame' hok
        cases hok
        exact hiff.1 hrefused
      · intro hall
        exact hiff.2 (hall reader frame rfl)

/-! ## The listener -/

/-- The header of an illegal frame that is not checked: no mask, or a control frame with the bit of
the extension in use. -/
structure UncheckedHeader (extensions : List WSExtension) (header : Bytes) : Prop where
  allowed : RsvAllowed extensions (headerRsv header)
  illegal : headerMasked header = false ∨
    headerRsv header = rsvCompressed ∧ isControlOpCode (headerOpCode header) = true

/-- Every frame of a run that is not checked breaks another rule. -/
def UncheckedOffend (env : ListenerEnv A) (extensions : List WSExtension)
    (connection : ListenerConnection A) (rounds : List (Bool × Bool)) : Prop :=
  Along (fun connection flags => (connectionRound env connection flags).1)
    (fun connection _ => ∀ header, NextHeader connection header →
      UncheckedHeader extensions header → ∀ reader frame,
        readRawMessage connection.reader env.pipeline.settings = (reader, .ok frame) →
          ProtocolOffence env.utf8 connection.listener.receiving frame ∨
            CompressedCont extensions frame)
    connection rounds

theorem UncheckedHeader.illegalHeader {extensions : List WSExtension} {header : Bytes}
    (h : UncheckedHeader extensions header) : IllegalHeader extensions header := by
  rcases h.illegal with hmask | ⟨hrsv, hop⟩
  · exact .unmasked hmask
  · refine .compressedControl ?_ hop
    rw [hrsv]
    decide

/-- An illegal frame whose header is checked, is not read or continues a message. -/
theorem IllegalHeader.checked {extensions : List WSExtension} {header : Bytes}
    (h : IllegalHeader extensions header) (hchecked : ¬ UncheckedHeader extensions header)
    (hallowed : RsvAllowed extensions (headerRsv header)) :
    headerOpCode header = wsOpcodeCont ∧ headerRsv header &&& rsvCompressed ≠ 0 ∧
      extensions ≠ [] := by
  have hset : headerRsv header &&& rsvCompressed ≠ 0 →
      headerRsv header = rsvCompressed ∧ extensions ≠ [] := by
    intro hbit
    rcases hallowed with hzero | hset
    · rw [hzero] at hbit
      exact absurd rfl hbit
    · exact hset
  cases h with
  | unmasked hmask => exact absurd ⟨hallowed, .inl hmask⟩ hchecked
  | reserved hbits =>
    rcases hallowed with hzero | ⟨hsame, -⟩
    · rw [hzero] at hbits
      exact absurd rfl hbits
    · rw [hsame] at hbits
      exact absurd rfl hbits
  | notNegotiated hbit hnone => exact absurd hnone (hset hbit).2
  | compressedControl hbit hop => exact absurd ⟨hallowed, .inr ⟨(hset hbit).1, hop⟩⟩ hchecked
  | compressedCont hbit hop => exact ⟨hop, hbit, (hset hbit).2⟩

/-- **When all illegal frames are refused**: every frame without a mask, and every control frame
with the bit of the extension, breaks another rule or does not arrive as a whole. -/
theorem refusesIllegal_iff (extensions : List WSExtension) (zlib : Zlib) (utf8 : Utf8proc)
    (function : A → ReceivedMessage → ExtensionSendState → A × WebSocketAction) (application : A)
    (incoming : List Incoming) (rounds : List (Bool × Bool)) :
    let env : ListenerEnv A := ⟨getExtensionPipeline extensions, zlib, utf8, function⟩
    RefusesIllegal env extensions (startConnection env application incoming) rounds ↔
      UncheckedOffend env extensions (startConnection env application incoming) rounds := by
  intro env
  unfold RefusesIllegal UncheckedOffend
  apply along_congr
  intro connection flags
  constructor
  · intro h header hnext hunchecked
    exact (connectionRound_refused env rfl hnext.1 flags).1
      (h header hnext hunchecked.illegalHeader)
  · intro h header hnext hillegal
    rw [connectionRound_refused env rfl hnext.1 flags]
    intro reader frame hread
    by_cases hunchecked : UncheckedHeader extensions header
    · exact h header hnext hunchecked reader frame hread
    · obtain ⟨hallowed, hop, hrsv⟩ := readRawMessage_header hnext.2 hread
      obtain ⟨hcont, hbit, hsome⟩ := hillegal.checked hunchecked hallowed
      rw [← hop] at hcont
      rw [← hrsv] at hbit
      exact .inr ⟨hcont, hbit, hsome⟩

/-- A listener whose application takes every message. -/
def takingListener (extensions : List WSExtension) : ListenerEnv Unit where
  pipeline := getExtensionPipeline extensions
  zlib := ⟨fun buffer _ => buffer, fun buffer _ => some buffer⟩
  utf8 := default
  function application _ _ := (application, .continue)

/-- A frame of one byte without a mask. -/
def unmaskedFrame : List Incoming := [.bytes 0x82 [0x01, 0x41]]

/-- A PING with the bit of a compressed message. -/
def compressedPing : List Incoming := [.bytes 0xC9 [0x80, 0x01, 0x02, 0x03, 0x04]]

/-- `permessage-deflate` as it is negotiated. -/
def deflateInUse : List WSExtension := [.perMessageDeflate ⟨⟨true, 15⟩, ⟨true, 15⟩⟩]

/-- A frame without a mask is delivered, and a PING with the bit of the extension is answered. -/
theorem illegalFrames_taken :
    ¬ RefusesIllegal (takingListener []) []
        (startConnection (takingListener []) () unmaskedFrame) [(true, true)] ∧
      ¬ RefusesIllegal (takingListener deflateInUse) deflateInUse
        (startConnection (takingListener deflateInUse) () compressedPing) [(true, true)] := by
  constructor
  · intro h
    have hrefused := h.1 [0x82, 0x01] ⟨rfl, rfl⟩ (.unmasked rfl)
    cases hrefused.1
  · intro h
    have hrefused := h.1 [0xC9, 0x80] ⟨rfl, rfl⟩ (.compressedControl (by decide) rfl)
    cases hrefused.1

end SimpleServer.Ws
