import SimpleServer.Proof.WsFragments
import Mathlib.Data.List.DropRight

/-!
# One round of the WebSocket listener

The frames of a message may have control frames between them. What the listener remembers from
one frame to the next is what the data frames behind the last one with `fin` say
(`openMessage`), so control frames change nothing.

* `closed_sent`: a close frame of the listener is never too long to be sent.
* `listenerStep_offence`: each offence ends the loop with one close frame.
* `listenerStep_goesOn`: what a frame does that does not end the loop.
-/

namespace SimpleServer.Ws

open SimpleServer.Utils

/-! ## What is asked -/

/-- A frame that carries a part of a message. -/
def isData (frame : WebSocketRawMessage) : Bool :=
  frame.opCode = wsOpcodeCont ∨ frame.opCode = wsOpcodeText ∨ frame.opCode = wsOpcodeBin

/-- The frames of the message that is not finished: the data frames behind the last one with
`fin`. -/
def openMessage (frames : List WebSocketRawMessage) : List WebSocketRawMessage :=
  (frames.filter isData).rtakeWhile fun frame => !frame.fin

/-- The type is that of the first frame, and the payloads are put together. -/
def messageOf (frames : List WebSocketRawMessage) : ReceivedMessage :=
  ⟨frames.head?.any fun frame => decide (frame.opCode = wsOpcodeText),
    (frames.map fun frame => frame.payload.bytes).flatten⟩

/-- The message that a frame completes, which comes after other frames. -/
def completedBy (before : List WebSocketRawMessage) (frame : WebSocketRawMessage) :
    Option ReceivedMessage :=
  if isData frame && frame.fin then some (messageOf (openMessage before ++ [frame])) else none

/-- What a peer must not send after some frames, or ends the connection with. -/
inductive Offence (before : List WebSocketRawMessage) (frame : WebSocketRawMessage) : Prop
  | noStart (hop : frame.opCode = wsOpcodeCont) (hopen : openMessage before = [])
  | insideMessage (hop : frame.opCode = wsOpcodeText ∨ frame.opCode = wsOpcodeBin)
      (hopen : openMessage before ≠ [])
  | fragmentedControl (hop : isControlOpCode frame.opCode = true) (hfin : frame.fin = false)
  | largeControl (hop : isControlOpCode frame.opCode = true) (hsize : 125 < frame.payload.size)
  | notUtf8 (message : ReceivedMessage) (hmessage : completedBy before frame = some message)
      (htext : message.isText = true) (hinvalid : ¬ ValidUtf8 message.buffer)
  | close (hop : frame.opCode = wsOpcodeClose)
  | unknownOpcode (hop : frame.opCode ∉ [wsOpcodeCont, wsOpcodeText, wsOpcodeBin, wsOpcodeClose,
      wsOpcodePing, wsOpcodePong])

/-- What is done in the round of a frame that does not end the loop. -/
def answerTo (before : List WebSocketRawMessage) (frame : WebSocketRawMessage) :
    List ListenerOutput :=
  if frame.opCode = wsOpcodePing then
    [.sent ⟨true, wsOpcodePong, frame.payload, frame.rsvBytes⟩]
  else
    match completedBy before frame with
    | some message => [.delivered message]
    | none => []

/-- The function of the connection does not want to go on after the message. -/
def Refuses {A : Type} (env : ListenerEnv A) (state : ListenerState A)
    (message : ReceivedMessage) : Prop :=
  (env.function state.application message ⟨env.pipeline, none⟩).2 ≠ .continue

/-! ## Control frames that are sent -/

/-- A frame as it is asked of a control frame is sent. -/
theorem sendRaw_sent {frame : WebSocketRawMessage} (hfin : frame.fin = true)
    (hsize : frame.payload.size ≤ maxControlFramePayload) : sendRaw frame = [.sent frame] := by
  have hnull : ¬ (frame.payload.data = none ∧ frame.payload.size ≠ 0) := by
    rintro ⟨hdata, hsize⟩
    apply hsize
    unfold SizedBuffer.size SizedBuffer.bytes
    rw [hdata]
    rfl
  have hsent : (wsSendMessageRawInternal frame false 0).isSome = true := by
    unfold wsSendMessageRawInternal
    rw [if_neg hnull]
    by_cases hcontrol : isControlOpCode frame.opCode = true
    · rw [if_pos hcontrol, if_neg (by simp [hfin]), if_neg (by omega)]
      rfl
    · rw [if_neg hcontrol]
      rfl
  unfold sendRaw
  rw [if_pos hsent]

/-- The text fits into a control frame, beside the code. -/
def CloseReason.Short (reason : CloseReason) : Prop := (reason.message.getD []).length ≤ 123

instance (reason : CloseReason) : Decidable reason.Short :=
  inferInstanceAs (Decidable (_ ≤ _))

/-- **What closes a connection**: an unfragmented CLOSE with the code of the reason and its text. -/
theorem closeFrame_spec {reason : CloseReason} (h : reason.Short) :
    (closeFrame reason).fin = true ∧ (closeFrame reason).opCode = wsOpcodeClose ∧
      (closeFrame reason).payload.bytes =
        serializeU16HostToBe reason.code ++ reason.message.getD [] ∧
      (closeFrame reason).payload.size ≤ maxControlFramePayload := by
  have hcode : (serializeU16HostToBe reason.code).length = 2 := Lib.toBE_length 2 reason.code
  have hmessage : (reason.message.getD []).length ≤ 123 := h
  have hlength : (serializeU16HostToBe reason.code ++ reason.message.getD []).length ≤ 125 := by
    rw [List.length_append, hcode]
    omega
  have hbytes : (closeFrame reason).payload.bytes =
      serializeU16HostToBe reason.code ++ reason.message.getD [] :=
    allocateFromReadonlyBuffer_bytes (lt_of_le_of_lt hlength (by decide))
  have hsize : (closeFrame reason).payload.size ≤ maxControlFramePayload := by
    unfold SizedBuffer.size
    rw [hbytes]
    exact hlength
  exact ⟨rfl, rfl, hbytes, hsize⟩

theorem closeWebsocketConnection_sent {reason : CloseReason} (h : reason.Short) :
    closeWebsocketConnection reason = [.sent (closeFrame reason)] := by
  obtain ⟨hfin, -, -, hsize⟩ := closeFrame_spec h
  exact sendRaw_sent hfin hsize

theorem closed_sent {A : Type} (state : ListenerState A) {reason : CloseReason}
    (h : reason.Short) :
    state.closed reason = ({ state with running := false }, [.sent (closeFrame reason)]) := by
  unfold ListenerState.closed
  rw [closeWebsocketConnection_sent h]

/-- A text of the source, with what `utf8proc` says behind it. -/
theorem short_append {code : ℕ} {text more : Bytes} (htext : text.length ≤ 63)
    (hmore : more.length ≤ 60) : CloseReason.Short ⟨code, some (text ++ more)⟩ := by
  unfold CloseReason.Short
  rw [Option.getD_some, List.length_append]
  omega

theorem checkControlFrame_short {utf8 : Utf8proc} {frame : WebSocketRawMessage}
    {reason : CloseReason} (h : checkControlFrame utf8 frame = some reason) : reason.Short := by
  unfold checkControlFrame at h
  split at h
  · split at h
    · cases h
      decide
    · split at h
      · cases h
        decide
      · split at h
        · split at h
          · split at h
            · cases h
              decide
            · split at h
              · rename_i text htext
                cases h
                exact short_append (by decide) (utf8.errmsg_length _ _ htext)
              · cases h
          · cases h
        · cases h
  · cases h

/-- A control frame that is let through is not fragmented and not too long. -/
theorem checkControlFrame_none {utf8 : Utf8proc} {frame : WebSocketRawMessage}
    (hcontrol : isControlOpCode frame.opCode = true) (h : checkControlFrame utf8 frame = none) :
    frame.fin = true ∧ frame.payload.size ≤ maxControlFramePayload := by
  unfold checkControlFrame at h
  rw [if_pos hcontrol] at h
  by_cases hfin : frame.fin = true
  · rw [if_neg (by simp [hfin])] at h
    by_cases hsize : frame.payload.size > maxControlFramePayload
    · rw [if_pos hsize] at h
      cases h
    · exact ⟨hfin, by omega⟩
  · rw [if_pos (by simpa using hfin)] at h
    cases h

/-- The other control frames are let through. -/
theorem checkControlFrame_legal (utf8 : Utf8proc) {frame : WebSocketRawMessage}
    (hclose : frame.opCode ≠ wsOpcodeClose) (hfin : frame.fin = true)
    (hsize : frame.payload.size ≤ maxControlFramePayload) :
    checkControlFrame utf8 frame = none := by
  unfold checkControlFrame
  by_cases hcontrol : isControlOpCode frame.opCode = true
  · rw [if_pos hcontrol, if_neg (by simp [hfin]), if_neg (by omega), if_neg hclose]
  · rw [if_neg hcontrol]

theorem closingReason_short {frame : WebSocketRawMessage}
    (hsize : frame.payload.size ≤ maxControlFramePayload) : (closingReason frame).Short := by
  have hpayload : frame.payload.bytes.length ≤ 125 := hsize
  have hplanned : CloseReason.Short ⟨closeCodeNormalClosure, some (ascii "Planned close")⟩ := by
    decide
  have hparsed : ∀ reason, maybeParseCloseReason frame true = some reason → reason.Short := by
    intro reason h
    unfold maybeParseCloseReason at h
    split_ifs at h
    · cases h
      unfold CloseReason.Short
      rw [Option.getD_some, List.length_drop]
      omega
    · cases h
      exact Nat.zero_le _
  unfold closingReason
  split
  · cases hreason : maybeParseCloseReason frame true with
    | none => exact hplanned
    | some reason =>
      dsimp only
      split
      · decide
      · exact hparsed reason hreason
  · exact hplanned

/-! ## One frame -/

theorem isData_iff (frame : WebSocketRawMessage) :
    isData frame = true ↔ frame.opCode = wsOpcodeCont ∨ frame.opCode = wsOpcodeText ∨
      frame.opCode = wsOpcodeBin := by
  simp [isData]

theorem isData_control {frame : WebSocketRawMessage} (h : isData frame = true) :
    isControlOpCode frame.opCode = false := by
  rcases (isData_iff frame).1 h with hop | hop | hop
  · rw [hop]
    rfl
  · rw [hop]
    rfl
  · rw [hop]
    rfl

theorem isData_not_ping {frame : WebSocketRawMessage} (h : isData frame = true) :
    frame.opCode ≠ wsOpcodePing := by
  intro hop
  have hcontrol := isData_control h
  rw [hop] at hcontrol
  cases hcontrol

theorem openMessage_append (before : List WebSocketRawMessage) (frame : WebSocketRawMessage) :
    openMessage (before ++ [frame]) =
      if isData frame then
        if frame.fin then [] else openMessage before ++ [frame]
      else openMessage before := by
  unfold openMessage
  rw [List.filter_append]
  by_cases hdata : isData frame = true
  · rw [if_pos hdata, List.filter_cons_of_pos hdata, List.filter_nil, List.rtakeWhile_concat]
    by_cases hfin : frame.fin = true
    · rw [if_pos hfin, if_neg (by simp [hfin])]
    · rw [if_neg hfin, if_pos (by simpa using hfin)]
  · rw [if_neg hdata, List.filter_cons_of_neg hdata, List.filter_nil, List.append_nil]

/-- What is remembered of the frames of a message that is not finished. -/
def receivingOf (frames : List WebSocketRawMessage) : Receiving :=
  if frames = [] then startReceiving (getExtensionPipeline []) else ⟨true, messageOf frames, none⟩

theorem receivingOf_append (frames : List WebSocketRawMessage) (frame : WebSocketRawMessage) :
    receivingOf (frames ++ [frame]) = ⟨true, messageOf (frames ++ [frame]), none⟩ := by
  unfold receivingOf
  rw [if_neg (by simp)]

theorem receivingOf_hasMessage (frames : List WebSocketRawMessage) :
    (receivingOf frames).hasMessage = true ↔ frames ≠ [] := by
  unfold receivingOf
  by_cases h : frames = []
  · rw [if_pos h]
    simp [h, startReceiving]
  · rw [if_neg h]
    simp [h]

/-- The frame continues the message, or starts one where there is none. -/
def FitsIn (frames : List WebSocketRawMessage) (frame : WebSocketRawMessage) : Prop :=
  (frame.opCode = wsOpcodeCont ∧ frames ≠ []) ∨
    ((frame.opCode = wsOpcodeText ∨ frame.opCode = wsOpcodeBin) ∧ frames = [])

/-- A data frame that fits in is added. -/
theorem handleFrame_fitsIn {frames : List WebSocketRawMessage} {frame : WebSocketRawMessage}
    (h : FitsIn frames frame) :
    ∃ fragmented, handleFrame (getExtensionPipeline []) (receivingOf frames) frame =
      if !frame.fin then .next (receivingOf (frames ++ [frame]))
      else .complete (receivingOf (frames ++ [frame])) fragmented := by
  rw [receivingOf_append]
  rcases h with ⟨hop, hframes⟩ | ⟨hop, hframes⟩
  · have hmessage : messageOf (frames ++ [frame]) = ⟨(messageOf frames).isText,
        (messageOf frames).buffer ++ frame.payload.bytes⟩ := by
      obtain ⟨first, rest, rfl⟩ := List.exists_cons_of_ne_nil hframes
      simp [messageOf]
    refine ⟨true, ?_⟩
    unfold handleFrame
    rw [if_pos hop, if_neg (by simp [(receivingOf_hasMessage frames).2 hframes]), hmessage]
    unfold receivingOf
    rw [if_neg hframes]
    rfl
  · refine ⟨false, ?_⟩
    subst hframes
    have hcont : frame.opCode ≠ wsOpcodeCont := by
      rcases hop with hop | hop
      · rw [hop]
        decide
      · rw [hop]
        decide
    unfold handleFrame
    rw [if_neg hcont, if_pos hop, if_neg (by simp [receivingOf, startReceiving])]
    simp [messageOf, receivingOf, startReceiving, extensionReceivePipelineProcessStartMessage,
      initExtensionReceiveMessageState, ExtensionPipeline.activeExtensions, getExtensionPipeline]

/-- A data frame that does not fit in is refused. -/
theorem handleFrame_not_fitsIn {frames : List WebSocketRawMessage} {frame : WebSocketRawMessage}
    (hdata : isData frame = true) (h : ¬ FitsIn frames frame) :
    ∃ reason, handleFrame (getExtensionPipeline []) (receivingOf frames) frame =
      .close reason ∧ reason.Short := by
  have hops := (isData_iff frame).1 hdata
  unfold handleFrame
  by_cases hcont : frame.opCode = wsOpcodeCont
  · have hframes : frames = [] := by
      by_contra hframes
      exact h (.inl ⟨hcont, hframes⟩)
    rw [if_pos hcont, if_pos (by rw [hframes]; rfl)]
    exact ⟨_, rfl, by decide⟩
  · have hstart := hops.resolve_left hcont
    have hframes : frames ≠ [] := fun hframes => h (.inr ⟨hstart, hframes⟩)
    rw [if_neg hcont, if_pos hstart, if_pos ((receivingOf_hasMessage frames).2 hframes)]
    exact ⟨_, rfl, by decide⟩

/-- What a frame is that is no offence. -/
theorem legal_cases {before : List WebSocketRawMessage} {frame : WebSocketRawMessage}
    (h : ¬ Offence before frame) :
    (isData frame = true ∧ FitsIn (openMessage before) frame) ∨
      ((frame.opCode = wsOpcodePing ∨ frame.opCode = wsOpcodePong) ∧ isData frame = false ∧
        frame.fin = true ∧ frame.payload.size ≤ maxControlFramePayload) := by
  by_cases hdata : isData frame = true
  · left
    have hops := (isData_iff frame).1 hdata
    refine ⟨hdata, ?_⟩
    by_contra hfits
    rcases hops with hop | hop
    · have hopen : openMessage before = [] := by
        by_contra hopen
        exact hfits (.inl ⟨hop, hopen⟩)
      exact h (.noStart hop hopen)
    · exact h (.insideMessage hop fun hopen => hfits (.inr ⟨hop, hopen⟩))
  · right
    have hops : frame.opCode = wsOpcodePing ∨ frame.opCode = wsOpcodePong := by
      by_contra hother
      rw [not_or] at hother
      have hclose : frame.opCode ≠ wsOpcodeClose := fun hop => h (.close hop)
      apply h
      apply Offence.unknownOpcode
      rw [isData_iff] at hdata
      simp only [List.mem_cons, List.not_mem_nil, or_false]
      tauto
    have hcontrol : isControlOpCode frame.opCode = true := by
      rcases hops with hop | hop
      · rw [hop]
        rfl
      · rw [hop]
        rfl
    refine ⟨hops, by simpa using hdata, ?_, ?_⟩
    · by_contra hfin
      exact h (.fragmentedControl hcontrol (by simpa using hfin))
    · by_contra hsize
      exact h (.largeControl hcontrol (by unfold maxControlFramePayload at hsize; omega))

section Step

variable {A : Type} {zlib : Zlib} {utf8 : Utf8proc}
  {function : A → ReceivedMessage → ExtensionSendState → A × WebSocketAction}

/-- A listener that negotiated no extension. -/
def withoutExtensions (zlib : Zlib) (utf8 : Utf8proc)
    (function : A → ReceivedMessage → ExtensionSendState → A × WebSocketAction) :
    ListenerEnv A := ⟨getExtensionPipeline [], zlib, utf8, function⟩

theorem finishMessage_valid {message : ReceivedMessage} {fragmented : Bool}
    (h : message.isText = true → ValidUtf8 message.buffer) :
    finishMessage zlib utf8 (getExtensionPipeline []) ⟨true, message, none⟩ fragmented =
      .ok message := by
  have hprocess : extensionReceivePipelineProcessFinishedMessage zlib (getExtensionPipeline [])
      none message = .ok message := rfl
  unfold finishMessage
  rw [hprocess]
  dsimp only
  by_cases htext : message.isText = true
  · obtain ⟨size, hsize⟩ := (utf8.ok_iff message.buffer).2 (h htext)
    rw [if_pos htext, getUtf8String, hsize]
  · rw [if_neg htext]

theorem finishMessage_invalid {message : ReceivedMessage} {fragmented : Bool}
    (htext : message.isText = true) (h : ¬ ValidUtf8 message.buffer) :
    ∃ reason, finishMessage zlib utf8 (getExtensionPipeline []) ⟨true, message, none⟩
      fragmented = .error reason ∧ reason.Short := by
  have hprocess : extensionReceivePipelineProcessFinishedMessage zlib (getExtensionPipeline [])
      none message = .ok message := rfl
  unfold finishMessage
  rw [hprocess]
  dsimp only
  rw [if_pos htext, getUtf8String]
  cases hdecompose : utf8.decompose message.buffer with
  | ok size => exact absurd ((utf8.ok_iff message.buffer).1 ⟨size, hdecompose⟩) h
  | error text =>
    refine ⟨_, rfl, short_append ?_ (utf8.errmsg_length _ _ hdecompose)⟩
    cases fragmented with
    | true => decide
    | false => decide

variable {state : ListenerState A} {before : List WebSocketRawMessage}
  {frame : WebSocketRawMessage} {sends : Bool}

/-- A data frame that fits in. -/
theorem listenerStep_data (hrunning : state.running = true)
    (hreceiving : state.receiving = receivingOf (openMessage before))
    (hdata : isData frame = true) (hfits : FitsIn (openMessage before) frame) :
    ∃ fragmented, listenerStep (withoutExtensions zlib utf8 function) state ⟨.ok frame, sends⟩ =
      if !frame.fin then
        ({ state with receiving := receivingOf (openMessage before ++ [frame]) }, [])
      else completeMessage (withoutExtensions zlib utf8 function) state
        (receivingOf (openMessage before ++ [frame])) fragmented := by
  obtain ⟨fragmented, hhandle⟩ := handleFrame_fitsIn hfits
  refine ⟨fragmented, ?_⟩
  unfold listenerStep
  rw [hrunning, if_neg (by simp)]
  dsimp only
  rw [checkControlFrame_data _ frame (isData_control hdata)]
  dsimp only
  rw [hreceiving, withoutExtensions, hhandle]
  cases frame.fin with
  | true => rfl
  | false => rfl

theorem closed_of_check {reason : CloseReason} (hrunning : state.running = true)
    (h : checkControlFrame utf8 frame = some reason) :
    listenerStep (withoutExtensions zlib utf8 function) state ⟨.ok frame, sends⟩ =
      ({ state with running := false }, [.sent (closeFrame reason)]) := by
  unfold listenerStep
  rw [hrunning, if_neg (by simp)]
  dsimp only
  rw [withoutExtensions, h]
  exact closed_sent state (checkControlFrame_short h)

theorem closed_of_handle {reason : CloseReason} (hrunning : state.running = true)
    (hcheck : checkControlFrame utf8 frame = none)
    (h : handleFrame (getExtensionPipeline []) state.receiving frame = .close reason)
    (hshort : reason.Short) :
    listenerStep (withoutExtensions zlib utf8 function) state ⟨.ok frame, sends⟩ =
      ({ state with running := false }, [.sent (closeFrame reason)]) := by
  unfold listenerStep
  rw [hrunning, if_neg (by simp)]
  dsimp only
  rw [withoutExtensions, hcheck]
  dsimp only
  rw [h]
  exact closed_sent state hshort

/-- **An offence ends the loop with one close frame.** -/
theorem listenerStep_offence (hrunning : state.running = true)
    (hreceiving : state.receiving = receivingOf (openMessage before))
    (h : Offence before frame) :
    ∃ reason : CloseReason, reason.Short ∧
      listenerStep (withoutExtensions zlib utf8 function) state ⟨.ok frame, sends⟩ =
        ({ state with running := false }, [.sent (closeFrame reason)]) := by
  cases hcheck : checkControlFrame utf8 frame with
  | some reason =>
    exact ⟨reason, checkControlFrame_short hcheck, closed_of_check hrunning hcheck⟩
  | none =>
    -- the frame passes the checks for control frames
    have hrefused : isData frame = true → ¬ FitsIn (openMessage before) frame →
        ∃ reason : CloseReason, reason.Short ∧
          listenerStep (withoutExtensions zlib utf8 function) state ⟨.ok frame, sends⟩ =
            ({ state with running := false }, [.sent (closeFrame reason)]) := by
      intro hdata hfits
      obtain ⟨reason, hhandle, hshort⟩ := handleFrame_not_fitsIn hdata hfits
      rw [← hreceiving] at hhandle
      exact ⟨reason, hshort, closed_of_handle hrunning hcheck hhandle hshort⟩
    cases h with
    | noStart hop hopen =>
      apply hrefused (by simp [isData, hop])
      rintro (⟨-, hframes⟩ | ⟨hstart, -⟩)
      · exact hframes hopen
      · rw [hop] at hstart
        exact absurd hstart (by decide)
    | insideMessage hop hopen =>
      apply hrefused (by simp [isData, hop])
      rintro (⟨hcont, -⟩ | ⟨-, hframes⟩)
      · rw [hcont] at hop
        exact absurd hop (by decide)
      · exact hopen hframes
    | fragmentedControl hop hfin =>
      have hlegal := checkControlFrame_none hop hcheck
      rw [hfin] at hlegal
      exact absurd hlegal.1 Bool.false_ne_true
    | largeControl hop hsize =>
      have hlegal := (checkControlFrame_none hop hcheck).2
      unfold maxControlFramePayload at hlegal
      omega
    | notUtf8 message hmessage htext hinvalid =>
      unfold completedBy at hmessage
      split at hmessage
      · rename_i hlast
        cases hmessage
        rw [Bool.and_eq_true] at hlast
        by_cases hfits : FitsIn (openMessage before) frame
        · obtain ⟨fragmented, hstep⟩ := @listenerStep_data A zlib utf8 function state before frame
            sends hrunning hreceiving hlast.1 hfits
          obtain ⟨reason, hfinish, hshort⟩ :=
            @finishMessage_invalid zlib utf8 _ fragmented htext hinvalid
          refine ⟨reason, hshort, ?_⟩
          rw [hstep, if_neg (by simp [hlast.2]), receivingOf_append]
          unfold completeMessage withoutExtensions
          rw [hfinish]
          exact closed_sent state hshort
        · exact hrefused hlast.1 hfits
      · cases hmessage
    | close hop =>
      have hlegal := checkControlFrame_none (by rw [hop]; rfl) hcheck
      have hshort := closingReason_short hlegal.2
      refine ⟨closingReason frame, hshort, closed_of_handle hrunning hcheck ?_ hshort⟩
      unfold handleFrame
      rw [if_neg (by rw [hop]; decide), if_neg (by rw [hop]; decide), if_pos hop]
    | unknownOpcode hop =>
      simp only [List.mem_cons, List.not_mem_nil, or_false, not_or] at hop
      obtain ⟨hcont, htext, hbin, hclose, hping, hpong⟩ := hop
      have hshort : (protocolError "Received Opcode that is not supported").Short := by decide
      refine ⟨_, hshort, closed_of_handle hrunning hcheck ?_ hshort⟩
      unfold handleFrame
      rw [if_neg hcont, if_neg (not_or.2 ⟨htext, hbin⟩), if_neg hclose, if_neg hping,
        if_neg hpong]

/-- A PING or a PONG that is let through. -/
theorem listenerStep_control (hrunning : state.running = true)
    (hops : frame.opCode = wsOpcodePing ∨ frame.opCode = wsOpcodePong) (hfin : frame.fin = true)
    (hsize : frame.payload.size ≤ maxControlFramePayload) :
    listenerStep (withoutExtensions zlib utf8 function) state ⟨.ok frame, sends⟩ =
      if frame.opCode = wsOpcodePing then
        if sends then (state, [.sent ⟨true, wsOpcodePong, frame.payload, frame.rsvBytes⟩])
        else
          ({ state with running := false },
            [.sent ⟨true, wsOpcodePong, frame.payload, frame.rsvBytes⟩,
              .sent (closeFrame (protocolError "Couldn't send PONG op_code"))])
      else (state, []) := by
  have hclose : frame.opCode ≠ wsOpcodeClose := by
    rcases hops with hop | hop
    · rw [hop]
      decide
    · rw [hop]
      decide
  have hpong : sendRaw ⟨true, wsOpcodePong, frame.payload, frame.rsvBytes⟩ =
      [.sent ⟨true, wsOpcodePong, frame.payload, frame.rsvBytes⟩] := sendRaw_sent rfl hsize
  unfold listenerStep
  rw [if_neg (by simp [hrunning])]
  dsimp only
  rw [withoutExtensions, checkControlFrame_legal utf8 hclose hfin hsize]
  dsimp only
  unfold handleFrame
  rcases hops with hop | hop
  · rw [if_neg (by rw [hop]; decide), if_neg (by rw [hop]; decide), if_neg hclose, if_pos hop,
      if_pos hop]
    dsimp only
    rw [hpong, closeWebsocketConnection_sent (by decide)]
    rfl
  · rw [if_neg (by rw [hop]; decide), if_neg (by rw [hop]; decide), if_neg hclose,
      if_neg (by rw [hop]; decide), if_pos hop, if_neg (by rw [hop]; decide)]

/-- The last frame of a message, which is passed on. -/
theorem listenerStep_complete {message : ReceivedMessage} (hrunning : state.running = true)
    (hreceiving : state.receiving = receivingOf (openMessage before))
    (hlegal : ¬ Offence before frame) (hmessage : completedBy before frame = some message) :
    listenerStep (withoutExtensions zlib utf8 function) state ⟨.ok frame, sends⟩ =
      handleMessage (withoutExtensions zlib utf8 function) state ⟨true, message, none⟩
        message := by
  have hvalid : message.isText = true → ValidUtf8 message.buffer := by
    intro htext
    by_contra hinvalid
    exact hlegal (.notUtf8 message hmessage htext hinvalid)
  have hlast : isData frame = true ∧ frame.fin = true ∧
      messageOf (openMessage before ++ [frame]) = message := by
    unfold completedBy at hmessage
    split at hmessage
    · rename_i hlast
      rw [Bool.and_eq_true] at hlast
      exact ⟨hlast.1, hlast.2, Option.some.inj hmessage⟩
    · cases hmessage
  obtain ⟨hdata, hfin, hmessage⟩ := hlast
  have hfits : FitsIn (openMessage before) frame := by
    rcases legal_cases hlegal with ⟨-, hfits⟩ | ⟨-, hcontrol, -⟩
    · exact hfits
    · rw [hdata] at hcontrol
      cases hcontrol
  obtain ⟨fragmented, hstep⟩ := @listenerStep_data A zlib utf8 function state before frame sends
    hrunning hreceiving hdata hfits
  rw [hstep, if_neg (by simp [hfin]), receivingOf_append, hmessage]
  unfold completeMessage
  rw [show finishMessage (withoutExtensions zlib utf8 function).zlib
    (withoutExtensions zlib utf8 function).utf8 (withoutExtensions zlib utf8 function).pipeline
    ⟨true, message, none⟩ fragmented = .ok message from finishMessage_valid hvalid]

/-- The message is passed on, and the loop goes on or is ended. -/
theorem handleMessage_continue {message : ReceivedMessage}
    (h : ¬ Refuses (withoutExtensions zlib utf8 function) state message) :
    handleMessage (withoutExtensions zlib utf8 function) state ⟨true, message, none⟩ message =
      ({ state with
          application := (function state.application message ⟨getExtensionPipeline [], none⟩).1
          receiving := receivingOf [] }, [.delivered message]) := by
  have haction : (function state.application message ⟨getExtensionPipeline [], none⟩).2 =
      .continue := by
    by_contra hother
    exact h hother
  unfold handleMessage withoutExtensions
  dsimp only
  rw [haction]
  rfl

theorem handleMessage_refused {message : ReceivedMessage}
    (h : Refuses (withoutExtensions zlib utf8 function) state message) :
    ∃ state', ∃ reason : CloseReason, reason.Short ∧
      handleMessage (withoutExtensions zlib utf8 function) state ⟨true, message, none⟩ message =
        (state', [.delivered message, .sent (closeFrame reason)]) ∧ state'.running = false := by
  have hother : (function state.application message ⟨getExtensionPipeline [], none⟩).2 ≠
      .continue := h
  unfold handleMessage withoutExtensions
  dsimp only
  cases haction : (function state.application message ⟨getExtensionPipeline [], none⟩).2 with
  | «continue» => exact absurd haction hother
  | close =>
    dsimp only
    rw [closeWebsocketConnection_sent (by decide)]
    exact ⟨_, _, by decide, rfl, rfl⟩
  | error =>
    dsimp only
    rw [closeWebsocketConnection_sent (by decide)]
    exact ⟨_, _, by decide, rfl, rfl⟩

/-- **What a frame does that does not end the loop.** -/
theorem listenerStep_goesOn {before : List WebSocketRawMessage} {frame : WebSocketRawMessage}
    {sends : Bool} (hrunning : state.running = true)
    (hreceiving : state.receiving = receivingOf (openMessage before))
    (hlegal : ¬ Offence before frame)
    (hcontinue : ∀ message, completedBy before frame = some message →
      ¬ Refuses (withoutExtensions zlib utf8 function) state message)
    (hsends : frame.opCode = wsOpcodePing → sends = true) :
    ∃ state', listenerStep (withoutExtensions zlib utf8 function) state ⟨.ok frame, sends⟩ =
        (state', answerTo before frame) ∧ state'.running = true ∧
      state'.receiving = receivingOf (openMessage (before ++ [frame])) := by
  rw [openMessage_append]
  rcases legal_cases hlegal with ⟨hdata, hfits⟩ | ⟨hops, hdata, hfin, hsize⟩
  · have hping := isData_not_ping hdata
    have hanswer : answerTo before frame =
        if frame.fin then [.delivered (messageOf (openMessage before ++ [frame]))] else [] := by
      unfold answerTo completedBy
      rw [if_neg hping, hdata, Bool.true_and]
      cases frame.fin with
      | true => rfl
      | false => rfl
    rw [if_pos hdata, hanswer]
    by_cases hfin : frame.fin = true
    · have hmessage : completedBy before frame =
          some (messageOf (openMessage before ++ [frame])) := by
        unfold completedBy
        rw [hdata, hfin]
        rfl
      rw [if_pos hfin, if_pos hfin, listenerStep_complete hrunning hreceiving hlegal hmessage,
        handleMessage_continue (hcontinue _ hmessage)]
      exact ⟨_, rfl, hrunning, rfl⟩
    · obtain ⟨fragmented, hstep⟩ := @listenerStep_data A zlib utf8 function state before frame
        sends hrunning hreceiving hdata hfits
      rw [if_neg hfin, if_neg hfin, hstep, if_pos (by simpa using hfin)]
      exact ⟨_, rfl, hrunning, rfl⟩
  · have hnone : completedBy before frame = none := by
      unfold completedBy
      rw [hdata, Bool.false_and, if_neg Bool.false_ne_true]
    rw [if_neg (by simp [hdata]), listenerStep_control hrunning hops hfin hsize]
    unfold answerTo
    rw [hnone]
    by_cases hping : frame.opCode = wsOpcodePing
    · rw [if_pos hping, if_pos (hsends hping), if_pos hping]
      exact ⟨_, rfl, hrunning, hreceiving⟩
    · rw [if_neg hping, if_neg hping]
      exact ⟨_, rfl, hrunning, hreceiving⟩

end Step

end SimpleServer.Ws
