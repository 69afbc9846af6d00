import SimpleServer.Ws.Listener

/-!
# Fragmented WebSocket messages

The frames of a message carry its opcode first and are continuations then, the last one ends the
message, and their payloads are the message. What goes wrong is the bit for compressed messages:
the loop over the fragments puts the first one through the pipeline for continuations and the
others through the one for start messages.

* `legalFrames_accepted`: the listener takes legal frames as one message, and knows whether it
  is compressed.
* `fragmentedFrames_plain`: the fragments of a message that is not compressed are legal.
* `sendsLegally_iff`: **when the frames of a message are legal**.
-/

namespace SimpleServer.Ws

open SimpleServer.Utils

/-! ## What is asked -/

/-- The frames are a message: the opcode and the bit for compressed messages are in the first
one, the last one ends it, and the payloads are its bytes. -/
structure LegalFrames (frames : List WebSocketRawMessage) (isText : Bool) (bytes : Bytes)
    (compressed : Bool) : Prop where
  opcodes : ∃ first rest, frames = first :: rest ∧ first.opCode = startOpcode isText ∧
    first.rsvBytes = (if compressed then rsvCompressed else 0) ∧
    ∀ frame ∈ rest, frame.opCode = wsOpcodeCont ∧ frame.rsvBytes = 0
  fins : ∃ front last, frames = front ++ [last] ∧ last.fin = true ∧
    ∀ frame ∈ front, frame.fin = false
  payloads : (frames.map fun frame => frame.payload.bytes).flatten = bytes

/-- Frames as a listener reads them. -/
def asRead (frames : List WebSocketRawMessage) : List ListenerInput :=
  frames.map fun frame => ⟨.ok frame, true⟩

/-- A listener takes the frames as one message, which it takes for a compressed one or not. -/
def TakenAs {A : Type} (env : ListenerEnv A) (application : A)
    (frames : List WebSocketRawMessage) (isText : Bool) (bytes : Bytes) (compressed : Bool) :
    Prop :=
  ∃ state receiving fragmented, state.application = application ∧ state.running = true ∧
    receiving.currentMessage = ⟨isText, bytes⟩ ∧
    isCompressed receiving.messageReceiveState = compressed ∧
    wsListenerFunction env (startListener env application) (asRead frames) =
      completeMessage env state receiving fragmented

/-- The reply to a message that was compressed is compressed. -/
def compressesReply (extensions : List WSExtension)
    (messageState : Option ExtensionMessageReceiveState) : Bool :=
  !extensions.isEmpty && isCompressed messageState

/-- The frames of a message are legal, and a listener with the same extensions takes them for
what they are. -/
def SendsLegally (env : SendEnv) (extensions : List WSExtension)
    (messageState : Option ExtensionMessageReceiveState) (fragmentOption : WsFragmentOption)
    (message : WebSocketMessage) : Prop :=
  ∀ sentMessage frames,
    extensionSendPipelineProcessInitialMessage env.zlib
      ⟨getExtensionPipeline extensions, messageState⟩ message = .ok sentMessage →
    wsSendMessage env message fragmentOption ⟨getExtensionPipeline extensions, messageState⟩ =
      some frames →
    LegalFrames frames message.isText sentMessage.buffer.bytes
      (compressesReply extensions messageState) ∧
    ∀ {A : Type} (listener : ListenerEnv A) (application : A),
      listener.pipeline = getExtensionPipeline extensions →
      TakenAs listener application frames message.isText sentMessage.buffer.bytes
        (compressesReply extensions messageState)

/-- A size is set for the fragments, and the message reaches it. -/
def Fragments (env : SendEnv) (fragmentOption : WsFragmentOption) (size : ℕ) : Prop :=
  match fragmentOption with
  | .off => False
  | .auto => max wsMinimumFragmentSize (autoFragmentSize env.sndbuf) ≤ size
  | .set fragmentSize => max wsMinimumFragmentSize fragmentSize ≤ size

/-- The message is compressed, and then cut into fragments. -/
def CompressedInFragments (env : SendEnv) (extensions : List WSExtension)
    (messageState : Option ExtensionMessageReceiveState) (fragmentOption : WsFragmentOption)
    (message : WebSocketMessage) : Prop :=
  compressesReply extensions messageState = true ∧ ∃ sentMessage,
    extensionSendPipelineProcessInitialMessage env.zlib
      ⟨getExtensionPipeline extensions, messageState⟩ message = .ok sentMessage ∧
    Fragments env fragmentOption sentMessage.buffer.size

/-! ## Receiving -/

section Receiving

variable {A : Type} {env : ListenerEnv A} {state : ListenerState A} {frame : WebSocketRawMessage}

theorem checkControlFrame_data (utf8 : Utf8proc) (frame : WebSocketRawMessage)
    (h : isControlOpCode frame.opCode = false) : checkControlFrame utf8 frame = none := by
  unfold checkControlFrame
  rw [h, if_neg Bool.false_ne_true]

/-- The message with one more payload. -/
def Receiving.append (receiving : Receiving) (bytes : Bytes) : Receiving :=
  { receiving with
    currentMessage := { receiving.currentMessage with
      buffer := receiving.currentMessage.buffer ++ bytes } }

/-- A continuation without the bit for compressed messages. -/
theorem listenerStep_cont (hrunning : state.running = true)
    (hmessage : state.receiving.hasMessage = true) (hcont : frame.opCode = wsOpcodeCont)
    (hrsv : frame.rsvBytes = 0) :
    listenerStep env state ⟨.ok frame, true⟩ =
      if frame.fin then
        completeMessage env state (state.receiving.append frame.payload.bytes) true
      else ({ state with receiving := state.receiving.append frame.payload.bytes }, []) := by
  have hcontrol := checkControlFrame_data env.utf8 frame (by rw [hcont]; rfl)
  have hvalid : extensionReceivePipelineIsValidContFrame env.pipeline frame = none := by
    unfold extensionReceivePipelineIsValidContFrame
    rw [hrsv]
    split_ifs with h1 h2 h3
    · rfl
    · exact absurd rfl h3
    · rfl
    · rfl
  have hhandle : handleFrame env.pipeline state.receiving frame =
      if !frame.fin then .next (state.receiving.append frame.payload.bytes)
      else .complete (state.receiving.append frame.payload.bytes) true := by
    unfold handleFrame
    rw [if_pos hcont, if_neg (by simp [hmessage]), hvalid]
    rfl
  unfold listenerStep
  rw [hrunning, if_neg (by simp)]
  dsimp only
  rw [hcontrol]
  dsimp only
  rw [hhandle]
  cases frame.fin with
  | true => rfl
  | false => rfl

/-- The message that the first frame starts. -/
def startedBy (pipeline : ExtensionPipeline) (state : Option ExtensionMessageReceiveState)
    (isText : Bool) (frame : WebSocketRawMessage) : Receiving :=
  ⟨true, ⟨isText, frame.payload.bytes⟩,
    extensionReceivePipelineProcessStartMessage pipeline state frame⟩

theorem listenerStep_first {isText : Bool} (hrunning : state.running = true)
    (hmessage : state.receiving.hasMessage = false) (hop : frame.opCode = startOpcode isText) :
    listenerStep env state ⟨.ok frame, true⟩ =
      if frame.fin then
        completeMessage env state
          (startedBy env.pipeline state.receiving.messageReceiveState isText frame) false
      else
        ({ state with
            receiving := startedBy env.pipeline state.receiving.messageReceiveState isText
              frame }, []) := by
  have hcontrol := checkControlFrame_data env.utf8 frame (by rw [hop]; cases isText <;> rfl)
  have hdata : frame.opCode = wsOpcodeText ∨ frame.opCode = wsOpcodeBin := by
    rw [hop]
    cases isText with
    | true => exact .inl rfl
    | false => exact .inr rfl
  have htext : decide (frame.opCode = wsOpcodeText) = isText := by
    rw [hop]
    cases isText <;> rfl
  have hhandle : handleFrame env.pipeline state.receiving frame =
      if !frame.fin then
        .next (startedBy env.pipeline state.receiving.messageReceiveState isText frame)
      else
        .complete (startedBy env.pipeline state.receiving.messageReceiveState isText frame)
          false := by
    unfold handleFrame startedBy
    rw [if_neg (by rw [hop]; cases isText <;> decide), if_pos hdata,
      if_neg (by simp [hmessage]), htext]
  unfold listenerStep
  rw [hrunning, if_neg (by simp)]
  dsimp only
  rw [hcontrol]
  dsimp only
  rw [hhandle]
  cases frame.fin with
  | true => rfl
  | false => rfl

theorem wsListenerFunction_cons {input : ListenerInput} {inputs : List ListenerInput} :
    wsListenerFunction env state (input :: inputs) =
      ((wsListenerFunction env (listenerStep env state input).1 inputs).1,
        (listenerStep env state input).2 ++
          (wsListenerFunction env (listenerStep env state input).1 inputs).2) := rfl

/-- The continuations of a message. -/
theorem wsListenerFunction_conts {last : WebSocketRawMessage} (front : List WebSocketRawMessage) :
    ∀ {state : ListenerState A}, state.running = true → state.receiving.hasMessage = true →
    (∀ frame ∈ front ++ [last], frame.opCode = wsOpcodeCont ∧ frame.rsvBytes = 0) →
    (∀ frame ∈ front, frame.fin = false) → last.fin = true →
    ∃ state', state'.application = state.application ∧ state'.running = true ∧
      wsListenerFunction env state (asRead (front ++ [last])) =
        completeMessage env state' (state.receiving.append
          ((front ++ [last]).map fun frame => frame.payload.bytes).flatten) true := by
  induction front with
  | nil =>
    intro state hrunning hmessage hconts _ hlast
    obtain ⟨hcont, hrsv⟩ := hconts last (List.mem_singleton_self last)
    refine ⟨state, rfl, hrunning, ?_⟩
    have hstep : listenerStep env state ⟨.ok last, true⟩ = completeMessage env state
        (state.receiving.append last.payload.bytes) true := by
      rw [listenerStep_cont hrunning hmessage hcont hrsv, if_pos hlast]
    simp only [List.nil_append, asRead, List.map_cons, List.map_nil, wsListenerFunction_cons,
      wsListenerFunction, hstep, List.append_nil, List.flatten_cons, List.flatten_nil]
  | cons frame front ih =>
    intro state hrunning hmessage hconts hfins hlast
    obtain ⟨hcont, hrsv⟩ := hconts frame (List.mem_cons_self ..)
    have hfin := hfins frame (List.mem_cons_self ..)
    have hstep : listenerStep env state ⟨.ok frame, true⟩ =
        ({ state with receiving := state.receiving.append frame.payload.bytes }, []) := by
      rw [listenerStep_cont hrunning hmessage hcont hrsv, if_neg (by simp [hfin])]
    obtain ⟨state', happlication, hrunning', hrest⟩ :=
      @ih { state with receiving := state.receiving.append frame.payload.bytes } hrunning hmessage
        (fun frame hframe => hconts frame (List.mem_cons_of_mem _ hframe))
        (fun frame hframe => hfins frame (List.mem_cons_of_mem _ hframe)) hlast
    refine ⟨state', happlication, hrunning', ?_⟩
    simp only [List.cons_append, asRead, List.map_cons, wsListenerFunction_cons, hstep,
      List.nil_append]
    have happend : (state.receiving.append frame.payload.bytes).append
        ((front ++ [last]).map fun frame => frame.payload.bytes).flatten =
        state.receiving.append
          ((frame :: (front ++ [last])).map fun frame => frame.payload.bytes).flatten := by
      simp [Receiving.append]
    rw [List.map_cons] at happend
    rw [← happend, ← hrest]
    rfl

end Receiving

/-! ## The pipeline -/

/-- The one kind of extension there is compresses. -/
theorem getExtensionPipeline_deflates (extensions : List WSExtension) :
    (getExtensionPipeline extensions).deflates = !extensions.isEmpty := by
  cases extensions with
  | nil => rfl
  | cons extension extensions =>
    cases extension with
    | perMessageDeflate options =>
      unfold ExtensionPipeline.deflates getExtensionPipeline
      dsimp only
      -- the bit stays set
      rw [List.foldl_cons, List.foldl_fixed' (fun other => by cases other; rfl)]
      rfl

theorem activeExtensions_eq_zero (extensions : List WSExtension) :
    (getExtensionPipeline extensions).activeExtensions = 0 ↔ extensions = [] :=
  List.length_eq_zero_iff

/-- The first frame tells the receiver whether the message is compressed. -/
theorem startMessage_compressed {extensions : List WSExtension} {frame : WebSocketRawMessage}
    {compressed : Bool} (hcompressed : compressed = true → extensions ≠ [])
    (hrsv : frame.rsvBytes = if compressed then rsvCompressed else 0) :
    isCompressed (extensionReceivePipelineProcessStartMessage (getExtensionPipeline extensions)
      (initExtensionReceiveMessageState (getExtensionPipeline extensions)) frame) =
      compressed := by
  unfold extensionReceivePipelineProcessStartMessage initExtensionReceiveMessageState
  by_cases hnone : extensions = []
  · rw [if_pos ((activeExtensions_eq_zero extensions).2 hnone),
      if_pos ((activeExtensions_eq_zero extensions).2 hnone)]
    cases compressed with
    | true => exact absurd hnone (hcompressed rfl)
    | false => rfl
  · have hactive := mt (activeExtensions_eq_zero extensions).1 hnone
    rw [if_neg hactive, if_neg hactive, getExtensionPipeline_deflates,
      if_pos (by simpa using hnone), hrsv]
    cases compressed <;> rfl

/-- What a listener does with legal frames. -/
theorem legalFrames_accepted {A : Type} {frames : List WebSocketRawMessage} {isText : Bool}
    {bytes : Bytes} {compressed : Bool} {extensions : List WSExtension}
    (h : LegalFrames frames isText bytes compressed)
    (hcompressed : compressed = true → extensions ≠ []) (listener : ListenerEnv A)
    (application : A) (hpipeline : listener.pipeline = getExtensionPipeline extensions) :
    TakenAs listener application frames isText bytes compressed := by
  obtain ⟨first, rest, hframes, hop, hrsv, hrest⟩ := h.opcodes
  obtain ⟨front, last, hfins, hlast, hfront⟩ := h.fins
  have hpayloads := h.payloads
  have hclassified := startMessage_compressed hcompressed hrsv
  rw [← hpipeline] at hclassified
  have hstep := @listenerStep_first A listener (startListener listener application) first isText
    rfl rfl hop
  cases front with
  | nil =>
    -- the message has one frame
    rw [List.nil_append] at hfins
    rw [hfins] at hframes hpayloads ⊢
    cases hframes
    rw [if_pos hlast] at hstep
    refine ⟨startListener listener application, startedBy listener.pipeline
      (initExtensionReceiveMessageState listener.pipeline) isText first, false, rfl, rfl, ?_,
      hclassified, ?_⟩
    · simpa [startedBy] using hpayloads
    · simp only [asRead, List.map_cons, List.map_nil, wsListenerFunction_cons, hstep,
        wsListenerFunction, List.append_nil]
      rfl
  | cons start front =>
    rw [hframes, List.cons_append] at hfins
    cases hfins
    rw [if_neg (by simp [hfront first (List.mem_cons_self ..)])] at hstep
    -- the first frame starts the message, the others are added to it
    obtain ⟨state, happlication, hrunning, hconts⟩ := @wsListenerFunction_conts A listener last
      front { startListener listener application with
        receiving := startedBy listener.pipeline
          (initExtensionReceiveMessageState listener.pipeline) isText first }
      rfl rfl hrest (fun frame hframe => hfront frame (List.mem_cons_of_mem _ hframe)) hlast
    refine ⟨state, (startedBy listener.pipeline
        (initExtensionReceiveMessageState listener.pipeline) isText first).append
      ((front ++ [last]).map fun frame => frame.payload.bytes).flatten, true, happlication,
      hrunning, ?_, hclassified, ?_⟩
    · rw [hframes, List.map_cons, List.flatten_cons] at hpayloads
      dsimp only [Receiving.append, startedBy]
      rw [hpayloads]
    · rw [hframes]
      simp only [asRead, List.map_cons, wsListenerFunction_cons, hstep, List.nil_append]
      exact hconts

/-! ## Sending -/

section Sending

variable {extensions : List WSExtension} {messageState : Option ExtensionMessageReceiveState}
  {message : WebSocketMessage} {fragmentSize : ℕ}

/-- What the pipeline for start messages does to a frame. -/
theorem processStartMessage_eq (extensions : List WSExtension)
    (messageState : Option ExtensionMessageReceiveState) (frame : WebSocketRawMessage) :
    extensionSendPipelineProcessStartMessage ⟨getExtensionPipeline extensions, messageState⟩
        frame =
      if compressesReply extensions messageState then
        { frame with rsvBytes := frame.rsvBytes ||| rsvCompressed }
      else frame := by
  unfold extensionSendPipelineProcessStartMessage compressesReply
  dsimp only
  rw [getExtensionPipeline_deflates]
  by_cases hnone : extensions = []
  · subst hnone
    rfl
  · rw [if_neg (mt (activeExtensions_eq_zero extensions).1 hnone)]
    cases hempty : extensions.isEmpty with
    | true => exact absurd (List.isEmpty_iff.1 hempty) hnone
    | false => simp only [Bool.not_false, Bool.true_and, if_true]

theorem foldlM_isText {process : WebSocketMessage → WSExtension → Except String WebSocketMessage}
    (hprocess : ∀ message extension message', process message extension = .ok message' →
      message'.isText = message.isText) {sentMessage : WebSocketMessage}
    (extensions : List WSExtension) :
    ∀ {message : WebSocketMessage}, extensions.foldlM process message = .ok sentMessage →
      sentMessage.isText = message.isText := by
  induction extensions with
  | nil =>
    intro message h
    cases h
    rfl
  | cons extension extensions ih =>
    intro message h
    rw [List.foldlM_cons] at h
    cases hfirst : process message extension with
    | error error =>
      rw [hfirst] at h
      cases h
    | ok message' =>
      rw [hfirst] at h
      exact (ih h).trans (hprocess message extension message' hfirst)

/-- No extension changes the type of a message. -/
theorem processInitialMessage_isText {zlib : Zlib} {sendState : ExtensionSendState}
    {sentMessage : WebSocketMessage}
    (h : extensionSendPipelineProcessInitialMessage zlib sendState message = .ok sentMessage) :
    sentMessage.isText = message.isText := by
  unfold extensionSendPipelineProcessInitialMessage at h
  by_cases hnone : sendState.extensionPipeline.activeExtensions = 0
  · rw [if_pos hnone] at h
    cases h
    rfl
  rw [if_neg hnone] at h
  refine foldlM_isText ?_ sendState.extensionPipeline.processFns h
  rintro message ⟨options⟩ message' hmessage'
  dsimp only at hmessage'
  by_cases hplain : (!isCompressed sendState.messageState) = true
  · rw [if_pos hplain] at hmessage'
    cases hmessage'
    rfl
  · rw [if_neg hplain] at hmessage'
    unfold compressWsMessage at hmessage'
    dsimp only at hmessage'
    split_ifs at hmessage'
    cases hmessage'
    rfl

theorem normalFrame_legal (extensions : List WSExtension)
    (messageState : Option ExtensionMessageReceiveState) (message : WebSocketMessage) :
    LegalFrames [normalFrame message ⟨getExtensionPipeline extensions, messageState⟩]
      message.isText message.buffer.bytes (compressesReply extensions messageState) := by
  unfold normalFrame
  rw [processStartMessage_eq]
  cases compressesReply extensions messageState with
  | true =>
    rw [if_pos rfl]
    refine ⟨⟨_, [], rfl, rfl, ?_, ?_⟩, ⟨[], _, rfl, rfl, ?_⟩, ?_⟩
    · dsimp only
      rw [if_pos rfl]
      decide
    · rintro _ ⟨⟩
    · rintro _ ⟨⟩
    · simp
  | false =>
    rw [if_neg Bool.false_ne_true]
    refine ⟨⟨_, [], rfl, rfl, rfl, ?_⟩, ⟨[], _, rfl, rfl, ?_⟩, ?_⟩
    · rintro _ ⟨⟩
    · rintro _ ⟨⟩
    · simp

/-- The fragments of a message that is not compressed are a legal message. -/
theorem fragmentedFrames_plain (hsize : 0 < fragmentSize)
    (hmessage : 0 < message.buffer.size)
    (hplain : compressesReply extensions messageState = false) :
    LegalFrames
      (fragmentedFrames message fragmentSize ⟨getExtensionPipeline extensions, messageState⟩)
      message.isText message.buffer.bytes false := by
  have hframes : fragmentedFrames message fragmentSize
      ⟨getExtensionPipeline extensions, messageState⟩ =
      (Lib.fragments fragmentSize message.buffer.bytes).map (partFrame message) := by
    unfold fragmentedFrames
    refine List.map_congr_left ?_
    intro part _
    by_cases hoffset : part.offset ≠ 0
    · rw [if_pos hoffset, processStartMessage_eq, hplain, if_neg Bool.false_ne_true]
    · rw [if_neg hoffset]
      rfl
  rw [hframes]
  unfold Lib.fragments
  obtain ⟨first, rest, heq, hfirst, hrest⟩ :=
    Lib.fragmentLoop_first hsize hmessage (Nat.zero_add _).ge
  obtain ⟨front, last, heq', hlast, hfront⟩ :=
    Lib.fragmentLoop_last hsize hmessage (Nat.zero_add _).ge
  refine ⟨?_, ?_, ?_⟩
  · refine ⟨partFrame message first, rest.map (partFrame message), ?_, if_pos hfirst, rfl, ?_⟩
    · rw [← List.map_cons, ← heq]
    · intro frame hframe
      obtain ⟨part, hpart, rfl⟩ := List.mem_map.1 hframe
      exact ⟨if_neg (hrest part hpart).ne', rfl⟩
  · refine ⟨front.map (partFrame message), partFrame message last, ?_, hlast, ?_⟩
    · rw [← List.map_singleton, ← List.map_append, ← heq']
    · intro frame hframe
      obtain ⟨part, hpart, rfl⟩ := List.mem_map.1 hframe
      exact hfront part hpart
  · -- a payload is the content of its part
    have hcontent : ((Lib.fragmentLoop fragmentSize message.buffer.bytes
        message.buffer.bytes.length 0).map (partFrame message)).map
          (fun frame => frame.payload.bytes) =
        (Lib.fragmentLoop fragmentSize message.buffer.bytes message.buffer.bytes.length 0).map
          Lib.Fragment.content := by
      rw [List.map_map]
      refine List.map_congr_left ?_
      intro part hpart
      exact Lib.fragmentLoop_content _ _ part hpart
    rw [hcontent, Lib.fragmentLoop_flatten hsize (Nat.zero_add _).ge, List.drop_zero]

/-- The first fragment never has the bit for compressed messages. -/
theorem fragmentedFrames_first (hsize : 0 < fragmentSize) (hmessage : 0 < message.buffer.size)
    (sendState : ExtensionSendState) :
    ∃ first rest, fragmentedFrames message fragmentSize sendState = first :: rest ∧
      first.rsvBytes = 0 := by
  obtain ⟨first, rest, heq, hfirst, -⟩ :=
    Lib.fragmentLoop_first hsize hmessage (Nat.zero_add _).ge
  unfold fragmentedFrames Lib.fragments
  rw [heq, List.map_cons, if_neg (not_not.2 hfirst)]
  exact ⟨_, _, rfl, rfl⟩

theorem framesWithSize_eq (message : WebSocketMessage) (fragmentSize : ℕ)
    (sendState : ExtensionSendState) :
    framesWithSize message fragmentSize sendState =
      if max wsMinimumFragmentSize fragmentSize ≤ message.buffer.size then
        fragmentedFrames message (max wsMinimumFragmentSize fragmentSize) sendState
      else [normalFrame message sendState] := by
  have hsize : (if fragmentSize < wsMinimumFragmentSize then wsMinimumFragmentSize
      else fragmentSize) = max wsMinimumFragmentSize fragmentSize := by
    split_ifs with h
    · exact (max_eq_left h.le).symm
    · exact (max_eq_right (not_lt.1 h)).symm
  unfold framesWithSize
  dsimp only
  rw [hsize]
  by_cases hlarge : max wsMinimumFragmentSize fragmentSize ≤ message.buffer.size
  · rw [if_pos hlarge, if_neg (not_lt.2 hlarge)]
  · rw [if_neg hlarge, if_pos (not_le.1 hlarge)]

/-- A message is sent in one frame, or in fragments of some size. -/
theorem messageFrames_cases (env : SendEnv) (fragmentOption : WsFragmentOption)
    (message : WebSocketMessage) (sendState : ExtensionSendState) :
    (¬ Fragments env fragmentOption message.buffer.size ∧
      messageFrames env fragmentOption message sendState = [normalFrame message sendState]) ∨
    (Fragments env fragmentOption message.buffer.size ∧ 0 < message.buffer.size ∧
      ∃ fragmentSize, 0 < fragmentSize ∧
        messageFrames env fragmentOption message sendState =
          fragmentedFrames message fragmentSize sendState) := by
  have hcases : ∀ fragmentSize,
      (¬ max wsMinimumFragmentSize fragmentSize ≤ message.buffer.size ∧
        framesWithSize message fragmentSize sendState = [normalFrame message sendState]) ∨
      (max wsMinimumFragmentSize fragmentSize ≤ message.buffer.size ∧
        0 < message.buffer.size ∧ ∃ fragmentSize', 0 < fragmentSize' ∧
          framesWithSize message fragmentSize sendState =
            fragmentedFrames message fragmentSize' sendState) := by
    intro fragmentSize
    have hpos : 0 < max wsMinimumFragmentSize fragmentSize :=
      lt_of_lt_of_le (by decide) (le_max_left wsMinimumFragmentSize fragmentSize)
    rw [framesWithSize_eq]
    by_cases hlarge : max wsMinimumFragmentSize fragmentSize ≤ message.buffer.size
    · rw [if_pos hlarge]
      exact .inr ⟨hlarge, hpos.trans_le hlarge, _, hpos, rfl⟩
    · rw [if_neg hlarge]
      exact .inl ⟨hlarge, rfl⟩
  cases fragmentOption with
  | off => exact .inl ⟨id, rfl⟩
  | auto => exact hcases (autoFragmentSize env.sndbuf)
  | set fragmentSize => exact hcases fragmentSize

end Sending

theorem compressesReply_extensions {extensions : List WSExtension}
    {messageState : Option ExtensionMessageReceiveState}
    (h : compressesReply extensions messageState = true) : extensions ≠ [] := by
  rintro rfl
  cases h

/-- The fragments of a compressed message do not say so. -/
theorem not_sendsLegally {env : SendEnv} {extensions : List WSExtension}
    {messageState : Option ExtensionMessageReceiveState} {fragmentOption : WsFragmentOption}
    {message : WebSocketMessage}
    (h : CompressedInFragments env extensions messageState fragmentOption message) :
    ¬ SendsLegally env extensions messageState fragmentOption message := by
  obtain ⟨hcompressed, sentMessage, hsent, hfragments⟩ := h
  intro hlegally
  have hframes : wsSendMessage env message fragmentOption
      ⟨getExtensionPipeline extensions, messageState⟩ = some (messageFrames env fragmentOption
        sentMessage ⟨getExtensionPipeline extensions, messageState⟩) := by
    unfold wsSendMessage
    rw [hsent]
  obtain ⟨first, rest, hlegal, -, hrsv, -⟩ := (hlegally sentMessage _ hsent hframes).1.opcodes
  rcases messageFrames_cases env fragmentOption sentMessage
      ⟨getExtensionPipeline extensions, messageState⟩ with
    ⟨hnot, -⟩ | ⟨-, hpos, fragmentSize, hsize, hfragmented⟩
  · exact hnot hfragments
  -- the first fragment lacks the bit
  · obtain ⟨first', rest', hcut, hzero⟩ := fragmentedFrames_first hsize hpos
      ⟨getExtensionPipeline extensions, messageState⟩
    rw [hfragmented, hcut] at hlegal
    cases hlegal
    rw [hzero, hcompressed] at hrsv
    revert hrsv
    decide

/-- **When the frames of a message are legal**, and taken for what they are by a listener with the
same extensions. -/
theorem sendsLegally_iff (env : SendEnv) (extensions : List WSExtension)
    (messageState : Option ExtensionMessageReceiveState) (fragmentOption : WsFragmentOption)
    (message : WebSocketMessage) :
    SendsLegally env extensions messageState fragmentOption message ↔
      ¬ CompressedInFragments env extensions messageState fragmentOption message := by
  constructor
  · intro hlegally hfragments
    exact not_sendsLegally hfragments hlegally
  · intro h sentMessage frames hsent hframes
    have hlegal : LegalFrames frames message.isText sentMessage.buffer.bytes
        (compressesReply extensions messageState) := by
      unfold wsSendMessage at hframes
      rw [hsent] at hframes
      cases hframes
      rw [← processInitialMessage_isText hsent]
      rcases messageFrames_cases env fragmentOption sentMessage
          ⟨getExtensionPipeline extensions, messageState⟩ with
        ⟨-, hnormal⟩ | ⟨hfragments, hpos, fragmentSize, hsize, hfragmented⟩
      · rw [hnormal]
        exact normalFrame_legal extensions messageState sentMessage
      · rw [hfragmented]
        cases hcompressed : compressesReply extensions messageState with
        | true => exact absurd ⟨hcompressed, sentMessage, hsent, hfragments⟩ h
        | false => exact fragmentedFrames_plain hsize hpos hcompressed
    refine ⟨hlegal, ?_⟩
    intro A listener application hpipeline
    exact legalFrames_accepted hlegal compressesReply_extensions listener application hpipeline

/-- The sixteen letters from `a` to `p` as zlib compresses them. -/
def deflatedLetters : Bytes :=
  [0x4a, 0x4c, 0x4a, 0x4e, 0x49, 0x4d, 0x4b, 0xcf, 0xc8, 0xcc, 0xca, 0xce, 0xc9, 0xcd, 0xcb,
   0x2f, 0x0, 0x0, 0x0, 0x0, 0xff, 0xff, 0x3, 0x0]

/-- A connection on which these letters can be compressed. -/
def lettersEnv : SendEnv where
  zlib :=
    { compress buffer _ :=
        if buffer.data = some (ascii "abcdefghijklmnop") then ⟨some deflatedLetters, by decide⟩
        else getEmptySizedBuffer
      decompress _ _ := none }
  sndbuf := none

/-- The reply with these letters to a compressed message, in fragments of 16 bytes, does not say
that it is compressed. -/
theorem compressedFragments_illegal :
    ¬ SendsLegally lettersEnv [.perMessageDeflate ⟨⟨true, 15⟩, ⟨true, 15⟩⟩] (some ⟨true⟩) (.set 16)
      ⟨true, ⟨some (ascii "abcdefghijklmnop"), by decide⟩⟩ := by
  have hsent : extensionSendPipelineProcessInitialMessage lettersEnv.zlib
      ⟨getExtensionPipeline [.perMessageDeflate ⟨⟨true, 15⟩, ⟨true, 15⟩⟩], some ⟨true⟩⟩
      ⟨true, ⟨some (ascii "abcdefghijklmnop"), by decide⟩⟩ =
        .ok ⟨true, ⟨some deflatedLetters, by decide⟩⟩ := rfl
  have hreached : max wsMinimumFragmentSize 16 ≤ deflatedLetters.length := by decide
  exact not_sendsLegally ⟨rfl, _, hsent, hreached⟩

end SimpleServer.Ws
