import SimpleServer.Proof.IllegalFrames
import SimpleServer.Proof.WsCodec
import SimpleServer.Proof.WsFragments
import SimpleServer.Proof.WsMessages
import SimpleServer.Ws.Handler

/-!
# Frames of messages on a connection

Messages come in frames, with PING and PONG frames between them, and go through the extensions.

* `Traffic`: the frames of messages with control frames between them.
* `added_data`: a frame of a message is added to the ones before it, and the last one completes it.
* `connectionRound_frame`: **a round takes one frame** from the bytes, however they are cut.
* `Ongoing.round`: what a round does in the middle of some traffic.
-/

namespace SimpleServer.Ws

open SimpleServer.Utils

/-! ## What is asked -/

/-- A message on its way. -/
structure Transmission where
  frames : List WebSocketRawMessage
  isText : Bool
  compressed : Bool
  /-- The bytes in the frames. -/
  carried : Bytes
  /-- The bytes for the application. -/
  buffer : Bytes

def Transmission.message (transmission : Transmission) : ReceivedMessage :=
  ⟨transmission.isText, transmission.buffer⟩

/-- The frames are a message that the extensions of a listener make the bytes for the application
of. -/
structure Transmission.Arrives (transmission : Transmission) (zlib : Zlib)
    (extensions : List WSExtension) : Prop where
  legal : LegalFrames transmission.frames transmission.isText transmission.carried
    transmission.compressed
  known : transmission.compressed = true → extensions ≠ []
  finished : ∀ state, isCompressed state = transmission.compressed →
    extensionReceivePipelineProcessFinishedMessage zlib (getExtensionPipeline extensions) state
      ⟨transmission.isText, transmission.carried⟩ = .ok transmission.message
  utf8 : transmission.isText = true → ValidUtf8 transmission.buffer

/-- A PING or a PONG as it is allowed. -/
structure Heartbeat (frame : WebSocketRawMessage) : Prop where
  opCode : frame.opCode = wsOpcodePing ∨ frame.opCode = wsOpcodePong
  fin : frame.fin = true
  rsvBytes : frame.rsvBytes = 0
  size : frame.payload.size ≤ maxControlFramePayload

/-- The frames of messages, in order, with control frames anywhere between them. -/
structure Traffic (frames : List WebSocketRawMessage) (messages : List Transmission) : Prop where
  data : frames.filter isData = (messages.map Transmission.frames).flatten
  control : ∀ frame ∈ frames, isData frame = false → Heartbeat frame

/-! ## One frame -/

/-- A frame as it was read. -/
structure ReadAs (frame read : WebSocketRawMessage) : Prop where
  fin : read.fin = frame.fin
  opCode : read.opCode = frame.opCode
  rsvBytes : read.rsvBytes = frame.rsvBytes
  bytes : read.payload.bytes = frame.payload.bytes

section Step

variable {A : Type} {env : ListenerEnv A} {state : ListenerState A}
  {frame read : WebSocketRawMessage} {data : List WebSocketRawMessage}
  {messages : List Transmission} {extensions : List WSExtension}

theorem ReadAs.isData (h : ReadAs frame read) : isData read = isData frame := by
  unfold Ws.isData
  rw [h.opCode]

theorem ReadAs.heartbeat (h : ReadAs frame read) (hframe : Heartbeat frame) : Heartbeat read where
  opCode := by rw [h.opCode]; exact hframe.opCode
  fin := h.fin.trans hframe.fin
  rsvBytes := h.rsvBytes.trans hframe.rsvBytes
  size := by
    have hsize : read.payload.size = frame.payload.size := congrArg List.length h.bytes
    rw [hsize]
    exact hframe.size

/-- The answer to a PING. -/
def pongOf (frame : WebSocketRawMessage) : WebSocketRawMessage :=
  ⟨true, wsOpcodePong, frame.payload, frame.rsvBytes⟩

/-- A PING is answered, a PONG is not. -/
theorem listenerStep_heartbeat (hrunning : state.running = true) (h : Heartbeat frame) :
    listenerStep env state ⟨.ok frame, true⟩ =
      (state, if frame.opCode = wsOpcodePing then [.sent (pongOf frame)] else []) := by
  have hclose : frame.opCode ≠ wsOpcodeClose := by
    rcases h.opCode with hop | hop
    · rw [hop]
      decide
    · rw [hop]
      decide
  have hpong : sendRaw (pongOf frame) = [.sent (pongOf frame)] := sendRaw_sent rfl h.size
  unfold listenerStep
  rw [if_neg (by simp [hrunning])]
  dsimp only
  rw [checkControlFrame_legal env.utf8 hclose h.fin h.size]
  dsimp only
  unfold handleFrame
  rcases h.opCode with hop | hop
  · rw [if_neg (by rw [hop]; decide), if_neg (by rw [hop]; decide), if_neg hclose, if_pos hop,
      if_pos hop]
    dsimp only
    rw [if_pos rfl]
    exact congrArg (Prod.mk state) hpong
  · rw [if_neg (by rw [hop]; decide), if_neg (by rw [hop]; decide), if_neg hclose,
      if_neg (by rw [hop]; decide), if_pos hop, if_neg (by rw [hop]; decide)]

/-- What the listener has of a message, and the data frames and the messages that come. -/
inductive Awaits (extensions : List WSExtension) :
    Receiving → List WebSocketRawMessage → List Transmission → Prop
  | between (messages : List Transmission) :
    Awaits extensions (startReceiving (getExtensionPipeline extensions))
      (messages.map Transmission.frames).flatten messages
  | inside (transmission : Transmission) (messages : List Transmission) (receiving : Receiving)
      (front rest : List WebSocketRawMessage)
      (hframes : transmission.frames = front ++ rest) (hfront : front ≠ []) (hrest : rest ≠ [])
      (hmessage : receiving.hasMessage = true)
      (hcurrent : receiving.currentMessage =
        ⟨transmission.isText, (front.map fun frame => frame.payload.bytes).flatten⟩)
      (hcompressed : isCompressed receiving.messageReceiveState = transmission.compressed) :
    Awaits extensions receiving (rest ++ (messages.map Transmission.frames).flatten)
      (transmission :: messages)

/-- The next data frame is one of a message. -/
theorem Awaits.exists_transmission {receiving : Receiving}
    (h : Awaits extensions receiving (frame :: data) messages) :
    ∃ transmission ∈ messages, frame ∈ transmission.frames := by
  generalize hall : frame :: data = all at h
  have hmem : frame ∈ all := by
    rw [← hall]
    exact List.mem_cons_self ..
  cases h with
  | between messages =>
    obtain ⟨frames, hframes, hframe⟩ := List.mem_flatten.1 hmem
    obtain ⟨transmission, htransmission, rfl⟩ := List.mem_map.1 hframes
    exact ⟨transmission, htransmission, hframe⟩
  | inside transmission messages receiving front rest hframes hfront hrest =>
    obtain ⟨next, others, rfl⟩ := List.exists_cons_of_ne_nil hrest
    rw [List.cons_append] at hall
    cases hall
    refine ⟨transmission, List.mem_cons_self .., ?_⟩
    rw [hframes]
    simp

/-- A frame of a message was added to the ones before it. -/
inductive Added (env : ListenerEnv A) (extensions : List WSExtension) (state : ListenerState A)
    (read : WebSocketRawMessage) (data : List WebSocketRawMessage) (messages : List Transmission) :
    Prop
  | more (receiving : Receiving)
      (hstep : listenerStep env state ⟨.ok read, true⟩ =
        ({ state with receiving := receiving }, []))
      (hawaits : Awaits extensions receiving data messages)
  | last (transmission : Transmission) (rest : List Transmission) (receiving : Receiving)
      (fragmented : Bool) (hmessages : messages = transmission :: rest)
      (hstep : listenerStep env state ⟨.ok read, true⟩ =
        completeMessage env state receiving fragmented)
      (hcurrent : receiving.currentMessage = ⟨transmission.isText, transmission.carried⟩)
      (hcompressed : isCompressed receiving.messageReceiveState = transmission.compressed)
      (hdata : data = (rest.map Transmission.frames).flatten)

/-- Only the last frame of a message ends it. -/
theorem LegalFrames.fin_iff {frames rest : List WebSocketRawMessage} {isText : Bool}
    {bytes : Bytes} {compressed : Bool} (h : LegalFrames frames isText bytes compressed)
    (front : List WebSocketRawMessage) (hframes : frames = front ++ frame :: rest) :
    frame.fin = true ↔ rest = [] := by
  obtain ⟨before, last, hlast, hfin, hbefore⟩ := h.fins
  rw [hframes] at hlast
  rcases List.eq_nil_or_concat rest with rfl | ⟨middle, end_, rfl⟩
  · obtain ⟨-, hsame⟩ := List.append_inj' hlast rfl
    cases hsame
    exact iff_of_true hfin rfl
  · have hsplit : (front ++ frame :: middle) ++ [end_] = before ++ [last] := by
      rw [← hlast, List.append_assoc, List.cons_append, List.concat_eq_append]
    obtain ⟨hfront, -⟩ := List.append_inj' hsplit rfl
    have hopen := hbefore frame (by rw [← hfront]; simp)
    rw [hopen]
    simp

/-- The first frame of a message. -/
theorem added_first {transmission : Transmission} {rest : List WebSocketRawMessage}
    (hpipeline : env.pipeline = getExtensionPipeline extensions)
    (hrunning : state.running = true)
    (hreceiving : state.receiving = startReceiving (getExtensionPipeline extensions))
    (harrives : transmission.Arrives env.zlib extensions)
    (hframes : transmission.frames = frame :: rest) (hread : ReadAs frame read) :
    Added env extensions state read (rest ++ (messages.map Transmission.frames).flatten)
      (transmission :: messages) := by
  obtain ⟨first, others, hfirst, hop, hrsv, -⟩ := harrives.legal.opcodes
  rw [hframes] at hfirst
  cases hfirst
  have hmessage : state.receiving.hasMessage = false := by rw [hreceiving]; rfl
  have hstep := @listenerStep_first A env state read transmission.isText hrunning hmessage
    (hread.opCode.trans hop)
  have hcompressed := startMessage_compressed harrives.known (hread.rsvBytes.trans hrsv)
  have hfin := harrives.legal.fin_iff [] hframes
  have hpayload : [frame].map (fun frame => frame.payload.bytes) = [read.payload.bytes] := by
    rw [hread.bytes]
    rfl
  rw [hreceiving] at hstep
  rw [hread.fin] at hstep
  by_cases hlast : rest = []
  · have hcarried : read.payload.bytes = transmission.carried := by
      rw [← harrives.legal.payloads, hframes, hlast, hpayload]
      simp
    rw [if_pos (hfin.2 hlast)] at hstep
    refine .last transmission messages _ _ rfl hstep ?_ ?_ (by rw [hlast, List.nil_append])
    · unfold startedBy
      rw [hcarried]
    · rw [hpipeline]
      exact hcompressed
  · rw [if_neg (mt hfin.1 hlast)] at hstep
    refine .more _ hstep (.inside transmission messages _ [frame] rest hframes (by simp) hlast rfl
      ?_ ?_)
    · rw [hpayload]
      simp [startedBy]
    · rw [hpipeline]
      exact hcompressed

/-- A frame that continues a message. -/
theorem added_cont {transmission : Transmission} {front rest : List WebSocketRawMessage}
    (hrunning : state.running = true) (hmessage : state.receiving.hasMessage = true)
    (hcurrent : state.receiving.currentMessage =
      ⟨transmission.isText, (front.map fun frame => frame.payload.bytes).flatten⟩)
    (hcompressed : isCompressed state.receiving.messageReceiveState = transmission.compressed)
    (harrives : transmission.Arrives env.zlib extensions)
    (hframes : transmission.frames = front ++ frame :: rest) (hfront : front ≠ [])
    (hread : ReadAs frame read) :
    Added env extensions state read (rest ++ (messages.map Transmission.frames).flatten)
      (transmission :: messages) := by
  obtain ⟨first, others, hfirst, -, -, hothers⟩ := harrives.legal.opcodes
  have hmem : frame ∈ others := by
    obtain ⟨head, tail, rfl⟩ := List.exists_cons_of_ne_nil hfront
    rw [hframes, List.cons_append] at hfirst
    cases hfirst
    simp
  obtain ⟨hop, hrsv⟩ := hothers frame hmem
  have hstep := @listenerStep_cont A env state read hrunning hmessage (hread.opCode.trans hop)
    (hread.rsvBytes.trans hrsv)
  have hfin := harrives.legal.fin_iff front hframes
  have hpayload : state.receiving.currentMessage.buffer ++ read.payload.bytes =
      ((front ++ [frame]).map fun frame => frame.payload.bytes).flatten := by
    rw [hcurrent, hread.bytes]
    simp
  rw [hread.fin] at hstep
  by_cases hlast : rest = []
  · have hcarried : ((front ++ [frame]).map fun frame => frame.payload.bytes).flatten =
        transmission.carried := by
      rw [← harrives.legal.payloads, hframes, hlast]
    rw [if_pos (hfin.2 hlast)] at hstep
    refine .last transmission messages _ _ rfl hstep ?_ hcompressed
      (by rw [hlast, List.nil_append])
    unfold Receiving.append
    dsimp only
    rw [hpayload, hcarried, hcurrent]
  · rw [if_neg (mt hfin.1 hlast)] at hstep
    refine .more _ hstep (.inside transmission messages _ (front ++ [frame]) rest
      (by rw [hframes, List.append_assoc]; rfl) (by simp) hlast hmessage ?_ hcompressed)
    unfold Receiving.append
    dsimp only
    rw [hpayload, hcurrent]

/-- The next data frame of some traffic. -/
theorem added_data (hpipeline : env.pipeline = getExtensionPipeline extensions)
    (hrunning : state.running = true)
    (h : Awaits extensions state.receiving (frame :: data) messages)
    (harrives : ∀ transmission ∈ messages, transmission.Arrives env.zlib extensions)
    (hread : ReadAs frame read) : Added env extensions state read data messages := by
  generalize hall : frame :: data = all at h
  generalize hreceiving : state.receiving = receiving at h
  cases h with
  | between messages =>
    cases messages with
    | nil => cases hall
    | cons transmission messages =>
      have hfirst := harrives transmission (List.mem_cons_self ..)
      obtain ⟨first, rest, hframes, -⟩ := hfirst.legal.opcodes
      rw [List.map_cons, List.flatten_cons, hframes, List.cons_append] at hall
      cases hall
      exact added_first hpipeline hrunning hreceiving hfirst hframes hread
  | inside transmission messages receiving front rest hframes hfront hrest hmessage hcurrent
      hcompressed =>
    obtain ⟨next, others, rfl⟩ := List.exists_cons_of_ne_nil hrest
    rw [List.cons_append] at hall
    cases hall
    subst hreceiving
    exact added_cont hrunning hmessage hcurrent hcompressed
      (harrives transmission (List.mem_cons_self ..)) hframes hfront hread

/-- A message that is complete goes to the function of the connection. -/
theorem completeMessage_arrived {transmission : Transmission} {receiving : Receiving}
    (harrives : transmission.Arrives env.zlib extensions)
    (hpipeline : env.pipeline = getExtensionPipeline extensions)
    (hcurrent : receiving.currentMessage = ⟨transmission.isText, transmission.carried⟩)
    (hcompressed : isCompressed receiving.messageReceiveState = transmission.compressed)
    (fragmented : Bool) :
    completeMessage env state receiving fragmented =
      handleMessage env state receiving transmission.message := by
  have hfinished := harrives.finished receiving.messageReceiveState hcompressed
  have hfinish : finishMessage env.zlib env.utf8 env.pipeline receiving fragmented =
      .ok transmission.message := by
    unfold finishMessage
    rw [hpipeline, hcurrent, hfinished]
    dsimp only
    by_cases htext : transmission.isText = true
    · obtain ⟨size, hsize⟩ := (env.utf8.ok_iff transmission.buffer).2 (harrives.utf8 htext)
      have hstring : getUtf8String env.utf8 transmission.message.buffer = .ok size := hsize
      rw [if_pos (show transmission.message.isText = true from htext), hstring]
    · rw [if_neg (show ¬ transmission.message.isText = true from htext)]
  unfold completeMessage
  rw [hfinish]

theorem handleMessage_goesOn {receiving : Receiving} {message : ReceivedMessage}
    (h : (env.function state.application message
      ⟨env.pipeline, receiving.messageReceiveState⟩).2 = .continue) :
    handleMessage env state receiving message =
      ({ state with
          application := (env.function state.application message
            ⟨env.pipeline, receiving.messageReceiveState⟩).1
          receiving := startReceiving env.pipeline }, [.delivered message]) := by
  unfold handleMessage
  dsimp only
  rw [h]

end Step

/-! ## One round -/

section Round

variable {A : Type} {env : ListenerEnv A} {extensions : List WSExtension}
  {connection : ListenerConnection A} {frame : WebSocketRawMessage} {mask : Option UInt32}
  {frames : List (WebSocketRawMessage × Option UInt32)} {messages : List Transmission}
  {rest : Bytes}

/-- A frame that is sent, and read with these extensions. -/
structure Readable (extensions : List WSExtension) (frame : WebSocketRawMessage) : Prop where
  opCode : frame.opCode < 16
  rsvBytes : RsvAllowed extensions frame.rsvBytes
  sent : ¬ badControlFrame frame

theorem Heartbeat.readable (h : Heartbeat frame) (extensions : List WSExtension) :
    Readable extensions frame where
  opCode := by
    rcases h.opCode with hop | hop
    · rw [hop]
      decide
    · rw [hop]
      decide
  rsvBytes := .inl h.rsvBytes
  sent := by
    rintro ⟨-, hfin | hsize⟩
    · rw [h.fin] at hfin
      cases hfin
    · exact absurd h.size (not_le.2 hsize)

/-- The frames of a message that arrives. -/
theorem Transmission.Arrives.readable {transmission : Transmission} {zlib : Zlib}
    (h : transmission.Arrives zlib extensions) (hframe : frame ∈ transmission.frames) :
    Readable extensions frame := by
  obtain ⟨first, others, hframes, hop, hrsv, hothers⟩ := h.legal.opcodes
  have hdata : ∀ frame : WebSocketRawMessage,
      (frame.opCode = wsOpcodeCont ∨ frame.opCode = startOpcode transmission.isText) →
      frame.opCode < 16 ∧ ¬ badControlFrame frame := by
    intro frame hop
    have hcontrol : frame.opCode < 16 ∧ isControlOpCode frame.opCode = false := by
      rcases hop with hop | hop
      · rw [hop]
        decide
      · rw [hop]
        cases transmission.isText with
        | true => decide
        | false => decide
    refine ⟨hcontrol.1, ?_⟩
    rintro ⟨hbad, -⟩
    rw [hcontrol.2] at hbad
    cases hbad
  rw [hframes] at hframe
  rcases List.mem_cons.1 hframe with rfl | hmem
  · obtain ⟨hlt, hsent⟩ := hdata frame (.inr hop)
    refine ⟨hlt, ?_, hsent⟩
    cases hcompressed : transmission.compressed with
    | true =>
      rw [hcompressed, if_pos rfl] at hrsv
      exact .inr ⟨hrsv, h.known hcompressed⟩
    | false =>
      rw [hcompressed, if_neg Bool.false_ne_true] at hrsv
      exact .inl hrsv
  · obtain ⟨hop, hrsv⟩ := hothers frame hmem
    obtain ⟨hlt, hsent⟩ := hdata frame (.inl hop)
    exact ⟨hlt, .inl hrsv, hsent⟩

/-- What is not consumed stays when old data is dropped. -/
theorem invalidateOldData_ready {reader : BufferedReader} (h : reader.Ready) (granted : Bool) :
    (bufferedReaderInvalidateOldData reader granted).Ready ∧
      (bufferedReaderInvalidateOldData reader granted).unread = reader.unread := by
  unfold bufferedReaderInvalidateOldData
  rw [isSafeToRead_eq h.state h.cursor]
  dsimp only
  rw [getAvailableDataLength_ready h]
  cases hleft : reader.data.buffer.length - reader.data.cursor with
  | zero =>
    have hnil : reader.data.buffer.drop reader.data.cursor = [] :=
      List.drop_of_length_le (by omega)
    refine ⟨⟨h.state, Nat.le_refl 0⟩, ?_⟩
    unfold BufferedReader.unread
    rw [hnil]
    rfl
  | succ n =>
    cases granted with
    | true => exact ⟨⟨h.state, Nat.zero_le _⟩, rfl⟩
    | false => exact ⟨h, rfl⟩

/-- **A round takes one frame.** -/
theorem connectionRound_frame (hpipeline : env.pipeline = getExtensionPipeline extensions)
    (hrunning : connection.listener.running = true) (hready : connection.reader.Ready)
    (hframe : Readable extensions frame)
    (hunread : connection.reader.unread = wireBytes ((frame, mask) :: frames) ++ rest)
    (granted : Bool) :
    ∃ read reader, ReadAs frame read ∧ reader.Ready ∧ reader.unread = wireBytes frames ++ rest ∧
      connectionRound env connection (true, granted) =
        (⟨(listenerStep env connection.listener ⟨.ok read, true⟩).1, reader⟩,
          (listenerStep env connection.listener ⟨.ok read, true⟩).2) := by
  have hallowed : frame.rsvBytes ||| env.pipeline.settings.allowedRsvBytes =
      env.pipeline.settings.allowedRsvBytes := by
    rw [hpipeline, allowedRsvBytes_eq]
    rcases hframe.rsvBytes with hzero | ⟨hcompressed, hextensions⟩
    · rw [hzero, UInt8.zero_or]
    · rw [if_neg hextensions, hcompressed]
      decide
  have hrsv : frame.rsvBytes < 8 := by
    rcases hframe.rsvBytes with hzero | ⟨hcompressed, -⟩
    · rw [hzero]
      decide
    · rw [hcompressed]
      decide
  rcases wsSendMessageRawInternal_cases frame mask.isSome (mask.getD 0) with
    ⟨hbad, -⟩ | ⟨-, hsent⟩
  · exact absurd hbad hframe.sent
  have hfirst : connection.reader.unread = resultingFrame frame mask.isSome (mask.getD 0)
      (List.replicate (frameSize frame.payload.size mask.isSome) 0) ++
        (wireBytes frames ++ rest) := by
    rw [hunread, wireBytes, List.flatMap_cons, hsent, Option.getD_some, List.append_assoc]
    rfl
  obtain ⟨reader, read, hread, hfin, hop, hrsv', hbytes, hready', hrest⟩ :=
    readRawMessage_resultingFrame hframe.opCode hrsv hallowed mask.isSome (mask.getD 0) hready
      hfirst
  obtain ⟨hready'', hunread''⟩ := invalidateOldData_ready hready' granted
  refine ⟨read, bufferedReaderInvalidateOldData reader granted, ⟨hfin, hop, hrsv', hbytes⟩,
    hready'', hunread''.trans hrest, ?_⟩
  unfold connectionRound
  rw [if_neg (by simp [hrunning]), hread]

/-- A connection in the middle of some traffic. -/
structure Ongoing (env : ListenerEnv A) (extensions : List WSExtension)
    (connection : ListenerConnection A) (frames : List (WebSocketRawMessage × Option UInt32))
    (messages : List Transmission) (rest : Bytes) : Prop where
  running : connection.listener.running = true
  ready : connection.reader.Ready
  unread : connection.reader.unread = wireBytes frames ++ rest
  awaits : Awaits extensions connection.listener.receiving
    ((frames.map Prod.fst).filter isData) messages
  control : ∀ frame ∈ frames.map Prod.fst, isData frame = false → Heartbeat frame
  arrives : ∀ transmission ∈ messages, transmission.Arrives env.zlib extensions

/-- What the next round does. -/
inductive Taken (env : ListenerEnv A) (extensions : List WSExtension)
    (connection : ListenerConnection A) (frame : WebSocketRawMessage)
    (frames : List (WebSocketRawMessage × Option UInt32)) (messages : List Transmission)
    (rest : Bytes) (round : ListenerConnection A × List ListenerOutput) : Prop
  | heartbeat (read : WebSocketRawMessage) (hframe : Heartbeat frame) (hread : ReadAs frame read)
      (hsame : round.1.listener.application = connection.listener.application)
      (houtputs : round.2 = if frame.opCode = wsOpcodePing then [.sent (pongOf read)] else [])
      (hongoing : Ongoing env extensions round.1 frames messages rest)
  | part (hframe : isData frame = true)
      (hsame : round.1.listener.application = connection.listener.application)
      (houtputs : round.2 = [])
      (hongoing : Ongoing env extensions round.1 frames messages rest)
  | message (transmission : Transmission) (others : List Transmission)
      (messageState : Option ExtensionMessageReceiveState) (hframe : isData frame = true)
      (hmessages : messages = transmission :: others)
      (hcompressed : isCompressed messageState = transmission.compressed)
      (happlication : round.1.listener.application =
        (env.function connection.listener.application transmission.message
          ⟨getExtensionPipeline extensions, messageState⟩).1)
      (houtputs : round.2 = [.delivered transmission.message])
      (hongoing : Ongoing env extensions round.1 frames others rest)

/-- The function of the connection goes on after a message. -/
def GoesOnAfter (env : ListenerEnv A) (extensions : List WSExtension)
    (transmission : Transmission) : Prop :=
  ∀ application messageState, isCompressed messageState = transmission.compressed →
    (env.function application transmission.message
      ⟨getExtensionPipeline extensions, messageState⟩).2 = .continue

/-- **The next round**: what it takes and what it does. -/
theorem Ongoing.round (hpipeline : env.pipeline = getExtensionPipeline extensions)
    (h : Ongoing env extensions connection ((frame, mask) :: frames) messages rest)
    (hgoesOn : ∀ transmission ∈ messages, GoesOnAfter env extensions transmission)
    (granted : Bool) :
    Taken env extensions connection frame frames messages rest
      (connectionRound env connection (true, granted)) := by
  have hcontrol : ∀ frame ∈ frames.map Prod.fst, isData frame = false → Heartbeat frame :=
    fun frame hmem => h.control frame (List.mem_cons_of_mem _ hmem)
  have hawaits := h.awaits
  rw [List.map_cons] at hawaits
  by_cases hdata : isData frame = true
  · rw [List.filter_cons_of_pos hdata] at hawaits
    have hreadable : Readable extensions frame := by
      obtain ⟨transmission, hmem, hframe⟩ := hawaits.exists_transmission
      exact (h.arrives transmission hmem).readable hframe
    obtain ⟨read, reader, hread, hready, hunread, hround⟩ :=
      connectionRound_frame hpipeline h.running h.ready hreadable h.unread granted
    rw [hround]
    cases added_data hpipeline h.running hawaits h.arrives hread with
    | more receiving hstep hmore =>
      rw [hstep]
      exact .part hdata rfl rfl
        { running := h.running, ready := hready, unread := hunread, awaits := hmore,
          control := hcontrol, arrives := h.arrives }
    | last transmission others receiving fragmented hmessages hstep hcurrent hcompressed hleft =>
      have hmem : transmission ∈ messages := by
        rw [hmessages]
        exact List.mem_cons_self ..
      have haction := hgoesOn transmission hmem connection.listener.application
        receiving.messageReceiveState hcompressed
      rw [← hpipeline] at haction
      rw [hstep, completeMessage_arrived (h.arrives transmission hmem) hpipeline hcurrent
        hcompressed, handleMessage_goesOn haction, hpipeline]
      refine .message transmission others receiving.messageReceiveState hdata hmessages
        hcompressed rfl rfl
        { running := h.running, ready := hready, unread := hunread, awaits := ?_,
          control := hcontrol, arrives := fun other hother => h.arrives other ?_ }
      · rw [hleft]
        exact .between others
      · rw [hmessages]
        exact List.mem_cons_of_mem _ hother
  · rw [List.filter_cons_of_neg hdata] at hawaits
    have hheartbeat := h.control frame (List.mem_cons_self ..) (by simpa using hdata)
    obtain ⟨read, reader, hread, hready, hunread, hround⟩ :=
      connectionRound_frame hpipeline h.running h.ready (hheartbeat.readable extensions) h.unread
        granted
    rw [hround, listenerStep_heartbeat h.running (hread.heartbeat hheartbeat), hread.opCode]
    exact .heartbeat read hheartbeat hread rfl rfl
      { running := h.running, ready := hready, unread := hunread, awaits := hawaits,
        control := hcontrol, arrives := h.arrives }

end Round

end SimpleServer.Ws
