import SimpleServer.Proof.WsTraffic

/-!
# Every message comes back

The server sends what it receives. A message goes through the extensions, the fragments, the masks
and the network, and all of this again on its way back.

* `receiveAll_sendAll`: the extensions, there and back.
* `Transmission.Arrives.reply`: the reply to a message arrives with the same message.
* `serverRun_traffic`: what the server sends for some traffic is traffic for the same messages.
* `echo_returns`: **the client gets back its messages**.
-/

namespace SimpleServer.Ws

open SimpleServer.Utils

/-! ## What is asked -/

/-- The payloads of the frames with an opcode. -/
def payloadsWith (opCode : WsOpcode) (frames : List WebSocketRawMessage) : List Bytes :=
  (frames.filter fun frame => frame.opCode = opCode).map fun frame => frame.payload.bytes

/-- What zlib compressed is decompressed, with the tail behind it. -/
def Zlib.Lawful (zlib : Zlib) : Prop :=
  ∀ buffer windowBits, (zlib.compress buffer windowBits).data ≠ none →
    zlib.decompress ((zlib.compress buffer windowBits).bytes ++ wsTrailerData) windowBits =
      some buffer.bytes

/-- A reply can be made of the message, and is not compressed and cut. -/
structure Transmission.Echoes (transmission : Transmission) (env : SendEnv)
    (args : WsConnectionArgs) : Prop where
  size : transmission.buffer.length < ptrdiffLimit
  compresses : transmission.compressed = true → ∀ messageState, isCompressed messageState = true →
    ∃ sent, extensionSendPipelineProcessInitialMessage env.zlib
      ⟨getExtensionPipeline args.extensions, messageState⟩ transmission.message.toSend = .ok sent
  notCut : transmission.compressed = true → ∀ messageState, isCompressed messageState = true →
    ¬ CompressedInFragments env args.extensions messageState args.fragmentOption
      transmission.message.toSend

/-! ## The way back -/

section Reply

variable {env : SendEnv} {args : WsConnectionArgs} {extensions : List WSExtension}
  {zlib : Zlib} {messageState : Option ExtensionMessageReceiveState}

/-- What one extension does to a message that is sent. -/
def sendThrough (zlib : Zlib) (messageState : Option ExtensionMessageReceiveState)
    (message : WebSocketMessage) : WSExtension → Except String WebSocketMessage
  | .perMessageDeflate options =>
    if !isCompressed messageState then .ok message else compressWsMessage zlib options message

/-- What one extension does to a message that is received. -/
def receiveThrough (zlib : Zlib) (messageState : Option ExtensionMessageReceiveState)
    (message : ReceivedMessage) : WSExtension → Except String ReceivedMessage
  | .perMessageDeflate options =>
    if !isCompressed messageState then .ok message else decompressWsMessage zlib options message

/-- One extension, there and back. -/
theorem receiveThrough_sendThrough (hzlib : zlib.Lawful) {message sent : WebSocketMessage}
    {receiveState : Option ExtensionMessageReceiveState}
    (hstates : isCompressed receiveState = isCompressed messageState) {extension : WSExtension}
    (h : sendThrough zlib messageState message extension = .ok sent) :
    receiveThrough zlib receiveState ⟨message.isText, sent.buffer.bytes⟩ extension.mirrored =
      .ok ⟨message.isText, message.buffer.bytes⟩ ∧ sent.isText = message.isText := by
  obtain ⟨options⟩ := extension
  unfold sendThrough at h
  unfold receiveThrough WSExtension.mirrored
  dsimp only at h ⊢
  rw [hstates]
  cases hcompressed : isCompressed messageState with
  | false =>
    rw [hcompressed, if_pos (by simp)] at h
    cases h
    rw [if_pos (by simp)]
    exact ⟨rfl, rfl⟩
  | true =>
    rw [hcompressed, if_neg (by simp)] at h
    rw [if_neg (by simp)]
    unfold compressWsMessage at h
    unfold decompressWsMessage
    dsimp only at h ⊢
    by_cases htakeover : (!options.server.noContextTakeover) = true
    · rw [if_pos htakeover] at h
      cases h
    · rw [if_neg htakeover] at h ⊢
      by_cases hnull :
          (zlib.compress message.buffer options.server.maxWindowBits).data.isNone = true
      · rw [if_pos hnull] at h
        cases h
      · rw [if_neg hnull] at h
        cases h
        have hlaw := hzlib message.buffer options.server.maxWindowBits (by simpa using hnull)
        dsimp only
        rw [hlaw]
        exact ⟨rfl, rfl⟩

/-- **All extensions, there and back**: they are run in reverse on the way back. -/
theorem receiveAll_sendAll (hzlib : zlib.Lawful)
    {receiveState : Option ExtensionMessageReceiveState}
    (hstates : isCompressed receiveState = isCompressed messageState)
    (extensions : List WSExtension) {message sent : WebSocketMessage}
    (h : extensions.foldlM (sendThrough zlib messageState) message = .ok sent) :
    (extensions.map WSExtension.mirrored).reverse.foldlM (receiveThrough zlib receiveState)
      ⟨message.isText, sent.buffer.bytes⟩ = .ok ⟨message.isText, message.buffer.bytes⟩ := by
  induction extensions generalizing message with
  | nil =>
    cases h
    rfl
  | cons extension extensions ih =>
    rw [List.foldlM_cons] at h
    cases hfirst : sendThrough zlib messageState message extension with
    | error error =>
      rw [hfirst] at h
      cases h
    | ok next =>
      rw [hfirst] at h
      obtain ⟨hback, htext⟩ := receiveThrough_sendThrough hzlib hstates hfirst
      have hrest := ih h
      rw [htext] at hrest
      rw [List.map_cons, List.reverse_cons, List.foldlM_append, hrest]
      change receiveThrough zlib receiveState _ _ >>= _ = _
      rw [hback]
      rfl

theorem processInitialMessage_eq (zlib : Zlib) (extensions : List WSExtension)
    (messageState : Option ExtensionMessageReceiveState) (message : WebSocketMessage) :
    extensionSendPipelineProcessInitialMessage zlib
        ⟨getExtensionPipeline extensions, messageState⟩ message =
      extensions.foldlM (sendThrough zlib messageState) message := by
  unfold extensionSendPipelineProcessInitialMessage
  dsimp only
  by_cases hnone : extensions = []
  · rw [if_pos ((activeExtensions_eq_zero extensions).2 hnone), hnone]
    rfl
  · rw [if_neg (mt (activeExtensions_eq_zero extensions).1 hnone)]
    rfl

theorem processFinishedMessage_eq (zlib : Zlib) (extensions : List WSExtension)
    (messageState : Option ExtensionMessageReceiveState) (message : ReceivedMessage) :
    extensionReceivePipelineProcessFinishedMessage zlib (getExtensionPipeline extensions)
        messageState message =
      extensions.reverse.foldlM (receiveThrough zlib messageState) message := by
  unfold extensionReceivePipelineProcessFinishedMessage
  by_cases hnone : extensions = []
  · rw [if_pos ((activeExtensions_eq_zero extensions).2 hnone), hnone]
    rfl
  · rw [if_neg (mt (activeExtensions_eq_zero extensions).1 hnone)]
    rfl

/-- A message that is not compressed is left alone. -/
theorem sendAll_plain (h : isCompressed messageState = false) (extensions : List WSExtension)
    (message : WebSocketMessage) :
    extensions.foldlM (sendThrough zlib messageState) message = .ok message := by
  induction extensions with
  | nil => rfl
  | cons extension extensions ih =>
    have hfirst : sendThrough zlib messageState message extension = .ok message := by
      obtain ⟨options⟩ := extension
      unfold sendThrough
      dsimp only
      rw [h, if_pos (by simp)]
    rw [List.foldlM_cons, hfirst]
    exact ih

/-- The frames of a message that is not compressed and cut. -/
theorem messageFrames_legal {fragmentOption : WsFragmentOption} {sent : WebSocketMessage}
    (h : compressesReply extensions messageState = true →
      ¬ Fragments env fragmentOption sent.buffer.size) :
    LegalFrames (messageFrames env fragmentOption sent
      ⟨getExtensionPipeline extensions, messageState⟩) sent.isText sent.buffer.bytes
        (compressesReply extensions messageState) := by
  rcases messageFrames_cases env fragmentOption sent
      ⟨getExtensionPipeline extensions, messageState⟩ with
    ⟨-, hnormal⟩ | ⟨hfragments, hpos, fragmentSize, hsize, hfragmented⟩
  · rw [hnormal]
    exact normalFrame_legal extensions messageState sent
  · rw [hfragmented]
    cases hcompressed : compressesReply extensions messageState with
    | true => exact absurd hfragments (h hcompressed)
    | false => exact fragmentedFrames_plain hsize hpos hcompressed

/-- **The reply** to a message arrives with the same message. -/
theorem Transmission.Arrives.reply {transmission : Transmission} (hzlib : env.zlib.Lawful)
    (harrives : transmission.Arrives env.zlib args.extensions)
    (hechoes : transmission.Echoes env args)
    (hstate : isCompressed messageState = transmission.compressed) :
    ∃ reply : Transmission, reply.message = transmission.message ∧
      reply.Arrives env.zlib (args.extensions.map WSExtension.mirrored) ∧
      wsSendMessage env transmission.message.toSend args.fragmentOption
        ⟨getExtensionPipeline args.extensions, messageState⟩ = some reply.frames := by
  have hbytes : transmission.message.toSend.buffer.bytes = transmission.buffer :=
    allocateFromReadonlyBuffer_bytes hechoes.size
  have hcompresses : compressesReply args.extensions messageState = transmission.compressed := by
    unfold compressesReply
    rw [hstate]
    cases hcompressed : transmission.compressed with
    | true => simpa using harrives.known hcompressed
    | false => rw [Bool.and_false]
  obtain ⟨sent, hsent, hcut⟩ : ∃ sent, extensionSendPipelineProcessInitialMessage env.zlib
      ⟨getExtensionPipeline args.extensions, messageState⟩ transmission.message.toSend = .ok sent ∧
        (compressesReply args.extensions messageState = true →
          ¬ Fragments env args.fragmentOption sent.buffer.size) := by
    cases hcompressed : transmission.compressed with
    | true =>
      rw [hcompressed] at hstate
      obtain ⟨sent, hsent⟩ := hechoes.compresses hcompressed messageState hstate
      refine ⟨sent, hsent, fun hreply hfragments => ?_⟩
      exact hechoes.notCut hcompressed messageState hstate ⟨hreply, sent, hsent, hfragments⟩
    | false =>
      rw [hcompressed] at hstate hcompresses
      refine ⟨transmission.message.toSend, ?_, fun hreply => ?_⟩
      · rw [processInitialMessage_eq]
        exact sendAll_plain hstate _ _
      · rw [hcompresses] at hreply
        cases hreply
  have hlegal := messageFrames_legal hcut
  rw [processInitialMessage_isText hsent, hcompresses] at hlegal
  refine ⟨⟨messageFrames env args.fragmentOption sent
    ⟨getExtensionPipeline args.extensions, messageState⟩, transmission.isText,
    transmission.compressed, sent.buffer.bytes, transmission.buffer⟩, rfl, ?_, ?_⟩
  · refine { legal := hlegal, known := ?_, finished := ?_, utf8 := harrives.utf8 }
    · intro hcompressed
      simpa using harrives.known hcompressed
    · intro state hreceived
      rw [processInitialMessage_eq] at hsent
      have hback := receiveAll_sendAll hzlib (hreceived.trans hstate.symm) args.extensions hsent
      rw [hbytes] at hback
      rw [processFinishedMessage_eq]
      exact hback
  · unfold wsSendMessage
    rw [hsent]

end Reply

/-! ## Runs -/

section Runs

variable {env : SendEnv} {args : WsConnectionArgs} {utf8 : Utf8proc} {zlib : Zlib}
  {frames more : List WebSocketRawMessage} {messages others : List Transmission} {rest : Bytes}

theorem Traffic.append (h : Traffic frames messages) (hmore : Traffic more others) :
    Traffic (frames ++ more) (messages ++ others) where
  data := by
    rw [List.filter_append, h.data, hmore.data, List.map_append, List.flatten_append]
  control := fun frame hmem => by
    rcases List.mem_append.1 hmem with hmem | hmem
    · exact h.control frame hmem
    · exact hmore.control frame hmem

theorem payloadsWith_append (opCode : WsOpcode) (frames more : List WebSocketRawMessage) :
    payloadsWith opCode (frames ++ more) =
      payloadsWith opCode frames ++ payloadsWith opCode more := by
  unfold payloadsWith
  rw [List.filter_append, List.map_append]

/-- The frames of a message carry parts of it. -/
theorem LegalFrames.isData {isText : Bool} {bytes : Bytes} {compressed : Bool}
    (h : LegalFrames frames isText bytes compressed) : ∀ frame ∈ frames, isData frame = true := by
  obtain ⟨first, others, rfl, hop, -, hothers⟩ := h.opcodes
  intro frame hmem
  rw [isData_iff]
  rcases List.mem_cons.1 hmem with rfl | hmem
  · rw [hop]
    cases isText with
    | true => exact .inr (.inl rfl)
    | false => exact .inr (.inr rfl)
  · exact .inl (hothers frame hmem).1

theorem traffic_message {transmission : Transmission} {extensions : List WSExtension}
    (h : transmission.Arrives zlib extensions) : Traffic transmission.frames [transmission] where
  data := by
    rw [List.filter_eq_self.2 h.legal.isData]
    simp
  control := fun frame hmem hcontrol => by
    rw [h.legal.isData frame hmem] at hcontrol
    cases hcontrol

theorem traffic_pong {frame : WebSocketRawMessage} (h : Heartbeat frame) :
    Traffic [pongOf frame] [] where
  data := rfl
  control := fun other hmem _ => by
    rw [List.mem_singleton] at hmem
    subst hmem
    exact ⟨.inr rfl, rfl, h.rsvBytes, h.size⟩

/-- Data frames are neither PING nor PONG. -/
theorem payloadsWith_data {opCode : WsOpcode}
    (hop : opCode = wsOpcodePing ∨ opCode = wsOpcodePong)
    (h : ∀ frame ∈ frames, isData frame = true) : payloadsWith opCode frames = [] := by
  have hnone : frames.filter (fun frame => frame.opCode = opCode) = [] := by
    rw [List.filter_eq_nil_iff]
    intro frame hmem hsame
    have hdata := (isData_iff frame).1 (h frame hmem)
    rw [of_decide_eq_true hsame] at hdata
    rcases hop with rfl | rfl
    · exact absurd hdata (by decide)
    · exact absurd hdata (by decide)
  unfold payloadsWith
  rw [hnone, List.map_nil]

/-- Nothing is left of the messages when no frame is. -/
theorem Awaits.done {extensions : List WSExtension} {receiving : Receiving}
    (h : Awaits extensions receiving [] messages)
    (harrives : ∀ transmission ∈ messages, transmission.Arrives zlib extensions) :
    messages = [] := by
  generalize hall : ([] : List WebSocketRawMessage) = all at h
  cases h with
  | between messages =>
    cases messages with
    | nil => rfl
    | cons transmission messages =>
      obtain ⟨first, others, hframes, -⟩ :=
        (harrives transmission (List.mem_cons_self ..)).legal.opcodes
      rw [List.map_cons, List.flatten_cons, hframes] at hall
      cases hall
  | inside transmission messages receiving front rest hframes hfront hrest =>
    exact absurd (List.append_eq_nil_iff.1 hall.symm).1 hrest

/-- What the server sends for some traffic. -/
structure SentBack (frames sent : List WebSocketRawMessage) (messages : List Transmission)
    (zlib : Zlib) (extensions : List WSExtension) : Prop where
  /-- It is traffic for the same messages, and arrives. -/
  traffic : ∃ replies : List Transmission, Traffic sent replies ∧
    replies.map Transmission.message = messages.map Transmission.message ∧
    ∀ reply ∈ replies, reply.Arrives zlib (extensions.map WSExtension.mirrored)
  pongs : payloadsWith wsOpcodePong sent = payloadsWith wsOpcodePing frames
  pings : payloadsWith wsOpcodePing sent = []

theorem SentBack.append {extensions : List WSExtension} {sent sentMore : List WebSocketRawMessage}
    (h : SentBack frames sent messages zlib extensions)
    (hmore : SentBack more sentMore others zlib extensions) :
    SentBack (frames ++ more) (sent ++ sentMore) (messages ++ others) zlib extensions where
  traffic := by
    obtain ⟨replies, htraffic, hsame, harrive⟩ := h.traffic
    obtain ⟨repliesMore, htrafficMore, hsameMore, harriveMore⟩ := hmore.traffic
    refine ⟨replies ++ repliesMore, htraffic.append htrafficMore, ?_, ?_⟩
    · rw [List.map_append, List.map_append, hsame, hsameMore]
    · intro reply hmem
      rcases List.mem_append.1 hmem with hmem | hmem
      · exact harrive reply hmem
      · exact harriveMore reply hmem
  pongs := by rw [payloadsWith_append, payloadsWith_append, h.pongs, hmore.pongs]
  pings := by rw [payloadsWith_append, h.pings, hmore.pings, List.append_nil]

/-- A frame with no answer: a PONG, or a part of a message. -/
theorem sentBack_none {frame : WebSocketRawMessage} {extensions : List WSExtension}
    (h : frame.opCode ≠ wsOpcodePing) : SentBack [frame] [] [] zlib extensions where
  traffic := by
    refine ⟨[], ⟨rfl, ?_⟩, rfl, ?_⟩
    · intro frame hmem
      cases hmem
    · intro reply hmem
      cases hmem
  pongs := by
    unfold payloadsWith
    rw [List.filter_cons_of_neg (by simpa using h)]
    rfl
  pings := rfl

/-- A PING and its PONG. -/
theorem sentBack_pong {frame read : WebSocketRawMessage} {extensions : List WSExtension}
    (h : Heartbeat frame) (hread : ReadAs frame read) (hping : frame.opCode = wsOpcodePing) :
    SentBack [frame] [pongOf read] [] zlib extensions where
  traffic := by
    refine ⟨[], traffic_pong (hread.heartbeat h), rfl, ?_⟩
    intro reply hmem
    cases hmem
  pongs := by
    have hbytes : payloadsWith wsOpcodePong [pongOf read] = [read.payload.bytes] := rfl
    rw [hbytes, hread.bytes]
    unfold payloadsWith
    rw [List.filter_cons_of_pos (by simpa using hping)]
    rfl
  pings := rfl

/-- The last frame of a message and its reply. -/
theorem sentBack_message {frame : WebSocketRawMessage} {extensions : List WSExtension}
    {transmission reply : Transmission} (hframe : isData frame = true)
    (hsame : reply.message = transmission.message)
    (harrives : reply.Arrives zlib (extensions.map WSExtension.mirrored)) :
    SentBack [frame] reply.frames [transmission] zlib extensions where
  traffic := by
    refine ⟨[reply], traffic_message harrives, by simp [hsame], ?_⟩
    intro other hmem
    rw [List.mem_singleton.1 hmem]
    exact harrives
  pongs := by
    rw [payloadsWith_data (.inr rfl) harrives.legal.isData, payloadsWith_data (.inl rfl)]
    intro other hmem
    rw [List.mem_singleton.1 hmem]
    exact hframe
  pings := payloadsWith_data (.inl rfl) harrives.legal.isData

/-- The function of a connection goes on, with the frames of the reply. -/
theorem websocketFunction_reply {transmission : Transmission}
    {messageState : Option ExtensionMessageReceiveState} (hzlib : env.zlib.Lawful)
    (harrives : transmission.Arrives env.zlib args.extensions)
    (hechoes : transmission.Echoes env args)
    (hstate : isCompressed messageState = transmission.compressed)
    (before : List WebSocketRawMessage) :
    ∃ reply : Transmission, reply.message = transmission.message ∧
      reply.Arrives env.zlib (args.extensions.map WSExtension.mirrored) ∧
      websocketFunction env args before transmission.message
        ⟨getExtensionPipeline args.extensions, messageState⟩ =
          (before ++ reply.frames, .continue) := by
  obtain ⟨reply, hsame, hback, hsent⟩ := harrives.reply hzlib hechoes hstate
  refine ⟨reply, hsame, hback, ?_⟩
  unfold websocketFunction
  rw [hsent]

/-- One round of the server. -/
theorem serverRound_traffic {connection : ListenerConnection (List WebSocketRawMessage)}
    {frame : WebSocketRawMessage} {mask : Option UInt32}
    {wire : List (WebSocketRawMessage × Option UInt32)} (hzlib : env.zlib.Lawful)
    (h : Ongoing (wsServer env utf8 args) args.extensions connection ((frame, mask) :: wire)
      messages rest)
    (hechoes : ∀ transmission ∈ messages, transmission.Echoes env args) (granted : Bool) :
    ∃ next sent taken left, serverRound (wsServer env utf8 args) connection (true, granted) =
        (next, sent) ∧ messages = taken ++ left ∧
      Ongoing (wsServer env utf8 args) args.extensions next wire left rest ∧
      SentBack [frame] sent taken env.zlib args.extensions := by
  have hgoesOn : ∀ transmission ∈ messages,
      GoesOnAfter (wsServer env utf8 args) args.extensions transmission := by
    intro transmission hmem application messageState hstate
    obtain ⟨reply, -, -, hfunction⟩ := websocketFunction_reply hzlib (h.arrives transmission hmem)
      (hechoes transmission hmem) hstate application
    exact congrArg Prod.snd hfunction
  have hstart : Ongoing (wsServer env utf8 args) args.extensions
      { connection with listener := { connection.listener with application := [] } }
      ((frame, mask) :: wire) messages rest :=
    { running := h.running, ready := h.ready, unread := h.unread, awaits := h.awaits,
      control := h.control, arrives := h.arrives }
  have hround := hstart.round rfl hgoesOn granted
  unfold serverRound
  generalize connectionRound _ _ _ = round at hround ⊢
  cases hround with
  | heartbeat read hframe hread hsame houtputs hongoing =>
    refine ⟨_, _, [], messages, rfl, rfl, hongoing, ?_⟩
    rw [hsame, houtputs, List.nil_append]
    by_cases hping : frame.opCode = wsOpcodePing
    · rw [if_pos hping]
      exact sentBack_pong hframe hread hping
    · rw [if_neg hping]
      exact sentBack_none hping
  | part hframe hsame houtputs hongoing =>
    refine ⟨_, _, [], messages, rfl, rfl, hongoing, ?_⟩
    rw [hsame, houtputs]
    exact sentBack_none (isData_not_ping hframe)
  | message transmission left messageState hframe hmessages hcompressed happlication houtputs
      hongoing =>
    have hmem : transmission ∈ messages := by
      rw [hmessages]
      exact List.mem_cons_self ..
    obtain ⟨reply, hsame, hback, hfunction⟩ := websocketFunction_reply hzlib
      (h.arrives transmission hmem) (hechoes transmission hmem) hcompressed []
    have hframes : round.1.listener.application = reply.frames :=
      happlication.trans (congrArg Prod.fst hfunction)
    refine ⟨_, _, [transmission], left, rfl, hmessages, hongoing, ?_⟩
    rw [hframes, houtputs, List.filterMap_cons_none rfl, List.filterMap_nil, List.append_nil]
    exact sentBack_message hframe hsame hback

/-- **What the server sends** for some traffic is traffic for the same messages. -/
theorem serverRun_traffic {wire : List (WebSocketRawMessage × Option UInt32)}
    (hzlib : env.zlib.Lawful) :
    ∀ {connection : ListenerConnection (List WebSocketRawMessage)} {messages : List Transmission},
    Ongoing (wsServer env utf8 args) args.extensions connection wire messages rest →
    (∀ transmission ∈ messages, transmission.Echoes env args) →
    ∀ granted : List Bool, granted.length = wire.length →
    ∃ next sent, serverRun (wsServer env utf8 args) connection
        (granted.map fun granted => (true, granted)) = (next, sent) ∧
      Ongoing (wsServer env utf8 args) args.extensions next [] [] rest ∧
      SentBack (wire.map Prod.fst) sent messages env.zlib args.extensions := by
  induction wire with
  | nil =>
    intro connection messages h _ granted hgranted
    have hnone : granted = [] := List.eq_nil_of_length_eq_zero hgranted
    have hdone : messages = [] := h.awaits.done h.arrives
    subst hnone hdone
    refine ⟨connection, [], rfl, h, ⟨[], ⟨rfl, ?_⟩, rfl, ?_⟩, rfl, rfl⟩
    · intro frame hmem
      cases hmem
    · intro reply hmem
      cases hmem
  | cons frame wire ih =>
    intro connection messages h hechoes granted hgranted
    obtain ⟨first, others, rfl⟩ := List.exists_cons_of_length_eq_add_one hgranted
    obtain ⟨next, sent, taken, left, hround, rfl, hongoing, hsent⟩ :=
      serverRound_traffic hzlib h hechoes first
    obtain ⟨last, sentMore, hrun, hend, hsentMore⟩ := ih hongoing
      (fun transmission hmem => hechoes transmission (List.mem_append_right _ hmem)) others
      (by simpa using hgranted)
    refine ⟨last, sent ++ sentMore, ?_, hend, hsent.append hsentMore⟩
    rw [List.map_cons, serverRun, hround]
    dsimp only
    rw [hrun]

theorem connectionRun_cons {A : Type} (env : ListenerEnv A) (connection : ListenerConnection A)
    (flags : Bool × Bool) (rounds : List (Bool × Bool)) :
    connectionRun env connection (flags :: rounds) =
      ((connectionRun env (connectionRound env connection flags).1 rounds).1,
        (connectionRound env connection flags).2 ++
          (connectionRun env (connectionRound env connection flags).1 rounds).2) := rfl

/-- **What the client gets** from some traffic. -/
theorem clientRun_traffic {wire : List (WebSocketRawMessage × Option UInt32)}
    {extensions : List WSExtension} :
    ∀ {connection : ListenerConnection (List ReceivedMessage)} {messages : List Transmission},
    Ongoing (wsClient zlib utf8 extensions) (extensions.map WSExtension.mirrored) connection wire
      messages rest →
    payloadsWith wsOpcodePing (wire.map Prod.fst) = [] →
    ∀ granted : List Bool, granted.length = wire.length →
    ∃ next, connectionRun (wsClient zlib utf8 extensions) connection
        (granted.map fun granted => (true, granted)) =
          (next, messages.map fun transmission => .delivered transmission.message) ∧
      next.listener.running = true ∧ next.reader.unread = rest ∧
      next.listener.application =
        connection.listener.application ++ messages.map Transmission.message := by
  induction wire with
  | nil =>
    intro connection messages h _ granted hgranted
    have hnone : granted = [] := List.eq_nil_of_length_eq_zero hgranted
    have hdone : messages = [] := h.awaits.done h.arrives
    subst hnone hdone
    exact ⟨connection, rfl, h.running, h.unread, (List.append_nil _).symm⟩
  | cons frame wire ih =>
    intro connection messages h hpings granted hgranted
    obtain ⟨first, others, rfl⟩ := List.exists_cons_of_length_eq_add_one hgranted
    rw [List.map_cons] at hpings
    have hnoPing : frame.1.opCode ≠ wsOpcodePing := by
      intro hping
      unfold payloadsWith at hpings
      rw [List.filter_cons_of_pos (by simpa using hping)] at hpings
      cases hpings
    have hothers : payloadsWith wsOpcodePing (wire.map Prod.fst) = [] := by
      unfold payloadsWith at hpings ⊢
      rwa [List.filter_cons_of_neg (by simpa using hnoPing)] at hpings
    have hround := h.round rfl (fun _ _ _ _ _ => rfl) first
    rw [List.map_cons, connectionRun_cons]
    generalize connectionRound _ _ _ = round at hround ⊢
    cases hround with
    | heartbeat read hframe hread hsame houtputs hongoing =>
      obtain ⟨next, hrun, hrunning, hunread, happlication⟩ := ih hongoing hothers others
        (by simpa using hgranted)
      refine ⟨next, ?_, hrunning, hunread, by rw [happlication, hsame]⟩
      rw [hrun, houtputs, if_neg hnoPing, List.nil_append]
    | part hframe hsame houtputs hongoing =>
      obtain ⟨next, hrun, hrunning, hunread, happlication⟩ := ih hongoing hothers others
        (by simpa using hgranted)
      refine ⟨next, ?_, hrunning, hunread, by rw [happlication, hsame]⟩
      rw [hrun, houtputs, List.nil_append]
    | message transmission left messageState hframe hmessages hcompressed hreceived houtputs
        hongoing =>
      obtain ⟨next, hrun, hrunning, hunread, happlication⟩ := ih hongoing hothers others
        (by simpa using hgranted)
      have hadded : round.1.listener.application =
          connection.listener.application ++ [transmission.message] := hreceived
      refine ⟨next, ?_, hrunning, hunread, ?_⟩
      · rw [hrun, houtputs, hmessages]
        rfl
      · rw [happlication, hadded, hmessages, List.append_assoc]
        rfl

/-- A connection before its first round. -/
theorem ongoing_start {A : Type} {env : ListenerEnv A} {extensions : List WSExtension}
    {wire : List (WebSocketRawMessage × Option UInt32)} {incoming : List Incoming}
    (application : A) (hpipeline : env.pipeline = getExtensionPipeline extensions)
    (htraffic : Traffic (wire.map Prod.fst) messages)
    (harrives : ∀ transmission ∈ messages, transmission.Arrives env.zlib extensions)
    (hincoming : arriving incoming = wireBytes wire ++ rest) :
    Ongoing env extensions (startConnection env application incoming) wire messages rest where
  running := rfl
  ready := ⟨rfl, Nat.le_refl 0⟩
  unread := hincoming
  awaits := by
    have hidle : (startConnection env application incoming).listener.receiving =
        startReceiving (getExtensionPipeline extensions) := congrArg startReceiving hpipeline
    rw [hidle, htraffic.data]
    exact .between messages
  control := htraffic.control
  arrives := harrives

end Runs

/-- **Every message comes back.** The client sends messages, in whatever frames, with PING and PONG
frames between them and with any masks, and the network cuts the bytes of both directions as it
likes. The client gets its messages back, whole and in order, and a PONG for each PING. -/
theorem echo_returns {env : SendEnv} (hzlib : env.zlib.Lawful) (utf8 clientUtf8 : Utf8proc)
    (args : WsConnectionArgs) {wire : List (WebSocketRawMessage × Option UInt32)}
    {messages : List Transmission} (htraffic : Traffic (wire.map Prod.fst) messages)
    (harrives : ∀ transmission ∈ messages, transmission.Arrives env.zlib args.extensions)
    (hechoes : ∀ transmission ∈ messages, transmission.Echoes env args)
    {incoming : List Incoming} {rest : Bytes}
    (hincoming : arriving incoming = wireBytes wire ++ rest)
    {granted : List Bool} (hgranted : granted.length = wire.length) :
    ∃ server sent,
      serverRun (wsServer env utf8 args) (startConnection (wsServer env utf8 args) [] incoming)
        (granted.map fun granted => (true, granted)) = (server, sent) ∧
      server.listener.running = true ∧ server.reader.unread = rest ∧
      payloadsWith wsOpcodePong sent = payloadsWith wsOpcodePing (wire.map Prod.fst) ∧
      ∀ (back : List Incoming) (after : Bytes) (clientGranted : List Bool),
        arriving back = serverBytes sent ++ after → clientGranted.length = sent.length →
        ∃ client,
          connectionRun (wsClient env.zlib clientUtf8 args.extensions)
            (startConnection (wsClient env.zlib clientUtf8 args.extensions) [] back)
            (clientGranted.map fun granted => (true, granted)) =
              (client, messages.map fun transmission => .delivered transmission.message) ∧
          client.listener.running = true ∧ client.reader.unread = after ∧
          client.listener.application = messages.map Transmission.message := by
  have hstart : Ongoing (wsServer env utf8 args) args.extensions
      (startConnection (wsServer env utf8 args) [] incoming) wire messages rest :=
    ongoing_start [] rfl htraffic harrives hincoming
  obtain ⟨server, sent, hrun, hend, hsent⟩ :=
    serverRun_traffic hzlib hstart hechoes granted hgranted
  refine ⟨server, sent, hrun, hend.running, hend.unread, hsent.pongs, ?_⟩
  intro back after clientGranted hback hclientGranted
  obtain ⟨replies, htrafficBack, hsame, harriveBack⟩ := hsent.traffic
  have hframes : (sent.map fun frame => (frame, (none : Option UInt32))).map Prod.fst = sent := by
    rw [List.map_map]
    exact List.map_id sent
  rw [← hframes] at htrafficBack
  have hclientStart : Ongoing (wsClient env.zlib clientUtf8 args.extensions)
      (args.extensions.map WSExtension.mirrored)
      (startConnection (wsClient env.zlib clientUtf8 args.extensions) [] back)
      (sent.map fun frame => (frame, none)) replies after :=
    ongoing_start [] rfl htrafficBack harriveBack hback
  obtain ⟨client, hclientRun, hrunning, hunread, happlication⟩ := clientRun_traffic hclientStart
    (by rw [hframes]; exact hsent.pings) clientGranted (by rw [List.length_map, hclientGranted])
  have houtputs : (replies.map fun reply => ListenerOutput.delivered reply.message) =
      messages.map fun transmission => .delivered transmission.message := by
    have hmapped := congrArg (List.map ListenerOutput.delivered) hsame
    rw [List.map_map, List.map_map] at hmapped
    exact hmapped
  refine ⟨client, ?_, hrunning, hunread, happlication.trans hsame⟩
  rw [hclientRun, houtputs]

/-! ### Letters, compressed -/

/-- A zlib for the letters from `a` to `p`. -/
def lettersZlib : Zlib where
  compress buffer _ :=
    if buffer.data = some (ascii "abcdefghijklmnop") then
      sizedBufferAllocateFromReadonlyBuffer deflatedLetters
    else getEmptySizedBuffer
  decompress bytes _ :=
    if bytes = deflatedLetters ++ wsTrailerData then some (ascii "abcdefghijklmnop") else none

theorem lettersZlib_lawful : lettersZlib.Lawful := by
  intro buffer windowBits hdata
  by_cases hletters : buffer.data = some (ascii "abcdefghijklmnop")
  · have hcompress : lettersZlib.compress buffer windowBits =
        sizedBufferAllocateFromReadonlyBuffer deflatedLetters := if_pos hletters
    have hbytes : buffer.bytes = ascii "abcdefghijklmnop" := by
      unfold SizedBuffer.bytes
      rw [hletters]
      rfl
    have hsent : (sizedBufferAllocateFromReadonlyBuffer deflatedLetters).bytes =
        deflatedLetters := allocateFromReadonlyBuffer_bytes (by decide)
    have hdecompress : lettersZlib.decompress (deflatedLetters ++ wsTrailerData) windowBits =
        some (ascii "abcdefghijklmnop") := by simp [lettersZlib]
    rw [hcompress, hbytes, hsent]
    exact hdecompress
  · have hcompress : lettersZlib.compress buffer windowBits = getEmptySizedBuffer :=
      if_neg hletters
    rw [hcompress] at hdata
    exact absurd rfl hdata

/-- The compressed letters in two frames. -/
def lettersTransmission : Transmission where
  frames :=
    [⟨false, wsOpcodeText, ⟨some (deflatedLetters.take 9), by decide⟩, rsvCompressed⟩,
      ⟨true, wsOpcodeCont, ⟨some (deflatedLetters.drop 9), by decide⟩, 0⟩]
  isText := true
  compressed := true
  carried := deflatedLetters
  buffer := ascii "abcdefghijklmnop"

/-- A PING between the frames of the letters. -/
def lettersWire : List (WebSocketRawMessage × Option UInt32) :=
  [(⟨false, wsOpcodeText, ⟨some (deflatedLetters.take 9), by decide⟩, rsvCompressed⟩,
      some 0x12345678),
    (pingMessage, some 7),
    (⟨true, wsOpcodeCont, ⟨some (deflatedLetters.drop 9), by decide⟩, 0⟩, some 0)]

theorem lettersTransmission_arrives : lettersTransmission.Arrives lettersZlib deflateInUse where
  legal := by
    refine ⟨⟨_, _, rfl, rfl, rfl, ?_⟩, ⟨[_], _, rfl, rfl, ?_⟩, by decide⟩
    · simp
    · simp
  known := fun _ => by decide
  finished := by
    intro state hstate
    have hcompressed : isCompressed state = true := hstate
    have hthrough : receiveThrough lettersZlib state ⟨true, deflatedLetters⟩
        (.perMessageDeflate ⟨⟨true, 15⟩, ⟨true, 15⟩⟩) = .ok lettersTransmission.message := by
      unfold receiveThrough
      rw [hcompressed]
      rfl
    rw [processFinishedMessage_eq]
    exact (bind_pure _).trans hthrough
  utf8 := fun _ => ⟨"abcdefghijklmnop".toList, by decide⟩

/-- The client has asked for messages in one piece. -/
def lettersArgs : WsConnectionArgs :=
  getWsArgsFromHttpRequest ⟨ascii "/", [(ascii "fragment_size", ascii "16")], none⟩ deflateInUse

theorem lettersTransmission_echoes :
    lettersTransmission.Echoes ⟨lettersZlib, none⟩ lettersArgs where
  size := by decide
  compresses := by
    intro _ messageState hstate
    refine ⟨⟨true, sizedBufferAllocateFromReadonlyBuffer deflatedLetters⟩, ?_⟩
    have hthrough : sendThrough lettersZlib messageState lettersTransmission.message.toSend
        (.perMessageDeflate ⟨⟨true, 15⟩, ⟨true, 15⟩⟩) =
          .ok ⟨true, sizedBufferAllocateFromReadonlyBuffer deflatedLetters⟩ := by
      unfold sendThrough
      rw [hstate]
      rfl
    rw [processInitialMessage_eq]
    exact (bind_pure _).trans hthrough
  notCut := by
    rintro _ messageState _ ⟨_, sent, _, hcut⟩
    exact hcut

theorem lettersWire_traffic : Traffic (lettersWire.map Prod.fst) [lettersTransmission] where
  data := rfl
  control := by
    intro frame hmem hcontrol
    simp only [lettersWire, List.map_cons, List.map_nil, List.mem_cons, List.not_mem_nil,
      or_false] at hmem
    rcases hmem with rfl | rfl | rfl
    · exact absurd hcontrol (by decide)
    · exact ⟨.inl rfl, rfl, rfl, by decide⟩
    · exact absurd hcontrol (by decide)

theorem echo_returns_letters :
    ∃ server sent,
      serverRun (wsServer ⟨lettersZlib, none⟩ default lettersArgs)
        (startConnection (wsServer ⟨lettersZlib, none⟩ default lettersArgs) []
          (leftOver (wireBytes lettersWire) ++ []))
        ([true, false, true].map fun granted => (true, granted)) = (server, sent) ∧
      server.listener.running = true ∧ server.reader.unread = [] ∧
      payloadsWith wsOpcodePong sent = payloadsWith wsOpcodePing (lettersWire.map Prod.fst) ∧
      ∀ (back : List Incoming) (after : Bytes) (clientGranted : List Bool),
        arriving back = serverBytes sent ++ after → clientGranted.length = sent.length →
        ∃ client,
          connectionRun (wsClient lettersZlib default deflateInUse)
            (startConnection (wsClient lettersZlib default deflateInUse) [] back)
            (clientGranted.map fun granted => (true, granted)) =
              (client,
                [lettersTransmission].map fun transmission => .delivered transmission.message) ∧
          client.listener.running = true ∧ client.reader.unread = after ∧
          client.listener.application = [lettersTransmission].map Transmission.message :=
  echo_returns lettersZlib_lawful default default lettersArgs lettersWire_traffic
    (by
      intro transmission hmem
      rw [List.mem_singleton.1 hmem]
      exact lettersTransmission_arrives)
    (by
      intro transmission hmem
      rw [List.mem_singleton.1 hmem]
      exact lettersTransmission_echoes)
    (arriving_leftOver _ _) rfl

end SimpleServer.Ws
