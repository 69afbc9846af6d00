import SimpleServer.Http2.Client
import SimpleServer.Proof.HpackRoundTrip
import SimpleServer.Proof.QuietFrames
import SimpleServer.Proof.ResponseEnd

/-!
# Responses at the other end

Behind the start of a connection, a server answers the requests with other frames of the client in
between, and a client reads what it writes. The SETTINGS frame that the server opens every
connection with is no part of this: it is malformed, and a client refuses it.

* `Received`: some bytes take a client from one state to another, whatever follows them.
* `received_frames`: frames that are read back as they were sent.
* `receiveAll_headers`, `receiveAll_datas`: the frames of a response.
* `responses_delivered`: **every response arrives**, behind the start of a connection.
-/

namespace SimpleServer.Http2

open SimpleServer.Utils Lib Hpack

variable {context peer : HTTP2Context} {client client' client'' : Client} {frames : List Http2Frame}
  {identifier : ℕ}

/-! ## Frames at the client -/

/-- These bytes take the client from one state to another, whatever follows them. -/
def Received (peer : HTTP2Context) (client : Client) (bytes : Bytes) (client' : Client) : Prop :=
  ∃ frames, ∀ reader rest, BufferedReader.Ready reader → reader.unread = bytes ++ rest →
    ∃ reader', client.read peer frames reader = some (client', reader') ∧ reader'.Ready ∧
      reader'.unread = rest

theorem Received.nil : Received peer client [] client :=
  ⟨0, fun reader _ hready hunread => ⟨reader, rfl, hready, hunread⟩⟩

/-- Frames one after the other. -/
theorem read_add {m n : ℕ} {reader reader' : BufferedReader}
    (h : client.read peer m reader = some (client', reader')) :
    client.read peer (m + n) reader = client'.read peer n reader' := by
  induction m generalizing client reader with
  | zero =>
    obtain ⟨rfl, rfl⟩ := Prod.mk.inj (Option.some.inj h)
    rw [Nat.zero_add]
  | succ m ih =>
    rw [Nat.add_right_comm]
    rw [Client.read_succ] at h ⊢
    split at h
    · cases h
    · split at h
      · cases h
      · exact ih h

theorem Received.append {bytes bytes' : Bytes} (h : Received peer client bytes client')
    (h' : Received peer client' bytes' client'') :
    Received peer client (bytes ++ bytes') client'' := by
  obtain ⟨m, hm⟩ := h
  obtain ⟨n, hn⟩ := h'
  refine ⟨m + n, fun reader rest hready hunread => ?_⟩
  rw [List.append_assoc] at hunread
  obtain ⟨reader', hread, hready', hunread'⟩ := hm reader (bytes' ++ rest) hready hunread
  obtain ⟨reader'', hread', hready'', hunread''⟩ := hn reader' rest hready' hunread'
  exact ⟨reader'', by rw [read_add hread, hread'], hready'', hunread''⟩

/-- The client receives frames. -/
def receiveAll (client : Client) (frames : List Http2Frame) : Option Client :=
  frames.foldlM Client.receive client

theorem receiveAll_append (frames frames' : List Http2Frame) :
    receiveAll client (frames ++ frames') =
      (receiveAll client frames).bind fun client => receiveAll client frames' :=
  List.foldlM_append

theorem receiveAll_cons (frame : Http2Frame) (frames : List Http2Frame) :
    receiveAll client (frame :: frames) =
      (client.receive frame).bind fun client => receiveAll client frames :=
  List.foldlM_cons

/-- **Frames that are read back** as they were sent. -/
theorem received_frames (h : ∀ frame ∈ frames, RoundTrips peer frame)
    (hclient : receiveAll client frames = some client') :
    Received peer client (frames.filterMap http2SendFrame).flatten client' := by
  induction frames generalizing client with
  | nil =>
    obtain rfl : client = client' := Option.some.inj hclient
    exact .nil
  | cons frame frames ih =>
    obtain ⟨header, payload, -, hsend, hread⟩ := h frame List.mem_cons_self
    rw [receiveAll_cons] at hclient
    obtain ⟨next, hnext, hrest⟩ := Option.bind_eq_some_iff.1 hclient
    have hframes := ih (fun f hf => h f (List.mem_cons_of_mem frame hf)) hrest
    rw [List.filterMap_cons_some hsend, List.flatten_cons]
    have hframe : Received peer client (header ++ payload) next := by
      refine ⟨1, fun reader rest hready hunread => ?_⟩
      obtain ⟨reader', hrun, hready', hunread'⟩ := hread [] reader rest hready hunread
      refine ⟨reader', ?_, hready', hunread'⟩
      rw [Client.read_succ, hrun]
      dsimp only
      rw [hnext]
      rfl
    exact hframe.append hframes

/-! ## The frames of a response -/

/-- The parts of a block behind its first one. -/
theorem receiveAll_continuations (block : OpenBlock) {pre : List (Fragment UInt8)}
    {last : Fragment UInt8} (hopen : client.openBlock = some block)
    (hoffset : ∀ fragment ∈ pre ++ [last], 0 < fragment.offset) (hlast : last.last = true)
    (hpre : ∀ fragment ∈ pre, fragment.last = false) (endStream : Bool) :
    receiveAll client ((pre ++ [last]).map (headerFrameOf block.identifier endStream)) =
      client.endBlock
        { block with block := block.block ++ ((pre ++ [last]).map Fragment.content).flatten } := by
  have hframe : ∀ fragment ∈ pre ++ [last], headerFrameOf block.identifier endStream fragment =
      .continuation ⟨fragment.content, block.identifier, fragment.last⟩ := by
    intro fragment hmem
    rw [headerFrameOf, if_neg (Nat.ne_of_gt (hoffset fragment hmem))]
  induction pre generalizing client block with
  | nil =>
    have hone := hframe last (List.mem_singleton.2 rfl)
    simp only [List.nil_append, List.map_cons, List.map_nil, List.flatten_cons, List.flatten_nil,
      List.append_nil, receiveAll_cons, hone, Client.receive, hopen, ne_eq, not_true_eq_false,
      if_false, Client.addBlock, hlast, if_true]
    cases client.endBlock { block with block := block.block ++ last.content } with
    | none => exact rfl
    | some client => exact rfl
  | cons fragment pre ih =>
    have hone := hframe fragment (by simp)
    have hnot := hpre fragment List.mem_cons_self
    simp only [List.cons_append, List.map_cons, List.flatten_cons, receiveAll_cons, hone,
      Client.receive, hopen, ne_eq, not_true_eq_false, if_false, Client.addBlock, hnot,
      Bool.false_eq_true, Option.bind_some]
    rw [← List.append_assoc]
    exact ih { block with block := block.block ++ fragment.content } rfl
      (fun f hf => hoffset f (List.mem_cons_of_mem _ hf))
      (fun f hf => hpre f (List.mem_cons_of_mem _ hf))
      fun f hf => hframe f (List.mem_cons_of_mem _ hf)

/-- **The frames of a header block** are the block. -/
theorem receiveAll_headers {n : ℕ} {buffer : Bytes} (hn : 0 < n) (hne : buffer ≠ [])
    (hopen : client.openBlock = none) (hfresh : client.streams identifier = none)
    (endStream : Bool) :
    receiveAll client ((fragments n buffer).map (headerFrameOf identifier endStream)) =
      client.endBlock ⟨identifier, endStream, buffer⟩ := by
  obtain ⟨first, rest, hfirst, hzero, hrest⟩ := fragments_first hn hne
  obtain ⟨pre, last, hlast, hend, hpre⟩ := fragments_last hn hne
  have hflat : ((fragments n buffer).map Fragment.content).flatten = buffer :=
    fragmentLoop_flatten hn (by omega)
  have hhead : headerFrameOf identifier endStream first =
      .headers ⟨none, first.content, identifier, endStream, first.last⟩ := by
    rw [headerFrameOf, if_pos hzero]
  rw [hfirst] at hflat
  rw [hfirst, List.map_cons, receiveAll_cons, hhead]
  simp only [Client.receive, hopen, hfresh, Option.isSome_none, Bool.false_eq_true, or_self,
    if_false]
  cases pre with
  | nil =>
    rw [hfirst, List.nil_append] at hlast
    obtain ⟨rfl, rfl⟩ := List.cons.inj hlast
    rw [List.map_singleton, List.flatten_singleton] at hflat
    rw [Client.addBlock, if_pos hend, hflat]
    cases client.endBlock ⟨identifier, endStream, buffer⟩ with
    | none => exact rfl
    | some client => exact rfl
  | cons fragment pre =>
    rw [hfirst, List.cons_append] at hlast
    obtain ⟨rfl, rfl⟩ := List.cons.inj hlast
    have hnot := hpre first List.mem_cons_self
    rw [Client.addBlock, hnot, if_neg Bool.false_ne_true, Option.bind_some]
    rw [List.map_cons, List.flatten_cons] at hflat
    have hcontinue : receiveAll
        { client with openBlock := some ⟨identifier, endStream, first.content⟩ }
        ((pre ++ [last]).map (headerFrameOf identifier endStream)) = _ :=
      receiveAll_continuations ⟨identifier, endStream, first.content⟩ rfl hrest hend
        (fun f hf => hpre f (List.mem_cons_of_mem _ hf)) endStream
    rw [hcontinue, hflat]
    exact rfl

/-- **The frames of a body** are the body. -/
theorem receiveAll_datas {n : ℕ} {buffer : Bytes} (hn : 0 < n) (hne : buffer ≠ [])
    (hopen : client.openBlock = none) {fields : List HttpHeaderField}
    (hstream : client.streams identifier = some ⟨fields, [], false⟩) :
    receiveAll client ((fragments n buffer).map (dataFrameOf identifier)) =
      some { client with
        streams := Function.update client.streams identifier (some ⟨fields, buffer, true⟩) } := by
  have hloop : ∀ (pre : List (Fragment UInt8)) (last : Fragment UInt8) (body : Bytes)
      (client : Client), client.openBlock = none →
      client.streams identifier = some ⟨fields, body, false⟩ → last.last = true →
      (∀ fragment ∈ pre, fragment.last = false) →
      receiveAll client ((pre ++ [last]).map (dataFrameOf identifier)) =
        some { client with
          streams := Function.update client.streams identifier
            (some ⟨fields, body ++ ((pre ++ [last]).map Fragment.content).flatten, true⟩) } := by
    intro pre last
    induction pre with
    | nil =>
      intro body client hopen hstream hend _
      simp only [List.nil_append, List.map_cons, List.map_nil, receiveAll_cons, dataFrameOf,
        Client.receive, hopen, hstream, hend, Bool.false_eq_true, if_false, Option.bind_some,
        List.flatten_cons, List.flatten_nil, List.append_nil]
      rfl
    | cons fragment pre ih =>
      intro body client hopen hstream hend hpre
      have hnot := hpre fragment List.mem_cons_self
      simp only [List.cons_append, List.map_cons, receiveAll_cons, dataFrameOf, Client.receive,
        hopen, hstream, hnot, Bool.false_eq_true, if_false, Option.bind_some, List.flatten_cons]
      refine (ih (body ++ fragment.content) _ rfl (Function.update_self ..) hend
        fun f hf => hpre f (List.mem_cons_of_mem _ hf)).trans ?_
      simp only [Function.update_idem, List.append_assoc]
  obtain ⟨pre, last, hlast, hend, hpre⟩ := fragments_last hn hne
  have hflat : ((fragments n buffer).map Fragment.content).flatten = buffer :=
    fragmentLoop_flatten hn (by omega)
  rw [hlast] at hflat ⊢
  rw [hloop pre last [] client hopen hstream hend hpre, List.nil_append, hflat]

/-! ## The bytes of a response -/

/-- Every frame stands with the bytes it has. -/
def Built.Sound (built : Built) : Prop := ∀ p ∈ built, http2SendFrame p.1 = p.2

theorem sendFrames_sound (frames : List Http2Frame) : Built.Sound (sendFrames frames) := by
  induction frames with
  | nil =>
    intro p hp
    cases hp
  | cons frame frames ih =>
    unfold sendFrames
    cases hsend : http2SendFrame frame with
    | none =>
      intro p hp
      rw [List.mem_singleton.1 hp, hsend]
    | some bytes =>
      intro p hp
      rcases List.mem_cons.1 hp with rfl | hp
      · exact hsend
      · exact ih p hp

theorem sendHttp2ResponseToConnection_sound (response : Http2Response) (context : HTTP2Context) :
    Built.Sound (sendHttp2ResponseToConnection response context) := by
  unfold sendHttp2ResponseToConnection
  dsimp only
  split_ifs
  · exact sendFrames_sound _
  · intro p hp
    rcases List.mem_append.1 hp with hp | hp
    · exact sendFrames_sound _ p hp
    · exact sendFrames_sound _ p hp
  · exact sendFrames_sound _

/-- The bytes that are written are those of the frames that went out. -/
theorem Built.Sound.sentBytes {built : Built} (h : built.Sound) :
    Http.sentBytes built = built.sent.filterMap http2SendFrame := by
  induction built with
  | nil => rfl
  | cons p built ih =>
    obtain ⟨frame, bytes⟩ := p
    have hframe : http2SendFrame frame = bytes := h (frame, bytes) List.mem_cons_self
    have hrest := ih fun q hq => h q (List.mem_cons_of_mem _ hq)
    unfold Http.sentBytes Built.sent at hrest ⊢
    cases bytes with
    | none =>
      simp only [List.filterMap_cons, Option.map_none]
      exact hrest
    | some bytes =>
      simp only [List.filterMap_cons, Option.map_some, hframe]
      rw [hrest]

/-- The frames of a response are read back. -/
theorem roundTrips_response {response : Http2Response} {settings : Http2Settings}
    (hidentifier : 0 < response.streamIdentifier ∧ response.streamIdentifier < 2 ^ 31)
    (hmax : SettingsWithin (2 ^ 24) settings)
    (hpeer : settings.maxFrameSize ≤ peer.settings.maxFrameSize)
    (hsize : ¬ (settings.maxFrameSize = 2 ^ 24 ∧ 2 ^ 24 ≤ response.body.size)) :
    ∀ frame ∈ headerFrames response settings ++ dataFrames response settings,
      RoundTrips peer frame := by
  obtain ⟨hlow, hhigh⟩ := hmax.maxFrameSize
  intro frame hframe
  rcases List.mem_append.1 hframe with hframe | hframe
  · obtain ⟨fragment, hmem, rfl⟩ := List.mem_map.1 hframe
    have hle : fragment.content.length ≤ settings.maxFrameSize - 6 :=
      fragmentLoop_length_le _ _ fragment hmem
    have hfits : fragment.content.length < 2 ^ 24 := by omega
    have hfits' : fragment.content.length ≤ peer.settings.maxFrameSize := by omega
    unfold headerFrameOf
    split_ifs
    · exact roundTrips_headers ⟨hidentifier.1, hidentifier.2, rfl⟩ hfits hfits'
    · exact roundTrips_continuation hidentifier hfits hfits'
  · obtain ⟨fragment, hmem, rfl⟩ := List.mem_map.1 hframe
    have hle : fragment.content.length ≤ settings.maxFrameSize :=
      fragmentLoop_length_le _ _ fragment hmem
    have hpart : fragment.content.length ≤ response.body.bytes.length := by
      have hflat : ((fragments (getMaxDataContentSize settings)
          response.body.bytes).map Fragment.content).flatten = response.body.bytes :=
        fragmentLoop_flatten (show 0 < settings.maxFrameSize by omega) (by omega)
      have hsub := List.sublist_flatten_of_mem (List.mem_map_of_mem (f := Fragment.content) hmem)
      rw [hflat] at hsub
      exact hsub.length_le
    have hfits : fragment.content.length < 2 ^ 24 := by
      by_contra hge
      exact hsize ⟨by omega, by unfold SizedBuffer.size; omega⟩
    exact roundTrips_data hidentifier hfits (hle.trans hpeer)

/-- **A response at the client.** -/
theorem received_response {response : Http2Response} {block : Bytes}
    {fields : List HttpHeaderField} {decompressState : HpackDecompressState}
    (hidentifier : 0 < response.streamIdentifier ∧ response.streamIdentifier < 2 ^ 31)
    (hmax : SettingsWithin (2 ^ 24) context.settings)
    (hpeer : context.settings.maxFrameSize ≤ peer.settings.maxFrameSize)
    (hsize : ¬ (context.settings.maxFrameSize = 2 ^ 24 ∧ 2 ^ 24 ≤ response.body.size))
    (hempty : response.body.data ≠ some []) (hblock : response.hpackEncodedHeaders.bytes = block)
    (hne : block ≠ []) (hopen : client.openBlock = none)
    (hfresh : client.streams response.streamIdentifier = none)
    (hdecode : http2HpackDecompressData client.decompressState block =
      (decompressState, .ok fields)) :
    Received peer client (Http.sentBytes (sendHttp2ResponseToConnection response context)).flatten
      { decompressState := decompressState
        openBlock := none
        streams := Function.update client.streams response.streamIdentifier
          (some ⟨fields, response.body.bytes, true⟩) } := by
  obtain ⟨hlow, -⟩ := hmax.maxFrameSize
  rw [(sendHttp2ResponseToConnection_sound response context).sentBytes,
    sendHttp2ResponseToConnection_sent hmax, if_neg hsize]
  refine received_frames (roundTrips_response hidentifier hmax hpeer hsize) ?_
  have hn : 0 < getMaxHeadersOrContinuationContentsize context.settings := by
    unfold getMaxHeadersOrContinuationContentsize additionalHeadersDataSize
    omega
  rw [receiveAll_append, headerFrames, hblock, receiveAll_headers hn hne hopen hfresh,
    Client.endBlock, hdecode, Option.bind_some]
  cases hdata : response.body.data with
  | none =>
    have hbytes : response.body.bytes = [] := by rw [SizedBuffer.bytes, hdata]; rfl
    rw [dataFrames, hbytes]
    rfl
  | some body =>
    have hbytes : response.body.bytes ≠ [] := by
      rw [SizedBuffer.bytes, hdata]
      intro hnil
      have hnil' : body = [] := hnil
      exact hempty (by rw [hdata, hnil'])
    have hn' : 0 < getMaxDataContentSize context.settings := by
      unfold getMaxDataContentSize
      omega
    refine (receiveAll_datas hn' hbytes rfl (Function.update_self ..)).trans ?_
    rw [Function.update_idem]

/-! ## Connections -/

open Http

variable {Authority UrlPath : Type}

/-- What happens at the server. -/
inductive ServerEvent where
  /-- A round of `parse_http2_request`, on a frame of the client. -/
  | receive (frame : Http2Frame)
  /-- A response on a stream. -/
  | respond (streamIdentifier : ℕ) (compressionToUse : CompressionType)
    (toSend : HTTPResponseToSend)

/-- An event: the context after it, and what is written. -/
def serverStep (env : SendEnvironment) (uri : UriParser Authority UrlPath)
    (context : HTTP2Context) : ServerEvent → HTTP2Context × Bytes
  | .receive frame => ((requestStep uri context frame).1, (requestStepBytes context frame).flatten)
  | .respond streamIdentifier compressionToUse toSend =>
    match sendMessageToConnection env (.v2 context) toSend
        ⟨compressionToUse, .v2 streamIdentifier⟩ with
    | some ⟨.v2 context, sent⟩ => (context, sent.flatten)
    | _ => (context, [])

def serve (env : SendEnvironment) (uri : UriParser Authority UrlPath) :
    HTTP2Context → List ServerEvent → HTTP2Context × Bytes
  | context, [] => (context, [])
  | context, event :: events =>
    let (context, bytes) := serverStep env uri context event
    let (context, rest) := serve env uri context events
    (context, bytes ++ rest)

/-- The body of a response on the wire. -/
def sentBody (env : SendEnvironment) (compressionToUse : CompressionType)
    (toSend : HTTPResponseToSend) : SizedBuffer :=
  if toSend.body.sendBodyData then (compressBody env toSend.body.content compressionToUse).1
  else getEmptySizedBuffer

/-- What should arrive of a response. -/
def deliveredAs (env : SendEnvironment) (streamIdentifier : ℕ)
    (compressionToUse : CompressionType) (toSend : HTTPResponseToSend) : ClientStream :=
  let (body, formatUsed) := compressBody env toSend.body.content compressionToUse
  { fields := constructHttp2HeadersForRequest env ⟨compressionToUse, .v2 streamIdentifier⟩
      toSend.mimeType toSend.additionalHeaders formatUsed (toSend.body.contentSize body)
        toSend.status
    body := (sentBody env compressionToUse toSend).bytes
    ended := true }

/-- The stream of a response. -/
def ServerEvent.stream : ServerEvent → Option ℕ
  | .receive _ => none
  | .respond streamIdentifier _ _ => some streamIdentifier

/-- The response on a stream. -/
def responseOn (env : SendEnvironment) (streamIdentifier : ℕ) :
    List ServerEvent → Option ClientStream
  | [] => none
  | .receive _ :: events => responseOn env streamIdentifier events
  | .respond stream compressionToUse toSend :: events =>
    if stream = streamIdentifier then
      some (deliveredAs env streamIdentifier compressionToUse toSend)
    else responseOn env streamIdentifier events

/-- What is asked of an event: a frame of the client is no error, and a response has header fields
that the codec can carry, a body that ends its stream, and frames of a size the client accepts. -/
def Deliverable (env : SendEnvironment) (peer context : HTTP2Context) : ServerEvent → Prop
  | .receive frame => frame.Admitted ∧ (processHttp2Frame context frame).result.isError = false
  | .respond streamIdentifier compressionToUse toSend =>
    let compressState := context.state.hpackState.compressState
    let fields := (deliveredAs env streamIdentifier compressionToUse toSend).fields
    let body := sentBody env compressionToUse toSend
    (0 < streamIdentifier ∧ streamIdentifier < 2 ^ 31) ∧
      FieldsOk defaultCompressOptions compressState fields ∧
      (∀ block, (http2HpackCompressData compressState fields defaultCompressOptions).2 = .ok block →
        block.length < ptrdiffLimit) ∧
      body.data ≠ some [] ∧
      ¬ (context.settings.maxFrameSize = 2 ^ 24 ∧ 2 ^ 24 ≤ body.size) ∧
      context.settings.maxFrameSize ≤ peer.settings.maxFrameSize

variable {env : SendEnvironment} {uri : UriParser Authority UrlPath} {event : ServerEvent}
  {events : List ServerEvent}

/-- The state of the client after an event. -/
def Client.after (client : Client) (context : HTTP2Context) (env : SendEnvironment) :
    ServerEvent → Client
  | .receive _ => client
  | .respond streamIdentifier compressionToUse toSend =>
    { decompressState := context.state.hpackState.compressState
      openBlock := none
      streams := Function.update client.streams streamIdentifier
        (some (deliveredAs env streamIdentifier compressionToUse toSend)) }

/-- An acknowledgement changes nothing at the client. -/
theorem received_acknowledgement {frame : Http2Frame} (hpeer : 2 ^ 14 ≤ peer.settings.maxFrameSize)
    (hadmitted : frame.Admitted) (hopen : client.openBlock = none) :
    Received peer client ((acknowledgement frame).filterMap SentFrame.bytes).flatten client := by
  have hsettled : ∀ reply : Http2Frame, RoundTrips peer reply → client.receive reply = some client →
      Received peer client ([reply].filterMap http2SendFrame).flatten client := by
    intro reply hread hreceive
    refine received_frames (fun f hf => by rw [List.mem_singleton.1 hf]; exact hread) ?_
    rw [receiveAll_cons, hreceive]
    rfl
  cases frame with
  | settings settings =>
    unfold acknowledgement
    dsimp only
    split_ifs
    · exact .nil
    · refine hsettled (.settings ⟨true, []⟩) (roundTrips_settings rfl) ?_
      simp only [Client.receive, hopen, Option.isSome_none, Bool.false_eq_true, if_false]
  | ping ping =>
    unfold acknowledgement
    dsimp only
    split_ifs
    · exact .nil
    · have height : ping.opaqueData.length = http2PingFrameSize := hadmitted
      have hsize : ping.opaqueData.length ≤ peer.settings.maxFrameSize := by
        rw [height, http2PingFrameSize]
        omega
      refine hsettled (.ping ⟨true, ping.opaqueData⟩) (roundTrips_ping height hsize) ?_
      simp only [Client.receive, hopen, Option.isSome_none, Bool.false_eq_true, if_false]
  | _ => exact .nil

/-- **One event.** -/
theorem received_step (hpeer : 2 ^ 14 ≤ peer.settings.maxFrameSize)
    (hmax : SettingsWithin (2 ^ 24) context.settings) (hopen : client.openBlock = none)
    (hsync : client.decompressState = context.state.hpackState.compressState)
    (hfresh : ∀ id ∈ event.stream, client.streams id = none)
    (h : Deliverable env peer context event) :
    Received peer client (serverStep env uri context event).2
        (client.after (serverStep env uri context event).1 env event) ∧
      SettingsWithin (2 ^ 24) (serverStep env uri context event).1.settings ∧
      (client.after (serverStep env uri context event).1 env event).openBlock = none ∧
      (client.after (serverStep env uri context event).1 env event).decompressState =
        (serverStep env uri context event).1.state.hpackState.compressState := by
  cases event with
  | receive frame =>
    obtain ⟨hadmitted, hok⟩ := h
    have hbytes : (serverStep env uri context (.receive frame)).2 =
        ((acknowledgement frame).filterMap SentFrame.bytes).flatten :=
      congrArg List.flatten (requestStepBytes_quiet hok)
    refine ⟨?_, requestStep_within hmax hadmitted, hopen, ?_⟩
    · rw [hbytes]
      exact received_acknowledgement hpeer hadmitted hopen
    · exact hsync.trans (requestStep_compressState context frame).symm
  | respond streamIdentifier compressionToUse toSend =>
    obtain ⟨hidentifier, hfields, hlength, hempty, hsize, haccepts⟩ := h
    obtain ⟨compressState, block, hcompress, hdecompress⟩ := block_roundTrip hfields
    have hblock : block.length < ptrdiffLimit := hlength block (by rw [hcompress])
    have hne : block ≠ [] := by
      intro hnil
      rw [hnil] at hdecompress
      obtain ⟨state', bytes, hloop, hwritten⟩ := compressLoop_written hfields []
      rw [http2HpackCompressData_eq, hloop, List.nil_append, hnil] at hcompress
      have hbytes : bytes = [] := Except.ok.inj (Prod.mk.inj hcompress).2
      have hnone := hwritten.nil_of_nil hbytes
      cases hnone
    have hbytes := allocateFromReadonlyBuffer_bytes hblock
    have hsome : (sizedBufferAllocateFromReadonlyBuffer block).data.isNone = false := by
      rw [sizedBufferAllocateFromReadonlyBuffer, dif_pos hblock]
      rfl
    let response : Http2Response :=
      { hpackEncodedHeaders := sizedBufferAllocateFromReadonlyBuffer block
        body := sentBody env compressionToUse toSend
        streamIdentifier := streamIdentifier }
    have hconstruct : constructHttp2Response env context.state.hpackState.compressState toSend
        ⟨compressionToUse, .v2 streamIdentifier⟩ streamIdentifier =
          (compressState, .ok response) := by
      have hcompress' : http2HpackCompressData context.state.hpackState.compressState
          (constructHttp2HeadersForRequest env ⟨compressionToUse, .v2 streamIdentifier⟩
            toSend.mimeType toSend.additionalHeaders
            (compressBody env toSend.body.content compressionToUse).2
            (toSend.body.contentSize (compressBody env toSend.body.content compressionToUse).1)
            toSend.status) defaultCompressOptions = (compressState, .ok block) := hcompress
      unfold constructHttp2Response
      dsimp only
      rw [hcompress']
      dsimp only
      rw [hsome, if_neg Bool.false_ne_true]
      rfl
    have hstep : serverStep env uri context (.respond streamIdentifier compressionToUse toSend) =
        (context.setCompressState compressState, (sentBytes (sendHttp2ResponseToConnection response
          (context.setCompressState compressState))).flatten) := by
      unfold serverStep sendMessageToConnection sendMessageToConnectionHttp2
      dsimp only
      rw [hconstruct]
    rw [hstep]
    refine ⟨?_, hmax, rfl, rfl⟩
    have hdecode : http2HpackDecompressData client.decompressState block = (compressState,
        .ok (deliveredAs env streamIdentifier compressionToUse toSend).fields) := by
      rw [hsync]
      exact hdecompress
    have hmax' : SettingsWithin (2 ^ 24) (context.setCompressState compressState).settings := hmax
    exact received_response hidentifier hmax' haccepts hsize hempty hbytes hne hopen
      (hfresh streamIdentifier rfl) hdecode

theorem responseOn_of_not_mem (hid : identifier ∉ events.filterMap ServerEvent.stream) :
    responseOn env identifier events = none := by
  induction events with
  | nil => rfl
  | cons event events ih =>
    cases event with
    | receive frame => exact ih hid
    | respond stream compressionToUse toSend =>
      have hsplit : (ServerEvent.respond stream compressionToUse toSend :: events).filterMap
          ServerEvent.stream = stream :: events.filterMap ServerEvent.stream :=
        List.filterMap_cons_some rfl
      rw [hsplit, List.mem_cons, not_or] at hid
      rw [responseOn, if_neg (Ne.symm hid.1)]
      exact ih hid.2

/-- **The events of a connection**, one after the other. -/
theorem received_serve (hpeer : 2 ^ 14 ≤ peer.settings.maxFrameSize)
    (hmax : SettingsWithin (2 ^ 24) context.settings) (hopen : client.openBlock = none)
    (hsync : client.decompressState = context.state.hpackState.compressState)
    (hfresh : ∀ id ∈ events.filterMap ServerEvent.stream, client.streams id = none)
    (hnodup : (events.filterMap ServerEvent.stream).Nodup)
    (h : Along (fun context event => (serverStep env uri context event).1)
      (Deliverable env peer) context events) :
    Received peer client (serve env uri context events).2
      { decompressState := (serve env uri context events).1.state.hpackState.compressState
        openBlock := none
        streams := fun id => (responseOn env id events).or (client.streams id) } := by
  induction events generalizing client context with
  | nil =>
    obtain ⟨decompressState, openBlock, streams⟩ := client
    obtain rfl : openBlock = none := hopen
    obtain rfl : decompressState = context.state.hpackState.compressState := hsync
    exact .nil
  | cons event events ih =>
    have hfirst : ∀ id ∈ event.stream, client.streams id = none := by
      intro id hid
      refine hfresh id ?_
      rw [List.filterMap_cons_some hid]
      exact List.mem_cons_self
    obtain ⟨hreceived, hmax', hopen', hsync'⟩ := received_step hpeer hmax hopen hsync hfirst h.1
    have hrest : (events.filterMap ServerEvent.stream).Nodup ∧
        (∀ id ∈ events.filterMap ServerEvent.stream,
          (client.after (serverStep env uri context event).1 env event).streams id = none) ∧
        ∀ id, (responseOn env id events).or
            ((client.after (serverStep env uri context event).1 env event).streams id) =
          (responseOn env id (event :: events)).or (client.streams id) := by
      cases event with
      | receive frame => exact ⟨hnodup, hfresh, fun id => rfl⟩
      | respond stream compressionToUse toSend =>
        have hsplit : (ServerEvent.respond stream compressionToUse toSend :: events).filterMap
            ServerEvent.stream = stream :: events.filterMap ServerEvent.stream :=
          List.filterMap_cons_some rfl
        rw [hsplit] at hnodup hfresh
        obtain ⟨hnew, hnodup'⟩ := List.nodup_cons.1 hnodup
        refine ⟨hnodup', fun id hid => ?_, fun id => ?_⟩
        · have hne : id ≠ stream := fun heq => hnew (heq ▸ hid)
          exact (Function.update_of_ne hne ..).trans (hfresh id (List.mem_cons_of_mem _ hid))
        · by_cases hid : stream = id
          · rw [← hid, responseOn_of_not_mem hnew]
            simp only [responseOn, if_true, Option.none_or, Option.some_or]
            exact Function.update_self ..
          · simp only [responseOn, hid, if_false, Client.after]
            rw [Function.update_of_ne (Ne.symm hid)]
    have hlater := ih hmax' hopen' hsync' hrest.2.1 hrest.1 h.2
    rw [funext hrest.2.2] at hlater
    exact hreceived.append hlater

/-- **Every response arrives**, behind the start of a connection: a client that reads what the
server wrote since then, in any pieces, has for every response its header fields and its body, and
nothing else, and its HPACK table is the one of the server. -/
theorem responses_delivered (env : SendEnvironment) (uri : UriParser Authority UrlPath)
    (peer : HTTP2Context) (events : List ServerEvent)
    (hpeer : 2 ^ 14 ≤ peer.settings.maxFrameSize)
    (hstreams : (events.filterMap ServerEvent.stream).Nodup)
    (h : Along (fun context event => (serverStep env uri context event).1)
      (Deliverable env peer) http2DefaultContext events) :
    ∃ frames, ∀ reader, BufferedReader.Ready reader →
      reader.unread = (serve env uri http2DefaultContext events).2 →
      ∃ client reader', Client.start.read peer frames reader = some (client, reader') ∧
        reader'.unread = [] ∧ client.openBlock = none ∧
        (∀ id, client.streams id = responseOn env id events) ∧
        client.decompressState =
          (serve env uri http2DefaultContext events).1.state.hpackState.compressState := by
  have hmax : SettingsWithin (2 ^ 24) http2DefaultContext.settings := ⟨by decide, by decide⟩
  obtain ⟨frames, hframes⟩ : Received peer Client.start _ _ :=
    received_serve hpeer hmax rfl rfl (fun _ _ => rfl) hstreams h
  refine ⟨frames, fun reader hready hunread => ?_⟩
  obtain ⟨reader', hread, -, hend⟩ := hframes reader [] hready (by rw [hunread, List.append_nil])
  refine ⟨_, reader', hread, hend, rfl, fun id => ?_, rfl⟩
  exact Option.or_none ..

theorem length_lt_of_ok {result : Except Fault Bytes} {limit : ℕ}
    (h : (result.toOption.getD []).length < limit) :
    ∀ block, result = .ok block → block.length < limit := by
  intro block hblock
  rw [hblock] at h
  exact h

/-- No compressors. -/
def plainEnvironment : SendEnvironment :=
  ⟨fun _ _ => getEmptySizedBuffer, ascii "1.0", ascii "clear"⟩

/-- The client changes a setting and asks whether the server is there, before the answers to the
requests of two streams. -/
def twoResponses : List ServerEvent :=
  [.receive (.settings ⟨false, [⟨.maxFrameSize, 20000⟩]⟩),
    .respond 1 .none ⟨200, httpResponseBodyFromBytes (ascii "hello") true, none, []⟩,
    .receive (.ping ⟨false, ascii "are you?"⟩),
    .respond 3 .gzip ⟨404, httpResponseBodyEmpty, some (ascii "text/plain"), []⟩]

theorem twoResponses_delivered :
    ∃ frames, ∀ reader, BufferedReader.Ready reader →
      reader.unread = (serve plainEnvironment UriParser.plain http2DefaultContext twoResponses).2 →
      ∃ client reader', Client.start.read { http2DefaultContext with
          settings := { http2DefaultSettings with maxFrameSize := 20000 } } frames reader =
            some (client, reader') ∧
        reader'.unread = [] ∧ client.openBlock = none ∧
        (∀ id, client.streams id = responseOn plainEnvironment id twoResponses) ∧
        client.decompressState = (serve plainEnvironment UriParser.plain http2DefaultContext
          twoResponses).1.state.hpackState.compressState := by
  refine responses_delivered plainEnvironment UriParser.plain _ twoResponses (by decide) (by decide)
    ⟨⟨?_, rfl⟩, ⟨by decide, by decide +kernel, ?_, by decide, by decide +kernel, by decide +kernel⟩,
      ⟨rfl, rfl⟩,
      ⟨by decide, by decide +kernel, ?_, by decide, by decide +kernel, by decide +kernel⟩, trivial⟩
  · intro entry hentry
    rw [List.mem_singleton.1 hentry]
    rfl
  · exact length_lt_of_ok (by decide +kernel)
  · exact length_lt_of_ok (by decide +kernel)

end SimpleServer.Http2
