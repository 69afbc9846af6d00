import SimpleServer.Http.Server
import SimpleServer.Lib.Framing
import SimpleServer.Proof.FrameCodec
import SimpleServer.Proof.Segmentation

/-!
# What a connection of HTTP/2 carries

The bytes that the handler writes once the general context has become HTTP/2, over whole runs
and for every client and every service.

* `read_wrote`, `handle_wrote`: all functions that send on such a connection write frames, but
  for the answer to an error.
* `errorText_not_framed`: that answer is text, which no frame starts with.
* `startSettings_malformed`: the first frame has one byte for each setting instead of six.
* `http2_bytes`: **the frames are well formed exactly when the connection never speaks HTTP/2,
  and the bytes are frames at all exactly when no error is answered with a message.**
-/

namespace SimpleServer.Http

open Utils Hpack Http2 Lib

variable {Uri Authority UrlPath : Type} {service : Service Uri Authority UrlPath}
  {connection connection' : HttpConnection}

/-! ## Frames on the wire -/

/-- The bytes of one frame: a header with a known type, and as many bytes as it counts. -/
def IsFrame (bytes : Bytes) : Prop :=
  bytes.length = http2HeaderSize + (parseHttp2RawHeader bytes).length ∧
    (Http2FrameType.ofByte (parseHttp2RawHeader bytes).type).isSome

/-- The rules for the size and the stream of a frame. -/
def Admits (header : Http2RawHeader) : Http2FrameType → Prop
  | .data | .headers | .continuation => header.streamIdentifier ≠ 0
  | .priority => header.streamIdentifier ≠ 0 ∧ header.length = http2PriorityInfoSize
  | .rstStream => header.streamIdentifier ≠ 0 ∧ header.length = http2RstStreamSize
  | .settings =>
    header.streamIdentifier = 0 ∧ header.length % http2SettingsFrameSingleSize = 0 ∧
      (hasFlag header.flags flagAck → header.length = 0)
  | .pushPromise => header.streamIdentifier ≠ 0 ∧ 4 ≤ header.length
  | .ping => header.streamIdentifier = 0 ∧ header.length = http2PingFrameSize
  | .goaway => header.streamIdentifier = 0 ∧ goawayBaseSize ≤ header.length
  | .windowUpdate => header.length = http2WindowUpdateFrameSize

/-- The bytes of one frame that follows the rules of its type. -/
def IsWellFormedFrame (bytes : Bytes) : Prop :=
  IsFrame bytes ∧ ∀ type, Http2FrameType.ofByte (parseHttp2RawHeader bytes).type = some type →
    Admits (parseHttp2RawHeader bytes) type

theorem parseHttp2RawHeader_append {bytes : Bytes} (h : http2HeaderSize ≤ bytes.length)
    (rest : Bytes) : parseHttp2RawHeader (bytes ++ rest) = parseHttp2RawHeader bytes := by
  unfold http2HeaderSize at h
  have hlength : deserializeU24BeToHost (bytes ++ rest) = deserializeU24BeToHost bytes := by
    unfold deserializeU24BeToHost deserializeU32BeToHost
    rw [← List.cons_append, List.take_append_of_le_length]
    rw [List.length_cons]
    omega
  have hid : deserializeIdentifier ((bytes ++ rest).drop 5) =
      deserializeIdentifier (bytes.drop 5) := by
    unfold deserializeIdentifier deserializeU32BeToHost
    rw [List.drop_append_of_le_length (by omega), List.take_append_of_le_length]
    rw [List.length_drop]
    omega
  unfold parseHttp2RawHeader
  rw [hlength, hid, List.getD_append _ _ _ _ (by omega), List.getD_append _ _ _ _ (by omega)]

theorem isFrame_selfDelimiting : SelfDelimiting IsFrame := by
  intro frame frame' rest rest' hframe hframe' hstream
  have hsize : http2HeaderSize ≤ frame.length := by
    rw [hframe.1]
    exact Nat.le_add_right _ _
  have hsize' : http2HeaderSize ≤ frame'.length := by
    rw [hframe'.1]
    exact Nat.le_add_right _ _
  have hheader : parseHttp2RawHeader frame = parseHttp2RawHeader frame' := by
    rw [← parseHttp2RawHeader_append hsize rest, hstream, parseHttp2RawHeader_append hsize']
  have hlength : frame.length = frame'.length := by rw [hframe.1, hframe'.1, hheader]
  exact (List.append_inj hstream hlength).1

/-! ## Everything that is sent as a frame is one -/

/-- The header is read back up to the bits of the identifier that are not sent. -/
theorem parseHttp2RawHeader_headerBuffer (header : Http2RawHeader) :
    (parseHttp2RawHeader (headerBuffer header)).length = header.length ∧
      (parseHttp2RawHeader (headerBuffer header)).type = header.type := by
  obtain ⟨length, hfits, type, flags, identifier⟩ := header
  have hsame : headerBuffer ⟨length, hfits, type, flags, identifier⟩ =
      headerBuffer ⟨length, hfits, type, flags, identifier % 2 ^ 31⟩ := by
    unfold headerBuffer serializeIdentifier
    dsimp only
    rw [Nat.mod_mod]
  rw [hsame, parseHttp2RawHeader_buffer (Nat.mod_lt _ (by decide))]
  exact ⟨rfl, rfl⟩

theorem isFrame_sendRawFrame {header : Http2RawHeader} {data bytes : Bytes}
    (htype : (Http2FrameType.ofByte header.type).isSome)
    (h : http2SendRawFrame header data = some bytes) : IsFrame bytes := by
  obtain ⟨rfl, hlen⟩ := http2SendRawFrame_some h
  have hsize : http2HeaderSize ≤ (headerBuffer header).length := (headerBuffer_length header).ge
  obtain ⟨hlength, htype'⟩ := parseHttp2RawHeader_headerBuffer header
  unfold IsFrame
  rw [parseHttp2RawHeader_append hsize, hlength, htype', List.length_append,
    headerBuffer_length, hlen]
  exact ⟨rfl, htype⟩

theorem isFrame_goaway {frame : Http2GoawayFrame} {bytes : Bytes}
    (h : http2SendGoawayFrame frame = some bytes) : IsFrame bytes := by
  unfold http2SendGoawayFrame at h
  dsimp only at h
  split_ifs at h
  exact isFrame_sendRawFrame rfl h

theorem isFrame_settings {frame : Http2SettingsFrame} {bytes : Bytes}
    (h : http2SendSettingsFrame frame = some bytes) : IsFrame bytes := by
  unfold http2SendSettingsFrame at h
  dsimp only at h
  split_ifs at h
  · exact isFrame_sendRawFrame rfl h
  · exact isFrame_sendRawFrame rfl h

theorem isFrame_rstStream {frame : Http2RstStreamFrame} {bytes : Bytes}
    (h : http2SendRstStreamFrame frame = some bytes) : IsFrame bytes := by
  unfold http2SendRstStreamFrame at h
  exact isFrame_sendRawFrame rfl h

theorem isFrame_ping {frame : Http2PingFrame} {bytes : Bytes}
    (h : http2SendPingFrame frame = some bytes) : IsFrame bytes := by
  unfold http2SendPingFrame at h
  by_cases hsize : frame.opaqueData.length ≠ http2PingFrameSize
  · rw [if_pos hsize] at h
    cases h
  · rw [if_neg hsize] at h
    exact isFrame_sendRawFrame rfl h

theorem isFrame_headers {frame : Http2HeadersFrame} {bytes : Bytes}
    (h : http2SendHeadersFrame frame = some bytes) : IsFrame bytes := by
  unfold http2SendHeadersFrame at h
  by_cases hpriority : frame.priorityOpt.isSome
  · rw [if_pos hpriority] at h
    cases h
  · rw [if_neg hpriority] at h
    exact isFrame_sendRawFrame rfl h

theorem isFrame_sendFrame {frame : Http2Frame} {bytes : Bytes}
    (h : http2SendFrame frame = some bytes) : IsFrame bytes := by
  cases frame with
  | data frame =>
    unfold http2SendFrame http2SendDataFrame at h
    exact isFrame_sendRawFrame rfl h
  | headers frame => exact isFrame_headers h
  | rstStream frame => exact isFrame_rstStream h
  | settings frame => exact isFrame_settings h
  | ping frame => exact isFrame_ping h
  | goaway frame => exact isFrame_goaway h
  | continuation frame =>
    unfold http2SendFrame http2SendContinuationFrame at h
    exact isFrame_sendRawFrame rfl h
  | priority frame => cases h
  | pushPromise frame => cases h
  | windowUpdate frame => cases h

/-- Each of the chunks is a frame. -/
def AllFrames (chunks : List Bytes) : Prop := ∀ bytes ∈ chunks, IsFrame bytes

theorem AllFrames.append {chunks chunks' : List Bytes} (h : AllFrames chunks)
    (h' : AllFrames chunks') : AllFrames (chunks ++ chunks') := by
  intro bytes hmem
  rcases List.mem_append.1 hmem with hmem | hmem
  · exact h bytes hmem
  · exact h' bytes hmem

theorem allFrames_nil : AllFrames [] := nofun

theorem allFrames_toList {sent : Option Bytes} (h : ∀ bytes, sent = some bytes → IsFrame bytes) :
    AllFrames sent.toList := by
  intro bytes hmem
  exact h bytes (Option.mem_toList.1 hmem)

theorem allFrames_connectionError (context : HTTP2Context) (errorCode : Http2ErrorCode)
    (message : String) : AllFrames (http2SendConnectionError context errorCode message) :=
  allFrames_toList fun _ => isFrame_goaway

theorem allFrames_processed (processed : Processed) : AllFrames (processedBytes processed) := by
  intro bytes hmem
  obtain ⟨frame, -, hbytes⟩ := List.mem_filterMap.1 hmem
  cases frame with
  | rstStream frame => exact isFrame_rstStream hbytes
  | goaway frame => exact isFrame_goaway hbytes
  | settings frame => exact isFrame_settings hbytes
  | ping frame => exact isFrame_ping hbytes

theorem allFrames_preface (context : HTTP2Context) (frame : Http2Frame) :
    AllFrames (prefaceBytes context frame) := by
  unfold prefaceBytes
  split
  · exact allFrames_processed _
  · exact allFrames_nil

theorem allFrames_requestStep (context : HTTP2Context) (frame : Http2Frame) :
    AllFrames (requestStepBytes context frame) := by
  unfold requestStepBytes
  dsimp only
  refine (allFrames_processed _).append ?_
  split
  · split_ifs
    · exact allFrames_connectionError _ _ _
    · exact allFrames_nil
  · exact allFrames_nil

theorem allFrames_sendFrames (frames : List Http2Frame) :
    AllFrames (sentBytes (sendFrames frames)) := by
  induction frames with
  | nil => exact allFrames_nil
  | cons frame frames ih =>
    unfold sendFrames
    cases hsend : http2SendFrame frame with
    | none => exact allFrames_nil
    | some bytes =>
      intro bytes' hmem
      rcases List.mem_cons.1 hmem with rfl | hmem
      · exact isFrame_sendFrame hsend
      · exact ih bytes' hmem

theorem allFrames_response (response : Http2Response) (context : HTTP2Context) :
    AllFrames (sentBytes (sendHttp2ResponseToConnection response context)) := by
  have hheaders : AllFrames (sentBytes (http2SendHeaders response.streamIdentifier
      context.settings response.hpackEncodedHeaders response.body.data.isNone)) :=
    allFrames_sendFrames _
  unfold sendHttp2ResponseToConnection
  dsimp only
  split_ifs
  · exact hheaders
  · unfold sentBytes
    rw [List.filterMap_append]
    exact hheaders.append (allFrames_sendFrames _)
  · exact hheaders

/-- A response of HTTP/2 goes out in frames, or not at all. -/
theorem sendMessage_v2 {env : SendEnvironment} {generalContext : HTTPGeneralContext}
    {toSend : HTTPResponseToSend} {sendSettings : SendSettings} {sending : Sending}
    (hv2 : sendSettings.protocolData.isV2 = true)
    (h : sendMessageToConnection env generalContext toSend sendSettings = some sending) :
    AllFrames sending.sent := by
  unfold sendMessageToConnection at h
  split at h
  · split at h
    · cases h
      exact allFrames_nil
    · unfold sendMessageToConnectionHttp2 at h
      split at h
      · cases h
      · cases h
        exact allFrames_nil
      · cases h
        exact allFrames_response _ _
  · rename_i hdata
    cases hcase : sendSettings.protocolData with
    | v2 streamIdentifier => exact absurd hcase (hdata streamIdentifier)
    | v1Dot0 =>
      rw [hcase] at hv2
      cases hv2
    | v1Dot1 =>
      rw [hcase] at hv2
      cases hv2

theorem sendMessages_v2 {env : SendEnvironment} {sendSettings : SendSettings}
    {generalContext : HTTPGeneralContext} {messages : List HTTPResponseToSend} {sending : Sending}
    (hv2 : sendSettings.protocolData.isV2 = true)
    (h : sendMessages env sendSettings generalContext messages = some sending) :
    AllFrames sending.sent := by
  induction messages generalizing generalContext sending with
  | nil =>
    cases h
    exact allFrames_nil
  | cons toSend messages ih =>
    unfold sendMessages at h
    split at h
    · cases h
    · rename_i context sent hsend
      obtain ⟨rest, hrest, rfl⟩ := Option.map_eq_some_iff.1 h
      exact (sendMessage_v2 hv2 hsend).append (ih hrest)

/-! ## What a step writes -/

/-- Only frames were written between the two. -/
def Wrote (sent sent' : List Bytes) : Prop := ∃ chunks, sent' = sent ++ chunks ∧ AllFrames chunks

variable {sent sent' sent'' : List Bytes}

theorem Wrote.refl (sent : List Bytes) : Wrote sent sent :=
  ⟨[], (List.append_nil _).symm, allFrames_nil⟩

theorem Wrote.trans (h : Wrote sent sent') (h' : Wrote sent' sent'') : Wrote sent sent'' := by
  obtain ⟨chunks, rfl, hframes⟩ := h
  obtain ⟨chunks', rfl, hframes'⟩ := h'
  exact ⟨chunks ++ chunks', List.append_assoc _ _ _, hframes.append hframes'⟩

theorem wrote_write (connection : HttpConnection) {chunks : List Bytes} (h : AllFrames chunks) :
    Wrote connection.sentHttp2 (connection.write chunks).sentHttp2 := by
  unfold HttpConnection.write
  split
  · exact .refl _
  · exact ⟨chunks, rfl, h⟩

theorem readPrefaceFrame_wrote (service : Service Uri Authority UrlPath)
    (connection : HttpConnection) (context : HTTP2Context) :
    Wrote connection.sentHttp2 (readPrefaceFrame service connection context).1.sentHttp2 := by
  unfold readPrefaceFrame
  dsimp only
  split
  · exact wrote_write (connection.setContext _ _) (allFrames_connectionError _ _ _)
  · exact wrote_write (connection.setContext _ _) (allFrames_preface _ _)

theorem receivePrefaceWithMagic_wrote (service : Service Uri Authority UrlPath)
    (connection : HttpConnection) (context : HTTP2Context) :
    Wrote connection.sentHttp2
      (http2ReceivePrefaceWithMagic service connection context).1.sentHttp2 := by
  unfold http2ReceivePrefaceWithMagic
  split
  · dsimp only
    split_ifs
    · exact .refl _
    · exact readPrefaceFrame_wrote service (connection.setContext _ _) _
  · exact .refl _

/-- The list with the frame that the server starts with. -/
def withStartSettings (sent : List Bytes) : List Bytes :=
  sent ++ (http2SendSettingsFrame (getStartSettingsFrame http2DefaultContext).2).toList

theorem withStartSettings_wrote (sent : List Bytes) : Wrote sent (withStartSettings sent) :=
  ⟨_, rfl, allFrames_toList fun _ => isFrame_settings⟩

theorem startPreface_wrote (service : Service Uri Authority UrlPath) (connection : HttpConnection)
    (agreed : Bool) :
    Wrote (withStartSettings connection.sentHttp2)
      (startPreface service connection agreed).1.sentHttp2 := by
  have hread := readPrefaceFrame_wrote service (connection.sendStartSettings http2DefaultContext)
    (getStartSettingsFrame http2DefaultContext).1
  unfold startPreface
  dsimp only
  split
  · rename_i heq
    rw [heq] at hread
    exact hread
  · rename_i heq
    rw [heq] at hread
    exact hread

theorem processH2cUpgrade_wrote (service : Service Uri Authority UrlPath)
    (connection : HttpConnection) (request : Http1Request Uri) (settings : Bytes) :
    Wrote (withStartSettings connection.sentHttp2)
      (processH2cUpgrade service connection request settings).1.sentHttp2 := by
  unfold processH2cUpgrade
  dsimp only
  split
  · exact wrote_write (connection.sendStartSettings _) (allFrames_connectionError _ _ _)
  · rename_i frame hframe
    have hread := receivePrefaceWithMagic_wrote service
      (connection.sendStartSettings http2DefaultContext)
      (http2ApplySettingsFrame (getStartSettingsFrame http2DefaultContext).1 frame)
    split
    · rename_i heq
      rw [heq] at hread
      exact hread
    · rename_i heq
      rw [heq] at hread
      split
      · exact hread
      · exact hread

theorem parseHttp2RequestRound_wrote (service : Service Uri Authority UrlPath)
    (connection : HttpConnection) (context : HTTP2Context) :
    Wrote connection.sentHttp2
      (parseHttp2RequestRound service connection context).1.sentHttp2 := by
  unfold parseHttp2RequestRound
  dsimp only
  split
  · exact wrote_write (connection.setContext _ _) (allFrames_connectionError _ _ _)
  · have hwrote := fun context' reader frame =>
      wrote_write (connection.setContext context' reader) (allFrames_requestStep context frame)
    split
    all_goals exact hwrote _ _ _

/-- **Reading writes only frames** on HTTP/2. -/
theorem read_wrote (service : Service Uri Authority UrlPath) (connection : HttpConnection) :
    Wrote connection.sentHttp2 (readHttpRequest service connection).1.sentHttp2 := by
  unfold readHttpRequest
  split
  · exact parseHttp2RequestRound_wrote service connection _
  · split
    · exact .refl _
    · exact .refl _
    · rename_i reader agreed heq
      have hstart := startPreface_wrote service { connection with reader := reader } agreed
      exact (withStartSettings_wrote connection.sentHttp2).trans hstart
    · rename_i reader request settings heq
      unfold processHttp2UpgradeRequest
      exact (withStartSettings_wrote connection.sentHttp2).trans
        (processH2cUpgrade_wrote service _ request settings)
    · exact .refl _

/-! ## The context of the connection -/

/-- What the first request of a connection comes to. -/
inductive FirstResult (reader : HTTPReader) : HTTPReader × HttpOutcome Uri → Prop
  | ok {reader' : HTTPReader} (request : Http1Request Uri)
    (hcontext : reader'.generalContext = reader.generalContext) (hstate : reader'.state = .ended) :
    FirstResult reader (reader', .ok request)
  | error {reader' : HTTPReader} (e : HttpRequestError)
    (hcontext : reader'.generalContext = reader.generalContext)
    (hstate : reader'.state = reader.state ∨ httpReaderMoreAvailable reader' = false) :
    FirstResult reader (reader', .error e)
  | http2 {reader' : HTTPReader} {outcome : HttpOutcome Uri} (h : outcome.isHttp2 = true)
    (hstate : reader'.state = reader.state) : FirstResult reader (reader', outcome)

theorem startHttp2_result (p : HeadParser Uri) (reader : HTTPReader)
    (requestLine : HttpRequestLine Uri) (agreed : Bool) :
    FirstResult reader (startHttp2 p reader requestLine agreed) := by
  unfold startHttp2
  split
  · exact .error _ rfl (.inl rfl)
  · exact .http2 rfl rfl

theorem parseFirstHttp1Request_result (p : HeadParser Uri) (reader : HTTPReader)
    (requestLine : HttpRequestLine Uri) :
    FirstResult reader (parseFirstHttp1Request p reader requestLine) := by
  unfold parseFirstHttp1Request
  split
  · exact .error _ rfl (.inl rfl)
  · have houtcome := parseHttp1Request_outcome p requestLine reader.bufferedReader true
    split
    · exact .http2 rfl rfl
    · rename_i bufferedReader outcome hne heq
      rw [heq] at houtcome
      unfold checkNothingLeft
      by_cases hmore : bufferedReaderHasMoreData bufferedReader
      · rw [if_pos hmore]
        cases houtcome with
        | ok request => exact .ok request rfl rfl
        | upgrade request settings => exact absurd rfl (hne request settings)
        | error e => exact .error e rfl (.inr rfl)
      · rw [if_neg hmore]
        exact .error _ rfl (.inr rfl)

theorem parseFirstHttpRequest_result (p : HeadParser Uri) (reader : HTTPReader) :
    FirstResult reader (parseFirstHttpRequest p reader) := by
  -- the request line is read with a reader that differs only in its buffer
  have hbuffer : ∀ {bufferedReader : BufferedReader} {r : HTTPReader × HttpOutcome Uri},
      FirstResult { reader with bufferedReader := bufferedReader } r → FirstResult reader r := by
    intro bufferedReader r h
    cases h with
    | ok request hcontext hstate => exact .ok request hcontext hstate
    | error e hcontext hstate => exact .error e hcontext hstate
    | http2 h hstate => exact .http2 h hstate
  unfold parseFirstHttpRequest
  split
  dsimp only
  split
  · exact .error _ rfl (.inl rfl)
  · split
    · split_ifs
      · exact .error _ rfl (.inl rfl)
      · exact hbuffer (parseFirstHttp1Request_result p _ _)
    · exact hbuffer (startHttp2_result p _ _ true)
    · split_ifs
      · exact hbuffer (startHttp2_result p _ _ false)
      · exact hbuffer (parseFirstHttp1Request_result p _ _)

/-- Before the first request the connection speaks HTTP/1. -/
def Started (connection : HttpConnection) : Prop :=
  connection.reader.state = .empty →
    connection.phase = .request ∧ connection.reader.generalContext = .v1

/-- The results of `get_http_request` that the handler goes on with: the reader has read, and a
request of HTTP/1 comes from a connection that speaks it. -/
structure ReadResult (r : HttpConnection × RequestEvent Uri Authority UrlPath) : Prop where
  state : r.1.reader.state ≠ .empty
  ok : ∀ request protocolData, r.2 = .ok request protocolData →
    protocolData.isV2 = true ∨ r.1.reader.generalContext = .v1

@[simp] theorem write_state (connection : HttpConnection) (bytes : List Bytes) :
    (connection.write bytes).reader = connection.reader := by
  unfold HttpConnection.write
  split
  · rfl
  · rfl

theorem readPrefaceFrame_state (service : Service Uri Authority UrlPath)
    (connection : HttpConnection) (context : HTTP2Context) :
    (readPrefaceFrame service connection context).1.reader.state = connection.reader.state := by
  unfold readPrefaceFrame
  dsimp only
  split
  · rw [write_state]
    rfl
  · rw [write_state]
    rfl

theorem receivePrefaceWithMagic_state (service : Service Uri Authority UrlPath)
    (connection : HttpConnection) (context : HTTP2Context) :
    (http2ReceivePrefaceWithMagic service connection context).1.reader.state =
      connection.reader.state := by
  unfold http2ReceivePrefaceWithMagic
  split
  · dsimp only
    split_ifs
    · rfl
    · exact readPrefaceFrame_state service (connection.setContext _ _) _
  · rfl

theorem sendStartSettings_state (connection : HttpConnection) (context : HTTP2Context) :
    (connection.sendStartSettings context).reader.state = connection.reader.state := by
  unfold HttpConnection.sendStartSettings
  dsimp only
  rw [write_state]
  rfl

theorem startPreface_result (service : Service Uri Authority UrlPath) {connection : HttpConnection}
    (agreed : Bool) (h : connection.reader.state ≠ .empty) :
    ReadResult (startPreface service connection agreed) := by
  have hstate := (readPrefaceFrame_state service
    (connection.sendStartSettings http2DefaultContext)
    (getStartSettingsFrame http2DefaultContext).1).trans (sendStartSettings_state _ _)
  unfold startPreface
  dsimp only
  split
  · rename_i heq
    rw [heq] at hstate
    exact ⟨hstate.trans_ne h, nofun⟩
  · rename_i heq
    rw [heq] at hstate
    exact ⟨hstate.trans_ne h, nofun⟩

theorem processH2cUpgrade_result (service : Service Uri Authority UrlPath)
    {connection : HttpConnection} (request : Http1Request Uri) (settings : Bytes)
    (h : connection.reader.state ≠ .empty) :
    ReadResult (processH2cUpgrade service connection request settings) := by
  have hstart := sendStartSettings_state connection http2DefaultContext
  unfold processH2cUpgrade
  dsimp only
  split
  · refine ⟨?_, nofun⟩
    rw [write_state]
    exact hstart.trans_ne h
  · rename_i frame hframe
    have hstate := (receivePrefaceWithMagic_state service
      (connection.sendStartSettings http2DefaultContext)
      (http2ApplySettingsFrame (getStartSettingsFrame http2DefaultContext).1 frame)).trans hstart
    split
    · rename_i heq
      rw [heq] at hstate
      exact ⟨hstate.trans_ne h, nofun⟩
    · rename_i heq
      rw [heq] at hstate
      split
      · exact ⟨hstate.trans_ne h, nofun⟩
      · refine ⟨hstate.trans_ne h, ?_⟩
        rintro _ _ ⟨⟩
        exact .inl rfl

theorem parseHttp2RequestRound_result (service : Service Uri Authority UrlPath)
    {connection : HttpConnection} (context : HTTP2Context) (h : connection.reader.state ≠ .empty) :
    ReadResult (parseHttp2RequestRound service connection context) := by
  unfold parseHttp2RequestRound
  dsimp only
  split
  · refine ⟨?_, nofun⟩
    rw [write_state]
    exact h
  · split
    all_goals
      refine ⟨?_, ?_⟩
      · rw [write_state]
        exact h
    · nofun
    · rintro _ _ ⟨⟩
      exact .inl rfl
    · nofun
    · nofun
    · nofun

/-- A reader that was used is not empty, and a request of HTTP/1 is the only one of its
connection. -/
theorem getHttpRequest_result (p : HeadParser Uri) (reader : HTTPReader) :
    (getHttpRequest p reader).1.state ≠ .empty ∧
      ∀ request, (getHttpRequest p reader).2 = .ok request →
        reader.state = .empty ∧ (getHttpRequest p reader).1.state = .ended ∧
          (getHttpRequest p reader).1.generalContext = reader.generalContext := by
  unfold getHttpRequest
  split
  · rename_i hempty
    have hfirst := parseFirstHttpRequest_result p { reader with state := .reading }
    generalize parseFirstHttpRequest p { reader with state := .reading } = r at hfirst
    cases hfirst with
    | ok request hcontext hstate =>
      dsimp only
      rw [hstate]
      exact ⟨nofun, fun _ _ => ⟨hempty, rfl, hcontext⟩⟩
    | @error reader' e hcontext hstate =>
      refine ⟨?_, nofun⟩
      intro hempty'
      rcases hstate with hstate | hstate
      · rw [hempty'] at hstate
        cases hstate
      · unfold httpReaderMoreAvailable at hstate
        rw [hempty'] at hstate
        cases hstate
    | http2 h hstate =>
      dsimp only
      rw [hstate]
      refine ⟨nofun, ?_⟩
      rintro request rfl
      cases h
  · rename_i hreading
    split
    · exact ⟨hreading.trans_ne nofun, nofun⟩
    · exact ⟨hreading.trans_ne nofun, nofun⟩
  · rename_i hended
    exact ⟨hended.trans_ne nofun, nofun⟩
  · rename_i herror
    exact ⟨herror.trans_ne nofun, nofun⟩

/-- What `get_http_request` comes to, on a connection that has started. -/
theorem read_result (service : Service Uri Authority UrlPath) (h : Started connection) :
    ReadResult (readHttpRequest service connection) := by
  obtain ⟨hstate, hok⟩ := getHttpRequest_result service.headParser connection.reader
  unfold readHttpRequest
  split
  · rename_i context hphase hcontext
    refine parseHttp2RequestRound_result service context ?_
    intro hempty
    rw [(h hempty).1] at hphase
    cases hphase
  · split
    · rename_i reader request heq
      rw [heq] at hstate hok
      obtain ⟨hempty, -, hcontext⟩ := hok request rfl
      refine ⟨hstate, ?_⟩
      rintro _ _ -
      exact .inr (hcontext.trans (h hempty).2)
    · rename_i reader e heq
      rw [heq] at hstate
      exact ⟨hstate, nofun⟩
    · rename_i reader agreed heq
      rw [heq] at hstate
      exact startPreface_result service agreed hstate
    · rename_i reader request settings heq
      rw [heq] at hstate
      exact processH2cUpgrade_result service request settings hstate
    · rename_i reader heq
      rw [heq] at hstate
      exact ⟨hstate, nofun⟩

/-! ## The answers -/

/-- The next step answers an error on HTTP/2, and not with a GOAWAY. -/
def AnswersInText (service : Service Uri Authority UrlPath) (connection : HttpConnection) : Prop :=
  (connection.phase = .request ∨ connection.phase = .frame) ∧
    ∃ e context, (readHttpRequest service connection).2 = .error e ∧
      e ≠ .enumValue .invalidHttp2Preface ∧
      (readHttpRequest service connection).1.reader.generalContext = .v2 context

/-- The text that an error is answered with. -/
def errorText (service : Service Uri Authority UrlPath) (e : HttpRequestError) : Bytes :=
  http1ResponseConcat (constructHttp1Response service.toSendEnvironment
    (errorResponse service.date true e) defaultSendSettings)

theorem handleRequestEvent_reader (service : Service Uri Authority UrlPath)
    (connection : HttpConnection) (event : RequestEvent Uri Authority UrlPath) :
    (handleRequestEvent service connection event).reader.state = connection.reader.state := by
  cases event with
  | readOn => rfl
  | undefined => rfl
  | closeConnection => rfl
  | error e =>
    unfold handleRequestEvent
    dsimp only
    split
    · rfl
    · rfl
  | ok request protocolData =>
    unfold handleRequestEvent
    dsimp only
    split
    · rfl
    · split_ifs
      · rfl
      · rfl

theorem processHttpError_eq (service : Service Uri Authority UrlPath) {e : HttpRequestError}
    (he : e ≠ .enumValue .invalidHttp2Preface) (generalContext : HTTPGeneralContext) :
    processHttpError service.toSendEnvironment service.date e generalContext
      defaultSendSettings true = some ⟨generalContext, [errorText service e]⟩ := by
  unfold processHttpError
  rw [if_neg he]
  rfl

/-- On a connection of HTTP/1 nothing is written on HTTP/2. -/
theorem sending_v1 {sending : Sending} (h : connection.reader.generalContext = .v1) :
    (connection.sending sending).sentHttp2 = connection.sentHttp2 := by
  unfold HttpConnection.sending HttpConnection.write
  rw [h]

theorem sending_v2 {sending : Sending} {context : HTTP2Context}
    (h : connection.reader.generalContext = .v2 context) :
    (connection.sending sending).sentHttp2 = connection.sentHttp2 ++ sending.sent := by
  unfold HttpConnection.sending HttpConnection.write
  rw [h]

theorem sending_wrote {sending : Sending} (h : AllFrames sending.sent) :
    Wrote connection.sentHttp2 (connection.sending sending).sentHttp2 := by
  cases hcontext : connection.reader.generalContext with
  | v1 =>
    rw [sending_v1 hcontext]
    exact .refl _
  | v2 context =>
    rw [sending_v2 hcontext]
    exact ⟨sending.sent, rfl, h⟩

/-- **The handler writes only frames** on HTTP/2, but for the answer to an error. -/
theorem handle_wrote (service : Service Uri Authority UrlPath)
    {event : RequestEvent Uri Authority UrlPath} (h : ReadResult (connection, event))
    (hevent : ∀ e context, event = .error e → e ≠ .enumValue .invalidHttp2Preface →
      connection.reader.generalContext ≠ .v2 context) :
    Wrote connection.sentHttp2 (handleRequestEvent service connection event).sentHttp2 := by
  cases event with
  | readOn => exact .refl _
  | undefined => exact .refl _
  | closeConnection => exact .refl _
  | error e =>
    unfold handleRequestEvent
    dsimp only
    by_cases he : e = .enumValue .invalidHttp2Preface
    · unfold processHttpError
      rw [if_pos he]
      split
      · exact .refl _
      · rename_i sending hsending
        have hframes : AllFrames sending.sent := by
          split at hsending
          · cases hsending
          · rename_i context hcontext
            cases hsending
            dsimp only
            exact allFrames_connectionError context _ _
        exact sending_wrote hframes
    · rw [processHttpError_eq service he]
      have hv1 : connection.reader.generalContext = .v1 := by
        cases hcontext : connection.reader.generalContext with
        | v1 => rfl
        | v2 context => exact absurd hcontext (hevent e context rfl he)
      dsimp only
      rw [sending_v1 hv1]
      exact .refl _
  | ok request protocolData =>
    have hsend : ∀ {sending : Sending}, sendMessages service.toSendEnvironment
        (getSendSettings service request protocolData) connection.reader.generalContext
        (service.processHttpRequest request).1 = some sending →
        Wrote connection.sentHttp2 (connection.sending sending).sentHttp2 := by
      intro sending hsending
      rcases h.ok request protocolData rfl with hv2 | hv1
      · exact sending_wrote (sendMessages_v2 hv2 hsending)
      · rw [sending_v1 hv1]
        exact .refl _
    unfold handleRequestEvent
    dsimp only
    split
    · exact .refl _
    · rename_i sending hsending
      split_ifs
      · exact hsend hsending
      · exact hsend hsending

/-- Whatever the handler does, it goes on writing behind what was written. -/
theorem handle_append (service : Service Uri Authority UrlPath) (connection : HttpConnection)
    (event : RequestEvent Uri Authority UrlPath) :
    ∃ chunks, (handleRequestEvent service connection event).sentHttp2 =
      connection.sentHttp2 ++ chunks := by
  have hsending : ∀ sending : Sending, ∃ chunks,
      (connection.sending sending).sentHttp2 = connection.sentHttp2 ++ chunks := by
    intro sending
    cases hcontext : connection.reader.generalContext with
    | v1 => exact ⟨[], by rw [sending_v1 hcontext, List.append_nil]⟩
    | v2 context => exact ⟨sending.sent, sending_v2 hcontext⟩
  have hnothing : ∃ chunks, connection.sentHttp2 = connection.sentHttp2 ++ chunks :=
    ⟨[], (List.append_nil _).symm⟩
  cases event with
  | readOn => exact hnothing
  | undefined => exact hnothing
  | closeConnection => exact hnothing
  | error e =>
    unfold handleRequestEvent
    dsimp only
    split
    · exact hnothing
    · exact hsending _
  | ok request protocolData =>
    unfold handleRequestEvent
    dsimp only
    split
    · exact hnothing
    · split_ifs
      · exact hsending _
      · exact hsending _

/-! ## Steps -/

theorem step_eq (service : Service Uri Authority UrlPath)
    (h : connection.phase = .request ∨ connection.phase = .frame) :
    httpConnectionStep service connection =
      handleRequestEvent service (readHttpRequest service connection).1
        (readHttpRequest service connection).2 := by
  unfold httpConnectionStep
  rcases h with h | h
  · rw [h]
  · rw [h]

theorem step_done (service : Service Uri Authority UrlPath)
    (h : ¬ (connection.phase = .request ∨ connection.phase = .frame)) :
    httpConnectionStep service connection = connection := by
  unfold httpConnectionStep
  cases hphase : connection.phase with
  | request => exact absurd (.inl hphase) h
  | frame => exact absurd (.inr hphase) h
  | closed => rfl
  | undefined => rfl

theorem step_started (service : Service Uri Authority UrlPath) (h : Started connection) :
    Started (httpConnectionStep service connection) := by
  by_cases hopen : connection.phase = .request ∨ connection.phase = .frame
  · rw [step_eq service hopen]
    intro hempty
    rw [handleRequestEvent_reader] at hempty
    exact absurd hempty (read_result service h).state
  · rw [step_done service hopen]
    exact h

/-- **A step that answers no error with a message** writes only frames on HTTP/2. -/
theorem step_wrote (service : Service Uri Authority UrlPath) (h : Started connection)
    (hanswer : ¬ AnswersInText service connection) :
    Wrote connection.sentHttp2 (httpConnectionStep service connection).sentHttp2 := by
  by_cases hopen : connection.phase = .request ∨ connection.phase = .frame
  · rw [step_eq service hopen]
    refine (read_wrote service connection).trans (handle_wrote service (read_result service h) ?_)
    intro e context hevent he hcontext
    exact hanswer ⟨hopen, e, context, hevent, he, hcontext⟩
  · rw [step_done service hopen]
    exact .refl _

/-- A step that does writes a text behind the frames. -/
theorem step_text (service : Service Uri Authority UrlPath)
    (hanswer : AnswersInText service connection) :
    ∃ chunks e, AllFrames chunks ∧ (httpConnectionStep service connection).sentHttp2 =
      connection.sentHttp2 ++ chunks ++ [errorText service e] := by
  obtain ⟨hopen, e, context, hevent, he, hcontext⟩ := hanswer
  obtain ⟨chunks, hchunks, hframes⟩ := read_wrote service connection
  refine ⟨chunks, e, hframes, ?_⟩
  rw [step_eq service hopen, hevent]
  unfold handleRequestEvent
  dsimp only
  rw [processHttpError_eq service he]
  dsimp only
  rw [sending_v2 hcontext, hchunks]

/-! ## Runs -/

section Runs

variable (service : Service Uri Authority UrlPath) (protocol : ProtocolSelected)
  (incoming : List Incoming)

theorem handler_succ (steps : ℕ) :
    httpSocketConnectionHandler service protocol incoming (steps + 1) =
      httpConnectionStep service (httpSocketConnectionHandler service protocol incoming steps) :=
  Function.iterate_succ_apply' _ _ _

theorem handler_started (steps : ℕ) :
    Started (httpSocketConnectionHandler service protocol incoming steps) := by
  induction steps with
  | zero => exact fun _ => ⟨rfl, rfl⟩
  | succ steps ih =>
    rw [handler_succ]
    exact step_started service ih

end Runs

/-! ## The answer to an error -/

/-- No frame starts as a response of HTTP/1 does: the fourth byte is no type. -/
theorem not_framed_http (rest : Bytes) : ¬ Framed IsFrame (ascii "HTTP" ++ rest) := by
  intro h
  generalize hstream : ascii "HTTP" ++ rest = stream at h
  cases h with
  | nil => cases hstream
  | @cons frame after hframe _ =>
    have hsize : 3 < frame.length := by
      rw [hframe.1]
      unfold http2HeaderSize
      omega
    have htype : (parseHttp2RawHeader frame).type = 0x50 := by
      have hfourth : frame.getD 3 0 = (ascii "HTTP" ++ rest).getD 3 0 := by
        rw [hstream, List.getD_append _ _ _ _ hsize]
      exact hfourth
    have hknown := hframe.2
    rw [htype] at hknown
    cases hknown

/-- **The answer to an error is no frame.** -/
theorem errorText_not_framed (service : Service Uri Authority UrlPath) (e : HttpRequestError) :
    ¬ Framed IsFrame (errorText service e) := by
  unfold errorText http1ResponseConcat
  simp only [List.append_assoc]
  exact not_framed_http _

/-! ## The first frame -/

/-- The frame that the server starts with: one setting, and one byte for it. -/
def startSettings : Bytes := [0x00, 0x00, 0x01, 0x04, 0x00, 0x00, 0x00, 0x00, 0x00, 0x00]

theorem withStartSettings_eq (sent : List Bytes) :
    withStartSettings sent = sent ++ [startSettings] := rfl

theorem startSettings_isFrame : IsFrame startSettings := by
  unfold IsFrame
  decide

/-- **The first frame is malformed.** -/
theorem startSettings_malformed : ¬ IsWellFormedFrame startSettings := by
  rintro ⟨-, hadmits⟩
  exact absurd (hadmits .settings rfl).2.1 (by decide)

/-- The first request hands the connection over to HTTP/2. -/
def BecomesHttp2 (service : Service Uri Authority UrlPath) (protocol : ProtocolSelected)
    (incoming : List Incoming) : Prop :=
  (getHttpRequest service.headParser
    (initializeHttpReaderFromConnection protocol incoming)).2.isHttp2 = true

section First

variable {protocol : ProtocolSelected} {incoming : List Incoming}

/-- Which connections these are, by the bytes of the client alone. -/
theorem becomesHttp2_iff {stream : Bytes} (cut : Cut stream) :
    BecomesHttp2 service protocol cut.incoming ↔
      (firstOf service.headParser protocol stream).outcome.isHttp2 = true := by
  have hspec := firstRequest_spec service.headParser protocol cut
  change (firstRequest service.headParser protocol cut).2.isHttp2 = true ↔ _
  cases hchecked : (firstOf service.headParser protocol stream).checked with
  | false =>
    have houtcome := congrArg Prod.fst (hspec.final hchecked)
    unfold observed at houtcome
    dsimp only at houtcome
    rw [houtcome]
  | true =>
    obtain ⟨hhttp1, reader, hreader, -, -⟩ := hspec.checked hchecked
    have hresult : (checkNothingLeft reader
        (firstOf service.headParser protocol stream).outcome).2.isHttp2 = false := by
      unfold checkNothingLeft
      by_cases hmore : bufferedReaderHasMoreData reader.bufferedReader
      · rw [if_pos hmore]
        exact hhttp1
      · rw [if_neg hmore]
        rfl
    rw [hreader, hresult, hhttp1]

/-- The first request of a connection. -/
theorem handler_one :
    httpSocketConnectionHandler service protocol incoming 1 =
      handleRequestEvent service
        (readHttpRequest service (httpSocketConnection protocol incoming)).1
        (readHttpRequest service (httpSocketConnection protocol incoming)).2 := by
  rw [handler_succ]
  change httpConnectionStep service (httpSocketConnection protocol incoming) = _
  rw [step_eq service (.inl rfl)]

theorem handler_http2 (h : BecomesHttp2 service protocol incoming) :
    ∃ chunks, (httpSocketConnectionHandler service protocol incoming 1).sentHttp2 =
      startSettings :: chunks := by
  have hread : ∃ chunks, (readHttpRequest service
      (httpSocketConnection protocol incoming)).1.sentHttp2 = startSettings :: chunks := by
    unfold BecomesHttp2 at h
    unfold readHttpRequest httpSocketConnection
    dsimp only
    split
    · rename_i heq
      rw [heq] at h
      cases h
    · rename_i heq
      rw [heq] at h
      cases h
    · obtain ⟨chunks, hchunks, -⟩ := startPreface_wrote service
        ⟨.request, _, [], []⟩ _
      rw [withStartSettings_eq] at hchunks
      exact ⟨chunks, hchunks⟩
    · obtain ⟨chunks, hchunks, -⟩ := processH2cUpgrade_wrote service
        ⟨.request, _, _, []⟩ _ _
      rw [withStartSettings_eq] at hchunks
      exact ⟨chunks, hchunks⟩
    · rename_i heq
      rw [heq] at h
      cases h
  obtain ⟨chunks, hchunks⟩ := hread
  obtain ⟨answer, hanswer⟩ := handle_append service
    (readHttpRequest service (httpSocketConnection protocol incoming)).1
    (readHttpRequest service (httpSocketConnection protocol incoming)).2
  refine ⟨chunks ++ answer, ?_⟩
  rw [handler_one, hanswer, hchunks, List.cons_append]

/-- The connection is done, and nothing was written on HTTP/2. -/
def DoneHttp1 (connection : HttpConnection) : Prop :=
  connection.sentHttp2 = [] ∧ ¬ (connection.phase = .request ∨ connection.phase = .frame)

theorem handleError_http1 (service : Service Uri Authority UrlPath) (e : HttpRequestError)
    (hcontext : connection.reader.generalContext = .v1) (hsent : connection.sentHttp2 = []) :
    DoneHttp1 (handleRequestEvent service connection (.error e)) := by
  unfold handleRequestEvent
  dsimp only
  split
  · exact ⟨hsent, nofun⟩
  · refine ⟨?_, nofun⟩
    exact (sending_v1 hcontext).trans hsent

theorem handleOk_http1 (service : Service Uri Authority UrlPath)
    (request : AnyRequest Uri Authority UrlPath) (protocolData : HttpProtocolData)
    (hcontext : connection.reader.generalContext = .v1) (hsent : connection.sentHttp2 = [])
    (hstate : connection.reader.state = .ended) :
    DoneHttp1 (handleRequestEvent service connection (.ok request protocolData)) := by
  have hmore : httpReaderMoreAvailable connection.reader = false := by
    unfold httpReaderMoreAvailable
    rw [hstate]
  unfold handleRequestEvent
  dsimp only
  split
  · exact ⟨hsent, nofun⟩
  · rw [hmore, if_neg (by simp)]
    refine ⟨?_, nofun⟩
    exact (sending_v1 hcontext).trans hsent

/-- A first request of HTTP/1 is the only one. -/
theorem handler_http1 (h : ¬ BecomesHttp2 service protocol incoming) :
    DoneHttp1 (httpSocketConnectionHandler service protocol incoming 1) := by
  have hfirst : FirstResult ⟨protocol, getBufferedReader incoming, .reading, .v1⟩
      (getHttpRequest service.headParser
        (initializeHttpReaderFromConnection protocol incoming)) :=
    parseFirstHttpRequest_result service.headParser _
  rw [handler_one]
  unfold BecomesHttp2 at h
  unfold readHttpRequest httpSocketConnection
  dsimp only
  generalize getHttpRequest service.headParser
    (initializeHttpReaderFromConnection protocol incoming) = r at h hfirst
  cases hfirst with
  | ok request hcontext hstate => exact handleOk_http1 service _ _ hcontext rfl hstate
  | error e hcontext hstate => exact handleError_http1 service e hcontext rfl
  | http2 hhttp2 hstate => exact absurd hhttp2 h

theorem handler_done {steps : ℕ}
    (h : DoneHttp1 (httpSocketConnectionHandler service protocol incoming 1)) :
    DoneHttp1 (httpSocketConnectionHandler service protocol incoming (steps + 1)) := by
  induction steps with
  | zero => exact h
  | succ steps ih =>
    rw [handler_succ, step_done service ih.2]
    exact ih

end First

/-! ## The bytes of a connection -/

/-- Everything written on HTTP/2 is a concatenation of frames of this kind, at every time. -/
def AlwaysFramed (Kind : Bytes → Prop) (service : Service Uri Authority UrlPath)
    (protocol : ProtocolSelected) (incoming : List Incoming) : Prop :=
  ∀ steps, Framed Kind
    (httpSocketConnectionHandler service protocol incoming steps).sentHttp2.flatten

section Bytes

variable (service : Service Uri Authority UrlPath) (protocol : ProtocolSelected)
  (incoming : List Incoming)

theorem alwaysWellFormed_iff :
    AlwaysFramed IsWellFormedFrame service protocol incoming ↔
      ¬ BecomesHttp2 service protocol incoming := by
  constructor
  · intro hall hhttp2
    obtain ⟨chunks, hchunks⟩ := handler_http2 hhttp2
    have hone := hall 1
    rw [hchunks, List.flatten_cons] at hone
    exact startSettings_malformed (hone.first isFrame_selfDelimiting (fun h => h.1)
      startSettings_isFrame nofun)
  · intro hhttp1 steps
    cases steps with
    | zero => exact .nil
    | succ steps =>
      rw [(handler_done (handler_http1 hhttp1)).1]
      exact .nil

theorem alwaysFramed_iff :
    AlwaysFramed IsFrame service protocol incoming ↔
      ∀ steps, ¬ AnswersInText service
        (httpSocketConnectionHandler service protocol incoming steps) := by
  constructor
  · intro hall steps hanswer
    obtain ⟨chunks, e, hframes, hsent⟩ := step_text service hanswer
    have hafter := hall (steps + 1)
    rw [handler_succ, hsent, List.append_assoc, List.flatten_append, List.flatten_append,
      List.flatten_singleton] at hafter
    have hchunks : Framed IsFrame chunks.flatten :=
      Framed.flatten fun bytes hmem => .single (hframes bytes hmem)
    exact errorText_not_framed service e
      (hchunks.cancel isFrame_selfDelimiting ((hall steps).cancel isFrame_selfDelimiting hafter))
  · intro hanswer steps
    induction steps with
    | zero => exact .nil
    | succ steps ih =>
      obtain ⟨chunks, hsent, hframes⟩ :=
        step_wrote service (handler_started service protocol incoming steps) (hanswer steps)
      rw [handler_succ, hsent, List.flatten_append]
      exact ih.append (Framed.flatten fun bytes hmem => .single (hframes bytes hmem))

/-- **What a connection of HTTP/2 carries.** Its frames are all well formed exactly when there
are none, because the connection never becomes HTTP/2, which the bytes of the client decide. Its
bytes are frames at all, well formed or not, exactly when no step answers an error with a
message. -/
theorem http2_bytes :
    (AlwaysFramed IsWellFormedFrame service protocol incoming ↔
        ¬ BecomesHttp2 service protocol incoming) ∧
      (∀ (stream : Bytes) (cut : Cut stream), BecomesHttp2 service protocol cut.incoming ↔
        (firstOf service.headParser protocol stream).outcome.isHttp2 = true) ∧
      (AlwaysFramed IsFrame service protocol incoming ↔
        ∀ steps, ¬ AnswersInText service
          (httpSocketConnectionHandler service protocol incoming steps)) :=
  ⟨alwaysWellFormed_iff service protocol incoming, fun _ cut => becomesHttp2_iff cut,
    alwaysFramed_iff service protocol incoming⟩

end Bytes

/-- A service that answers everything alike. -/
def plainService : Service Bytes Bytes Bytes where
  compressBufferWith _ _ := getEmptySizedBuffer
  versionString := ascii "0.0.1"
  altSvcConstantData := ascii "h2=\"443\""
  headParser := .plain
  uriParser := .plain
  processHttpRequest _ := ([⟨200, httpResponseBodyFromBytes (ascii "ok") true, none, []⟩], .none)
  compressionToUse _ := .none
  date := none
  behind _ := []

/-- A client that sends the preface, empty settings, and a request without a path. -/
def requestWithoutPath : Bytes :=
  http2ClientPreface ++ [0x00, 0x00, 0x00, 0x04, 0x00, 0x00, 0x00, 0x00, 0x00] ++
    [0x00, 0x00, 0x01, 0x01, 0x05, 0x00, 0x00, 0x00, 0x01, 0x82]

/-- Its answer. -/
def pathMissing : Bytes :=
  ascii ("HTTP/1.1 400 Bad Request\r\ncontent-type: text/plain\r\ncontent-length: 49\r\n" ++
    "connection: close\r\nserver: Simple C HTTP Server: v0.0.1\r\nalt-svc: h2=\"443\"\r\n\r\n" ++
    "Bad Request: parse error in parsing http2 headers")

theorem requestWithoutPath_text :
    (httpSocketConnectionHandler plainService .none (leftOver requestWithoutPath) 2).sentHttp2 =
        [startSettings, [0x00, 0x00, 0x00, 0x04, 0x01, 0x00, 0x00, 0x00, 0x00], pathMissing] ∧
      ¬ AlwaysFramed IsWellFormedFrame plainService .none (leftOver requestWithoutPath) ∧
      ¬ AlwaysFramed IsFrame plainService .none (leftOver requestWithoutPath) := by
  have hsent : (httpSocketConnectionHandler plainService .none
      (leftOver requestWithoutPath) 2).sentHttp2 =
      [startSettings, [0x00, 0x00, 0x00, 0x04, 0x01, 0x00, 0x00, 0x00, 0x00], pathMissing] := by
    decide +kernel
  refine ⟨hsent, ?_, ?_⟩
  · intro hall
    have hfirst := hall 2
    rw [hsent, List.flatten_cons] at hfirst
    exact startSettings_malformed (hfirst.first isFrame_selfDelimiting (fun h => h.1)
      startSettings_isFrame nofun)
  · intro hall
    have hbytes := hall 2
    rw [hsent, List.flatten_cons, List.flatten_cons, List.flatten_singleton] at hbytes
    have hack : IsFrame [0x00, 0x00, 0x00, 0x04, 0x01, 0x00, 0x00, 0x00, 0x00] := by
      unfold IsFrame
      decide
    have hrest := (Framed.single startSettings_isFrame).cancel isFrame_selfDelimiting hbytes
    have htext := (Framed.single hack).cancel isFrame_selfDelimiting hrest
    have hhttp : pathMissing = ascii "HTTP" ++ pathMissing.drop 4 := by decide +kernel
    rw [hhttp] at htext
    exact not_framed_http _ htext

end SimpleServer.Http
