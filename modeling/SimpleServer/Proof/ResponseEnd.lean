import SimpleServer.Proof.SettingsRange

/-!
# The end of a response

The header block goes out as a HEADERS frame and CONTINUATION frames, the body as DATA frames.
Who ends the stream is decided in two places: the caller asks for END_STREAM on the headers if
there is no body buffer, and the loop over a body sets it on its last part. A body buffer
without bytes has no part.

* `headerFrames_shape`, `dataFrames_shape`: where the flags are in the frames of a buffer.
* `sendHttp2ResponseToConnection_sent`: the frames of a response.
* `response_ends_stream`: **a response ends its stream exactly once**, except with a body
  buffer of no bytes and with a first DATA frame that is refused.
-/

namespace SimpleServer.Http2

open SimpleServer.Utils Lib

/-! ## What a response should be -/

/-- The frame carries END_STREAM. -/
def endsStream : Http2Frame → Bool
  | .headers frame => frame.endStream
  | .data frame => frame.isEnd
  | _ => false

/-- The frame carries END_HEADERS. -/
def endsHeaders : Http2Frame → Bool
  | .headers frame => frame.endHeaders
  | .continuation frame => frame.endHeaders
  | _ => false

def isContinuation : Http2Frame → Bool
  | .continuation _ => true
  | _ => false

def isData : Http2Frame → Bool
  | .data _ => true
  | _ => false

def frameIdentifier : Http2Frame → ℕ
  | .headers frame => frame.identifier
  | .continuation frame => frame.identifier
  | .data frame => frame.identifier
  | _ => 0

/-- The content of a DATA frame. -/
def dataContent : Http2Frame → Bytes
  | .data frame => frame.content
  | _ => []

/-- The frames of one response: HEADERS, its CONTINUATION frames, and DATA frames. Exactly one
frame carries END_STREAM, and only CONTINUATION frames follow it; exactly the last frame of
the header block carries END_HEADERS; the DATA frames carry the body. -/
structure EndsStreamOnce (identifier : ℕ) (body : Bytes) (frames : List Http2Frame) : Prop where
  order : ∃ headers continuations datas,
    frames = .headers headers :: continuations ++ datas ∧
      (∀ f ∈ continuations, isContinuation f = true) ∧ (∀ f ∈ datas, isData f = true)
  stream : ∀ f ∈ frames, frameIdentifier f = identifier
  endStream : ∃ pre f post, frames = pre ++ f :: post ∧ endsStream f = true ∧
    (∀ g ∈ pre, endsStream g = false) ∧ ∀ g ∈ post, isContinuation g = true
  endHeaders : ∃ pre f post, frames = pre ++ f :: post ∧ endsHeaders f = true ∧
    (∀ g ∈ pre, endsHeaders g = false) ∧ ∀ g ∈ post, isData g = true
  body : (frames.map dataContent).flatten = body

/-! ## The frames of a buffer -/

variable {identifier : ℕ} {n : ℕ} {buffer : Bytes}

theorem fragments_first (hn : 0 < n) (hne : buffer ≠ []) :
    ∃ f rest, fragments n buffer = f :: rest ∧ f.offset = 0 ∧ ∀ g ∈ rest, 0 < g.offset :=
  fragmentLoop_first hn (List.length_pos_of_ne_nil hne) (by omega)

theorem fragments_last (hn : 0 < n) (hne : buffer ≠ []) :
    ∃ pre f, fragments n buffer = pre ++ [f] ∧ f.last = true ∧ ∀ g ∈ pre, g.last = false :=
  fragmentLoop_last hn (List.length_pos_of_ne_nil hne) (by omega)

theorem endsHeaders_headerFrameOf (endStream : Bool) (f : Fragment UInt8) :
    endsHeaders (headerFrameOf identifier endStream f) = f.last := by
  unfold headerFrameOf
  split_ifs <;> rfl

/-- The frames of a header block: one HEADERS frame, which may end the stream, and CONTINUATION
frames; the last frame ends the block. -/
theorem headerFrames_shape (hn : 0 < n) (hne : buffer ≠ []) (endStream : Bool) :
    ∃ headers continuations,
      (fragments n buffer).map (headerFrameOf identifier endStream) =
        .headers headers :: continuations ∧
      headers.endStream = endStream ∧ headers.identifier = identifier ∧
      (∀ f ∈ continuations, isContinuation f = true ∧ frameIdentifier f = identifier) ∧
      ∃ pre f, .headers headers :: continuations = pre ++ [f] ∧ endsHeaders f = true ∧
        ∀ g ∈ pre, endsHeaders g = false := by
  obtain ⟨first, rest, hfirst, hzero, hrest⟩ := fragments_first hn hne
  obtain ⟨pre, last, hlast, hend, hpre⟩ := fragments_last hn hne
  have hhead : headerFrameOf identifier endStream first =
      .headers ⟨none, first.content, identifier, endStream, first.last⟩ := by
    rw [headerFrameOf, if_pos hzero]
  refine ⟨⟨none, first.content, identifier, endStream, first.last⟩,
    rest.map (headerFrameOf identifier endStream), ?_, rfl, rfl, ?_,
    pre.map (headerFrameOf identifier endStream), headerFrameOf identifier endStream last,
    ?_, ?_, ?_⟩
  · rw [hfirst, List.map_cons, hhead]
  · intro f hf
    obtain ⟨g, hg, rfl⟩ := List.mem_map.1 hf
    rw [headerFrameOf, if_neg (Nat.ne_of_gt (hrest g hg))]
    exact ⟨rfl, rfl⟩
  · rw [← hhead, ← List.map_cons, ← hfirst, hlast, List.map_append]
    rfl
  · rw [endsHeaders_headerFrameOf, hend]
  · intro g hg
    obtain ⟨f, hf, rfl⟩ := List.mem_map.1 hg
    rw [endsHeaders_headerFrameOf, hpre f hf]

/-- The frames of a body: the last one ends the stream. -/
theorem dataFrames_shape (identifier : ℕ) (hn : 0 < n) (hne : buffer ≠ []) :
    ∃ pre f, (fragments n buffer).map (dataFrameOf identifier) = pre ++ [f] ∧
      endsStream f = true ∧ ∀ g ∈ pre, endsStream g = false := by
  obtain ⟨pre, last, hlast, hend, hpre⟩ := fragments_last hn hne
  refine ⟨pre.map (dataFrameOf identifier), dataFrameOf identifier last, ?_, hend, ?_⟩
  · rw [hlast, List.map_append]
    rfl
  · intro g hg
    obtain ⟨f, hf, rfl⟩ := List.mem_map.1 hg
    exact hpre f hf

/-! ## The frames of a response -/

/-- Parts that the length field can count are all sent. -/
theorem sent_of_parts {frameOf : Fragment UInt8 → Http2Frame}
    (hparts : ∀ fragment ∈ fragments n buffer, fragment.content.length < 2 ^ 24)
    (hsend : ∀ fragment, fragment.content.length < 2 ^ 24 → ∃ header : Http2RawHeader,
      header.length = fragment.content.length ∧
        http2SendFrame (frameOf fragment) = some (headerBuffer header ++ fragment.content)) :
    (sendFrames ((fragments n buffer).map frameOf)).sent = (fragments n buffer).map frameOf ∧
      (sendFrames ((fragments n buffer).map frameOf)).failed = false := by
  apply sent_of_accepted
  intro f hf
  obtain ⟨fragment, hmem, rfl⟩ := List.mem_map.1 hf
  obtain ⟨header, -, hbytes⟩ := hsend fragment (hparts fragment hmem)
  rw [hbytes]
  rfl

/-- The header frames of a response. -/
def headerFrames (response : Http2Response) (settings : Http2Settings) : List Http2Frame :=
  (fragments (getMaxHeadersOrContinuationContentsize settings)
    response.hpackEncodedHeaders.bytes).map
      (headerFrameOf response.streamIdentifier response.body.data.isNone)

/-- The data frames of a response. -/
def dataFrames (response : Http2Response) (settings : Http2Settings) : List Http2Frame :=
  (fragments (getMaxDataContentSize settings) response.body.bytes).map
    (dataFrameOf response.streamIdentifier)

/-- The first part of a body that the length field cannot count is refused. -/
theorem http2SendData_refused {settings : Http2Settings} {body : SizedBuffer}
    (hmax : settings.maxFrameSize = 2 ^ 24) (hbody : 2 ^ 24 ≤ body.size) :
    (http2SendData identifier settings body).sent = [] := by
  have hpos : 0 < body.bytes.length := (Nat.two_pow_pos 24).trans_le hbody
  obtain ⟨k, hk⟩ : ∃ k, body.bytes.length = k + 1 := ⟨body.bytes.length - 1, by omega⟩
  obtain ⟨f, rest, hfirst, hsize⟩ : ∃ f rest, fragments (2 ^ 24) body.bytes = f :: rest ∧
      2 ^ 24 ≤ f.content.length := by
    unfold fragments
    rw [hk]
    rcases fragmentLoop_step (2 ^ 24) k hpos with ⟨-, heq⟩ | ⟨hlt, heq⟩
    · exact ⟨_, _, heq, hbody⟩
    · refine ⟨_, _, heq, ?_⟩
      simp only [List.length_take, List.length_drop]
      omega
  unfold http2SendData getMaxDataContentSize
  rw [hmax, hfirst, List.map_cons]
  refine sent_of_refused ?_
  cases hsend : http2SendFrame (dataFrameOf identifier f) with
  | none => rfl
  | some bytes =>
    have hlt : f.content.length < 2 ^ 24 := http2SendRawFrame_lt hsend
    omega

/-- **The frames that go out**, for every frame size a peer can ask for. -/
theorem sendHttp2ResponseToConnection_sent {response : Http2Response} {context : HTTP2Context}
    (hmax : SettingsWithin (2 ^ 24) context.settings) :
    (sendHttp2ResponseToConnection response context).sent =
      headerFrames response context.settings ++
        (if context.settings.maxFrameSize = 2 ^ 24 ∧ 2 ^ 24 ≤ response.body.size then []
          else dataFrames response context.settings) := by
  obtain ⟨hlow, hhigh⟩ := hmax.maxFrameSize
  have hheaders : ∀ fragment ∈ fragments (getMaxHeadersOrContinuationContentsize context.settings)
      response.hpackEncodedHeaders.bytes, fragment.content.length < 2 ^ 24 := by
    intro fragment hmem
    have hle : fragment.content.length ≤ context.settings.maxFrameSize - 6 :=
      fragmentLoop_length_le _ _ fragment hmem
    omega
  obtain ⟨hsent, hok⟩ := sent_of_parts hheaders
    (headerFrameOf_send response.streamIdentifier response.body.data.isNone)
  unfold sendHttp2ResponseToConnection
  dsimp only
  unfold http2SendHeaders
  rw [hok, if_neg Bool.false_ne_true]
  cases hdata : response.body.data with
  | none =>
    have hbytes : response.body.bytes = [] := by rw [SizedBuffer.bytes, hdata]; rfl
    have hsize : ¬ (context.settings.maxFrameSize = 2 ^ 24 ∧ 2 ^ 24 ≤ response.body.size) := by
      rw [SizedBuffer.size, hbytes]
      exact fun h => absurd h.2 (by decide)
    rw [if_neg hsize, dataFrames, hbytes]
    rw [hdata] at hsent
    rw [if_neg (by simp), hsent, headerFrames, hdata]
    exact (List.append_nil _).symm
  | some body =>
    rw [hdata] at hsent
    rw [if_pos (by simp), Built.sent_append, hsent, headerFrames, hdata]
    congr 1
    by_cases hrefused : context.settings.maxFrameSize = 2 ^ 24 ∧ 2 ^ 24 ≤ response.body.size
    · rw [if_pos hrefused]
      exact http2SendData_refused hrefused.1 hrefused.2
    · rw [if_neg hrefused]
      refine (sent_of_parts ?_ (dataFrameOf_send response.streamIdentifier)).1
      intro fragment hmem
      have hle : fragment.content.length ≤ context.settings.maxFrameSize :=
        fragmentLoop_length_le _ _ fragment hmem
      have hpart : fragment.content.length ≤ response.body.bytes.length := by
        have hflat : ((fragments (getMaxDataContentSize context.settings)
            response.body.bytes).map Fragment.content).flatten = response.body.bytes :=
          fragmentLoop_flatten (show 0 < context.settings.maxFrameSize by omega) (by omega)
        have hsub := List.sublist_flatten_of_mem (List.mem_map_of_mem (f := Fragment.content) hmem)
        rw [hflat] at hsub
        exact hsub.length_le
      by_contra hge
      exact hrefused ⟨by omega, by unfold SizedBuffer.size; omega⟩

/-! ## The end of the stream -/

/-- Without END_STREAM on the headers and without data the stream stays open. -/
theorem not_endsStreamOnce {body : Bytes} {frames : List Http2Frame}
    (h : ∀ f ∈ frames, endsStream f = false) : ¬ EndsStreamOnce identifier body frames := by
  intro hends
  obtain ⟨pre, f, post, rfl, hf, -, -⟩ := hends.endStream
  rw [h f (by simp)] at hf
  cases hf

theorem dataFrames_props (response : Http2Response) (settings : Http2Settings) :
    ∀ f ∈ dataFrames response settings,
      isData f = true ∧ frameIdentifier f = response.streamIdentifier := by
  intro f hf
  obtain ⟨fragment, -, rfl⟩ := List.mem_map.1 hf
  exact ⟨rfl, rfl⟩

theorem dataFrames_content (response : Http2Response) {settings : Http2Settings}
    (hmax : 0 < settings.maxFrameSize) :
    ((dataFrames response settings).map dataContent).flatten = response.body.bytes := by
  unfold dataFrames
  rw [List.map_map]
  exact fragmentLoop_flatten hmax (by omega)

theorem isContinuation_plain {f : Http2Frame} (h : isContinuation f = true) :
    endsStream f = false ∧ dataContent f = [] := by
  cases f with
  | continuation frame => exact ⟨rfl, rfl⟩
  | _ => cases h

theorem flatten_dataContent_nil {frames : List Http2Frame}
    (h : ∀ f ∈ frames, dataContent f = []) : (frames.map dataContent).flatten = [] := by
  rw [List.flatten_eq_nil_iff]
  intro bytes hbytes
  obtain ⟨f, hf, rfl⟩ := List.mem_map.1 hbytes
  exact h f hf

variable {response : Http2Response} {settings : Http2Settings} {datas : List Http2Frame}

/-- Everything but the end of the stream is right in any case. -/
theorem endsStreamOnce_of (hmax : 2 ^ 14 ≤ settings.maxFrameSize)
    (hne : response.hpackEncodedHeaders.bytes ≠ [])
    (hdatas : ∀ f ∈ datas, isData f = true ∧ frameIdentifier f = response.streamIdentifier)
    (hend : ∃ pre f post, headerFrames response settings ++ datas = pre ++ f :: post ∧
      endsStream f = true ∧ (∀ g ∈ pre, endsStream g = false) ∧
        ∀ g ∈ post, isContinuation g = true) :
    EndsStreamOnce response.streamIdentifier (datas.map dataContent).flatten
      (headerFrames response settings ++ datas) := by
  have hn : 0 < getMaxHeadersOrContinuationContentsize settings := by
    unfold getMaxHeadersOrContinuationContentsize additionalHeadersDataSize
    omega
  obtain ⟨headers, continuations, hframes, -, hid, hcont, pre, f, hlast, hf, hpre⟩ :=
    headerFrames_shape hn hne response.body.data.isNone
  have hheaders : headerFrames response settings = .headers headers :: continuations := hframes
  refine ⟨?_, ?_, hend, ?_, ?_⟩
  · refine ⟨headers, continuations, datas, by rw [hheaders], fun g hg => (hcont g hg).1,
      fun g hg => (hdatas g hg).1⟩
  · intro g hg
    rw [hheaders] at hg
    rcases List.mem_append.1 hg with hg | hg
    · rcases List.mem_cons.1 hg with rfl | hg
      · exact hid
      · exact (hcont g hg).2
    · exact (hdatas g hg).2
  · refine ⟨pre, f, datas, ?_, hf, hpre, fun g hg => (hdatas g hg).1⟩
    rw [hheaders, hlast, List.append_assoc]
    rfl
  · have hnil : ((headerFrames response settings).map dataContent).flatten = [] := by
      rw [hheaders]
      apply flatten_dataContent_nil
      intro g hg
      rcases List.mem_cons.1 hg with rfl | hg
      · rfl
      · exact (isContinuation_plain (hcont g hg).1).2
    rw [List.map_append, List.flatten_append, hnil, List.nil_append]

/-- Which of the header frames end the stream: the first one, if there is no body buffer. -/
theorem headerFrames_endsStream (hmax : 2 ^ 14 ≤ settings.maxFrameSize)
    (hne : response.hpackEncodedHeaders.bytes ≠ []) :
    ∃ headers continuations, headerFrames response settings = .headers headers :: continuations ∧
      headers.endStream = response.body.data.isNone ∧
      ∀ f ∈ continuations, isContinuation f = true := by
  have hn : 0 < getMaxHeadersOrContinuationContentsize settings := by
    unfold getMaxHeadersOrContinuationContentsize additionalHeadersDataSize
    omega
  obtain ⟨headers, continuations, hframes, hend, -, hcont, -⟩ :=
    headerFrames_shape hn hne response.body.data.isNone
  exact ⟨headers, continuations, hframes, hend, fun f hf => (hcont f hf).1⟩

/-- With a body buffer no header frame ends the stream. -/
theorem headerFrames_open (hmax : 2 ^ 14 ≤ settings.maxFrameSize)
    (hne : response.hpackEncodedHeaders.bytes ≠ []) (hbody : response.body.data ≠ none) :
    ∀ f ∈ headerFrames response settings, endsStream f = false := by
  obtain ⟨headers, continuations, hframes, hend, hcont⟩ := headerFrames_endsStream hmax hne
  intro f hf
  rw [hframes] at hf
  rcases List.mem_cons.1 hf with rfl | hf
  · rw [endsStream, hend]
    cases hdata : response.body.data with
    | none => exact absurd hdata hbody
    | some body => rfl
  · exact (isContinuation_plain (hcont f hf)).1

/-- The frame with END_STREAM, when the DATA frames go out: the HEADERS frame or the last of
the DATA frames. -/
theorem response_endStream (hmax : 2 ^ 14 ≤ settings.maxFrameSize)
    (hne : response.hpackEncodedHeaders.bytes ≠ []) (hempty : response.body.data ≠ some []) :
    ∃ pre f post, headerFrames response settings ++ dataFrames response settings =
        pre ++ f :: post ∧ endsStream f = true ∧ (∀ g ∈ pre, endsStream g = false) ∧
      ∀ g ∈ post, isContinuation g = true := by
  cases hdata : response.body.data with
  | none =>
    obtain ⟨headers, continuations, hframes, hend, hcont⟩ := headerFrames_endsStream hmax hne
    have hdatas : dataFrames response settings = [] := by
      rw [dataFrames, SizedBuffer.bytes, hdata]
      rfl
    refine ⟨[], .headers headers, continuations, ?_, ?_, nofun, hcont⟩
    · rw [hframes, hdatas, List.append_nil]
      rfl
    · rw [endsStream, hend, hdata]
      rfl
  | some body =>
    have hbytes : response.body.bytes ≠ [] := by
      rw [SizedBuffer.bytes, hdata]
      rintro rfl
      exact hempty hdata
    have hn : 0 < getMaxDataContentSize settings := by
      unfold getMaxDataContentSize
      omega
    obtain ⟨pre, f, hshape, hf, hpre⟩ := dataFrames_shape response.streamIdentifier hn hbytes
    refine ⟨headerFrames response settings ++ pre, f, [], ?_, hf, ?_, nofun⟩
    · rw [dataFrames, hshape, List.append_assoc]
    · intro g hg
      rcases List.mem_append.1 hg with hg | hg
      · exact headerFrames_open hmax hne (by simp [hdata]) g hg
      · exact hpre g hg

/-- **A response ends its stream exactly once**, with all settings a peer can reach, if and
only if its body is no buffer or one with bytes, and no part of the body is as long as the
one frame size that the length field cannot count. -/
theorem response_ends_stream (payloads : List Bytes) (response : Http2Response)
    (hne : response.hpackEncodedHeaders.bytes ≠ []) :
    EndsStreamOnce response.streamIdentifier response.body.bytes
        (sendHttp2ResponseToConnection response
          (runFrom receiveSettings http2DefaultContext payloads)).sent ↔
      response.body.data ≠ some [] ∧
        ¬ ((runFrom receiveSettings http2DefaultContext payloads).settings.maxFrameSize = 2 ^ 24 ∧
          2 ^ 24 ≤ response.body.size) := by
  have hwithin := receiveSettings_run payloads
  generalize runFrom receiveSettings http2DefaultContext payloads = context at hwithin ⊢
  obtain ⟨hlow, -⟩ := hwithin.maxFrameSize
  rw [sendHttp2ResponseToConnection_sent hwithin]
  by_cases hrefused : context.settings.maxFrameSize = 2 ^ 24 ∧ 2 ^ 24 ≤ response.body.size
  · -- the first DATA frame is refused
    rw [if_pos hrefused, List.append_nil]
    have hbody : response.body.data ≠ none := by
      intro hnone
      have hsize := hrefused.2
      rw [SizedBuffer.size, SizedBuffer.bytes, hnone] at hsize
      exact absurd hsize (by decide)
    refine ⟨fun h => ?_, fun h => absurd hrefused h.2⟩
    exact absurd h (not_endsStreamOnce (headerFrames_open hlow hne hbody))
  · rw [if_neg hrefused]
    by_cases hempty : response.body.data = some []
    · -- no part of the body carries END_STREAM
      have hdatas : dataFrames response context.settings = [] := by
        rw [dataFrames, SizedBuffer.bytes, hempty]
        rfl
      rw [hdatas, List.append_nil]
      refine ⟨fun h => ?_, fun h => absurd hempty h.1⟩
      exact absurd h (not_endsStreamOnce (headerFrames_open hlow hne (by simp [hempty])))
    · refine ⟨fun _ => ⟨hempty, hrefused⟩, fun _ => ?_⟩
      have hends := endsStreamOnce_of hlow hne (dataFrames_props response context.settings)
        (response_endStream hlow hne hempty)
      rwa [dataFrames_content response (show 0 < context.settings.maxFrameSize by omega)] at hends

/-- A response with a body of one byte. -/
theorem response_ends_stream_one :
    EndsStreamOnce 1 [0x61] (sendHttp2ResponseToConnection
      ⟨⟨some [0x88], by decide⟩, ⟨some [0x61], by decide⟩, 1⟩
      (runFrom receiveSettings http2DefaultContext [])).sent :=
  (response_ends_stream [] ⟨⟨some [0x88], by decide⟩, ⟨some [0x61], by decide⟩, 1⟩
    (by decide)).2 ⟨by decide, by decide⟩

/-- The answer to a request for an empty file: the stream is never ended. -/
theorem response_ends_stream_empty :
    (sendHttp2ResponseToConnection ⟨⟨some [0x88], by decide⟩, ⟨some [], by decide⟩, 1⟩
      (runFrom receiveSettings http2DefaultContext [])).sent =
        [.headers ⟨none, [0x88], 1, false, true⟩] ∧
    ¬ EndsStreamOnce 1 [] (sendHttp2ResponseToConnection
      ⟨⟨some [0x88], by decide⟩, ⟨some [], by decide⟩, 1⟩
      (runFrom receiveSettings http2DefaultContext [])).sent := by
  have hsent : (sendHttp2ResponseToConnection
      ⟨⟨some [0x88], by decide⟩, ⟨some [], by decide⟩, 1⟩
      (runFrom receiveSettings http2DefaultContext [])).sent =
        [.headers ⟨none, [0x88], 1, false, true⟩] := rfl
  refine ⟨hsent, ?_⟩
  rw [hsent]
  exact not_endsStreamOnce (by simp [endsStream])

end SimpleServer.Http2
