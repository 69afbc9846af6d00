import SimpleServer.Http.Server
import SimpleServer.Proof.Reassembly
import SimpleServer.Proof.SettingsRange

/-!
# Frames that are no error

The server answers a frame of the client by itself where the frame is an error, and where it has to
be acknowledged.

* `Quiet`: a handler sends nothing, or reports an error; the settings stay as they are.
* `requestStepBytes_quiet`: **what is written** for a frame that is no error.
* `requestStep_compressState`, `requestStep_within`: what stays as it is.
-/

namespace SimpleServer.Http2

open SimpleServer.Utils Lib Hpack Http

variable {Authority UrlPath : Type} {context : HTTP2Context} {p : Processed}
  {uri : UriParser Authority UrlPath} {frame : Http2Frame}

/-- The result is an error. -/
def Http2ProcessFrameResult.isError : Http2ProcessFrameResult → Bool
  | .error _ _ => true
  | _ => false

/-- A handler that reports no error sends nothing, and none changes the settings. -/
structure Quiet (context : HTTP2Context) (p : Processed) : Prop where
  settings : p.context.settings = context.settings
  sent : p.result.isError = true ∨ p.sent = []

theorem quiet_streamError (context : HTTP2Context) (id : ℕ) (code : Http2ErrorCode) (m : String) :
    Quiet context (streamError context id code m) := by
  refine ⟨?_, .inl rfl⟩
  unfold streamError http2CloseStreamByIdentifier
  dsimp only
  split
  · exact rfl
  · exact rfl

theorem quiet_connectionError (context : HTTP2Context) (code : Http2ErrorCode) (m : String) :
    Quiet context (connectionError context code m) := ⟨rfl, .inl rfl⟩

theorem quiet_silent {result : Http2ProcessFrameResult} {context' : HTTP2Context}
    (h : context'.settings = context.settings) : Quiet context ⟨context', result, []⟩ :=
  ⟨h, .inr rfl⟩

/-- A handler that first writes the slot of its stream. -/
theorem Quiet.of_setStream {id : ℕ} {s : Http2Stream} (h : Quiet (context.setStream id s) p) :
    Quiet context p := ⟨h.settings, h.sent⟩

theorem quiet_addHeadersAndFinish (context : HTTP2Context) (id : ℕ) (s : Http2Stream) (b : Bytes)
    (fin : Bool) : Quiet context (addHeadersAndFinish context id s b fin) := by
  unfold addHeadersAndFinish
  split
  · exact quiet_silent rfl
  · split
    · exact quiet_silent rfl
    · exact quiet_silent rfl

theorem quiet_processDataFrame (context : HTTP2Context) (f : Http2DataFrame) :
    Quiet context (processDataFrame context f) := by
  unfold processDataFrame
  dsimp only
  split
  · exact quiet_streamError ..
  split
  · exact quiet_connectionError ..
  split
  · exact quiet_streamError ..
  split
  · exact quiet_streamError ..
  split
  · exact quiet_silent rfl
  split
  · exact quiet_silent rfl
  · exact quiet_silent rfl

theorem quiet_processHeadersFrame (context : HTTP2Context) (f : Http2HeadersFrame) :
    Quiet context (processHeadersFrame context f) := by
  unfold processHeadersFrame
  dsimp only
  split
  · exact quiet_streamError ..
  split
  · exact quiet_streamError ..
  split
  · split
    · exact quiet_silent rfl
    rename_i context' hadd
    obtain ⟨-, rfl⟩ := addNewHttp2Stream_eq_some hadd
    split
    · exact (quiet_connectionError ..).of_setStream
    · exact (quiet_addHeadersAndFinish ..).of_setStream
  · split
    · exact (quiet_streamError ..).of_setStream
    · exact quiet_addHeadersAndFinish ..

theorem quiet_processPriorityFrame (context : HTTP2Context) (f : Http2PriorityFrame) :
    Quiet context (processPriorityFrame context f) := by
  unfold processPriorityFrame
  split
  · dsimp only
    split
    · exact quiet_silent rfl
    rename_i context' hadd
    obtain ⟨-, rfl⟩ := addNewHttp2Stream_eq_some hadd
    exact quiet_silent rfl
  · exact quiet_silent rfl

theorem quiet_processRstStreamFrame (context : HTTP2Context) (f : Http2RstStreamFrame) :
    Quiet context (processRstStreamFrame context f) := by
  unfold processRstStreamFrame
  dsimp only
  split
  · exact quiet_streamError ..
  split
  · exact quiet_connectionError ..
  split
  · exact quiet_silent rfl
  · exact quiet_silent rfl

theorem quiet_processContinuationFrame (context : HTTP2Context) (f : Http2ContinuationFrame) :
    Quiet context (processContinuationFrame context f) := by
  unfold processContinuationFrame
  dsimp only
  split
  · exact quiet_streamError ..
  split
  · exact quiet_connectionError ..
  split
  · exact quiet_streamError ..
  split
  · exact quiet_streamError ..
  · exact quiet_addHeadersAndFinish ..

theorem quiet_processPushPromiseFrame (context : HTTP2Context) (f : Http2PushPromiseFrame) :
    Quiet context (processPushPromiseFrame context f) := by
  unfold processPushPromiseFrame
  dsimp only
  split
  · exact quiet_streamError ..
  split
  · exact quiet_silent rfl
  split
  · exact quiet_silent rfl
  rename_i context' hadd
  obtain ⟨-, rfl⟩ := addNewHttp2Stream_eq_some hadd
  exact quiet_silent rfl

theorem updateLastStreamId_settings (context : HTTP2Context) (id : ℕ) :
    (updateLastStreamId context id).settings = context.settings := by
  unfold updateLastStreamId
  split
  · exact rfl
  · exact rfl

/-- The frames the server acknowledges. -/
def acknowledgement : Http2Frame → List SentFrame
  | .settings frame => if frame.ack then [] else [.settings ⟨true, []⟩]
  | .ping frame => if frame.ack then [] else [.ping ⟨true, frame.opaqueData⟩]
  | _ => []

/-- **What is sent** for a frame that is no error. -/
theorem processHttp2Frame_sent (hok : (processHttp2Frame context frame).result.isError = false) :
    (processHttp2Frame context frame).sent = acknowledgement frame := by
  have hquiet : ∀ {id : ℕ} {p : Processed}, Quiet (updateLastStreamId context id) p →
      p.result.isError = false → p.sent = [] := by
    intro id p hp hok
    rcases hp.sent with herror | hsent
    · rw [hok] at herror
      cases herror
    · exact hsent
  unfold processHttp2Frame at hok ⊢
  cases frame with
  | data f => exact hquiet (quiet_processDataFrame _ f) hok
  | headers f => exact hquiet (quiet_processHeadersFrame _ f) hok
  | priority f => exact hquiet (quiet_processPriorityFrame _ f) hok
  | rstStream f => exact hquiet (quiet_processRstStreamFrame _ f) hok
  | continuation f => exact hquiet (quiet_processContinuationFrame _ f) hok
  | pushPromise f => exact hquiet (quiet_processPushPromiseFrame _ f) hok
  | windowUpdate f =>
    simp only [getHttp2FrameCategory]
    split
    · exact rfl
    · exact rfl
  | settings f =>
    simp only [getHttp2FrameCategory, processHttp2FrameForConnection, acknowledgement]
    cases f.ack with
    | false => exact rfl
    | true => exact rfl
  | ping f =>
    simp only [getHttp2FrameCategory, processHttp2FrameForConnection, acknowledgement]
    cases f.ack with
    | false => exact rfl
    | true => exact rfl
  | goaway f => exact rfl

/-- Only a SETTINGS frame changes the settings. -/
theorem processHttp2Frame_settings_eq (hframe : ∀ s, frame ≠ .settings s) :
    (processHttp2Frame context frame).context.settings = context.settings := by
  have hquiet : ∀ {id : ℕ} {p : Processed}, Quiet (updateLastStreamId context id) p →
      p.context.settings = context.settings := by
    intro id p hp
    rw [hp.settings, updateLastStreamId_settings]
  unfold processHttp2Frame
  cases frame with
  | data f => exact hquiet (quiet_processDataFrame _ f)
  | headers f => exact hquiet (quiet_processHeadersFrame _ f)
  | priority f => exact hquiet (quiet_processPriorityFrame _ f)
  | rstStream f => exact hquiet (quiet_processRstStreamFrame _ f)
  | continuation f => exact hquiet (quiet_processContinuationFrame _ f)
  | pushPromise f => exact hquiet (quiet_processPushPromiseFrame _ f)
  | windowUpdate f =>
    simp only [getHttp2FrameCategory]
    split
    · exact updateLastStreamId_settings ..
    · exact updateLastStreamId_settings ..
  | settings f => exact absurd rfl (hframe f)
  | ping f =>
    simp only [getHttp2FrameCategory, processHttp2FrameForConnection]
    split
    · exact updateLastStreamId_settings ..
    · exact updateLastStreamId_settings ..
  | goaway f => exact updateLastStreamId_settings ..

/-! ## A round of the loop -/

/-- A frame as the parser returns it: its settings are admitted, and a PING has eight bytes. -/
def Http2Frame.Admitted : Http2Frame → Prop
  | .settings frame =>
    ∀ entry ∈ frame.entries, settingsValueError entry.identifier entry.value = none
  | .ping frame => frame.opaqueData.length = http2PingFrameSize
  | _ => True

/-- **What a round writes** for a frame that is no error. -/
theorem requestStepBytes_quiet
    (hok : (processHttp2Frame context frame).result.isError = false) :
    requestStepBytes context frame = (acknowledgement frame).filterMap SentFrame.bytes := by
  unfold requestStepBytes processedBytes
  dsimp only
  rw [processHttp2Frame_sent hok]
  cases hresult : (processHttp2Frame context frame).result with
  | newFinishedRequest id =>
    obtain ⟨s, hs, -⟩ := (processHttp2Frame_stores context frame id).finished hresult
    dsimp only
    rw [hs]
    exact List.append_nil _
  | _ => exact List.append_nil _

/-- The compress state is not touched. -/
theorem requestStep_compressState (context : HTTP2Context) (frame : Http2Frame) :
    (requestStep uri context frame).1.state.hpackState.compressState =
      context.state.hpackState.compressState := by
  have happly : ∀ (entries : List Http2SettingSingleValue) (context : HTTP2Context),
      (entries.foldl applySetting context).state.hpackState.compressState =
        context.state.hpackState.compressState := by
    intro entries
    induction entries with
    | nil => exact fun _ => rfl
    | cons entry entries ih =>
      intro context
      rw [List.foldl_cons, ih]
      unfold applySetting
      split <;> exact rfl
  have hframe : (processHttp2Frame context frame).context.state.hpackState.compressState =
      context.state.hpackState.compressState := by
    cases frame with
    | settings s =>
      rw [(processHttp2Frame_settings context s).1]
      split
      · exact rfl
      · exact happly _ _
    | _ => rw [processHttp2Frame_hpackState context (by simp)]
  rcases requestStep_hpackState uri context frame with h | ⟨id, s, -, -, h⟩
  · rw [h]
    exact hframe
  · rw [h]
    exact hframe

theorem requestStep_settings_eq (context : HTTP2Context) (frame : Http2Frame) :
    (requestStep uri context frame).1.settings =
      (processHttp2Frame context frame).context.settings := by
  unfold requestStep
  dsimp only
  split
  · split
    · exact rfl
    · exact rfl
  · split
    · exact rfl
    · unfold getHttp2RequestFromFinishedStream
      split <;> exact rfl
  · exact rfl
  · exact rfl

/-- A frame size stays within its bounds. -/
theorem requestStep_within (h : SettingsWithin (2 ^ 24) context.settings)
    (hadmitted : frame.Admitted) :
    SettingsWithin (2 ^ 24) (requestStep uri context frame).1.settings := by
  rw [requestStep_settings_eq]
  by_cases hsettings : ∃ s, frame = .settings s
  · obtain ⟨s, rfl⟩ := hsettings
    rw [(processHttp2Frame_settings context s).1]
    split
    · exact h
    · have hentries : ∀ entry ∈ s.entries,
          settingsValueError entry.identifier entry.value = none := hadmitted
      unfold http2ApplySettingsFrame
      generalize s.entries = entries at hentries
      induction entries generalizing context with
      | nil => exact h
      | cons entry entries ih =>
        rw [List.foldl_cons]
        refine ih ?_ fun e he => hentries e (List.mem_cons_of_mem _ he)
        have hcode : ∀ identifier : Http2SettingsFrameIdentifier,
            Http2SettingsFrameIdentifier.ofCode identifier.toCode = some identifier := by
          intro identifier
          cases identifier <;> rfl
        have hraw : Within (2 ^ 24) (entry.identifier.toCode, entry.value) := by
          refine (admitted_iff _).1 fun identifier hidentifier => ?_
          rw [hcode] at hidentifier
          rw [← Option.some.inj hidentifier]
          exact hentries entry List.mem_cons_self
        have hknown : knownEntry (entry.identifier.toCode, entry.value) = some entry := by
          unfold knownEntry
          rw [hcode]
          rfl
        exact applySetting_within h hraw hknown
  · rw [processHttp2Frame_settings_eq fun s hs => hsettings ⟨s, hs⟩]
    exact h

end SimpleServer.Http2
