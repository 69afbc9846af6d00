import SimpleServer.Lib.Run
import SimpleServer.Http2.Process

/-!
# Closed streams

A stream is closed by a RST_STREAM frame of the peer or by a stream error of the
server, and should be closed for good. `processRstStreamFrame` only closes a stream that
is half closed; on an open, reserved or closed one it sets the state half closed.

* `closed_step`: while no RST_STREAM hits it, a closed stream stays closed and finishes
  no request.
* `closedStaysClosed_iff`: a run keeps closed streams closed exactly when every
  RST_STREAM it holds finds its stream half closed or idle.
-/

namespace SimpleServer.Http2

open Lib

/-- This step closes stream `i`, which exists: the frame is a RST_STREAM for it, or the
server sends one. -/
def ClosesStream (context : HTTP2Context) (f : Http2Frame) (i : ℕ) : Prop :=
  (context.streams i).isSome ∧
    ((∃ code, f = .rstStream ⟨code, i⟩) ∨
      ∃ code, .rstStream ⟨code, i⟩ ∈ (processHttp2Frame context f).sent)

/-- Along a run, a stream that a step has closed is closed after that step and after every
later one, and no later step finishes a request of it. -/
def ClosedStaysClosed (frames : List Http2Frame) : Prop :=
  ∀ pre f mid post i, frames = pre ++ f :: (mid ++ post) →
    ClosesStream (runFrom frameStep http2DefaultContext pre) f i →
      getHttp2StreamState (runFrom frameStep http2DefaultContext (pre ++ f :: mid)) i = .closed ∧
      ∀ g post', post = g :: post' →
        (processHttp2Frame (runFrom frameStep http2DefaultContext (pre ++ f :: mid)) g).result ≠
          .newFinishedRequest i

/-- A RST_STREAM frame finds its stream half closed or idle, if it is there at all. -/
def RstOnEndedStream (context : HTTP2Context) : Http2Frame → Prop
  | .rstStream frame => ∀ s, context.streams frame.identifier = some s →
      s.state = .halfClosed ∨ s.state = .idle
  | _ => True

variable {context : HTTP2Context} {i : ℕ} {s : Http2Stream}

theorem streams_of_closed (h : getHttp2StreamState context i = .closed) :
    ∃ s, context.streams i = some s ∧ s.state = .closed := by
  unfold getHttp2StreamState at h
  split at h
  · cases h
  · rename_i s hs
    exact ⟨s, hs, h⟩

theorem closed_of_streamError (code : Http2ErrorCode) (m : String)
    (hs : context.streams i = some s) :
    getHttp2StreamState (streamError context i code m).context i = .closed ∧
      (streamError context i code m).result ≠ .newFinishedRequest i := by
  refine ⟨?_, nofun⟩
  simp [streamError, getHttp2StreamState, hs, http2CloseStream]

/-- The handlers of a closed stream's own frames. -/
theorem closed_own_frame {f : Http2Frame} (hc : context.streams i = some s)
    (hcl : s.state = .closed) (hown : getHttp2FrameCategory f = some i)
    (hrst : ∀ r, f ≠ .rstStream r) :
    getHttp2StreamState (processHttp2FrameForStream context f).context i = .closed ∧
      (processHttp2FrameForStream context f).result ≠ .newFinishedRequest i := by
  have hst : getHttp2StreamState context i = .closed := by rw [getHttp2StreamState_some hc, hcl]
  cases f with
  | data f =>
    obtain rfl : f.identifier = i := Option.some.inj hown
    simp only [processHttp2FrameForStream, processDataFrame, hst]
    exact closed_of_streamError _ _ hc
  | headers f =>
    obtain rfl : f.identifier = i := Option.some.inj hown
    simp only [processHttp2FrameForStream, processHeadersFrame, hst]
    exact closed_of_streamError _ _ hc
  -- a PRIORITY frame is taken in every state and keeps the state
  | priority f =>
    obtain rfl : f.identifier = i := Option.some.inj hown
    simp only [processHttp2FrameForStream, processPriorityFrame, hc]
    exact ⟨by simp [getHttp2StreamState, hcl], by rintro ⟨⟩⟩
  | rstStream f => exact absurd rfl (hrst f)
  | pushPromise f =>
    obtain rfl : f.identifier = i := Option.some.inj hown
    simp only [processHttp2FrameForStream, processPushPromiseFrame, hst]
    exact closed_of_streamError _ _ hc
  | windowUpdate f => exact ⟨hst, by rintro ⟨⟩⟩
  | continuation f =>
    obtain rfl : f.identifier = i := Option.some.inj hown
    simp only [processHttp2FrameForStream, processContinuationFrame, hst]
    exact closed_of_streamError _ _ hc
  | settings f => cases hown
  | ping f => cases hown
  | goaway f => cases hown

/-- **One step.** Unless a RST_STREAM hits it, a closed stream stays closed and finishes no
request. -/
theorem closed_step {f : Http2Frame} (h : getHttp2StreamState context i = .closed)
    (hf : RstOnEndedStream context f) :
    getHttp2StreamState (frameStep context f) i = .closed ∧
      (processHttp2Frame context f).result ≠ .newFinishedRequest i := by
  obtain ⟨s, hs, hcl⟩ := streams_of_closed h
  by_cases hown : getHttp2FrameCategory f = some i
  -- a RST_STREAM would have to find the stream half closed or idle
  · have hrst : ∀ r, f ≠ .rstStream r := by
      rintro r rfl
      have hr : r.identifier = i := Option.some.inj hown
      rcases hf s (by rw [hr, hs]) with h' | h' <;> rw [hcl] at h' <;> cases h'
    have hs' : (updateLastStreamId context i).streams i = some s := by simpa using hs
    have := closed_own_frame hs' hcl hown hrst
    unfold frameStep processHttp2Frame
    simpa only [hown] using this
  · obtain ⟨h1, h2⟩ := processHttp2Frame_other hown hs
    exact ⟨by rw [frameStep, getHttp2StreamState_some h1, hcl], h2⟩

/-- **Runs.** Under the condition a closed stream stays closed to the end of the run. -/
theorem closed_run {fs : List Http2Frame} (h : getHttp2StreamState context i = .closed)
    (hfs : Along frameStep RstOnEndedStream context fs) :
    getHttp2StreamState (runFrom frameStep context fs) i = .closed :=
  Along.invariant (I := fun c => getHttp2StreamState c i = .closed)
    (fun _ _ hc hf => (closed_step hc hf).1) h hfs

/-- What a RST_STREAM does to a stream that is there: it closes one that has ended, and
leaves every other half closed. -/
theorem processHttp2Frame_rstStream (code : Http2ErrorCode) (hs : context.streams i = some s) :
    getHttp2StreamState (frameStep context (.rstStream ⟨code, i⟩)) i =
      if s.state = .halfClosed ∨ s.state = .idle then .closed else .halfClosed := by
  have hs' : (updateLastStreamId context i).streams i = some s := by simpa using hs
  have hst := getHttp2StreamState_some hs'
  unfold frameStep processHttp2Frame
  simp only [getHttp2FrameCategory, processHttp2FrameForStream, processRstStreamFrame, hst, hs']
  cases hcase : s.state <;>
    simp [streamError, getHttp2StreamState, hs, http2CloseStream]

theorem closesStream_closed {f : Http2Frame} (h : ClosesStream context f i)
    (hf : RstOnEndedStream context f) : getHttp2StreamState (frameStep context f) i = .closed := by
  obtain ⟨hsome, ⟨code, rfl⟩ | ⟨code, hm⟩⟩ := h
  · obtain ⟨s, hs⟩ := Option.isSome_iff_exists.1 hsome
    rw [processHttp2Frame_rstStream code hs, if_pos (hf s hs)]
  · exact processHttp2Frame_reset hm hsome

/-- **Closed streams stay closed exactly in the runs whose RST_STREAM frames all find their
stream half closed or idle.** -/
theorem closedStaysClosed_iff (frames : List Http2Frame) :
    ClosedStaysClosed frames ↔ Along frameStep RstOnEndedStream http2DefaultContext frames := by
  constructor
  · intro h
    rw [along_iff]
    rintro pre f post rfl
    cases f with
    | rstStream r =>
      intro s hs
      -- a RST_STREAM that finds an open, reserved or closed stream leaves it half closed
      have hcl : ClosesStream (runFrom frameStep http2DefaultContext pre) (.rstStream r)
          r.identifier := ⟨by rw [hs]; rfl, .inl ⟨r.errorCode, rfl⟩⟩
      have := (h pre (.rstStream r) [] post r.identifier rfl hcl).1
      rw [runFrom_append, runFrom_cons, runFrom_nil,
        processHttp2Frame_rstStream r.errorCode hs] at this
      by_contra hne
      rw [if_neg hne] at this
      cases this
    | _ => trivial
  · rintro h pre f mid post i rfl hcl
    obtain ⟨-, hf, hpost⟩ := along_append.1 h
    obtain ⟨hmid, hrest⟩ := along_append.1 hpost
    have hclosed := closed_run (closesStream_closed hcl hf) hmid
    rw [← runFrom_cons, ← runFrom_append] at hclosed
    refine ⟨hclosed, ?_⟩
    rintro g post' rfl
    rw [← runFrom_cons, ← runFrom_append] at hrest
    exact (closed_step hclosed hrest.1).2

/-- A request whose stream the client resets before its body has come. -/
def resetThenData : List Http2Frame :=
  [.headers ⟨none, [0x82], 1, false, true⟩, .rstStream ⟨.cancel, 1⟩, .data ⟨[0x61], true, 1⟩]

/-- After the reset the stream is half closed, and the DATA frame finishes its request. -/
theorem resetThenData_finishes : ¬ ClosedStaysClosed resetThenData := by
  intro h
  have hcl : ClosesStream (runFrom frameStep http2DefaultContext
      [.headers ⟨none, [0x82], 1, false, true⟩]) (.rstStream ⟨.cancel, 1⟩) 1 :=
    ⟨by decide, .inl ⟨_, rfl⟩⟩
  have := (h [.headers ⟨none, [0x82], 1, false, true⟩] _ [] [.data ⟨[0x61], true, 1⟩] 1 rfl hcl).2
    _ [] rfl
  exact this (by decide)

end SimpleServer.Http2
