import SimpleServer.Lib.Run
import SimpleServer.Http2.Process

/-!
# PRIORITY frames and the requests that are served

A run is compared with the run over the same frames without the PRIORITY frames. A
PRIORITY frame for an unknown stream makes an idle entry, and most handlers treat such an
entry differently from no entry: a HEADERS frame does not open it, a stream error closes
it, a promise of it fails.

* `SlotRel`: equal up to the priority, or an idle entry on one side only.
* `sim_step`: a frame that does not meet an idle entry in one of these ways has the same
  result on both sides and keeps the sides related.
* `priorityIrrelevant_of_along`: if no frame of a run does, then removing the PRIORITY
  frames changes nothing.
-/

namespace SimpleServer.Http2

open Lib Hpack

def isPriority : Http2Frame → Bool
  | .priority _ => true
  | _ => false

/-- The header blocks and data blocks stored for a stream. -/
def storedBlocks : Option Http2Stream → List Bytes × List Bytes
  | none => ([], [])
  | some s => (s.headers.headerBlocks, s.content.dataBlocks)

/-- What processing a frame returns: its result, with the stored blocks of a request that is
finished. -/
def frameOutput (context : HTTP2Context) (f : Http2Frame) :
    Http2ProcessFrameResult × Option (List Bytes × List Bytes) :=
  let p := processHttp2Frame context f
  match p.result with
  | .newFinishedRequest i => (p.result, some (storedBlocks (p.context.streams i)))
  | r => (r, none)

/-- The run over the frames and the run without their PRIORITY frames return the same for
all other frames. -/
def PriorityIrrelevant (frames : List Http2Frame) : Prop :=
  outputs frameStep frameOutput (fun f => !isPriority f) http2DefaultContext frames =
    outputs frameStep frameOutput (fun f => !isPriority f) http2DefaultContext
      (frames.filter fun f => !isPriority f)

/-- The stream has an entry, in the idle state. -/
def IdleEntry (context : HTTP2Context) (i : ℕ) : Prop :=
  (context.streams i).map (·.state) = some .idle

instance (context : HTTP2Context) (i : ℕ) : Decidable (IdleEntry context i) :=
  inferInstanceAs (Decidable (_ = _))

/-- An idle entry is only met by PRIORITY and WINDOW_UPDATE frames and by a HEADERS frame
that holds the whole request; and it is not promised. -/
def IdleEntryRespected (context : HTTP2Context) : Http2Frame → Prop
  | .data f => ¬ IdleEntry context f.identifier
  | .headers f => IdleEntry context f.identifier → f.endStream = true ∧ f.endHeaders = true
  | .rstStream f => ¬ IdleEntry context f.identifier
  | .pushPromise f =>
    ¬ IdleEntry context f.identifier ∧ ¬ IdleEntry context f.promisedStreamIdentifier
  | .continuation f => ¬ IdleEntry context f.identifier
  | _ => True

instance (context : HTTP2Context) : (f : Http2Frame) → Decidable (IdleEntryRespected context f)
  | .data f => inferInstanceAs (Decidable (¬ IdleEntry context f.identifier))
  | .headers _ => inferInstanceAs (Decidable (_ → _ = true ∧ _ = true))
  | .rstStream f => inferInstanceAs (Decidable (¬ IdleEntry context f.identifier))
  | .pushPromise f => inferInstanceAs (Decidable (¬ IdleEntry context f.identifier ∧
      ¬ IdleEntry context f.promisedStreamIdentifier))
  | .continuation f => inferInstanceAs (Decidable (¬ IdleEntry context f.identifier))
  | .priority _ | .settings _ | .ping _ | .goaway _ | .windowUpdate _ => isTrue trivial

/-- The entry a PRIORITY frame makes. -/
def idleStream (priority : Http2FramePriority) : Http2Stream :=
  { state := .idle, headers := emptyStreamHeaders, content := emptyStreamContent
    endStream := false, priority := priority }

/-- How the slots of a stream compare: the run without PRIORITY frames has no idle entries,
and otherwise only the priorities differ. -/
inductive SlotRel : Option Http2Stream → Option Http2Stream → Prop where
  | none : SlotRel none none
  | idle (p : Http2FramePriority) : SlotRel (some (idleStream p)) none
  | same (t : Http2Stream) (p : Http2FramePriority) (h : t.state ≠ .idle) :
      SlotRel (some { t with priority := p }) (some t)

/-- All slots compare so. -/
def SlotsRel (c₁ c₂ : HTTP2Context) : Prop := ∀ i, SlotRel (c₁.streams i) (c₂.streams i)

/-- Two handlers of stream `id` end alike. -/
structure SameStep (id : ℕ) (p₁ p₂ : Processed) : Prop where
  slot : SlotRel (p₁.context.streams id) (p₂.context.streams id)
  result : p₁.result = p₂.result

variable {c₁ c₂ : HTTP2Context} {id : ℕ}

theorem storedBlocks_eq {a b : Option Http2Stream} (h : SlotRel a b) :
    storedBlocks a = storedBlocks b := by
  cases h <;> rfl

theorem SlotsRel.updateLastStreamId (h : SlotsRel c₁ c₂) (i j : ℕ) :
    SlotsRel (updateLastStreamId c₁ i) (updateLastStreamId c₂ j) := by
  intro k; simpa using h k

/-- Handlers of the same stream that end alike keep all slots related. -/
theorem SameStep.slotsRel {p₁ p₂ : Processed} (h : SameStep id p₁ p₂) (hR : SlotsRel c₁ c₂)
    (h₁ : Local id c₁ p₁) (h₂ : Local id c₂ p₂) : SlotsRel p₁.context p₂.context := by
  intro i
  by_cases hi : i = id
  · subst hi; exact h.slot
  · rw [h₁.streams i hi, h₂.streams i hi]; exact hR i

theorem sameStep_streamError (code : Http2ErrorCode) (m : String)
    (h : SlotRel (c₁.streams id) (c₂.streams id)) (hidle : ¬ IdleEntry c₁ id) :
    SameStep id (streamError c₁ id code m) (streamError c₂ id code m) := by
  refine ⟨?_, rfl⟩
  simp only [streamError, http2CloseStreamByIdentifier_streams, if_true]
  generalize hb : c₂.streams id = b at h
  generalize ha : c₁.streams id = a at h
  cases h with
  | none => exact .none
  -- an error would close the idle entry on one side and find nothing on the other
  | idle p => exact absurd (by rw [IdleEntry, ha]; rfl) hidle
  | same t p ht => exact .same (http2CloseStream t) p (by simp [http2CloseStream])

theorem sameStep_setStream (t : Http2Stream) (p : Http2FramePriority) (ht : t.state ≠ .idle)
    (r : Http2ProcessFrameResult) :
    SameStep id ⟨c₁.setStream id { t with priority := p }, r, []⟩ ⟨c₂.setStream id t, r, []⟩ := by
  refine ⟨?_, rfl⟩
  simp only [HTTP2Context.setStream_streams, if_true]
  exact .same t p ht

theorem sameStep_finishRequest (c₂ : HTTP2Context) (t : Http2Stream) (p : Http2FramePriority) :
    SameStep id (finishRequest c₁ id { t with priority := p }) (finishRequest c₂ id t) :=
  sameStep_setStream { t with state := .halfClosed } p (by simp) _

theorem sameStep_addHeadersAndFinish (t : Http2Stream) (p : Http2FramePriority)
    (ht : t.state ≠ .idle) (b : Bytes) (fin : Bool) :
    SameStep id (addHeadersAndFinish c₁ id { t with priority := p } b fin)
      (addHeadersAndFinish c₂ id t b fin) := by
  unfold addHeadersAndFinish http2StreamAddHeaderBlock
  dsimp only
  by_cases hfin : t.headers.finished = true
  · simp only [hfin, if_true]
    exact sameStep_setStream t p ht _
  · simp only [hfin, if_false, Bool.false_eq_true]
    by_cases hend : t.endStream = true ∧ fin = true
    · rw [if_pos hend, if_pos hend]
      exact sameStep_finishRequest _ { t with headers := ⟨fin, t.headers.headerBlocks ++ [b]⟩ } p
    · rw [if_neg hend, if_neg hend]
      exact sameStep_setStream { t with headers := ⟨fin, t.headers.headerBlocks ++ [b]⟩ } p ht _

theorem sameStep_data {f : Http2DataFrame} (hR : SlotsRel c₁ c₂)
    (hidle : ¬ IdleEntry c₁ f.identifier) :
    SameStep f.identifier (processDataFrame c₁ f) (processDataFrame c₂ f) := by
  have hslot := hR f.identifier
  have herr := fun code m => sameStep_streamError code m hslot hidle
  generalize hb : c₂.streams f.identifier = b at hslot
  generalize ha : c₁.streams f.identifier = a at hslot
  unfold processDataFrame
  cases hslot with
  | none =>
    simp only [getHttp2StreamState, ha, hb]
    exact herr _ _
  | idle p => exact absurd (by rw [IdleEntry, ha]; rfl) hidle
  | same t p ht =>
    simp only [getHttp2StreamState, ha, hb]
    split
    · exact herr _ _
    split
    · exact herr _ _
    split
    · exact herr _ _
    -- the three checks that end in a stream error read nothing the priority is part of
    rename_i hend _
    simp only [http2StreamAddContentBlock, hend, if_false, Bool.false_eq_true]
    split
    · exact sameStep_finishRequest _ { t with
        content := ⟨t.content.finished, t.content.dataBlocks ++ [f.content]⟩
        endStream := f.isEnd } p
    · exact sameStep_setStream { t with
        content := ⟨t.content.finished, t.content.dataBlocks ++ [f.content]⟩
        endStream := f.isEnd } p ht _

theorem sameStep_headers {f : Http2HeadersFrame} (hR : SlotsRel c₁ c₂)
    (hidle : IdleEntry c₁ f.identifier → f.endStream = true ∧ f.endHeaders = true) :
    SameStep f.identifier (processHeadersFrame c₁ f) (processHeadersFrame c₂ f) := by
  have hslot := hR f.identifier
  generalize hb : c₂.streams f.identifier = b at hslot
  generalize ha : c₁.streams f.identifier = a at hslot
  unfold processHeadersFrame
  cases hslot with
  -- both sides add a new stream
  | none =>
    simp only [getHttp2StreamState, ha, hb, addNewHttp2Stream, HTTP2Context.setStream_streams]
    exact sameStep_addHeadersAndFinish
      { state := .open, headers := emptyStreamHeaders, content := emptyStreamContent
        endStream := f.endStream, priority := f.priorityOpt.getD defaultStreamPriority }
      (f.priorityOpt.getD defaultStreamPriority) (by simp) _ _
  | idle p =>
    -- both flags are set, so that the request is finished on both sides
    obtain ⟨he, hh⟩ := hidle (by rw [IdleEntry, ha]; rfl)
    simp only [getHttp2StreamState, ha, hb, addNewHttp2Stream, HTTP2Context.setStream_streams,
      idleStream, addHeadersAndFinish, http2StreamAddHeaderBlock, emptyStreamHeaders, he, hh]
    exact sameStep_finishRequest (c₂.setStream _ _)
      { state := .open, headers := ⟨true, [f.blockFragment]⟩, content := emptyStreamContent
        endStream := true, priority := f.priorityOpt.getD defaultStreamPriority }
      (f.priorityOpt.getD p)
  | same t p ht =>
    -- the stream is not idle, so that both sides refuse a second HEADERS frame
    have hni : ¬ IdleEntry c₁ f.identifier := by
      intro h
      rw [IdleEntry, ha, Option.map_some, Option.some.injEq] at h
      exact ht h
    have herr := fun code m => sameStep_streamError code m (hR f.identifier) hni
    simp only [getHttp2StreamState, ha, hb]
    split
    · exact herr _ _
    · exact herr _ _

theorem sameStep_rstStream {f : Http2RstStreamFrame} (hR : SlotsRel c₁ c₂)
    (hidle : ¬ IdleEntry c₁ f.identifier) :
    SameStep f.identifier (processRstStreamFrame c₁ f) (processRstStreamFrame c₂ f) := by
  have hslot := hR f.identifier
  have herr := fun code m => sameStep_streamError code m hslot hidle
  generalize hb : c₂.streams f.identifier = b at hslot
  generalize ha : c₁.streams f.identifier = a at hslot
  unfold processRstStreamFrame
  cases hslot with
  | none =>
    simp only [getHttp2StreamState, ha, hb]
    exact herr _ _
  | idle p => exact absurd (by rw [IdleEntry, ha]; rfl) hidle
  | same t p ht =>
    simp only [getHttp2StreamState, ha, hb, ht, if_false]
    -- a stream that is half closed is closed now, any other one is half closed
    split
    · exact sameStep_setStream (http2CloseStream t) p (by simp [http2CloseStream]) _
    · exact sameStep_setStream { t with state := .halfClosed } p (by simp) _

theorem sameStep_continuation {f : Http2ContinuationFrame} (hR : SlotsRel c₁ c₂)
    (hidle : ¬ IdleEntry c₁ f.identifier) :
    SameStep f.identifier (processContinuationFrame c₁ f) (processContinuationFrame c₂ f) := by
  have hslot := hR f.identifier
  have herr := fun code m => sameStep_streamError code m hslot hidle
  generalize hb : c₂.streams f.identifier = b at hslot
  generalize ha : c₁.streams f.identifier = a at hslot
  unfold processContinuationFrame
  cases hslot with
  | none =>
    simp only [getHttp2StreamState, ha, hb]
    exact herr _ _
  | idle p => exact absurd (by rw [IdleEntry, ha]; rfl) hidle
  | same t p ht =>
    simp only [getHttp2StreamState, ha, hb]
    split
    · exact herr _ _
    split
    · exact herr _ _
    split
    · exact herr _ _
    · exact sameStep_addHeadersAndFinish t p ht _ _

/-- Two processing steps end alike: all slots stay related and the results agree. -/
structure SameEnd (p₁ p₂ : Processed) : Prop where
  slots : SlotsRel p₁.context p₂.context
  result : p₁.result = p₂.result

theorem SameStep.sameEnd {p₁ p₂ : Processed} (h : SameStep id p₁ p₂) (hR : SlotsRel c₁ c₂)
    (h₁ : Local id c₁ p₁) (h₂ : Local id c₂ p₂) : SameEnd p₁ p₂ :=
  ⟨h.slotsRel hR h₁ h₂, h.result⟩

theorem sameEnd_unchanged (hR : SlotsRel c₁ c₂) (r : Http2ProcessFrameResult)
    (sent₁ sent₂ : List SentFrame) : SameEnd ⟨c₁, r, sent₁⟩ ⟨c₂, r, sent₂⟩ :=
  ⟨hR, rfl⟩

theorem sameEnd_addNewHttp2Stream (hR : SlotsRel c₁ c₂) (hidle : ¬ IdleEntry c₁ id)
    (s : Http2Stream) (hs : s.state ≠ .idle) :
    SameEnd
      (match addNewHttp2Stream c₁ id s with
        | none => ⟨c₁, .error true "stream insert error", []⟩
        | some c => ⟨c, .ok, []⟩)
      (match addNewHttp2Stream c₂ id s with
        | none => ⟨c₂, .error true "stream insert error", []⟩
        | some c => ⟨c, .ok, []⟩) := by
  have hslot := hR id
  generalize hb : c₂.streams id = b at hslot
  generalize ha : c₁.streams id = a at hslot
  unfold addNewHttp2Stream
  cases hslot with
  | none =>
    simp only [ha, hb]
    refine ⟨?_, rfl⟩
    intro i
    by_cases hi : i = id
    · simp only [HTTP2Context.setStream_streams, hi, if_true]
      exact .same s s.priority hs
    · simp only [HTTP2Context.setStream_streams, hi, if_false]
      exact hR i
  | idle p => exact absurd (by rw [IdleEntry, ha]; rfl) hidle
  -- the insertion fails on both sides
  | same t p ht =>
    simp only [ha, hb]
    exact sameEnd_unchanged hR _ _ _

theorem sameEnd_pushPromise {f : Http2PushPromiseFrame} (hR : SlotsRel c₁ c₂)
    (hidle : ¬ IdleEntry c₁ f.identifier)
    (hpromised : ¬ IdleEntry c₁ f.promisedStreamIdentifier) :
    SameEnd (processPushPromiseFrame c₁ f) (processPushPromiseFrame c₂ f) := by
  have hslot := hR f.identifier
  have herr : ∀ code m, SameEnd (streamError c₁ f.identifier code m)
      (streamError c₂ f.identifier code m) := fun code m =>
    (sameStep_streamError code m hslot hidle).sameEnd hR (local_streamError ..)
      (local_streamError ..)
  -- an idle entry and no entry have the same state
  have hstate : getHttp2StreamState c₁ f.identifier = getHttp2StreamState c₂ f.identifier := by
    generalize hb : c₂.streams f.identifier = b at hslot
    generalize ha : c₁.streams f.identifier = a at hslot
    unfold getHttp2StreamState
    rw [ha, hb]
    cases hslot <;> rfl
  unfold processPushPromiseFrame
  simp only [hstate]
  split
  · exact herr _ _
  split
  · exact sameEnd_unchanged hR _ _ _
  rename_i s hs
  -- the promised stream is added in the reserved state
  refine sameEnd_addNewHttp2Stream hR hpromised s ?_
  split at hs
  · simp only [http2StreamAddHeaderBlock, emptyStreamHeaders] at hs
    cases hs
    simp
  · cases hs
    simp

theorem sameEnd_connection (hR : SlotsRel c₁ c₂) (f : Http2Frame) :
    SameEnd (processHttp2FrameForConnection c₁ f) (processHttp2FrameForConnection c₂ f) := by
  refine ⟨?_, ?_⟩
  · intro i; simpa using hR i
  · unfold processHttp2FrameForConnection
    split <;> first | rfl | (split <;> rfl)

/-- **One step.** A frame that respects the idle entries ends alike on both sides. -/
theorem sim_step {f : Http2Frame} (hR : SlotsRel c₁ c₂) (hf : IdleEntryRespected c₁ f)
    (hp : isPriority f = false) : SameEnd (processHttp2Frame c₁ f) (processHttp2Frame c₂ f) := by
  -- every frame first updates the last stream id, which is in no slot
  have hR' := fun i => hR.updateLastStreamId i i
  have hent : ∀ i j, IdleEntry (updateLastStreamId c₁ j) i → IdleEntry c₁ i := by
    intro i j h
    simpa [IdleEntry] using h
  unfold processHttp2Frame
  cases f with
  | data f =>
    exact (sameStep_data (hR' f.identifier) fun h => hf (hent _ _ h)).sameEnd (hR' f.identifier)
      (local_processDataFrame _ f) (local_processDataFrame _ f)
  | headers f =>
    exact (sameStep_headers (hR' f.identifier) fun h => hf (hent _ _ h)).sameEnd (hR' f.identifier)
      (local_processHeadersFrame _ f) (local_processHeadersFrame _ f)
  | priority f => cases hp
  | rstStream f =>
    exact (sameStep_rstStream (hR' f.identifier) fun h => hf (hent _ _ h)).sameEnd
      (hR' f.identifier) (local_processRstStreamFrame _ f) (local_processRstStreamFrame _ f)
  | pushPromise f =>
    exact sameEnd_pushPromise (hR' f.identifier) (fun h => hf.1 (hent _ _ h))
      fun h => hf.2 (hent _ _ h)
  | continuation f =>
    exact (sameStep_continuation (hR' f.identifier) fun h => hf (hent _ _ h)).sameEnd
      (hR' f.identifier) (local_processContinuationFrame _ f) (local_processContinuationFrame _ f)
  | windowUpdate f =>
    simp only [getHttp2FrameCategory]
    split
    · exact sameEnd_unchanged (hR' _) _ _ _
    · exact sameEnd_connection (hR' 0) _
  | settings f => exact sameEnd_connection (hR' 0) _
  | ping f => exact sameEnd_connection (hR' 0) _
  | goaway f => exact sameEnd_connection (hR' 0) _

/-- A PRIORITY frame keeps the sides related though only one of them processes it. -/
theorem sim_priority {f : Http2Frame} (hR : SlotsRel c₁ c₂) (hp : isPriority f = true) :
    SlotsRel (frameStep c₁ f) c₂ := by
  cases f with
  | priority f =>
    intro i
    have hloc := local_processPriorityFrame (updateLastStreamId c₁ f.identifier) f
    by_cases hi : i = f.identifier
    · subst hi
      have hslot := hR f.identifier
      generalize hb : c₂.streams f.identifier = b at hslot ⊢
      generalize ha : c₁.streams f.identifier = a at hslot
      simp only [frameStep, processHttp2Frame, getHttp2FrameCategory, processHttp2FrameForStream,
        processPriorityFrame, updateLastStreamId_streams, ha]
      cases hslot with
      -- only here an idle entry comes to be
      | none => simpa [addNewHttp2Stream, ha] using .idle f.priority
      | idle p => simpa using .idle f.priority
      | same t p ht => simpa using .same t f.priority ht
    · have := hloc.streams i hi
      rw [frameStep, processHttp2Frame]
      simp only [getHttp2FrameCategory, processHttp2FrameForStream]
      rw [this, updateLastStreamId_streams]
      exact hR i
  | _ => cases hp

theorem frameOutput_eq {f : Http2Frame}
    (h : SameEnd (processHttp2Frame c₁ f) (processHttp2Frame c₂ f)) :
    frameOutput c₁ f = frameOutput c₂ f := by
  unfold frameOutput
  dsimp only
  rw [h.result]
  split
  -- a finished request hands out its stored blocks
  · rename_i i _
    rw [storedBlocks_eq (h.slots i)]
  · rfl

/-- **PRIORITY frames change nothing in runs that respect the idle entries.** -/
theorem priorityIrrelevant_of_along (frames : List Http2Frame)
    (h : Along frameStep IdleEntryRespected http2DefaultContext frames) :
    PriorityIrrelevant frames := by
  refine Along.simulation (R := SlotsRel) ?_ ?_ (fun i => .none) h
  · intro c₁ c₂ f hR _ hp
    exact sim_priority hR (by simpa using hp)
  · intro c₁ c₂ f hR hf hp
    have hend := sim_step hR hf (by simpa using hp)
    exact ⟨hend.slots, frameOutput_eq hend⟩

/-- A stream is prioritised before its request comes in one HEADERS frame, while another
request has its body in a DATA frame. -/
def prioritisedRequest : List Http2Frame :=
  [.priority ⟨⟨false, 0, 31⟩, 3⟩, .headers ⟨none, [0x82], 1, false, true⟩,
    .headers ⟨none, [0x82], 3, true, true⟩, .priority ⟨⟨false, 0, 7⟩, 1⟩,
    .data ⟨[0x61], true, 1⟩]

theorem prioritisedRequest_irrelevant : PriorityIrrelevant prioritisedRequest :=
  priorityIrrelevant_of_along prioritisedRequest (by decide)

/-- A stream is prioritised before its request comes in a HEADERS and a DATA frame. -/
def prioritisedUpload : List Http2Frame :=
  [.priority ⟨⟨false, 0, 31⟩, 1⟩, .headers ⟨none, [0x82], 1, false, true⟩,
    .data ⟨[0x61], true, 1⟩]

/-- The DATA frame is refused, since the HEADERS frame has left the stream idle. -/
theorem prioritisedUpload_refused : ¬ PriorityIrrelevant prioritisedUpload := by
  unfold PriorityIrrelevant
  decide

end SimpleServer.Http2
