import SimpleServer.Proof.HeaderInv

/-!
# One frame and the header blocks

Each frame type keeps `OrderInv`, when it is one HTTP/2 allows and keeps the blocks; a
frame that finishes a request leaves all complete blocks decoded (`orderInv_step`).
-/

namespace SimpleServer.Http2

open Lib Hpack

variable {Authority UrlPath : Type} {context : HTTP2Context}
variable {uri : UriParser Authority UrlPath} {o : Observed} {f : Http2Frame} {id : ℕ}

theorem processHttp2Frame_decompressState {f : Http2Frame} (hf : ∀ s, f ≠ .settings s) :
    (processHttp2Frame context f).context.state.hpackState.decompressState =
      context.state.hpackState.decompressState := by
  rw [processHttp2Frame_hpackState context hf]

theorem decodedAt_eq_none {f : Http2Frame}
    (h : ∀ i, (processHttp2Frame context f).result ≠ .newFinishedRequest i) :
    decodedAt context f = none := by
  unfold decodedAt
  split
  · rename_i i hi
    exact absurd hi (h i)
  · rfl

theorem decodedAt_eq_some (context : HTTP2Context) {f : Http2Frame} {s : Http2Stream}
    (h : (processHttp2Frame context f).result = .newFinishedRequest id)
    (hs : (processHttp2Frame context f).context.streams id = some s) :
    decodedAt context f = some (id, http2ConcatDataBlocks s.headers.headerBlocks) := by
  unfold decodedAt
  rw [h]
  dsimp only
  rw [hs, Option.map_some]

/-- The decompress state after a round: what the frame leaves, or what decoding leaves. -/
theorem requestStep_decompressState (uri : UriParser Authority UrlPath) (context : HTTP2Context)
    (f : Http2Frame) :
    (requestStep uri context f).1.state.hpackState.decompressState =
      match decodedAt context f with
      | none => (processHttp2Frame context f).context.state.hpackState.decompressState
      | some p =>
        (http2HpackDecompressData
          (processHttp2Frame context f).context.state.hpackState.decompressState p.2).1 := by
  unfold requestStep decodedAt
  dsimp only
  cases (processHttp2Frame context f).result with
  | error c m => dsimp only; split <;> rfl
  | newFinishedRequest i =>
    dsimp only
    cases (processHttp2Frame context f).context.streams i with
    | none => rfl
    -- every way out of the request parser keeps the state the decoder has left
    | some s => exact congrArg _ (getHttp2RequestFromFinishedStream_hpackState uri _ _ _)
  | ok => rfl
  | closeConnection => rfl

theorem observe_streams (uri : UriParser Authority UrlPath) (o : Observed) (f : Http2Frame) :
    (observe uri o f).context.streams = (processHttp2Frame o.context f).context.streams :=
  requestStep_streams uri o.context f

theorem observe_others {f : Http2Frame} {p : Processed}
    (hl : Local id (updateLastStreamId o.context id) p)
    (hp : processHttp2Frame o.context f = p := by rfl) (i : ℕ) (hi : i ≠ id) :
    (observe uri o f).context.streams i = o.context.streams i := by
  rw [observe_streams, hp, hl.streams i hi, updateLastStreamId_streams]

/-- A frame that finishes no request, and leaves the decompress state alone. -/
theorem OrderInv.quiet (h : OrderInv o) {f : Http2Frame}
    (hresult : ∀ i, (processHttp2Frame o.context f).result ≠ .newFinishedRequest i)
    (htable : (processHttp2Frame o.context f).context.state.hpackState.decompressState =
      o.context.state.hpackState.decompressState)
    (hwire : o.wire.step f = o.wire) (hnoPart : o.wire.partialBlock = none)
    (hslots : ∀ i, SlotKept (o.context.streams i)
      ((processHttp2Frame o.context f).context.streams i)) : OrderInv (observe uri o f) := by
  refine h.keep ?_ ?_ ?_ ?_ ?_
  · rw [observe]
    dsimp only
    rw [requestStep_decompressState, decodedAt_eq_none hresult, htable]
  · exact (congrArg Wire.partialBlock hwire).trans hnoPart
  · exact congrArg Wire.completed hwire
  · rw [observe]; dsimp only; rw [decodedAt_eq_none hresult]; simp
  · intro i
    rw [observe_streams]
    exact hslots i

/-- The slots after a handler of stream `id`. -/
theorem slots_of_local {c : HTTP2Context} {p : Processed} (hl : Local id c p)
    (hid : SlotKept (c.streams id) (p.context.streams id)) (i : ℕ) :
    SlotKept (c.streams i) (p.context.streams i) := by
  by_cases hi : i = id
  · subst hi; exact hid
  · rw [hl.streams i hi]; exact .unchanged _

theorem slotKept_close {a : Option Http2Stream} (h : ∀ s, a = some s → ¬ Waiting s) :
    SlotKept a (a.map http2CloseStream) := by
  cases a with
  | none => exact .unchanged none
  | some s => exact .ended s (http2CloseStream s) (h s rfl) (h s rfl) (by simp [http2CloseStream])

/-- What a frame that may finish the request of stream `id` adds to the decoded blocks. -/
theorem observe_decoded (uri : UriParser Authority UrlPath) {f : Http2Frame} {s' : Http2Stream}
    {P : Prop} [Decidable P]
    (hresult : (processHttp2Frame o.context f).result =
      if P then .newFinishedRequest id else .ok)
    (hs' : (processHttp2Frame o.context f).context.streams id = some s')
    (htable : (processHttp2Frame o.context f).context.state.hpackState =
      o.context.state.hpackState) :
    (observe uri o f).decoded =
        (if P then o.decoded ++ [(id, http2ConcatDataBlocks s'.headers.headerBlocks)]
        else o.decoded) ∧
      (observe uri o f).context.state.hpackState.decompressState =
        if P then
          (http2HpackDecompressData o.context.state.hpackState.decompressState
            (http2ConcatDataBlocks s'.headers.headerBlocks)).1
        else o.context.state.hpackState.decompressState := by
  unfold observe
  dsimp only
  rw [requestStep_decompressState, htable]
  by_cases hP : P
  · rw [if_pos hP] at hresult
    rw [decodedAt_eq_some _ hresult hs', if_pos hP, if_pos hP]
    exact ⟨rfl, rfl⟩
  · rw [if_neg hP] at hresult
    rw [decodedAt_eq_none (fun i => by rw [hresult]; exact nofun), if_neg hP, if_neg hP]
    exact ⟨by simp, rfl⟩

/-- What a step keeps: the invariant, and when it finishes a request then all complete blocks
are decoded. -/
structure StepKept (uri : UriParser Authority UrlPath) (o : Observed) (f : Http2Frame) : Prop where
  inv : OrderInv (observe uri o f)
  finished : ∀ i, (processHttp2Frame o.context f).result = .newFinishedRequest i →
    (observe uri o f).decoded = (observe uri o f).wire.completed ∧
      ∃ b, decodedAt o.context f = some (i, b)

theorem OrderInv.stepKept (h : OrderInv (observe uri o f))
    (hresult : ∀ i, (processHttp2Frame o.context f).result ≠ .newFinishedRequest i) :
    StepKept uri o f :=
  ⟨h, fun i hi => absurd hi (hresult i)⟩

theorem step_headers (h : OrderInv o) {f : Http2HeadersFrame} (hkept : BlocksKept o (.headers f)) :
    StepKept uri o (.headers f) := by
  obtain ⟨hslot, hno⟩ := hkept
  -- the slot is free, or idle and then as the PRIORITY frame has made it
  have hopen : (updateLastStreamId o.context f.identifier).streams f.identifier = none ∨
      ∃ p, (updateLastStreamId o.context f.identifier).streams f.identifier =
        some (idleStream p) ∧ f.endStream = true ∧ f.endHeaders = true := by
    rw [updateLastStreamId_streams]
    rcases hslot with hslot | ⟨hidle, hflags⟩
    · exact .inl hslot
    · obtain ⟨s, hs, hst⟩ := Option.map_eq_some_iff.1 hidle
      exact .inr ⟨s.priority, by rw [hs, ← h.idle _ s hs hst], hflags⟩
  obtain ⟨s', hs', hh, he, hst, hres⟩ := processHeadersFrame_slot hopen
  have hb : http2ConcatDataBlocks s'.headers.headerBlocks = f.blockFragment := by
    rw [hh]; simp [http2ConcatDataBlocks]
  have hlocal := local_processHeadersFrame (updateLastStreamId o.context f.identifier) f
  obtain ⟨hdecoded, htable⟩ := observe_decoded uri (f := .headers f) hres hs'
    (processHttp2Frame_hpackState o.context nofun)
  rw [hb] at hdecoded htable
  have hnew : f.identifier ∉ o.wire.completed.map Prod.fst :=
    h.not_completed (hslot.imp_right And.left)
  -- an idle entry has no header block, so it does not wait
  have hold : ∀ s, o.context.streams f.identifier = some s → ¬ Waiting s := by
    intro s hs hw
    rcases hslot with hslot | ⟨hidle, -⟩
    · rw [hs] at hslot; cases hslot
    · rw [IdleEntry, hs, Option.map_some, Option.some.injEq] at hidle
      have := h.idle _ s hs hidle
      rw [this] at hw
      cases hw.1
  refine ⟨h.block f.identifier s' f.blockFragment f.endHeaders
    (by rw [observe_streams]; exact hs') (observe_others hlocal) (by rw [hh]) hb (by rw [hst, he])
    hnew hold ?_ hno (by rw [hdecoded, he])
    (by rw [htable, he]), ?_⟩
  · simp only [observe, Wire.step]
  · intro i hi
    rw [show processHttp2Frame o.context (.headers f) =
      processHeadersFrame (updateLastStreamId o.context f.identifier) f from rfl] at hi
    by_cases hboth : f.endStream = true ∧ f.endHeaders = true
    · rw [hres, if_pos hboth] at hi
      cases hi
      refine ⟨?_, f.blockFragment, ?_⟩
      · rw [hdecoded, if_pos hboth, ← h.none_waiting (hno hboth.2)]
        simp [observe, Wire.step, hboth.2]
      · have := decodedAt_eq_some o.context (f := .headers f)
          (hres.trans (if_pos hboth)) hs'
        rw [this, hb]
    · rw [hres, if_neg hboth] at hi
      cases hi

theorem step_continuation (h : OrderInv o) {f : Http2ContinuationFrame}
    (hwire : WireAllowed o (.continuation f)) (hkept : BlocksKept o (.continuation f)) :
    StepKept uri o (.continuation f) := by
  obtain ⟨hne, hno⟩ := hkept
  obtain ⟨⟨i, b⟩, hpart, hi⟩ := Option.map_eq_some_iff.1 hwire
  obtain rfl : i = f.identifier := hi
  -- the open block on the wire is the one the stream has stored so far
  obtain ⟨hnew, s, hs, hopen, hfin, hb⟩ := h.partialBlock _ b hpart
  have hs0 : (updateLastStreamId o.context f.identifier).streams f.identifier = some s := by
    rw [updateLastStreamId_streams, hs]
  obtain ⟨hs', hres⟩ := processContinuationFrame_slot hs0 hopen hfin hne
  have hlocal := local_processContinuationFrame (updateLastStreamId o.context f.identifier) f
  obtain ⟨hdecoded, htable⟩ := observe_decoded uri (f := .continuation f) hres hs'
    (processHttp2Frame_hpackState o.context nofun)
  have hb' : http2ConcatDataBlocks (s.headers.headerBlocks ++ [f.blockFragment]) =
      b ++ f.blockFragment := by
    rw [← hb]; simp [http2ConcatDataBlocks]
  dsimp only at hdecoded htable
  rw [hb'] at hdecoded htable
  refine ⟨h.block f.identifier
    { s with
      headers := ⟨f.endHeaders, s.headers.headerBlocks ++ [f.blockFragment]⟩
      state := if s.endStream = true ∧ f.endHeaders = true then .halfClosed else s.state }
    (b ++ f.blockFragment) f.endHeaders
    (by rw [observe_streams]; exact hs') (observe_others hlocal) rfl hb' (by rw [hopen]) hnew ?_ ?_
    hno hdecoded htable, ?_⟩
  · intro t ht hw
    obtain rfl : s = t := Option.some.inj (hs.symm.trans ht)
    rw [hw.1] at hfin
    cases hfin
  · simp only [observe, Wire.step, hpart]
  · intro i hi
    rw [show processHttp2Frame o.context (.continuation f) =
      processContinuationFrame (updateLastStreamId o.context f.identifier) f from rfl] at hi
    by_cases hboth : s.endStream = true ∧ f.endHeaders = true
    · rw [hres, if_pos hboth] at hi
      cases hi
      refine ⟨?_, b ++ f.blockFragment, ?_⟩
      · rw [hdecoded, if_pos hboth, ← h.none_waiting (hno hboth.2)]
        simp [observe, Wire.step, hpart, hboth.2]
      · have := decodedAt_eq_some o.context (f := .continuation f)
          (hres.trans (if_pos hboth)) hs'
        rw [this]
        exact congrArg (fun b => some (f.identifier, b)) hb'
    · rw [hres, if_neg hboth] at hi
      cases hi

theorem step_data (h : OrderInv o) {f : Http2DataFrame} (hpart : o.wire.partialBlock = none) :
    StepKept uri o (.data f) := by
  have hlocal := local_processDataFrame (updateLastStreamId o.context f.identifier) f
  have hpack := processHttp2Frame_hpackState o.context (f := .data f) nofun
  -- the frame is refused and closes a stream that does not wait, or belongs to the one that does
  rcases processDataFrame_slot (updateLastStreamId o.context f.identifier) f with
    ⟨hclose, hres, hnot⟩ | ⟨s, content, hs, hwait, hs', hres⟩
  · have hq : OrderInv (observe uri o (.data f)) := by
      refine h.quiet hres (by rw [hpack]) rfl hpart fun i => ?_
      have := slots_of_local hlocal (i := i) ?_
      · rwa [updateLastStreamId_streams] at this
      · rw [hclose]
        refine slotKept_close fun s hs hw => ?_
        have hs0 : o.context.streams f.identifier = some s := by simpa using hs
        exact hnot s hs (h.open_of_waiting hs0 hw) hw
    exact hq.stepKept hres
  · have hs0 : o.context.streams f.identifier = some s := by simpa using hs
    cases hend : f.isEnd with
    | false =>
      rw [hend] at hs' hres
      simp only [Bool.false_eq_true, if_false] at hs' hres
      have hresult : ∀ i, (processHttp2Frame o.context (.data f)).result ≠
          .newFinishedRequest i := by
        intro i hi
        rw [show (processHttp2Frame o.context (.data f)).result = _ from hres] at hi
        cases hi
      have hq : OrderInv (observe uri o (.data f)) := by
        refine h.quiet hresult (by rw [hpack]) rfl hpart fun i => ?_
        have := slots_of_local hlocal (i := i) ?_
        · rwa [updateLastStreamId_streams] at this
        · rw [hs', hs]
          have hmore := SlotKept.more s content
            (by rw [h.open_of_waiting hs0 hwait]; exact nofun)
          -- no END_STREAM: the frame writes the flag the stream has already
          have heq : { s with content := content, endStream := false } =
              { s with content := content } := by
            rw [← hwait.2]
          rw [heq]
          exact hmore
      exact hq.stepKept hresult
    | true =>
      rw [hend] at hs' hres
      simp only [if_true] at hs' hres
      obtain ⟨hdecoded, htable⟩ := observe_decoded uri (f := .data f) (P := True)
        (by rw [if_pos trivial]; exact hres) hs' hpack
      rw [if_pos trivial] at hdecoded htable
      have hw : Writes o (observe uri o (.data f)) f.identifier
          { s with content := content, endStream := true, state := .halfClosed } :=
        ⟨by rw [observe_streams]; exact hs', observe_others hlocal, nofun⟩
      refine ⟨h.dataEnd hs0 hwait hw rfl hpart rfl hdecoded htable, ?_⟩
      · intro i hi
        rw [show (processHttp2Frame o.context (.data f)).result = _ from hres] at hi
        cases hi
        refine ⟨?_, _, decodedAt_eq_some _ hres hs'⟩
        rw [hdecoded]
        exact (h.of_waiting hs0 hwait).1.symm

theorem step_rstStream (h : OrderInv o) {f : Http2RstStreamFrame}
    (hpart : o.wire.partialBlock = none) (hkept : BlocksKept o (.rstStream f)) :
    StepKept uri o (.rstStream f) := by
  have hlocal := local_processRstStreamFrame (updateLastStreamId o.context f.identifier) f
  obtain ⟨hres, hnone, hsome⟩ :=
    processRstStreamFrame_slot (updateLastStreamId o.context f.identifier) f
  have hq : OrderInv (observe uri o (.rstStream f)) := by
    refine h.quiet hres (processHttp2Frame_decompressState nofun) rfl hpart
      fun i => ?_
    have := slots_of_local hlocal (i := i) ?_
    · rwa [updateLastStreamId_streams] at this
    · cases hs : (updateLastStreamId o.context f.identifier).streams f.identifier with
      | none => rw [hnone hs]; exact .unchanged none
      | some s =>
        obtain ⟨s', hs', hst, hiff⟩ := hsome s hs
        -- a reset of a stream that waits would drop a complete block
        have hnw : ¬ Waiting s := hkept s (by simpa using hs)
        rw [hs']
        exact .ended s s' hnw (fun hw => hnw (hiff.1 hw)) hst
  exact hq.stepKept hres

theorem step_priority (h : OrderInv o) {f : Http2PriorityFrame}
    (hpart : o.wire.partialBlock = none) : StepKept uri o (.priority f) := by
  have hlocal := local_processPriorityFrame (updateLastStreamId o.context f.identifier) f
  have hslot : (∀ i, (processPriorityFrame (updateLastStreamId o.context f.identifier) f).result ≠
      .newFinishedRequest i) ∧
      SlotKept ((updateLastStreamId o.context f.identifier).streams f.identifier)
        ((processPriorityFrame (updateLastStreamId o.context f.identifier) f).context.streams
          f.identifier) := by
    unfold processPriorityFrame
    cases hs : (updateLastStreamId o.context f.identifier).streams f.identifier with
    | none =>
      simp only [addNewHttp2Stream, hs, HTTP2Context.setStream_streams]
      exact ⟨by rintro _ ⟨⟩, .fresh f.priority⟩
    | some s =>
      simp only [HTTP2Context.setStream_streams]
      exact ⟨by rintro _ ⟨⟩, .prioritised s f.priority⟩
  have hq : OrderInv (observe uri o (.priority f)) := by
    refine h.quiet hslot.1 (processHttp2Frame_decompressState (by rintro _ ⟨⟩)) rfl hpart
      fun i => ?_
    have := slots_of_local hlocal hslot.2 i
    rwa [updateLastStreamId_streams] at this
  exact hq.stepKept hslot.1

/-- A frame that touches no stream and no table. -/
theorem step_untouched (h : OrderInv o) (hpart : o.wire.partialBlock = none)
    (hres : ∀ i, (processHttp2Frame o.context f).result ≠ .newFinishedRequest i)
    (hstreams : (processHttp2Frame o.context f).context.streams = o.context.streams)
    (htable : (processHttp2Frame o.context f).context.state.hpackState.decompressState =
      o.context.state.hpackState.decompressState)
    (hwire : o.wire.step f = o.wire) : StepKept uri o f := by
  refine (h.quiet hres htable hwire hpart fun i => ?_).stepKept hres
  rw [hstreams]
  exact .unchanged _

theorem foldl_applySetting_decompressState {entries : List Http2SettingSingleValue}
    {context : HTTP2Context}
    (h : ∀ entry ∈ entries, entry.identifier = .headerTableSize →
      setHpackDecompressStateSetting context.state.hpackState.decompressState entry.value =
        context.state.hpackState.decompressState) :
    (entries.foldl applySetting context).state.hpackState.decompressState =
      context.state.hpackState.decompressState := by
  induction entries generalizing context with
  | nil => rfl
  | cons e entries ih =>
    -- only SETTINGS_HEADER_TABLE_SIZE reaches the decompress state
    have he : (applySetting context e).state.hpackState.decompressState =
        context.state.hpackState.decompressState := by
      unfold applySetting
      cases hid : e.identifier with
      | headerTableSize => exact h e List.mem_cons_self hid
      | _ => rfl
    rw [List.foldl_cons, ih, he]
    intro entry hmem hid
    rw [he]
    exact h entry (List.mem_cons_of_mem _ hmem) hid

theorem step_settings (h : OrderInv o) {f : Http2SettingsFrame}
    (hpart : o.wire.partialBlock = none) (hkept : BlocksKept o (.settings f)) :
    StepKept uri o (.settings f) := by
  obtain ⟨hctx, hres⟩ := processHttp2Frame_settings o.context f
  refine step_untouched h hpart (fun i => by rw [hres]; exact nofun) ?_ ?_ rfl
  · rw [hctx]
    split
    · rfl
    · exact http2ApplySettingsFrame_streams _ _
  · rw [hctx]
    split
    · rfl
    · rename_i hack
      exact foldl_applySetting_decompressState (hkept.resolve_left hack)

/-- **One step** keeps the order of the blocks. -/
theorem orderInv_step (uri : UriParser Authority UrlPath) (h : OrderInv o)
    (hwire : WireAllowed o f) (hkept : BlocksKept o f) :
    StepKept uri o f := by
  cases f with
  | data f => exact step_data h hwire
  | headers f => exact step_headers h hkept
  | priority f => exact step_priority h hwire
  | rstStream f => exact step_rstStream h hwire hkept
  | settings f => exact step_settings h hwire hkept
  | pushPromise f => exact absurd hwire id
  | ping f =>
    refine step_untouched h hwire ?_ ?_ (processHttp2Frame_decompressState (by rintro _ ⟨⟩)) rfl
    · exact processHttp2FrameForConnection_result _ _
    · exact processHttp2FrameForConnection_streams _ _
  | goaway f =>
    refine step_untouched h hwire ?_ ?_ (processHttp2Frame_decompressState (by rintro _ ⟨⟩)) rfl
    · exact processHttp2FrameForConnection_result _ _
    · exact processHttp2FrameForConnection_streams _ _
  | windowUpdate f =>
    have hproc : (∀ i, (processHttp2Frame o.context (.windowUpdate f)).result ≠
        .newFinishedRequest i) ∧
        (processHttp2Frame o.context (.windowUpdate f)).context.streams = o.context.streams := by
      unfold processHttp2Frame
      simp only [getHttp2FrameCategory]
      split
      · exact ⟨by rintro _ ⟨⟩, updateLastStreamId_streams _ _⟩
      · exact ⟨by rintro _ ⟨⟩, updateLastStreamId_streams _ _⟩
    exact step_untouched h hwire hproc.1 hproc.2
      (processHttp2Frame_decompressState (by rintro _ ⟨⟩)) rfl
  | continuation f => exact step_continuation h hwire hkept

end SimpleServer.Http2
