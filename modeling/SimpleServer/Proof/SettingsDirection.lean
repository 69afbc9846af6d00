import SimpleServer.Lib.Run
import SimpleServer.Http2.Request

/-!
# The direction of SETTINGS_HEADER_TABLE_SIZE

The peer announces the limit of its own decoder with SETTINGS_HEADER_TABLE_SIZE, which
binds the server's compress table; the limit of the decompress table is for the server to
announce. `http2ApplySettingsFrame` sets the decompress table from the peer's value, and
`getStartSettingsFrame` the compress table from the server's own.

* `http2SendAndReceivePreface_events`, `parseHttp2Request_events`, `http2ProcessH2cUpgrade_events`:
  the calls of the server as events.
* `compressMax_run`: the limit of the compress table is 4096 in every run.
* `settingsDirection_iff`: the directions are kept exactly in the runs in which every value
  the peer announces is the limit the decompress table already has, and no smaller than the
  limit of the compress table.
-/

namespace SimpleServer.Http2

open Lib Hpack

variable {Authority UrlPath : Type}

/-- What happens on a connection: the server announces its settings, the settings of an
upgrade request are applied, a frame is read, a response is compressed. -/
inductive ConnectionEvent where
  | announce
  | h2cSettings (settings : Http2SettingsFrame)
  | frame (frame : Http2Frame)
  | response (headerFields : List HttpHeaderField) (options : Http2HpackCompressOptions)

def connectionStep (uri : UriParser Authority UrlPath) (context : HTTP2Context) :
    ConnectionEvent → HTTP2Context
  | .announce => (getStartSettingsFrame context).1
  | .h2cSettings settings => http2ApplySettingsFrame context settings
  | .frame frame => (requestStep uri context frame).1
  | .response headerFields options =>
    context.setCompressState
      (http2HpackCompressData context.state.hpackState.compressState headerFields options).1

/-- The SETTINGS frame an event applies. -/
def appliedSettings : ConnectionEvent → Option Http2SettingsFrame
  | .h2cSettings settings => some settings
  | .frame (.settings settings) => if settings.ack then none else some settings
  | _ => none

def headerTableSizes (settings : Http2SettingsFrame) : List ℕ :=
  settings.entries.filterMap fun entry =>
    if entry.identifier = .headerTableSize then some entry.value else none

/-- The last SETTINGS_HEADER_TABLE_SIZE value the peer has announced. -/
def lastAnnounced (events : List ConnectionEvent) : Option ℕ :=
  (events.flatMap fun e => ((appliedSettings e).map headerTableSizes).getD []).getLast?

/-- The limit of the compress table. -/
def compressMax (context : HTTP2Context) : ℕ :=
  context.state.hpackState.compressState.maxDynamicTableByteSize

/-- The limit of the decompress table. -/
def decompressMax (context : HTTP2Context) : ℕ :=
  context.state.hpackState.decompressState.maxDynamicTableByteSize

/-- This event decodes a header block that holds a dynamic table size update. -/
def DecodesSizeUpdate (context : HTTP2Context) (e : ConnectionEvent) : Prop :=
  ∃ f id s, e = .frame f ∧ (processHttp2Frame context f).result = .newFinishedRequest id ∧
    (processHttp2Frame context f).context.streams id = some s ∧
    blockHasSizeUpdate context.state.hpackState.decompressState
      (http2ConcatDataBlocks s.headers.headerBlocks) = true

/-- What the event `e` after the events `pre` has to respect. -/
structure DirectionKept (uri : UriParser Authority UrlPath) (pre : List ConnectionEvent)
    (e : ConnectionEvent) : Prop where
  /-- After a SETTINGS frame the compress table is within the peer's limit. -/
  compress : ∀ s v, appliedSettings e = some s → lastAnnounced (pre ++ [e]) = some v →
    compressMax (runFrom (connectionStep uri) http2DefaultContext (pre ++ [e])) ≤ v
  /-- No entry of a SETTINGS frame changes the limit of the decompress table. -/
  decompress : ∀ s before entry after, appliedSettings e = some s →
    s.entries = before ++ entry :: after →
    decompressMax (applySetting (before.foldl applySetting
        (runFrom (connectionStep uri) http2DefaultContext pre)) entry) =
      decompressMax (before.foldl applySetting
        (runFrom (connectionStep uri) http2DefaultContext pre))
  /-- Apart from that it changes with what the server announces or with a size update. -/
  others : appliedSettings e = none →
    decompressMax (runFrom (connectionStep uri) http2DefaultContext (pre ++ [e])) ≠
        decompressMax (runFrom (connectionStep uri) http2DefaultContext pre) →
      e = .announce ∨ DecodesSizeUpdate (runFrom (connectionStep uri) http2DefaultContext pre) e

/-- The directions are kept in every step of a run. -/
def SettingsDirection (uri : UriParser Authority UrlPath) (events : List ConnectionEvent) : Prop :=
  ∀ pre e post, events = pre ++ e :: post → DirectionKept uri pre e

/-- The three ways in which SETTINGS frames come in are events, as far as the HPACK tables go. -/
structure EntryPointsAreEvents (uri : UriParser Authority UrlPath) : Prop where
  preface : ∀ context settings,
    (http2SendAndReceivePreface context (.settings settings)).1 =
      runFrom (connectionStep uri) context [.announce, .frame (.settings settings)]
  request : ∀ context frames,
    ∃ read, frames = read ++ (parseHttp2Request uri context frames).2.2 ∧
      (parseHttp2Request uri context frames).1 =
        runFrom (connectionStep uri) context (read.map .frame)
  upgrade : ∀ context upgradeSettings settings,
    (http2ProcessH2cUpgrade context upgradeSettings (.settings settings)).1.state.hpackState =
      (runFrom (connectionStep uri) context
        [.announce, .h2cSettings upgradeSettings, .frame (.settings settings)]).state.hpackState

/-- Every announced value is the limit of the decompress table and within it lies that of the
compress table. -/
def AnnouncesCurrentLimit (context : HTTP2Context) (e : ConnectionEvent) : Prop :=
  ∀ s, appliedSettings e = some s → ∀ v ∈ headerTableSizes s,
    v = decompressMax context ∧ compressMax context ≤ v

variable (uri : UriParser Authority UrlPath)

/-! ## The calls of the server as events -/

theorem requestStep_settings (context : HTTP2Context) (s : Http2SettingsFrame) :
    (requestStep uri context (.settings s)).1 =
      (processHttp2Frame context (.settings s)).context := by
  unfold requestStep
  simp only [(processHttp2Frame_settings context s).2]

theorem receivePreface_settings (context : HTTP2Context) (s : Http2SettingsFrame) :
    receivePreface context (.settings s) =
      ((processHttp2Frame context (.settings s)).context, .ok ()) := by
  unfold receivePreface
  simp only [(processHttp2Frame_settings context s).2]

/-- The preface is an announcement and a frame. -/
theorem http2SendAndReceivePreface_events (context : HTTP2Context) (s : Http2SettingsFrame) :
    (http2SendAndReceivePreface context (.settings s)).1 =
      runFrom (connectionStep uri) context [.announce, .frame (.settings s)] := by
  rw [http2SendAndReceivePreface, receivePreface_settings]
  exact (requestStep_settings uri _ s).symm

/-- A request is a run over the frames that are read for it. -/
theorem parseHttp2Request_events (context : HTTP2Context) (frames : List Http2Frame) :
    ∃ read, frames = read ++ (parseHttp2Request uri context frames).2.2 ∧
      (parseHttp2Request uri context frames).1 =
        runFrom (connectionStep uri) context (read.map .frame) := by
  induction frames generalizing context with
  | nil => exact ⟨[], rfl, rfl⟩
  | cons frame frames ih =>
    have hstep :
        connectionStep uri context (.frame frame) = (requestStep uri context frame).1 := rfl
    unfold parseHttp2Request
    split
    · rename_i context' hnone
      obtain ⟨read, hframes, hrun⟩ := ih context'
      refine ⟨frame :: read, congrArg (frame :: ·) hframes, ?_⟩
      rw [hrun, List.map_cons, runFrom_cons, hstep, hnone]
    · rename_i context' result hsome
      refine ⟨[frame], rfl, ?_⟩
      rw [List.map_singleton, runFrom_cons, runFrom_nil, hstep, hsome]

/-- The upgrade is an announcement, the settings of the request and a frame. -/
theorem http2ProcessH2cUpgrade_events (context : HTTP2Context) (settings s : Http2SettingsFrame) :
    (http2ProcessH2cUpgrade context settings (.settings s)).1.state.hpackState =
      (runFrom (connectionStep uri) context
        [.announce, .h2cSettings settings, .frame (.settings s)]).state.hpackState := by
  have hrun : runFrom (connectionStep uri) context
      [.announce, .h2cSettings settings, .frame (.settings s)] =
        (processHttp2Frame (http2ApplySettingsFrame (getStartSettingsFrame context).1 settings)
          (.settings s)).context := requestStep_settings uri _ s
  rw [hrun]
  unfold http2ProcessH2cUpgrade
  simp only [receivePreface_settings]
  split
  · rfl
  -- stream 1 of the upgrade request is added last and has no part in the tables
  · rename_i hadd
    obtain ⟨-, rfl⟩ := addNewHttp2Stream_eq_some hadd
    rfl

/-! ## The limit of the compress table -/

@[simp] theorem applySetting_compressMax (context : HTTP2Context) (e : Http2SettingSingleValue) :
    compressMax (applySetting context e) = compressMax context := by
  unfold applySetting; split <;> rfl

theorem foldl_applySetting_compressMax (entries : List Http2SettingSingleValue)
    (context : HTTP2Context) :
    compressMax (entries.foldl applySetting context) = compressMax context := by
  induction entries generalizing context with
  | nil => rfl
  | cons e entries ih => rw [List.foldl_cons, ih, applySetting_compressMax]

theorem processHttp2Frame_compressMax (context : HTTP2Context) (f : Http2Frame) :
    compressMax (processHttp2Frame context f).context = compressMax context := by
  cases f with
  | settings s =>
    rw [(processHttp2Frame_settings context s).1]
    split
    · rfl
    · exact foldl_applySetting_compressMax _ _
  | _ => rw [compressMax, processHttp2Frame_hpackState context (by simp)]; rfl

theorem requestStep_compressMax (context : HTTP2Context) (f : Http2Frame) :
    compressMax (requestStep uri context f).1 = compressMax context := by
  rcases requestStep_hpackState uri context f with h | ⟨id, s, -, -, h⟩
  · rw [compressMax, h]
    exact processHttp2Frame_compressMax context f
  · rw [compressMax, h]
    exact processHttp2Frame_compressMax context f

/-- **The limit of the compress table is always the default.** -/
theorem compressMax_run (events : List ConnectionEvent) :
    compressMax (runFrom (connectionStep uri) http2DefaultContext events) =
      defaultHeaderTableSize := by
  have hstep : ∀ c e, compressMax c = defaultHeaderTableSize → True →
      compressMax (connectionStep uri c e) = defaultHeaderTableSize := by
    intro c e hc _
    cases e with
    -- the server sets the compress table from its own settings
    | announce => exact setHpackCompressStateSetting_max _ _
    | h2cSettings s =>
      rw [← hc]
      exact foldl_applySetting_compressMax _ _
    | frame f =>
      rw [← hc]
      exact requestStep_compressMax uri c f
    | response fields options =>
      rw [← hc]
      exact http2HpackCompressData_max _ _ _
  refine Along.invariant (C := fun _ _ => True) hstep rfl (along_iff.2 ?_)
  intro _ _ _ _
  trivial

/-! ## The limit of the decompress table -/

theorem applySetting_decompressMax (context : HTTP2Context) (e : Http2SettingSingleValue) :
    decompressMax (applySetting context e) =
      if e.identifier = .headerTableSize then e.value else decompressMax context := by
  unfold applySetting
  cases h : e.identifier
  -- `headerTableSize` is the one entry that is handed on to HPACK
  · exact setHpackDecompressStateSetting_max _ _
  all_goals rfl

/-- The decompress limit after some entries, when they all announce the limit there is. -/
theorem foldl_applySetting_decompressMax {entries : List Http2SettingSingleValue}
    {context : HTTP2Context}
    (h : ∀ v ∈ headerTableSizes ⟨false, entries⟩, v = decompressMax context) :
    decompressMax (entries.foldl applySetting context) = decompressMax context := by
  induction entries generalizing context with
  | nil => rfl
  | cons e entries ih =>
    have he : decompressMax (applySetting context e) = decompressMax context := by
      rw [applySetting_decompressMax]
      split
      · rename_i hid
        exact h e.value (by simp [headerTableSizes, hid])
      · rfl
    rw [List.foldl_cons, ih, he]
    intro v hv
    rw [he]
    refine h v ?_
    simp only [headerTableSizes, List.filterMap_cons] at hv ⊢
    split
    · exact hv
    · exact List.mem_cons_of_mem _ hv

/-- If no entry changes the limit, every announced value is the limit from before. -/
theorem headerTableSizes_of_unchanged {entries : List Http2SettingSingleValue}
    {context : HTTP2Context}
    (h : ∀ before entry after, entries = before ++ entry :: after →
      decompressMax (applySetting (before.foldl applySetting context) entry) =
        decompressMax (before.foldl applySetting context)) :
    ∀ v ∈ headerTableSizes ⟨false, entries⟩, v = decompressMax context := by
  induction entries generalizing context with
  | nil => intro v hv; simp [headerTableSizes] at hv
  | cons e entries ih =>
    intro v hv
    -- the first entry leaves the limit as it is, so the rest starts from the same one
    have he := h [] e entries rfl
    have hrest : ∀ v ∈ headerTableSizes ⟨false, entries⟩,
        v = decompressMax (applySetting context e) := by
      refine ih ?_
      rintro before entry after rfl
      exact h (e :: before) entry after rfl
    rw [List.foldl_nil] at he
    rw [he] at hrest
    simp only [headerTableSizes, List.filterMap_cons] at hv
    split at hv
    · exact hrest v hv
    · rename_i w hw
      rcases List.mem_cons.1 hv with rfl | hv
      · split at hw
        · rename_i hid
          rw [applySetting_decompressMax, if_pos hid] at he
          rw [← Option.some.inj hw, he]
        · cases hw
      · exact hrest v hv

/-- A step that applies no SETTINGS frame only changes the limit with a size update. -/
theorem decompressMax_others {context : HTTP2Context} {e : ConnectionEvent}
    (he : appliedSettings e = none) (hne : decompressMax (connectionStep uri context e) ≠
      decompressMax context) : DecodesSizeUpdate context e := by
  cases e with
  | announce => exact absurd rfl hne
  | h2cSettings s => cases he
  | response fields options => exact absurd rfl hne
  | frame f =>
    -- without SETTINGS only the decoding of a block can touch the table
    have hproc : (processHttp2Frame context f).context.state.hpackState =
        context.state.hpackState := by
      cases f with
      | settings s =>
        rw [(processHttp2Frame_settings context s).1]
        cases hack : s.ack with
        | true => rfl
        | false => simp [appliedSettings, hack] at he
      | _ => exact processHttp2Frame_hpackState context (by simp)
    rcases requestStep_hpackState uri context f with h | ⟨id, s, hid, hs, h⟩
    · rw [decompressMax, connectionStep, h, hproc] at hne
      exact absurd rfl hne
    · refine ⟨f, id, s, rfl, hid, hs, ?_⟩
      by_contra hno
      rw [decompressMax, connectionStep, h, hproc] at hne
      exact hne (http2HpackDecompressData_max (by simpa using hno))

theorem lastAnnounced_append (pre : List ConnectionEvent) (e : ConnectionEvent) :
    lastAnnounced (pre ++ [e]) =
      ((((appliedSettings e).map headerTableSizes).getD []).getLast?).or (lastAnnounced pre) := by
  simp [lastAnnounced, List.getLast?_append]

/-- When every event announces the current limit, every announced value is at least the
default. -/
theorem lastAnnounced_ge {events : List ConnectionEvent}
    (h : Along (connectionStep uri) AnnouncesCurrentLimit http2DefaultContext events) {v : ℕ}
    (hv : lastAnnounced events = some v) : defaultHeaderTableSize ≤ v := by
  induction events using List.reverseRecOn with
  | nil => cases hv
  | append_singleton pre e ih =>
    obtain ⟨hpre, he, -⟩ := along_append.1 h
    rw [lastAnnounced_append, Option.or_eq_some_iff] at hv
    rcases hv with hv | ⟨-, hv⟩
    · cases hs : appliedSettings e with
      | none => simp [hs] at hv
      | some s =>
        rw [hs] at hv
        have hmem := List.mem_of_getLast? hv
        rw [← compressMax_run uri pre]
        exact (he s hs v hmem).2
    · exact ih hpre hv

/-- A run keeps the directions if the peer only announces the limit there is. -/
theorem settingsDirection_along (events : List ConnectionEvent) :
    SettingsDirection uri events ↔
      Along (connectionStep uri) AnnouncesCurrentLimit http2DefaultContext events := by
  constructor
  · intro h
    rw [along_iff]
    rintro pre e post rfl s hs
    have hkept := h pre e post rfl
    have hcur : ∀ v ∈ headerTableSizes s,
        v = decompressMax (runFrom (connectionStep uri) http2DefaultContext pre) :=
      headerTableSizes_of_unchanged fun before entry after heq =>
        hkept.decompress s before entry after hs heq
    intro v hv
    refine ⟨hcur v hv, ?_⟩
    -- all announced values are equal, so the last one is `v`
    obtain ⟨w, hw⟩ : ∃ w, (headerTableSizes s).getLast? = some w := by
      cases hl : (headerTableSizes s).getLast? with
      | none => rw [List.getLast?_eq_none_iff.1 hl] at hv; cases hv
      | some w => exact ⟨w, rfl⟩
    have hlast : lastAnnounced (pre ++ [e]) = some w := by
      rw [lastAnnounced_append, hs]
      simp [hw]
    have hle := hkept.compress s w hs hlast
    rw [compressMax_run] at hle ⊢
    rw [hcur v hv, ← hcur w (List.mem_of_getLast? hw)]
    exact hle
  · rintro h pre e post rfl
    have hsplit : Along (connectionStep uri) AnnouncesCurrentLimit http2DefaultContext
        ((pre ++ [e]) ++ post) := by simpa using h
    obtain ⟨hto, -⟩ := along_append.1 hsplit
    obtain ⟨-, he, -⟩ := along_append.1 hto
    refine ⟨?_, ?_, ?_⟩
    · intro s v _ hv
      rw [compressMax_run]
      exact lastAnnounced_ge uri hto hv
    · intro s before entry after hs heq
      have hmem : ∀ v ∈ headerTableSizes ⟨false, before ++ entry :: after⟩,
          v = decompressMax (runFrom (connectionStep uri) http2DefaultContext pre) := by
        intro v hv
        exact (he s hs v (by rw [headerTableSizes, heq]; exact hv)).1
      -- the entries before this one have left the limit as it was
      have hbefore : decompressMax (before.foldl applySetting
          (runFrom (connectionStep uri) http2DefaultContext pre)) =
            decompressMax (runFrom (connectionStep uri) http2DefaultContext pre) := by
        refine foldl_applySetting_decompressMax fun v hv => hmem v ?_
        simp only [headerTableSizes, List.filterMap_append] at hv ⊢
        exact List.mem_append_left _ hv
      rw [applySetting_decompressMax, hbefore]
      split
      · rename_i hid
        refine hmem entry.value ?_
        simp [headerTableSizes, hid]
      · rfl
    · intro hnone hne
      rw [runFrom_append, runFrom_cons, runFrom_nil] at hne
      exact .inr (decompressMax_others uri hnone hne)

/-- **The directions are kept exactly in the runs in which the peer only announces the limit
the decompress table has already, and no less than that of the compress table.** The entry
points of SETTINGS frames are steps of such runs. -/
theorem settingsDirection_iff (events : List ConnectionEvent) :
    (SettingsDirection uri events ↔
        Along (connectionStep uri) AnnouncesCurrentLimit http2DefaultContext events) ∧
      EntryPointsAreEvents uri := by
  refine ⟨settingsDirection_along uri events, ?_, parseHttp2Request_events uri, ?_⟩
  · exact http2SendAndReceivePreface_events uri
  · exact http2ProcessH2cUpgrade_events uri

/-- The server announces 4096, the client that it has no table at all. -/
def tablelessClient : List ConnectionEvent :=
  [.announce, .frame (.settings ⟨false, [⟨.headerTableSize, 0⟩]⟩)]

/-- After these settings the compress table may still hold 4096 bytes. -/
theorem tablelessClient_direction :
    ¬ SettingsDirection UriParser.plain tablelessClient := by
  intro h
  have := (h [.announce] _ [] rfl).compress ⟨false, [⟨.headerTableSize, 0⟩]⟩ 0 rfl rfl
  exact absurd this (by decide)

end SimpleServer.Http2
