import SimpleServer.Http2.Send
import SimpleServer.Lib.Run
import SimpleServer.Proof.FrameCodec

/-!
# The settings of the peer

A SETTINGS payload is a list of pairs of an identifier and a value (`rawEntries`). The parser
takes a payload as a whole or not at all (`parseRawHttp2SettingsFrame_ok`), and what it takes
is applied entry by entry.

* `SlipsThrough`: the payloads that are taken although a value is not in the range of the
  protocol: a frame size of 2^24.
* `receiveSettings_run`: after any run the frame size is at most 2^24.
* `receiveSettings_inRange`: a step, on a payload that does not slip through.
* `sendersFit_of_inRange`: with settings in range the parts of a buffer fit into their frames.
* `settings_run`: **in every run without such a payload** the settings stay in range, a
  payload with a value out of range changes nothing, and what is sent fits.
-/

namespace SimpleServer.Http2

open SimpleServer.Utils Lib

/-! ## The entries of a payload -/

/-- The entry at byte `i` of a payload. -/
def rawEntryAt (payload : Bytes) (i : ℕ) : ℕ × ℕ :=
  (deserializeU16BeToHost (payload.drop i), deserializeU32BeToHost (payload.drop (i + 2)))

/-- The identifiers and values in a payload. -/
def rawEntries (payload : Bytes) : List (ℕ × ℕ) :=
  (List.range (payload.length / http2SettingsFrameSingleSize)).map fun k =>
    rawEntryAt payload (http2SettingsFrameSingleSize * k)

/-- The value of a setting is in its range, with a limit for the frame size. -/
def Within (limit : ℕ) (entry : ℕ × ℕ) : Prop :=
  match Http2SettingsFrameIdentifier.ofCode entry.1 with
  | some .enablePush => entry.2 ≤ 1
  | some .initialWindowSize => entry.2 ≤ 2 ^ 31 - 1
  | some .maxFrameSize => 2 ^ 14 ≤ entry.2 ∧ entry.2 ≤ limit
  | _ => True

/-- The range of the protocol. -/
def InRange (entry : ℕ × ℕ) : Prop := Within (2 ^ 24 - 1) entry

/-- `SETTINGS_MAX_FRAME_SIZE` with a value one above its range. -/
def slippingEntry : ℕ × ℕ := (0x5, 2 ^ 24)

/-- Nothing is wrong with the payload but that value. -/
def SlipsThrough (payload : Bytes) : Prop :=
  payload.length % http2SettingsFrameSingleSize = 0 ∧ slippingEntry ∈ rawEntries payload ∧
    ∀ entry ∈ rawEntries payload, entry ≠ slippingEntry → InRange entry

/-- The entry the parser makes of a pair, if it knows the identifier. -/
def knownEntry (entry : ℕ × ℕ) : Option Http2SettingSingleValue :=
  (Http2SettingsFrameIdentifier.ofCode entry.1).map fun identifier => ⟨identifier, entry.2⟩

/-- The parser has no complaint about the value. -/
def Admitted (entry : ℕ × ℕ) : Prop :=
  ∀ identifier, Http2SettingsFrameIdentifier.ofCode entry.1 = some identifier →
    settingsValueError identifier entry.2 = none

theorem ofCode_eq_maxFrameSize {code : ℕ}
    (h : Http2SettingsFrameIdentifier.ofCode code = some .maxFrameSize) : code = 0x5 := by
  unfold Http2SettingsFrameIdentifier.ofCode at h
  split at h <;> cases h
  rfl

theorem ite_some_eq_none {p : Prop} [Decidable p] {e : FrameError} :
    (if p then some e else none) = none ↔ ¬ p := by
  by_cases h : p <;> simp [h]

/-- What the parser admits. -/
theorem admitted_iff (entry : ℕ × ℕ) : Admitted entry ↔ Within (2 ^ 24) entry := by
  obtain ⟨code, value⟩ := entry
  unfold Admitted Within
  cases hcode : Http2SettingsFrameIdentifier.ofCode code with
  | none => simp
  | some identifier =>
    have hone : ∀ identifier', some identifier = some identifier' ↔ identifier' = identifier :=
      fun _ => ⟨fun h => (Option.some.inj h).symm, fun h => by rw [h]⟩
    simp only [hone, forall_eq]
    cases identifier with
    | headerTableSize => simp [settingsValueError]
    | maxConcurrentStreams => simp [settingsValueError]
    | maxHeaderListSize => simp [settingsValueError]
    | enablePush =>
      simp only [settingsValueError]
      rw [ite_some_eq_none]
      omega
    | initialWindowSize =>
      simp only [settingsValueError]
      rw [ite_some_eq_none, maxFlowControlWindowSize]
      omega
    | maxFrameSize =>
      simp only [settingsValueError]
      rw [ite_some_eq_none, maxMaxFrameSize, defaultSettingsMaxFrameSize]
      omega

/-- What is admitted is in range, except the one value. -/
theorem inRange_of_within {entry : ℕ × ℕ} (h : Within (2 ^ 24) entry)
    (hne : entry ≠ slippingEntry) : InRange entry := by
  obtain ⟨code, value⟩ := entry
  unfold InRange Within at *
  split at h
  · exact h
  · exact h
  · rename_i hcode
    have hfive : code = 0x5 := ofCode_eq_maxFrameSize hcode
    subst hfive
    have hvalue : value ≠ 2 ^ 24 := fun hv => hne (by rw [hv]; rfl)
    simp only at h ⊢
    omega
  · trivial

theorem Within.mono {limit limit' : ℕ} (hle : limit ≤ limit') {entry : ℕ × ℕ}
    (h : Within limit entry) : Within limit' entry := by
  unfold Within at *
  split at h
  · exact h
  · exact h
  · exact ⟨h.1, h.2.trans hle⟩
  · trivial

/-- The entries of a payload from entry `k` on. -/
def rawEntriesFrom (data : Bytes) (k rounds : ℕ) : List (ℕ × ℕ) :=
  (List.range' k rounds).map fun j => rawEntryAt data (http2SettingsFrameSingleSize * j)

theorem rawEntriesFrom_succ (data : Bytes) (k rounds : ℕ) :
    rawEntriesFrom data k (rounds + 1) =
      rawEntryAt data (http2SettingsFrameSingleSize * k) :: rawEntriesFrom data (k + 1) rounds := by
  rw [rawEntriesFrom, List.range'_succ]
  rfl

/-- The loop takes all entries, or refuses the payload. -/
theorem parseSettingsLoop_ok {data : Bytes} {rounds k : ℕ}
    {entries entries' : List Http2SettingSingleValue} :
    parseSettingsLoop data rounds (http2SettingsFrameSingleSize * k) entries = .ok entries' ↔
      (∀ entry ∈ rawEntriesFrom data k rounds, Admitted entry) ∧
      entries' = entries ++ (rawEntriesFrom data k rounds).filterMap knownEntry := by
  induction rounds generalizing k entries with
  | zero => simp [parseSettingsLoop, rawEntriesFrom, eq_comm]
  | succ rounds ih =>
    rw [rawEntriesFrom_succ]
    simp only [parseSettingsLoop, List.forall_mem_cons]
    have hnext : http2SettingsFrameSingleSize * k + http2SettingsFrameSingleSize =
        http2SettingsFrameSingleSize * (k + 1) := rfl
    have hentry : rawEntryAt data (http2SettingsFrameSingleSize * k) =
        (deserializeU16BeToHost (data.drop (http2SettingsFrameSingleSize * k)),
          deserializeU32BeToHost (data.drop (http2SettingsFrameSingleSize * k + 2))) := rfl
    rw [hnext]
    split
    · rename_i hcode
      have hadmitted : Admitted (rawEntryAt data (http2SettingsFrameSingleSize * k)) := by
        intro identifier hid
        rw [hentry, hcode] at hid
        cases hid
      have hunknown : knownEntry (rawEntryAt data (http2SettingsFrameSingleSize * k)) = none := by
        rw [hentry, knownEntry, hcode]
        rfl
      rw [ih, List.filterMap_cons_none hunknown]
      exact ⟨fun h => ⟨⟨hadmitted, h.1⟩, h.2⟩, fun h => ⟨h.1.2, h.2⟩⟩
    · rename_i identifier hcode
      have hknown : knownEntry (rawEntryAt data (http2SettingsFrameSingleSize * k)) =
          some ⟨identifier,
            deserializeU32BeToHost (data.drop (http2SettingsFrameSingleSize * k + 2))⟩ := by
        rw [hentry, knownEntry, hcode]
        rfl
      rw [List.filterMap_cons_some hknown]
      split
      · rename_i e herror
        refine ⟨by rintro ⟨⟩, fun h => ?_⟩
        have hnone := h.1.1 identifier hcode
        rw [hentry, herror] at hnone
        cases hnone
      · rename_i hnone
        have hadmitted : Admitted (rawEntryAt data (http2SettingsFrameSingleSize * k)) := by
          intro identifier' hid
          rw [hentry, hcode] at hid
          cases hid
          exact hnone
        rw [ih, List.append_assoc]
        exact ⟨fun h => ⟨⟨hadmitted, h.1⟩, h.2⟩, fun h => ⟨h.1.2, h.2⟩⟩

theorem rawEntries_eq (payload : Bytes) : rawEntries payload =
    rawEntriesFrom payload 0 (payload.length / http2SettingsFrameSingleSize) := by
  rw [rawEntries, rawEntriesFrom, List.range_eq_range']

/-- **A payload is taken as a whole or not at all.** -/
theorem parseRawHttp2SettingsFrame_ok {payload : Bytes} {ack : Bool} {frame : Http2SettingsFrame} :
    parseRawHttp2SettingsFrame payload ack = .ok frame ↔
      payload.length % http2SettingsFrameSingleSize = 0 ∧
      (∀ entry ∈ rawEntries payload, Admitted entry) ∧
      frame = ⟨ack, (rawEntries payload).filterMap knownEntry⟩ := by
  have hloop : ∀ entries', parseSettingsLoop payload
      (payload.length / http2SettingsFrameSingleSize) 0 [] = .ok entries' ↔
        (∀ entry ∈ rawEntries payload, Admitted entry) ∧
          entries' = (rawEntries payload).filterMap knownEntry := by
    intro entries'
    rw [rawEntries_eq]
    exact parseSettingsLoop_ok (k := 0)
  unfold parseRawHttp2SettingsFrame
  by_cases hlen : payload.length % http2SettingsFrameSingleSize = 0
  · rw [if_neg (not_not.2 hlen)]
    split
    · rename_i e hparse
      refine ⟨nofun, fun h => ?_⟩
      have hok := (hloop _).2 ⟨h.2.1, rfl⟩
      rw [hparse] at hok
      cases hok
    · rename_i entries hparse
      obtain ⟨hadmitted, rfl⟩ := (hloop entries).1 hparse
      rw [Except.ok.injEq]
      exact ⟨fun h => ⟨hlen, hadmitted, h.symm⟩, fun h => h.2.2.symm⟩
  · rw [if_pos hlen]
    exact ⟨nofun, fun h => absurd h.1 hlen⟩

/-! ## Receiving settings -/

/-- A SETTINGS frame with this payload arrives: it is parsed and, if it is taken, processed. -/
def receiveSettings (context : HTTP2Context) (payload : Bytes) : HTTP2Context :=
  match parseRawHttp2SettingsFrame payload false with
  | .error _ => context
  | .ok frame => (processHttp2Frame context (.settings frame)).context

/-- The settings are in range, with a limit for the frame size. -/
structure SettingsWithin (limit : ℕ) (settings : Http2Settings) : Prop where
  maxFrameSize : 2 ^ 14 ≤ settings.maxFrameSize ∧ settings.maxFrameSize ≤ limit
  initialWindowSize : settings.initialWindowSize ≤ 2 ^ 31 - 1

/-- The settings are in the range of the protocol. -/
def SettingsInRange (settings : Http2Settings) : Prop := SettingsWithin (2 ^ 24 - 1) settings

theorem http2DefaultSettings_inRange : SettingsInRange http2DefaultSettings :=
  ⟨by decide, by decide⟩

section

variable {limit : ℕ} {context : HTTP2Context}

/-- The value of one entry. -/
theorem applySetting_within {entry : ℕ × ℕ} {setting : Http2SettingSingleValue}
    (h : SettingsWithin limit context.settings) (hentry : Within limit entry)
    (hknown : knownEntry entry = some setting) :
    SettingsWithin limit (applySetting context setting).settings := by
  obtain ⟨code, value⟩ := entry
  unfold knownEntry at hknown
  obtain ⟨identifier, hcode, rfl⟩ := Option.map_eq_some_iff.1 hknown
  unfold Within at hentry
  rw [hcode] at hentry
  cases identifier with
  | headerTableSize => exact ⟨h.maxFrameSize, h.initialWindowSize⟩
  | enablePush => exact ⟨h.maxFrameSize, h.initialWindowSize⟩
  | maxConcurrentStreams => exact ⟨h.maxFrameSize, h.initialWindowSize⟩
  | initialWindowSize => exact ⟨h.maxFrameSize, hentry⟩
  | maxFrameSize => exact ⟨hentry, h.initialWindowSize⟩
  | maxHeaderListSize => exact ⟨h.maxFrameSize, h.initialWindowSize⟩

/-- Entries that are in range keep the settings in range. -/
theorem applySettings_within {entries : List (ℕ × ℕ)} (h : SettingsWithin limit context.settings)
    (hentries : ∀ entry ∈ entries, Within limit entry) :
    SettingsWithin limit
      ((entries.filterMap knownEntry).foldl applySetting context).settings := by
  induction entries generalizing context with
  | nil => exact h
  | cons entry entries ih =>
    have hrest : ∀ e ∈ entries, Within limit e :=
      fun e he => hentries e (List.mem_cons_of_mem entry he)
    cases hknown : knownEntry entry with
    | none =>
      rw [List.filterMap_cons_none hknown]
      exact ih h hrest
    | some setting =>
      rw [List.filterMap_cons_some hknown, List.foldl_cons]
      exact ih (applySetting_within h (hentries entry List.mem_cons_self) hknown) hrest

/-- One step, with what is known of the entries of a payload that is taken. -/
theorem receiveSettings_within {payload : Bytes} (h : SettingsWithin limit context.settings)
    (htaken : ∀ frame, parseRawHttp2SettingsFrame payload false = .ok frame →
      ∀ entry ∈ rawEntries payload, Within limit entry) :
    SettingsWithin limit (receiveSettings context payload).settings := by
  unfold receiveSettings
  split
  · exact h
  · rename_i frame hparse
    have hentries := htaken frame hparse
    obtain ⟨-, -, rfl⟩ := parseRawHttp2SettingsFrame_ok.1 hparse
    rw [(processHttp2Frame_settings context _).1]
    exact applySettings_within h hentries

end

/-- **Whatever the peer sends**, a frame size is between 2^14 and 2^24. -/
theorem receiveSettings_run (payloads : List Bytes) :
    SettingsWithin (2 ^ 24) (runFrom receiveSettings http2DefaultContext payloads).settings := by
  have hstart : SettingsWithin (2 ^ 24) http2DefaultContext.settings := ⟨by decide, by decide⟩
  generalize http2DefaultContext = context at hstart
  induction payloads generalizing context with
  | nil => exact hstart
  | cons payload payloads ih =>
    refine ih _ (receiveSettings_within hstart ?_)
    intro frame hparse entry hentry
    exact (admitted_iff entry).1 ((parseRawHttp2SettingsFrame_ok.1 hparse).2.1 entry hentry)

/-- A payload that is taken and does not slip through is in range. -/
theorem inRange_of_taken {payload : Bytes} {frame : Http2SettingsFrame}
    (hslip : ¬ SlipsThrough payload) (h : parseRawHttp2SettingsFrame payload false = .ok frame) :
    ∀ entry ∈ rawEntries payload, InRange entry := by
  obtain ⟨hlen, hadmitted, -⟩ := parseRawHttp2SettingsFrame_ok.1 h
  have hwithin : ∀ entry ∈ rawEntries payload, Within (2 ^ 24) entry :=
    fun entry hentry => (admitted_iff entry).1 (hadmitted entry hentry)
  intro entry hentry
  refine inRange_of_within (hwithin entry hentry) ?_
  rintro rfl
  exact hslip ⟨hlen, hentry, fun other hother hne => inRange_of_within (hwithin other hother) hne⟩

/-- A payload that slips through is taken, with its value. -/
theorem slipsThrough_taken {payload : Bytes} (h : SlipsThrough payload) :
    ∃ frame, parseRawHttp2SettingsFrame payload false = .ok frame ∧
      ⟨.maxFrameSize, 2 ^ 24⟩ ∈ frame.entries := by
  obtain ⟨hlen, hmem, hothers⟩ := h
  refine ⟨_, parseRawHttp2SettingsFrame_ok.2 ⟨hlen, ?_, rfl⟩, ?_⟩
  · intro entry hentry
    rw [admitted_iff]
    by_cases heq : entry = slippingEntry
    · subst heq
      exact ⟨by decide, le_rfl⟩
    · exact (hothers entry hentry heq).mono (by decide)
  · exact List.mem_filterMap.2 ⟨slippingEntry, hmem, rfl⟩

/-- One step on a payload that does not slip through. -/
theorem receiveSettings_inRange {context : HTTP2Context} {payload : Bytes}
    (h : SettingsInRange context.settings) (hslip : ¬ SlipsThrough payload) :
    SettingsInRange (receiveSettings context payload).settings ∧
      ((∃ entry ∈ rawEntries payload, ¬ InRange entry) →
        (receiveSettings context payload).settings = context.settings) := by
  refine ⟨receiveSettings_within h (fun frame hparse => inRange_of_taken hslip hparse), ?_⟩
  rintro ⟨entry, hentry, hnot⟩
  unfold receiveSettings
  split
  · rfl
  · rename_i frame hparse
    exact absurd (inRange_of_taken hslip hparse entry hentry) hnot

/-! ## Sending with these settings -/

/-- The part of a buffer that a frame carries. -/
def fragmentOf : Http2Frame → Bytes
  | .headers frame => frame.blockFragment
  | .continuation frame => frame.blockFragment
  | .data frame => frame.content
  | _ => []

/-- Every frame fits, none is refused, its length field is the size of its payload, and
together the frames carry the buffer. -/
structure FramesFit (settings : Http2Settings) (built : Built) (buffer : Bytes) : Prop where
  fits : ∀ p ∈ built, (fragmentOf p.1).length ≤ settings.maxFrameSize
  sent : ∀ p ∈ built, ∃ header : Http2RawHeader, header.length = (fragmentOf p.1).length ∧
    p.2 = some (headerBuffer header ++ fragmentOf p.1)
  content : (built.map fun p => fragmentOf p.1).flatten = buffer

/-- What is sent with these settings fits, whatever the buffer. -/
def SendersFit (settings : Http2Settings) : Prop :=
  ∀ identifier buffer headersAreEndStream,
    FramesFit settings (http2SendHeaders identifier settings buffer headersAreEndStream)
      buffer.bytes ∧
    FramesFit settings (http2SendData identifier settings buffer) buffer.bytes

/-- A part of the header block is sent as it is. -/
theorem headerFrameOf_send (identifier : ℕ) (headersAreEndStream : Bool)
    (fragment : Fragment UInt8) (h : fragment.content.length < 2 ^ 24) :
    ∃ header : Http2RawHeader, header.length = fragment.content.length ∧
      http2SendFrame (headerFrameOf identifier headersAreEndStream fragment) =
        some (headerBuffer header ++ fragment.content) := by
  unfold headerFrameOf
  split_ifs
  · exact ⟨_, Http2RawHeader.of_length h _ _ _, http2SendRawFrame_of_lt h _ _ _⟩
  · exact ⟨_, Http2RawHeader.of_length h _ _ _, http2SendRawFrame_of_lt h _ _ _⟩

theorem fragmentOf_headerFrameOf (identifier : ℕ) (headersAreEndStream : Bool)
    (fragment : Fragment UInt8) :
    fragmentOf (headerFrameOf identifier headersAreEndStream fragment) = fragment.content := by
  unfold headerFrameOf
  split_ifs <;> rfl

theorem dataFrameOf_send (identifier : ℕ) (fragment : Fragment UInt8)
    (h : fragment.content.length < 2 ^ 24) :
    ∃ header : Http2RawHeader, header.length = fragment.content.length ∧
      http2SendFrame (dataFrameOf identifier fragment) =
        some (headerBuffer header ++ fragment.content) :=
  ⟨_, Http2RawHeader.of_length h _ _ _, http2SendRawFrame_of_lt h _ _ _⟩

/-- The parts of a buffer, sent in frames of one kind. -/
theorem framesFit_of_parts {settings : Http2Settings} {n : ℕ} {buffer : Bytes}
    {frameOf : Fragment UInt8 → Http2Frame} (hn : 0 < n) (hle : n ≤ settings.maxFrameSize)
    (hlt : n < 2 ^ 24) (hcontent : ∀ fragment, fragmentOf (frameOf fragment) = fragment.content)
    (hsend : ∀ fragment, fragment.content.length < 2 ^ 24 → ∃ header : Http2RawHeader,
      header.length = fragment.content.length ∧
        http2SendFrame (frameOf fragment) = some (headerBuffer header ++ fragment.content)) :
    FramesFit settings (sendFrames ((fragments n buffer).map frameOf)) buffer := by
  have hparts : ∀ fragment ∈ fragments n buffer, fragment.content.length ≤ n :=
    fragmentLoop_length_le _ _
  have haccepted : ∀ f ∈ (fragments n buffer).map frameOf, (http2SendFrame f).isSome := by
    intro f hf
    obtain ⟨fragment, hmem, rfl⟩ := List.mem_map.1 hf
    obtain ⟨header, -, hbytes⟩ := hsend fragment ((hparts fragment hmem).trans_lt hlt)
    rw [hbytes]
    rfl
  rw [sendFrames_accepted haccepted, List.map_map]
  constructor
  · intro p hp
    obtain ⟨fragment, hmem, rfl⟩ := List.mem_map.1 hp
    exact (congrArg List.length (hcontent fragment)).le.trans ((hparts fragment hmem).trans hle)
  · intro p hp
    obtain ⟨fragment, hmem, rfl⟩ := List.mem_map.1 hp
    simp only [Function.comp_apply, hcontent]
    exact hsend fragment ((hparts fragment hmem).trans_lt hlt)
  · have hflat : ((fragments n buffer).map Fragment.content).flatten = buffer :=
      fragmentLoop_flatten hn (by omega)
    rw [List.map_map]
    simpa [Function.comp_def, hcontent] using hflat

theorem sendersFit_of_inRange {settings : Http2Settings} (h : SettingsInRange settings) :
    SendersFit settings := by
  obtain ⟨hlow, hhigh⟩ := h.maxFrameSize
  intro identifier buffer headersAreEndStream
  constructor
  · refine framesFit_of_parts ?_ ?_ ?_ (fragmentOf_headerFrameOf identifier headersAreEndStream)
      (headerFrameOf_send identifier headersAreEndStream)
    all_goals
      unfold getMaxHeadersOrContinuationContentsize additionalHeadersDataSize
      omega
  · refine framesFit_of_parts ?_ ?_ ?_ (fun _ => rfl) (dataFrameOf_send identifier)
    all_goals
      unfold getMaxDataContentSize
      omega

/-! ## The run -/

/-- What a step of a run of SETTINGS frames should do. -/
structure SettingsStepOk (context : HTTP2Context) (payload : Bytes) : Prop where
  inRange : SettingsInRange (receiveSettings context payload).settings
  unchanged : (∃ entry ∈ rawEntries payload, ¬ InRange entry) →
    (receiveSettings context payload).settings = context.settings
  fit : SendersFit (receiveSettings context payload).settings

/-- A run of SETTINGS frames of which none slips through. -/
theorem settingsStepOk_along {payloads : List Bytes}
    (h : ∀ payload ∈ payloads, ¬ SlipsThrough payload) :
    Along receiveSettings SettingsStepOk http2DefaultContext payloads := by
  have hsteps : Along receiveSettings (fun _ payload => ¬ SlipsThrough payload)
      http2DefaultContext payloads := by
    rw [along_iff]
    rintro pre payload post rfl
    exact h payload (by simp)
  refine hsteps.imp (I := fun context => SettingsInRange context.settings) ?_ ?_
    http2DefaultSettings_inRange
  · intro context payload hin hslip
    exact (receiveSettings_inRange hin hslip).1
  · intro context payload hin hslip
    obtain ⟨hrange, hsame⟩ := receiveSettings_inRange hin hslip
    exact ⟨hrange, hsame, sendersFit_of_inRange hrange⟩

/-- **The settings stay in range along every run** of SETTINGS frames of which none slips
through, and what is sent fits them. A frame that slips through is taken with its value. -/
theorem settings_run (payloads : List Bytes) (h : ∀ payload ∈ payloads, ¬ SlipsThrough payload) :
    Along receiveSettings SettingsStepOk http2DefaultContext payloads ∧
      ∀ payload, SlipsThrough payload →
        ∃ frame, parseRawHttp2SettingsFrame payload false = .ok frame ∧
          ⟨.maxFrameSize, 2 ^ 24⟩ ∈ frame.entries :=
  ⟨settingsStepOk_along h, fun _ hslip => slipsThrough_taken hslip⟩

/-- A larger frame size, then a window size that is refused. -/
theorem settings_run_two :
    Along receiveSettings SettingsStepOk http2DefaultContext
        [[0, 5, 0, 0, 0x80, 0], [0, 4, 0xff, 0xff, 0xff, 0xff]] ∧
      ∀ payload, SlipsThrough payload →
        ∃ frame, parseRawHttp2SettingsFrame payload false = .ok frame ∧
          ⟨.maxFrameSize, 2 ^ 24⟩ ∈ frame.entries := by
  refine settings_run [[0, 5, 0, 0, 0x80, 0], [0, 4, 0xff, 0xff, 0xff, 0xff]] ?_
  intro payload hmem
  simp only [List.mem_cons, List.not_mem_nil, or_false] at hmem
  rcases hmem with rfl | rfl
  · rintro ⟨-, hentry, -⟩
    exact absurd hentry (by decide)
  · rintro ⟨-, hentry, -⟩
    exact absurd hentry (by decide)

/-- A frame size of 2^24 is taken. -/
theorem settings_run_limit :
    ¬ Along receiveSettings SettingsStepOk http2DefaultContext [[0, 5, 1, 0, 0, 0]] ∧
      (receiveSettings http2DefaultContext [0, 5, 1, 0, 0, 0]).settings.maxFrameSize = 2 ^ 24 := by
  have hafter : (receiveSettings http2DefaultContext [0, 5, 1, 0, 0, 0]).settings.maxFrameSize =
      2 ^ 24 := rfl
  refine ⟨fun h => ?_, hafter⟩
  have hhigh := h.1.inRange.maxFrameSize.2
  rw [hafter] at hhigh
  exact absurd hhigh (by decide)

end SimpleServer.Http2
