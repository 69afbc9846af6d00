import SimpleServer.Http.Parser

/-!
# What the header fields do to the length of a body

`http_analyze_headers` looks at five names. A field is of one of few kinds, and the length, the
connection and the upgrade to HTTP/2 are each a loop over the kinds of its own.

* `foldlM_analyzeKind`: the loop, component by component.
* `foldlM_analyzeKind_notSupported`: the one error that is not a protocol error.
* `lengthLoop_eq`: the length, where no field closes the connection behind it.
-/

namespace SimpleServer.Http

open Utils Hpack

variable {Uri : Type} {p : HeadParser Uri}

/-! ## Kinds of fields -/

/-- A field as `http_analyze_headers` takes it. -/
inductive HeaderKind where
  | contentLength (length : Option ℕ)
  | transferEncoding (chunked : Bool)
  | close
  | keepAlive
  | connection (neededForH2c : Bool)
  | upgrade (h2c : Bool)
  | http2Settings (buffer : Option Bytes)
  | other
deriving DecidableEq

/-- The field has the name. -/
def Named (name : Bytes) (header : HttpHeaderField) : Bool := eqIgnoreCase header.key name

/-- The kind of a field. -/
def headerKind (p : HeadParser Uri) (header : HttpHeaderField) : HeaderKind :=
  if Named (ascii "content-length") header then .contentLength (parseU64 header.value)
  else if Named (ascii "transfer-encoding") header then
    .transferEncoding (eqIgnoreCase header.value (ascii "chunked"))
  else if Named (ascii "connection") header then
    if eqIgnoreCase header.value (ascii "close") then .close
    else if eqIgnoreCase header.value (ascii "keep-alive") then .keepAlive
    else .connection (connectionNeededForH2c p header.value)
  else if Named (ascii "upgrade") header then .upgrade (eqIgnoreCase header.value (ascii "h2c"))
  else if Named (ascii "http2-settings") header then
    .http2Settings (p.base64DecodeBuffer header.value)
  else .other

/-- The kinds of the fields. -/
def kindsOf (p : HeadParser Uri) (headerFields : List HttpHeaderField) : List HeaderKind :=
  headerFields.map (headerKind p)

/-- What a field does. -/
def analyzeKind (state : AnalyzeState) : HeaderKind → Except HTTPAnalyzeHeaderError AnalyzeState
  | .contentLength length =>
    if state.length ≠ .noBody then .error .protocolError
    else
      match length with
      | none => .error .protocolError
      | some length => .ok { state with length := .contentLength length }
  | .transferEncoding chunked =>
    if state.length ≠ .noBody then .error .protocolError
    else if chunked then .ok { state with length := .transferEncoded }
    else .error .notSupported
  | .close => .ok { state with length := .close }
  | .keepAlive =>
    if state.connection ≠ .nothingSpecial then .error .protocolError
    else .ok { state with connection := .keepAlive }
  | .connection neededForH2c =>
    .ok (if neededForH2c then { state with connectionHasBothUpgradeAndH2Settings := true }
      else state)
  | .upgrade h2c => .ok (if h2c then { state with upgradeH2cPresent := true } else state)
  | .http2Settings buffer => .ok { state with settingsBuffer := buffer }
  | .other => .ok state

theorem analyzeHeader_eq (hcase : ∀ a b, p.tstrEqIgnoreCase a b = eqIgnoreCase a b)
    (state : AnalyzeState) (header : HttpHeaderField) :
    analyzeHeader p state header = analyzeKind state (headerKind p header) := by
  unfold analyzeHeader headerKind Named
  simp only [hcase]
  cases parseU64 header.value with
  | none => split_ifs <;> simp_all [analyzeKind]
  | some length => split_ifs <;> simp_all [analyzeKind]

/-! ## Component by component -/

variable {kind : HeaderKind} {kinds before after : List HeaderKind} {length : HTTPRequestLength}
variable {connection : HttpAnalyzeConnection} {state : AnalyzeState}

/-- The length that a field gives, if it is one that gives a length. -/
def HeaderKind.framing : HeaderKind → Option (Option HTTPRequestLength)
  | .contentLength length => some (length.map .contentLength)
  | .transferEncoding chunked => some (if chunked then some .transferEncoded else none)
  | _ => none

/-- What a field does to the length. -/
def lengthStep (length : HTTPRequestLength) (kind : HeaderKind) : Option HTTPRequestLength :=
  match kind.framing with
  | some given => if length = .noBody then given else none
  | none => if kind = .close then some .close else some length

/-- What a field does to the connection. -/
def connectionStep (connection : HttpAnalyzeConnection) (kind : HeaderKind) :
    Option HttpAnalyzeConnection :=
  if kind = .keepAlive then
    if connection = .nothingSpecial then some .keepAlive else none
  else some connection

/-- The settings that a field brings. -/
def HeaderKind.settings : HeaderKind → Option (Option Bytes)
  | .http2Settings buffer => some buffer
  | _ => none

/-- The state when the length and the connection are known. -/
def withKinds (state : AnalyzeState) (kinds : List HeaderKind) (length : HTTPRequestLength)
    (connection : HttpAnalyzeConnection) : AnalyzeState where
  length := length
  connection := connection
  upgradeH2cPresent := state.upgradeH2cPresent || decide (.upgrade true ∈ kinds)
  connectionHasBothUpgradeAndH2Settings :=
    state.connectionHasBothUpgradeAndH2Settings || decide (.connection true ∈ kinds)
  settingsBuffer := ((kinds.filterMap HeaderKind.settings).getLast?).getD state.settingsBuffer

/-- One field. -/
theorem analyzeKind_eq_ok {next : AnalyzeState} : analyzeKind state kind = .ok next ↔
    ∃ length connection, lengthStep state.length kind = some length ∧
      connectionStep state.connection kind = some connection ∧
        next = withKinds state [kind] length connection := by
  obtain ⟨length, connection, h2c, both, buffer⟩ := state
  unfold analyzeKind lengthStep connectionStep withKinds HeaderKind.framing HeaderKind.settings
  cases kind with
  | contentLength given => cases given <;> cases length <;> simp [eq_comm]
  | transferEncoding chunked => cases chunked <;> cases length <;> simp [eq_comm]
  | close => simp [eq_comm]
  | keepAlive => cases connection <;> simp [eq_comm]
  | connection needed => cases needed <;> simp [eq_comm]
  | upgrade h2c => cases h2c <;> simp [eq_comm]
  | http2Settings buffer => simp [eq_comm]
  | other => simp [eq_comm]

theorem withKinds_withKinds (state : AnalyzeState) (kind : HeaderKind) (kinds : List HeaderKind)
    (length next : HTTPRequestLength) (connection follow : HttpAnalyzeConnection) :
    withKinds (withKinds state [kind] length connection) kinds next follow =
      withKinds state (kind :: kinds) next follow := by
  have hbuffer : ((kinds.filterMap HeaderKind.settings).getLast?).getD
      ((([kind].filterMap HeaderKind.settings).getLast?).getD state.settingsBuffer) =
        (((kind :: kinds).filterMap HeaderKind.settings).getLast?).getD state.settingsBuffer := by
    cases hsettings : kind.settings with
    | none => simp [hsettings]
    | some buffer => simp [hsettings, List.getLast?_cons]
  have hmem (target : HeaderKind) :
      (decide (target ∈ [kind]) || decide (target ∈ kinds)) = decide (target ∈ kind :: kinds) := by
    simp [List.mem_cons]
  simp only [withKinds, hbuffer, Bool.or_assoc, hmem]

/-- **The loop, component by component.** -/
theorem foldlM_analyzeKind_eq_ok {final : AnalyzeState} :
    kinds.foldlM analyzeKind state = .ok final ↔
      ∃ length connection, kinds.foldlM lengthStep state.length = some length ∧
        kinds.foldlM connectionStep state.connection = some connection ∧
          final = withKinds state kinds length connection := by
  induction kinds generalizing state with
  | nil => simp [withKinds, pure, Except.pure, eq_comm]
  | cons kind kinds ih =>
    have hbind :
        (analyzeKind state kind >>= fun next => kinds.foldlM analyzeKind next) = .ok final ↔
        ∃ next, analyzeKind state kind = .ok next ∧ kinds.foldlM analyzeKind next = .ok final := by
      cases analyzeKind state kind <;> simp [bind, Except.bind]
    rw [List.foldlM_cons, hbind]
    simp only [analyzeKind_eq_ok, ih, List.foldlM_cons, Option.bind_eq_bind,
      Option.bind_eq_some_iff]
    constructor
    · rintro ⟨next, ⟨length, connection, hlength, hconnection, rfl⟩, length', connection', hlength',
        hconnection', rfl⟩
      exact ⟨length', connection', ⟨length, hlength, hlength'⟩,
        ⟨connection, hconnection, hconnection'⟩, withKinds_withKinds ..⟩
    · rintro ⟨length', connection', ⟨length, hlength, hlength'⟩,
        ⟨connection, hconnection, hconnection'⟩, rfl⟩
      exact ⟨_, ⟨length, connection, hlength, hconnection, rfl⟩, length', connection', hlength',
        hconnection', (withKinds_withKinds ..).symm⟩

/-- A field that is not supported. -/
theorem analyzeKind_notSupported : analyzeKind state kind = .error .notSupported ↔
    kind = .transferEncoding false ∧ state.length = .noBody := by
  unfold analyzeKind
  cases kind with
  | contentLength given => cases given <;> by_cases h : state.length = .noBody <;> simp [h]
  | transferEncoding chunked =>
    cases chunked <;> by_cases h : state.length = .noBody <;> simp [h]
  | close => simp
  | keepAlive => by_cases h : state.connection = .nothingSpecial <;> simp [h]
  | connection needed => simp
  | upgrade h2c => simp
  | http2Settings buffer => simp
  | other => simp

/-- **The one error that is not a protocol error**: at a transfer encoding in front of every other
length. -/
theorem foldlM_analyzeKind_notSupported :
    kinds.foldlM analyzeKind state = .error .notSupported ↔
      ∃ before after reached, kinds = before ++ .transferEncoding false :: after ∧
        before.foldlM analyzeKind state = .ok reached ∧ reached.length = .noBody := by
  induction kinds generalizing state with
  | nil => simp [pure, Except.pure]
  | cons kind kinds ih =>
    rw [List.foldlM_cons]
    constructor
    · intro h
      cases hstep : analyzeKind state kind with
      | error e =>
        rw [hstep] at h
        obtain ⟨rfl, hlength⟩ := analyzeKind_notSupported.1 (hstep.trans h)
        exact ⟨[], kinds, state, rfl, rfl, hlength⟩
      | ok next =>
        rw [hstep] at h
        obtain ⟨before, after, reached, rfl, hreached, hlength⟩ := ih.1 h
        refine ⟨kind :: before, after, reached, rfl, ?_, hlength⟩
        rw [List.foldlM_cons, hstep]
        exact hreached
    · rintro ⟨before, after, reached, hkinds, hreached, hlength⟩
      cases before with
      | nil =>
        obtain ⟨rfl, rfl⟩ := List.cons.inj hkinds
        cases hreached
        rw [analyzeKind_notSupported.2 ⟨rfl, hlength⟩]
        rfl
      | cons first before =>
        obtain ⟨rfl, rfl⟩ := List.cons.inj hkinds
        rw [List.foldlM_cons] at hreached
        cases hstep : analyzeKind state kind with
        | error e =>
          rw [hstep] at hreached
          cases hreached
        | ok next =>
          rw [hstep] at hreached
          exact ih.2 ⟨before, after, reached, rfl, hreached, hlength⟩

/-! ## The length -/

/-- The lengths that the fields give. -/
def framings (kinds : List HeaderKind) : List (Option HTTPRequestLength) :=
  kinds.filterMap HeaderKind.framing

/-- The length that a field gives is one of a body. -/
theorem framing_length (h : kind.framing = some (some length)) :
    length ≠ .noBody ∧ length ≠ .close := by
  cases kind with
  | contentLength given =>
    cases given with
    | none => simp [HeaderKind.framing] at h
    | some given =>
      simp only [HeaderKind.framing, Option.map_some, Option.some.injEq] at h
      simp [← h]
  | transferEncoding chunked =>
    cases chunked with
    | false => simp [HeaderKind.framing] at h
    | true =>
      simp only [HeaderKind.framing, if_true, Option.some.injEq] at h
      simp [← h]
  | _ => simp [HeaderKind.framing] at h

/-- Fields that give no length. -/
theorem lengthLoop_noFraming (h : framings kinds = []) (length : HTTPRequestLength) :
    kinds.foldlM lengthStep length = some (if .close ∈ kinds then .close else length) := by
  induction kinds generalizing length with
  | nil => rfl
  | cons kind kinds ih =>
    have hkind : kind.framing = none := by
      by_contra hsome
      obtain ⟨given, hgiven⟩ := Option.ne_none_iff_exists'.1 hsome
      rw [framings, List.filterMap_cons_some hgiven] at h
      cases h
    rw [framings, List.filterMap_cons_none hkind] at h
    rw [List.foldlM_cons, lengthStep, hkind]
    by_cases hclose : kind = .close
    · simp [hclose, ih h]
    · simp [hclose, ih h, Ne.symm hclose]

/-- A second length. -/
theorem lengthLoop_secondFraming (h : framings kinds ≠ []) (hlength : length ≠ .noBody) :
    kinds.foldlM lengthStep length = none := by
  induction kinds generalizing length with
  | nil => exact absurd rfl h
  | cons kind kinds ih =>
    rw [List.foldlM_cons, lengthStep]
    cases hkind : kind.framing with
    | some given => simp [hlength]
    | none =>
      rw [framings, List.filterMap_cons_none hkind] at h
      have hclosed : HTTPRequestLength.close ≠ .noBody := nofun
      by_cases hclose : kind = .close
      · simpa [hclose] using ih h hclosed
      · simpa [hclose] using ih h hlength

/-- **The length**: the first field that gives one, with no field in front of it that closes the
connection and no other one that gives a length. -/
theorem lengthLoop_append (hbefore : framings before = []) {given : Option HTTPRequestLength}
    (hkind : kind.framing = some given) :
    (before ++ kind :: after).foldlM lengthStep .noBody =
      if .close ∉ before ∧ framings after = [] then
        given.map fun length => if .close ∈ after then .close else length
      else none := by
  rw [List.foldlM_append, lengthLoop_noFraming hbefore, Option.bind_eq_bind, Option.bind_some,
    List.foldlM_cons, lengthStep, hkind]
  by_cases hclose : .close ∈ before
  · simp [hclose]
  · cases given with
    | none => simp [hclose]
    | some length =>
      have hne := (framing_length hkind).1
      by_cases hafter : framings after = []
      · simp [hclose, hafter, lengthLoop_noFraming]
      · simp [hclose, hafter, lengthLoop_secondFraming hafter hne]

/-- The first field that gives a length. -/
theorem framings_eq_cons {given : Option HTTPRequestLength}
    {rest : List (Option HTTPRequestLength)} (h : framings kinds = given :: rest) :
    ∃ before kind after, kinds = before ++ kind :: after ∧ framings before = [] ∧
      kind.framing = some given ∧ framings after = rest := by
  obtain ⟨before, kind, after, hkinds, hbefore, hkind, hafter⟩ := List.filterMap_eq_cons_iff.1 h
  exact ⟨before, kind, after, hkinds, List.filterMap_eq_nil_iff.2 hbefore, hkind, hafter⟩

/-- **The length**, where it does not depend on the order. -/
theorem lengthLoop_eq (h : .close ∈ kinds → ∀ length, framings kinds ≠ [some length]) :
    kinds.foldlM lengthStep .noBody =
      match framings kinds with
      | [] => some (if .close ∈ kinds then .close else .noBody)
      | [given] => given
      | _ => none := by
  cases hframings : framings kinds with
  | nil => exact lengthLoop_noFraming hframings _
  | cons given rest =>
    obtain ⟨before, kind, after, rfl, hbefore, hkind, hafter⟩ := framings_eq_cons hframings
    rw [lengthLoop_append hbefore hkind, hafter]
    cases rest with
    | cons second rest => simp
    | nil =>
      by_cases hclose : .close ∈ before ++ kind :: after
      · cases given with
        | none => simp
        | some length => exact absurd hframings (h hclose length)
      · have hbefore' : .close ∉ before := fun hin => hclose (by simp [hin])
        have hafter' : .close ∉ after := fun hin => hclose (by simp [hin])
        cases given <;> simp [hbefore', hafter']

/-- No length is given, and the connection is not closed. -/
theorem lengthLoop_noBody : kinds.foldlM lengthStep .noBody = some .noBody ↔
    framings kinds = [] ∧ .close ∉ kinds := by
  cases hframings : framings kinds with
  | nil =>
    rw [lengthLoop_noFraming hframings]
    by_cases hclose : .close ∈ kinds <;> simp [hclose]
  | cons given rest =>
    obtain ⟨before, kind, after, rfl, hbefore, hkind, hafter⟩ := framings_eq_cons hframings
    rw [lengthLoop_append hbefore hkind]
    constructor
    · intro hnoBody
      by_cases hfirst : .close ∉ before ∧ framings after = []
      · rw [if_pos hfirst] at hnoBody
        cases given with
        | none => cases hnoBody
        | some length =>
          have hne := (framing_length hkind).1
          by_cases hclose : .close ∈ after
          · simp [hclose] at hnoBody
          · simp [hclose, hne] at hnoBody
      · rw [if_neg hfirst] at hnoBody
        cases hnoBody
    · rintro ⟨hnil, -⟩
      cases hnil

/-! ## The connection -/

theorem connectionLoop_keepAlive (h : connection ≠ .nothingSpecial) :
    kinds.foldlM connectionStep connection =
      if .keepAlive ∈ kinds then none else some connection := by
  induction kinds with
  | nil => rfl
  | cons kind kinds ih =>
    rw [List.foldlM_cons, connectionStep]
    by_cases hkind : kind = .keepAlive
    · simp [hkind, h]
    · simp [hkind, ih, Ne.symm hkind]

/-- **The connection**: it is kept alive only once. -/
theorem connectionLoop_eq (kinds : List HeaderKind) :
    kinds.foldlM connectionStep .nothingSpecial =
      if 2 ≤ kinds.count .keepAlive then none
      else some (if .keepAlive ∈ kinds then .keepAlive else .nothingSpecial) := by
  induction kinds with
  | nil => rfl
  | cons kind kinds ih =>
    have hkeepAlive : HttpAnalyzeConnection.keepAlive ≠ .nothingSpecial := nofun
    rw [List.foldlM_cons, connectionStep]
    by_cases hkind : kind = .keepAlive
    · simp [hkind, connectionLoop_keepAlive hkeepAlive]
    · simp [hkind, ih, Ne.symm hkind]

/-- The settings of an upgrade to HTTP/2 that is asked for. -/
def upgradeSettings (kinds : List HeaderKind) : Option Bytes :=
  if .connection true ∈ kinds ∧ .upgrade true ∈ kinds then
    ((kinds.filterMap HeaderKind.settings).getLast?).join
  else none

/-- The connection is kept alive twice, or kept alive and upgraded. -/
def ConnectionRefused (kinds : List HeaderKind) : Prop :=
  2 ≤ kinds.count .keepAlive ∨ .keepAlive ∈ kinds ∧ upgradeSettings kinds ≠ none

/-- The connection that the fields ask for. -/
def askedConnection (kinds : List HeaderKind) : HttpAnalyzeConnection :=
  match upgradeSettings kinds with
  | some settings => .upgradeH2c settings
  | none => if .keepAlive ∈ kinds then .keepAlive else .nothingSpecial

/-- **The error that is not a protocol error**, by what stands in front. -/
theorem notSupported_iff :
    kinds.foldlM analyzeKind ⟨.noBody, .nothingSpecial, false, false, none⟩ =
        .error .notSupported ↔
      ∃ before after, kinds = before ++ .transferEncoding false :: after ∧
        framings before = [] ∧ .close ∉ before ∧ before.count .keepAlive < 2 := by
  rw [foldlM_analyzeKind_notSupported]
  constructor
  · rintro ⟨before, after, reached, hkinds, hreached, hnoBody⟩
    obtain ⟨length, connection, hlength, hconnection, rfl⟩ := foldlM_analyzeKind_eq_ok.1 hreached
    obtain rfl : length = .noBody := hnoBody
    obtain ⟨hframings, hclose⟩ := lengthLoop_noBody.1 hlength
    refine ⟨before, after, hkinds, hframings, hclose, ?_⟩
    by_contra htwice
    rw [connectionLoop_eq, if_pos (not_lt.1 htwice)] at hconnection
    cases hconnection
  · rintro ⟨before, after, hkinds, hframings, hclose, htwice⟩
    have hlength := lengthLoop_noBody.2 ⟨hframings, hclose⟩
    have hconnection := connectionLoop_eq before
    rw [if_neg (not_le.2 htwice)] at hconnection
    exact ⟨before, after, _, hkinds,
      foldlM_analyzeKind_eq_ok.2 ⟨_, _, hlength, hconnection, rfl⟩, rfl⟩

/-! ## The result -/

/-- Until the connection is closed only in HTTP/1.0. -/
def finalLength (version : HTTPProtocolVersion) (length : HTTPRequestLength) : HTTPRequestLength :=
  if length = .close ∧ version ≠ .v1Dot0 then .noBody else length

variable {version : HTTPProtocolVersion} {headerFields : List HttpHeaderField}

theorem foldlM_analyzeHeader (hcase : ∀ a b, p.tstrEqIgnoreCase a b = eqIgnoreCase a b)
    (state : AnalyzeState) (headerFields : List HttpHeaderField) :
    headerFields.foldlM (analyzeHeader p) state =
      (kindsOf p headerFields).foldlM analyzeKind state := by
  have hstep : analyzeHeader p = fun state header => analyzeKind state (headerKind p header) := by
    funext state header
    exact analyzeHeader_eq hcase state header
  rw [hstep, kindsOf, List.foldlM_map]

theorem upgradeSettings_eq_some {settings : Bytes} : upgradeSettings kinds = some settings ↔
    (.connection true ∈ kinds ∧ .upgrade true ∈ kinds) ∧
      ((kinds.filterMap HeaderKind.settings).getLast?).getD none = some settings := by
  unfold upgradeSettings
  by_cases hnamed : .connection true ∈ kinds ∧ .upgrade true ∈ kinds
  · cases (kinds.filterMap HeaderKind.settings).getLast? <;> simp [hnamed]
  · simp [hnamed]

theorem httpAnalyzeHeaders_eq_ok (hcase : ∀ a b, p.tstrEqIgnoreCase a b = eqIgnoreCase a b)
    {analyze : HTTPAnalyzeHeaders} :
    httpAnalyzeHeaders p version headerFields = .ok analyze ↔
      ∃ length, (kindsOf p headerFields).foldlM lengthStep .noBody = some length ∧
        ¬ ConnectionRefused (kindsOf p headerFields) ∧
          analyze = ⟨finalLength version length, askedConnection (kindsOf p headerFields)⟩ := by
  unfold httpAnalyzeHeaders
  rw [foldlM_analyzeHeader hcase]
  generalize kindsOf p headerFields = kinds
  have hfinal {state : AnalyzeState} : kinds.foldlM analyzeKind
      ⟨.noBody, .nothingSpecial, false, false, none⟩ = .ok state ↔ _ := foldlM_analyzeKind_eq_ok
  simp only [connectionLoop_eq] at hfinal
  cases hloop : kinds.foldlM analyzeKind ⟨.noBody, .nothingSpecial, false, false, none⟩ with
  | error e =>
    constructor
    · nofun
    · rintro ⟨length, hlength, hrefused, -⟩
      rw [ConnectionRefused, not_or] at hrefused
      have hok := hfinal.2 ⟨length, _, hlength, if_neg hrefused.1, rfl⟩
      rw [hloop] at hok
      cases hok
  | ok state =>
    obtain ⟨length, connection, hlength, hconnection, rfl⟩ := hfinal.1 hloop
    have htwice : ¬ 2 ≤ kinds.count .keepAlive := by
      intro htwice
      rw [if_pos htwice] at hconnection
      cases hconnection
    rw [if_neg htwice, Option.some.injEq] at hconnection
    have hrefused :
        ConnectionRefused kinds ↔ .keepAlive ∈ kinds ∧ upgradeSettings kinds ≠ none := by
      rw [ConnectionRefused, or_iff_right htwice]
    rw [hlength, hrefused, askedConnection]
    cases hsettings : upgradeSettings kinds with
    | some settings =>
      obtain ⟨hnamed, hbuffer⟩ := upgradeSettings_eq_some.1 hsettings
      simp only [withKinds, Bool.false_or, hnamed.1, hnamed.2, hbuffer, decide_true, Bool.and_self]
      by_cases hkept : .keepAlive ∈ kinds
      · simp [hkept, ← hconnection]
      · simp [hkept, ← hconnection, finalLength, eq_comm]
    | none =>
      have hnone : ∀ settings, ¬ ((.connection true ∈ kinds ∧ .upgrade true ∈ kinds) ∧
          ((kinds.filterMap HeaderKind.settings).getLast?).getD none = some settings) := by
        intro settings hsome
        rw [← upgradeSettings_eq_some, hsettings] at hsome
        cases hsome
      simp only [withKinds, Bool.false_or]
      split
      · rename_i settings hnamed hbuffer
        rw [Bool.and_eq_true, decide_eq_true_eq, decide_eq_true_eq] at hnamed
        exact absurd ⟨hnamed, hbuffer⟩ (hnone settings)
      · simp [finalLength, ← hconnection, eq_comm]

theorem httpAnalyzeHeaders_notSupported
    (hcase : ∀ a b, p.tstrEqIgnoreCase a b = eqIgnoreCase a b) :
    httpAnalyzeHeaders p version headerFields = .error .notSupported ↔
      (kindsOf p headerFields).foldlM analyzeKind
        ⟨.noBody, .nothingSpecial, false, false, none⟩ = .error .notSupported := by
  unfold httpAnalyzeHeaders
  rw [foldlM_analyzeHeader hcase]
  generalize kindsOf p headerFields = kinds
  cases kinds.foldlM analyzeKind ⟨.noBody, .nothingSpecial, false, false, none⟩ with
  | error e => simp
  | ok state =>
    dsimp only
    split
    · split_ifs <;> simp
    · simp

end SimpleServer.Http
