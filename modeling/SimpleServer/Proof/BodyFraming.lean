import SimpleServer.Http.ContentCoding
import SimpleServer.Http.ParserStrings
import SimpleServer.Proof.HeaderKinds
import SimpleServer.Proof.NumbersExact

/-!
# The length of a body and the order of the header fields

`connection: close` overwrites a length that was there, and a length behind it is an error. So the
order of the fields matters.

* `orderIndependent_iff`: when it does.
* `bodyFraming_iff`: **when the fields alone say how long the body is.**
-/

namespace SimpleServer.Http

open Lib Utils Hpack

variable {Uri : Type} {p : HeadParser Uri} {version : HTTPProtocolVersion}
variable {headers headers' : List HttpHeaderField} {header : HttpHeaderField}
variable {kinds first rest : List HeaderKind} {name : Bytes}

/-! ## Other orders -/

/-- Another order, in which fields with the same name stay in order. -/
structure Reordered (headers headers' : List HttpHeaderField) : Prop where
  perm : headers'.Perm headers
  sameName : ∀ name, headers'.filter (Named name) = headers.filter (Named name)

/-- The fields with a name first. -/
def front (name : Bytes) (headers : List HttpHeaderField) : List HttpHeaderField :=
  headers.filter (Named name) ++ headers.filter fun header => !Named name header

theorem named_iff : Named name header = true ↔ header.key.map lowerByte = name.map lowerByte := by
  rw [Named, eqIgnoreCase, beq_iff_eq]

/-- A field has only one name. -/
theorem named_comm {other : Bytes} (h : Named name header = true) :
    Named other header = (name.map lowerByte == other.map lowerByte) := by
  rw [Named, eqIgnoreCase, named_iff.1 h]

theorem front_reordered (name : Bytes) (headers : List HttpHeaderField) :
    Reordered headers (front name headers) where
  perm := List.filter_append_perm _ _
  sameName other := by
    rw [front, List.filter_append, List.filter_filter, List.filter_filter]
    by_cases hsame : name.map lowerByte = other.map lowerByte
    · have hnamed (header : HttpHeaderField) : Named other header = Named name header := by
        rw [Named, Named, eqIgnoreCase, eqIgnoreCase, hsame]
      rw [funext hnamed]
      simp
    · have hnone : headers.filter (fun header => Named other header && Named name header) = [] := by
        rw [List.filter_eq_nil_iff]
        intro header _ hboth
        rw [Bool.and_eq_true, named_iff, named_iff] at hboth
        exact hsame (hboth.2.symm.trans hboth.1)
      have hother : ∀ header ∈ headers,
          (Named other header && !Named name header) = Named other header := by
        intro header _
        by_cases hnamed : Named other header = true
        · have hnot : ¬ Named name header = true := fun hin =>
            hsame ((named_iff.1 hin).symm.trans (named_iff.1 hnamed))
          simp [hnamed, hnot]
        · simp [hnamed]
      rw [hnone, List.nil_append, List.filter_congr hother]

/-- What depends on the fields with one name only. -/
theorem filterMap_named {β : Type} {f : HttpHeaderField → Option β}
    (hf : ∀ header ∈ headers, Named name header = false → f header = none) :
    headers.filterMap f = (headers.filter (Named name)).filterMap f := by
  rw [List.filterMap_filter]
  apply List.filterMap_congr
  intro header hheader
  by_cases hnamed : Named name header = true
  · rw [if_pos hnamed]
  · rw [if_neg hnamed, hf header hheader (by simpa using hnamed)]

theorem Reordered.filterMap {β : Type} (h : Reordered headers headers')
    {f : HttpHeaderField → Option β} (hf : ∀ header, Named name header = false → f header = none) :
    headers'.filterMap f = headers.filterMap f := by
  have hnamed (l : List HttpHeaderField) : l.filterMap f = (l.filter (Named name)).filterMap f :=
    filterMap_named fun header _ => hf header
  rw [hnamed, h.sameName, ← hnamed]

/-! ## What the order does not change -/

/-- Whether a transfer encoding is 'chunked'. -/
def HeaderKind.encoding : HeaderKind → Option Bool
  | .transferEncoding chunked => some chunked
  | _ => none

theorem framing_eq_none {kind : HeaderKind} : kind.framing = none ↔
    (∀ length, kind ≠ .contentLength length) ∧ kind.encoding = none := by
  cases kind <;> simp [HeaderKind.framing, HeaderKind.encoding]

theorem encoding_eq_some {kind : HeaderKind} {chunked : Bool} :
    kind.encoding = some chunked ↔ kind = .transferEncoding chunked := by
  cases kind <;> simp [HeaderKind.encoding]

/-- Without lengths there are no encodings. -/
theorem encodings_of_framings (h : framings kinds = []) :
    kinds.filterMap HeaderKind.encoding = [] := by
  rw [framings, List.filterMap_eq_nil_iff] at h
  rw [List.filterMap_eq_nil_iff]
  intro kind hkind
  exact (framing_eq_none.1 (h kind hkind)).2

theorem Reordered.kinds_perm (h : Reordered headers headers') :
    (kindsOf p headers').Perm (kindsOf p headers) := h.perm.map _

theorem Reordered.mem_kinds (h : Reordered headers headers') (kind : HeaderKind) :
    kind ∈ kindsOf p headers' ↔ kind ∈ kindsOf p headers := h.kinds_perm.mem_iff

theorem Reordered.framings_perm (h : Reordered headers headers') :
    (framings (kindsOf p headers')).Perm (framings (kindsOf p headers)) := h.kinds_perm.filterMap _

/-- The only length stays the only one. -/
theorem Reordered.framings_singleton (h : Reordered headers headers')
    {given : Option HTTPRequestLength} :
    framings (kindsOf p headers') = [given] ↔ framings (kindsOf p headers) = [given] := by
  constructor
  · intro hsingle
    have hperm := h.framings_perm (p := p)
    rw [hsingle] at hperm
    exact List.perm_singleton.1 hperm.symm
  · intro hsingle
    have hperm := h.framings_perm (p := p)
    rw [hsingle] at hperm
    exact List.perm_singleton.1 hperm

theorem encoding_of_not_named (h : Named (ascii "transfer-encoding") header = false) :
    (headerKind p header).encoding = none := by
  simp only [headerKind, h, Bool.false_eq_true, if_false]
  split_ifs <;> rfl

theorem settings_of_not_named (h : Named (ascii "http2-settings") header = false) :
    (headerKind p header).settings = none := by
  simp only [headerKind, h, Bool.false_eq_true, if_false]
  split_ifs <;> rfl

theorem Reordered.encodings_eq (h : Reordered headers headers') :
    (kindsOf p headers').filterMap HeaderKind.encoding =
      (kindsOf p headers).filterMap HeaderKind.encoding := by
  rw [kindsOf, kindsOf, List.filterMap_map, List.filterMap_map]
  exact h.filterMap fun _ => encoding_of_not_named

theorem Reordered.upgradeSettings_eq (h : Reordered headers headers') :
    upgradeSettings (kindsOf p headers') = upgradeSettings (kindsOf p headers) := by
  have hsettings : (kindsOf p headers').filterMap HeaderKind.settings =
      (kindsOf p headers).filterMap HeaderKind.settings := by
    rw [kindsOf, kindsOf, List.filterMap_map, List.filterMap_map]
    exact h.filterMap fun _ => settings_of_not_named
  simp only [upgradeSettings, h.mem_kinds, hsettings]

theorem Reordered.refused_iff (h : Reordered headers headers') :
    ConnectionRefused (kindsOf p headers') ↔ ConnectionRefused (kindsOf p headers) := by
  rw [ConnectionRefused, ConnectionRefused, h.upgradeSettings_eq, h.mem_kinds,
    h.kinds_perm.count_eq]

theorem Reordered.askedConnection_eq (h : Reordered headers headers') :
    askedConnection (kindsOf p headers') = askedConnection (kindsOf p headers) := by
  simp only [askedConnection, h.upgradeSettings_eq, h.mem_kinds]

theorem Reordered.compressionSettings_eq (h : Reordered headers headers') :
    getCompressionSettings p headers' = getCompressionSettings p headers := by
  have hfind (l : List HttpHeaderField) : findHeaderByKey l (ascii "accept-encoding") =
      (l.filter (Named (ascii "accept-encoding"))).head? := by
    rw [List.head?_filter]
    rfl
  unfold getCompressionSettings
  rw [hfind, h.sameName, ← hfind]

/-! ## The properties -/

/-- The result does not depend on the order of the fields, nor do the codings that are accepted. -/
def OrderIndependent (p : HeadParser Uri) (version : HTTPProtocolVersion)
    (headers : List HttpHeaderField) : Prop :=
  ∀ headers', Reordered headers headers' →
    httpAnalyzeHeaders p version headers' = httpAnalyzeHeaders p version headers ∧
      getCompressionSettings p headers' = getCompressionSettings p headers

/-- The fields give one length, and no transfer encoding. -/
structure OneLength (headers : List HttpHeaderField) (length : ℕ) : Prop where
  contentLength : ∃ header, headers.filter (Named (ascii "content-length")) = [header] ∧
    IsDecimal header.value ∧ decimalValue header.value = length
  inRange : length < 2 ^ 64
  notEncoded : headers.filter (Named (ascii "transfer-encoding")) = []

/-- A length that is given is the length of the body. -/
def LengthTaken (p : HeadParser Uri) (version : HTTPProtocolVersion)
    (headers : List HttpHeaderField) : Prop :=
  ∀ length, OneLength headers length → ∃ connection,
    httpAnalyzeHeaders p version headers = .ok ⟨.contentLength length, connection⟩

/-- There is a body when it is chunked. -/
def ChunkedTaken (p : HeadParser Uri) (version : HTTPProtocolVersion)
    (headers : List HttpHeaderField) : Prop :=
  (∃ header ∈ headers, Named (ascii "transfer-encoding") header ∧
      eqIgnoreCase header.value (ascii "chunked")) →
    ∀ connection, httpAnalyzeHeaders p version headers ≠ .ok ⟨.noBody, connection⟩

/-! ## The conditions -/

/-- The order matters: a length is overwritten if the connection is closed behind it and an error if
it is closed in front of it; and an encoding that is not supported is found first, or not. -/
def OrderMatters (kinds : List HeaderKind) : Prop :=
  ((∃ length, framings kinds = [some length]) ∧ .close ∈ kinds ∧ ¬ ConnectionRefused kinds) ∨
    (kinds.filterMap HeaderKind.encoding).head? = some false ∧
      ((∃ length, .contentLength length ∈ kinds) ∨ .close ∈ kinds ∨ 2 ≤ kinds.count .keepAlive)

/-- The connection is closed behind the only length, which is chunked. -/
def ClosedBehindChunked (kinds : List HeaderKind) : Prop :=
  ∃ before after, kinds = before ++ .transferEncoding true :: after ∧ framings before = [] ∧
    framings after = [] ∧ .close ∉ before ∧ .close ∈ after

/-! ## Independence of the order -/

theorem results_eq {result result' : Except HTTPAnalyzeHeaderError HTTPAnalyzeHeaders}
    (hok : ∀ analyze, result = .ok analyze ↔ result' = .ok analyze)
    (herror : result = .error .notSupported ↔ result' = .error .notSupported) :
    result = result' := by
  cases result with
  | ok analyze => exact ((hok analyze).1 rfl).symm
  | error e =>
    cases result' with
    | ok analyze => exact (hok analyze).2 rfl
    | error e' => cases e <;> cases e' <;> simp_all

/-- An encoding that is not supported is found first. -/
theorem notSupported_of_head (h : ¬ OrderMatters kinds) :
    kinds.foldlM analyzeKind ⟨.noBody, .nothingSpecial, false, false, none⟩ =
        .error .notSupported ↔
      (kinds.filterMap HeaderKind.encoding).head? = some false := by
  rw [notSupported_iff]
  constructor
  · rintro ⟨before, after, rfl, hframings, -, -⟩
    rw [List.filterMap_append, encodings_of_framings hframings]
    rfl
  · intro hhead
    have hnot : ¬ (_ ∨ _ ∨ _) := fun hother => h (.inr ⟨hhead, hother⟩)
    rw [not_or, not_or] at hnot
    obtain ⟨rest, hcons⟩ := List.head?_eq_some_iff.1 hhead
    obtain ⟨before, kind, after, rfl, hbefore, hkind, -⟩ := List.filterMap_eq_cons_iff.1 hcons
    obtain rfl := encoding_eq_some.1 hkind
    obtain ⟨hlength, hclose, htwice⟩ := hnot
    refine ⟨before, after, rfl, ?_, ?_, ?_⟩
    · rw [framings, List.filterMap_eq_nil_iff]
      intro kind hin
      refine framing_eq_none.2 ⟨?_, hbefore kind hin⟩
      rintro length rfl
      exact hlength ⟨length, by simp [hin]⟩
    · intro hin
      exact hclose (by simp [hin])
    · rw [List.count_append] at htwice
      omega

theorem Reordered.matters_iff (h : Reordered headers headers') :
    OrderMatters (kindsOf p headers') ↔ OrderMatters (kindsOf p headers) := by
  simp only [OrderMatters, h.framings_singleton, h.mem_kinds, h.refused_iff, h.encodings_eq,
    h.kinds_perm.count_eq]

/-- The length does not depend on the order. -/
theorem Reordered.lengthLoop_eq (h : Reordered headers headers')
    (hclose : .close ∈ kindsOf p headers → ∀ length, framings (kindsOf p headers) ≠ [some length]) :
    (kindsOf p headers').foldlM lengthStep .noBody =
      (kindsOf p headers).foldlM lengthStep .noBody := by
  have hclose' : .close ∈ kindsOf p headers' →
      ∀ length, framings (kindsOf p headers') ≠ [some length] := by
    intro hin length hsingle
    exact hclose ((h.mem_kinds _).1 hin) length (h.framings_singleton.1 hsingle)
  have hperm := h.framings_perm (p := p)
  rw [Http.lengthLoop_eq hclose, Http.lengthLoop_eq hclose']
  simp only [h.mem_kinds]
  cases hframings : framings (kindsOf p headers) with
  | nil =>
    rw [hframings, List.perm_nil] at hperm
    rw [hperm]
  | cons given rest =>
    cases rest with
    | nil => rw [h.framings_singleton.2 hframings]
    | cons second rest =>
      have hlength := hperm.length_eq
      rw [hframings, List.length_cons, List.length_cons] at hlength
      obtain ⟨first, next, others, hframings'⟩ : ∃ first next others,
          framings (kindsOf p headers') = first :: next :: others := by
        match hframings' : framings (kindsOf p headers') with
        | first :: next :: others => exact ⟨first, next, others, rfl⟩
        | [] => simp [hframings'] at hlength
        | [_] => simp [hframings'] at hlength
      rw [hframings']

theorem orderIndependent_of_not_matters
    (hcase : ∀ a b, p.tstrEqIgnoreCase a b = eqIgnoreCase a b)
    (h : ¬ OrderMatters (kindsOf p headers)) : OrderIndependent p version headers := by
  intro headers' hreordered
  refine ⟨results_eq ?_ ?_, hreordered.compressionSettings_eq⟩
  · intro analyze
    rw [httpAnalyzeHeaders_eq_ok hcase, httpAnalyzeHeaders_eq_ok hcase, hreordered.refused_iff,
      hreordered.askedConnection_eq]
    by_cases hrefused : ConnectionRefused (kindsOf p headers)
    · simp [hrefused]
    · rw [hreordered.lengthLoop_eq]
      intro hclose length hsingle
      exact h (.inl ⟨⟨length, hsingle⟩, hclose, hrefused⟩)
  · have hmatters := mt hreordered.matters_iff.1 h
    rw [httpAnalyzeHeaders_notSupported hcase, httpAnalyzeHeaders_notSupported hcase,
      notSupported_of_head hmatters, notSupported_of_head h, hreordered.encodings_eq]

/-! ## Dependence on the order -/

theorem kindsOf_front (name : Bytes) (headers : List HttpHeaderField) :
    kindsOf p (front name headers) = kindsOf p (headers.filter (Named name)) ++
      kindsOf p (headers.filter fun header => !Named name header) := List.map_append

/-- What stands in front of an encoding that is not supported. -/
theorem notSupported_front (h : (first ++ rest).foldlM analyzeKind
      ⟨.noBody, .nothingSpecial, false, false, none⟩ = .error .notSupported)
    (hfirst : first.filterMap HeaderKind.encoding = []) :
    framings first = [] ∧ .close ∉ first ∧ first.count .keepAlive < 2 := by
  obtain ⟨before, after, hkinds, hframings, hclose, htwice⟩ := notSupported_iff.1 h
  obtain ⟨middle, rfl⟩ : ∃ middle, before = first ++ middle := by
    rcases List.append_eq_append_iff.1 hkinds with ⟨middle, hbefore, -⟩ | ⟨middle, hbefore, hafter⟩
    · exact ⟨middle, hbefore⟩
    · cases middle with
      | nil => exact ⟨[], by simpa using hbefore.symm⟩
      | cons kind middle =>
        obtain ⟨rfl, -⟩ := List.cons.inj hafter
        rw [hbefore, List.filterMap_append] at hfirst
        simp [HeaderKind.encoding] at hfirst
  rw [framings, List.filterMap_append, List.append_eq_nil_iff] at hframings
  rw [List.count_append] at htwice
  exact ⟨hframings.1, fun hin => hclose (List.mem_append_left _ hin), by omega⟩

/-- The name of the fields of a kind. -/
def HeaderKind.fieldName : HeaderKind → Bytes
  | .contentLength _ => ascii "content-length"
  | .transferEncoding _ => ascii "transfer-encoding"
  | .close | .keepAlive | .connection _ => ascii "connection"
  | .upgrade _ => ascii "upgrade"
  | .http2Settings _ => ascii "http2-settings"
  | .other => []

theorem named_kind (h : headerKind p header ≠ .other) :
    Named (headerKind p header).fieldName header = true := by
  unfold headerKind at h ⊢
  split_ifs at h ⊢ <;> first | assumption | exact absurd rfl h

theorem mem_front {kind : HeaderKind} (h : kind ∈ kindsOf p headers) (hne : kind ≠ .other) :
    kind ∈ kindsOf p (headers.filter (Named kind.fieldName)) := by
  obtain ⟨header, hheader, rfl⟩ := List.mem_map.1 h
  exact List.mem_map.2 ⟨header, List.mem_filter.2 ⟨hheader, named_kind hne⟩, rfl⟩

theorem name_of_mem {kind : HeaderKind} (h : kind ∈ kindsOf p (headers.filter (Named name)))
    (hne : kind ≠ .other) : kind.fieldName.map lowerByte = name.map lowerByte := by
  obtain ⟨header, hheader, rfl⟩ := List.mem_map.1 h
  rw [← named_iff.1 (named_kind hne), named_iff.1 (List.mem_filter.1 hheader).2]

/-- The fields with a name that gives no lengths. -/
theorem framings_front (hlength : (ascii "content-length").map lowerByte ≠ name.map lowerByte)
    (hencoding : (ascii "transfer-encoding").map lowerByte ≠ name.map lowerByte) :
    framings (kindsOf p (headers.filter (Named name))) = [] := by
  rw [framings, List.filterMap_eq_nil_iff]
  intro kind hkind
  cases kind with
  | contentLength length => exact absurd (name_of_mem hkind (by simp)) hlength
  | transferEncoding chunked => exact absurd (name_of_mem hkind (by simp)) hencoding
  | _ => rfl

/-- The fields with a name that gives no encodings. -/
theorem encodings_front
    (hencoding : (ascii "transfer-encoding").map lowerByte ≠ name.map lowerByte) :
    (kindsOf p (headers.filter (Named name))).filterMap HeaderKind.encoding = [] := by
  rw [List.filterMap_eq_nil_iff]
  intro kind hkind
  cases kind with
  | transferEncoding chunked => exact absurd (name_of_mem hkind nofun) hencoding
  | _ => rfl

/-- Closed in front of a length. -/
theorem lengthLoop_connectionFirst (hclose : .close ∈ kindsOf p headers)
    (hframings : framings (kindsOf p headers) ≠ []) :
    (kindsOf p (front (ascii "connection") headers)).foldlM lengthStep .noBody = none := by
  have hfirst : framings (kindsOf p (headers.filter (Named (ascii "connection")))) = [] :=
    framings_front (by decide) (by decide)
  have hmem : .close ∈ kindsOf p (headers.filter (Named (ascii "connection"))) :=
    mem_front hclose nofun
  have hclosed : HTTPRequestLength.close ≠ .noBody := nofun
  have hrest : framings (kindsOf p
      (headers.filter fun header => !Named (ascii "connection") header)) ≠ [] := by
    intro hrest
    have hperm := (front_reordered (ascii "connection") headers).framings_perm (p := p)
    rw [kindsOf_front, framings, List.filterMap_append, ← framings, ← framings, hfirst,
      hrest] at hperm
    exact hframings (List.nil_perm.1 hperm)
  rw [kindsOf_front, List.foldlM_append, lengthLoop_noFraming hfirst,
    if_pos hmem, Option.bind_eq_bind, Option.bind_some, lengthLoop_secondFraming hrest hclosed]

/-- Closed behind the only length. -/
theorem lengthLoop_lengthFirst {length : HTTPRequestLength} {kind : HeaderKind}
    (hclose : .close ∈ kindsOf p headers) (hsingle : framings (kindsOf p headers) = [some length])
    (hkind : kind ∈ kindsOf p headers) (hframing : kind.framing = some (some length)) :
    (kindsOf p (front kind.fieldName headers)).foldlM lengthStep .noBody = some .close := by
  have hne : kind ≠ .other := by
    rintro rfl
    simp [HeaderKind.framing] at hframing
  have hreordered := front_reordered kind.fieldName headers
  have hclose' := (hreordered.mem_kinds _).2 hclose
  have hsingle' := hreordered.framings_singleton.2 hsingle
  rw [kindsOf_front] at hclose' hsingle' ⊢
  -- the fields that are put first give the length, and none of them closes the connection
  have hnotFirst : .close ∉ kindsOf p (headers.filter (Named kind.fieldName)) := by
    intro hin
    have hname := name_of_mem hin (by simp)
    cases kind with
    | contentLength _ =>
      have hdiffer :
          (ascii "connection").map lowerByte ≠ (ascii "content-length").map lowerByte := by
        decide
      exact hdiffer hname
    | transferEncoding _ =>
      have hdiffer : (ascii "connection").map lowerByte ≠
          (ascii "transfer-encoding").map lowerByte := by
        decide
      exact hdiffer hname
    | _ => simp [HeaderKind.framing] at hframing
  have hfirst : framings (kindsOf p (headers.filter (Named kind.fieldName))) ≠ [] := by
    intro hnil
    rw [framings, List.filterMap_eq_nil_iff] at hnil
    rw [hnil kind (mem_front hkind hne)] at hframing
    cases hframing
  have hclosed := (List.mem_append.1 hclose').resolve_left hnotFirst
  rw [framings, List.filterMap_append, ← framings, ← framings] at hsingle'
  obtain ⟨given, others, hcons⟩ := List.exists_cons_of_ne_nil hfirst
  rw [hcons, List.cons_append, List.cons.injEq, List.append_eq_nil_iff] at hsingle'
  obtain ⟨rfl, rfl, hrest⟩ := hsingle'
  obtain ⟨before, kind', after, hkinds, hbefore, hkind', hafter⟩ := framings_eq_cons hcons
  have hnotBefore : .close ∉ before := fun hin => hnotFirst (by simp [hkinds, hin])
  have hafter' : framings (after ++ kindsOf p
      (headers.filter fun header => !Named kind.fieldName header)) = [] := by
    rw [framings, List.filterMap_append, ← framings, ← framings, hafter, hrest, List.append_nil]
  rw [hkinds, List.append_assoc, List.cons_append, lengthLoop_append hbefore hkind',
    if_pos ⟨hnotBefore, hafter'⟩, Option.map_some, if_pos (List.mem_append_right _ hclosed)]

/-- An encoding that is not supported, put first. -/
theorem notSupported_encodingFirst
    (h : ((kindsOf p headers).filterMap HeaderKind.encoding).head? = some false) :
    (kindsOf p (front (ascii "transfer-encoding") headers)).foldlM analyzeKind
      ⟨.noBody, .nothingSpecial, false, false, none⟩ = .error .notSupported := by
  have hrest : (kindsOf p (headers.filter fun header =>
      !Named (ascii "transfer-encoding") header)).filterMap HeaderKind.encoding = [] := by
    rw [List.filterMap_eq_nil_iff]
    intro kind hkind
    obtain ⟨header, hheader, rfl⟩ := List.mem_map.1 hkind
    exact encoding_of_not_named (by simpa using (List.mem_filter.1 hheader).2)
  rw [← (front_reordered (ascii "transfer-encoding") headers).encodings_eq, kindsOf_front,
    List.filterMap_append, hrest, List.append_nil, List.head?_eq_some_iff] at h
  obtain ⟨rest, hcons⟩ := h
  obtain ⟨before, kind, after, hkinds, hbefore, hkind, -⟩ := List.filterMap_eq_cons_iff.1 hcons
  obtain rfl := encoding_eq_some.1 hkind
  have hname : ∀ kind ∈ before, kind ≠ .other →
      kind.fieldName.map lowerByte = (ascii "transfer-encoding").map lowerByte := by
    intro kind hin hne
    have hmem : kind ∈ kindsOf p (headers.filter (Named (ascii "transfer-encoding"))) := by
      simp [hkinds, hin]
    exact name_of_mem hmem hne
  rw [kindsOf_front, hkinds, List.append_assoc, List.cons_append, notSupported_iff]
  refine ⟨before, _, rfl, ?_, ?_, ?_⟩
  · rw [framings, List.filterMap_eq_nil_iff]
    intro kind hin
    refine framing_eq_none.2 ⟨?_, hbefore kind hin⟩
    rintro length rfl
    have hdiffer : (ascii "content-length").map lowerByte ≠
        (ascii "transfer-encoding").map lowerByte := by
      decide
    exact hdiffer (hname _ hin (by simp))
  · intro hin
    exact absurd (hname _ hin (by simp)) (by decide)
  · rw [List.count_eq_zero_of_not_mem]
    · exact Nat.two_pos
    · intro hin
      exact absurd (hname _ hin (by simp)) (by decide)

theorem count_keepAlive_front (headers : List HttpHeaderField) :
    (kindsOf p (headers.filter (Named (ascii "connection")))).count .keepAlive =
      (kindsOf p headers).count .keepAlive := by
  have hnone : .keepAlive ∉ kindsOf p
      (headers.filter fun header => !Named (ascii "connection") header) := by
    intro hin
    obtain ⟨header, hheader, hkind⟩ := List.mem_map.1 hin
    have hne : headerKind p header ≠ .other := by
      rw [hkind]
      simp
    have hnamed := named_kind hne
    rw [hkind] at hnamed
    have hnot := (List.mem_filter.1 hheader).2
    rw [show Named (ascii "connection") header = true from hnamed] at hnot
    cases hnot
  have hperm := (front_reordered (ascii "connection") headers).kinds_perm (p := p)
  rw [← hperm.count_eq, kindsOf_front, List.count_append, List.count_eq_zero_of_not_mem hnone,
    Nat.add_zero]

theorem matters_of_orderIndependent
    (hcase : ∀ a b, p.tstrEqIgnoreCase a b = eqIgnoreCase a b)
    (h : OrderIndependent p version headers) : ¬ OrderMatters (kindsOf p headers) := by
  have hsame (name name' : Bytes) : httpAnalyzeHeaders p version (front name headers) =
      httpAnalyzeHeaders p version (front name' headers) :=
    ((h _ (front_reordered name headers)).1).trans ((h _ (front_reordered name' headers)).1).symm
  rintro (⟨⟨length, hsingle⟩, hclose, hrefused⟩ | ⟨hhead, hother⟩)
  · obtain ⟨before, kind, after, hkinds, -, hframing, -⟩ := framings_eq_cons hsingle
    have hkind : kind ∈ kindsOf p headers := by simp [hkinds]
    have hlength := lengthLoop_lengthFirst hclose hsingle hkind hframing
    have hok : httpAnalyzeHeaders p version (front kind.fieldName headers) = .ok _ :=
      (httpAnalyzeHeaders_eq_ok hcase).2 ⟨_, hlength,
        mt (front_reordered kind.fieldName headers).refused_iff.1 hrefused, rfl⟩
    rw [hsame kind.fieldName (ascii "connection"), httpAnalyzeHeaders_eq_ok hcase,
      lengthLoop_connectionFirst hclose (by simp [hsingle])] at hok
    obtain ⟨_, hnone, -⟩ := hok
    cases hnone
  · have hfirst (name : Bytes) :=
      (hsame name (ascii "transfer-encoding")).trans
        ((httpAnalyzeHeaders_notSupported hcase).2 (notSupported_encodingFirst hhead))
    have hfront (name : Bytes) (hencoding : (ascii "transfer-encoding").map lowerByte ≠
        name.map lowerByte) := by
      have hloop := (httpAnalyzeHeaders_notSupported hcase).1 (hfirst name)
      rw [kindsOf_front] at hloop
      exact notSupported_front hloop (encodings_front hencoding)
    rcases hother with ⟨length, hlength⟩ | hclose | htwice
    · obtain ⟨hframings, -⟩ := hfront (ascii "content-length") (by decide)
      rw [framings, List.filterMap_eq_nil_iff] at hframings
      exact absurd (hframings _ (mem_front hlength (by simp))) (by simp [HeaderKind.framing])
    · obtain ⟨-, hnot, -⟩ := hfront (ascii "connection") (by decide)
      exact hnot (mem_front hclose (by simp))
    · obtain ⟨-, -, hcount⟩ := hfront (ascii "connection") (by decide)
      rw [count_keepAlive_front] at hcount
      omega

/-- **When the order of the fields does not matter.** -/
theorem orderIndependent_iff (hcase : ∀ a b, p.tstrEqIgnoreCase a b = eqIgnoreCase a b) :
    OrderIndependent p version headers ↔ ¬ OrderMatters (kindsOf p headers) :=
  ⟨matters_of_orderIndependent hcase, orderIndependent_of_not_matters hcase⟩

/-! ## The result -/

theorem kind_of_length (h : Named (ascii "content-length") header = true) :
    headerKind p header = .contentLength (parseU64 header.value) := by
  simp [headerKind, h]

theorem kind_of_encoding (h : Named (ascii "transfer-encoding") header = true) :
    headerKind p header = .transferEncoding (eqIgnoreCase header.value (ascii "chunked")) := by
  have hlength : Named (ascii "content-length") header = false := (named_comm h).trans (by decide)
  simp [headerKind, h, hlength]

/-- The length of the only field that gives one. -/
theorem OneLength.framings_eq {length : ℕ} (h : OneLength headers length) :
    framings (kindsOf p headers) = [some (.contentLength length)] := by
  obtain ⟨⟨header, hfilter, hdecimal, hvalue⟩, hrange, hencoding⟩ := h
  have hparse : parseU64 header.value = some length := by
    refine (parseU64_of_not_slips ?_).2 ⟨hdecimal, hvalue, hrange⟩
    intro hslips
    have hlarge := hslips.large
    omega
  have hother : ∀ header ∈ headers, Named (ascii "content-length") header = false →
      (headerKind p header).framing = none := by
    intro header hheader hnot
    have hnotEncoding := List.filter_eq_nil_iff.1 hencoding header hheader
    simp only [headerKind, hnot, hnotEncoding, Bool.false_eq_true, if_false]
    split_ifs <;> rfl
  have hnamed : Named (ascii "content-length") header = true := by
    have hmem : header ∈ headers.filter (Named (ascii "content-length")) := by simp [hfilter]
    exact (List.mem_filter.1 hmem).2
  have honly : headers.filterMap (HeaderKind.framing ∘ headerKind p) =
      [header].filterMap (HeaderKind.framing ∘ headerKind p) := by
    rw [← hfilter]
    exact filterMap_named hother
  rw [framings, kindsOf, List.filterMap_map, honly]
  simp [kind_of_length hnamed, hparse, HeaderKind.framing]

/-- **When a length that is given is taken**: if the connection is neither closed nor refused. -/
theorem lengthTaken_iff (hcase : ∀ a b, p.tstrEqIgnoreCase a b = eqIgnoreCase a b) :
    LengthTaken p version headers ↔ ∀ length, OneLength headers length →
      .close ∉ kindsOf p headers ∧ ¬ ConnectionRefused (kindsOf p headers) := by
  apply forall_congr'
  intro length
  apply imp_congr_right
  intro hlength
  have hframings := hlength.framings_eq (p := p)
  constructor
  · rintro ⟨connection, hok⟩
    obtain ⟨taken, htaken, hrefused, heq⟩ := (httpAnalyzeHeaders_eq_ok hcase).1 hok
    refine ⟨?_, hrefused⟩
    obtain ⟨before, kind, after, hkinds, hbefore, hkind, hafter⟩ := framings_eq_cons hframings
    rw [hkinds] at htaken ⊢
    rw [lengthLoop_append hbefore hkind] at htaken
    by_cases hfirst : .close ∉ before ∧ framings after = []
    · rw [if_pos hfirst, Option.map_some, Option.some.injEq] at htaken
      have hnotAfter : .close ∉ after := by
        intro hin
        rw [if_pos hin] at htaken
        subst htaken
        unfold finalLength at heq
        split_ifs at heq <;> simp at heq
      have hne : .close ≠ kind := by
        rintro rfl
        cases hkind
      simp [hfirst.1, hnotAfter, hne]
    · rw [if_neg hfirst] at htaken
      cases htaken
  · rintro ⟨hclose, hrefused⟩
    have htaken : (kindsOf p headers).foldlM lengthStep .noBody = some (.contentLength length) := by
      rw [lengthLoop_eq fun hin => absurd hin hclose, hframings]
    have hfinal : finalLength version (.contentLength length) = .contentLength length := by
      simp [finalLength]
    refine ⟨askedConnection (kindsOf p headers),
      (httpAnalyzeHeaders_eq_ok hcase).2 ⟨_, htaken, hrefused, ?_⟩⟩
    rw [hfinal]

/-- **When there is a body if it is chunked**: if the connection is not closed behind it. -/
theorem chunkedTaken_iff (hcase : ∀ a b, p.tstrEqIgnoreCase a b = eqIgnoreCase a b) :
    ChunkedTaken p version headers ↔ version = .v1Dot0 ∨
      ¬ ClosedBehindChunked (kindsOf p headers) ∨ ConnectionRefused (kindsOf p headers) := by
  constructor
  · intro h
    by_contra hnot
    rw [not_or, not_or, not_not] at hnot
    obtain ⟨hversion, ⟨before, after, hkinds, hbefore, hafter, hopen, hclosed⟩, hrefused⟩ := hnot
    have hchunked : .transferEncoding true ∈ kindsOf p headers := by simp [hkinds]
    obtain ⟨header, hheader, hkind⟩ := List.mem_map.1 hchunked
    have hnamed : Named (ascii "transfer-encoding") header = true := by
      have hne : headerKind p header ≠ .other := by
        rw [hkind]
        simp
      have hname := named_kind hne
      rwa [hkind] at hname
    rw [kind_of_encoding hnamed, HeaderKind.transferEncoding.injEq] at hkind
    have hlength : (kindsOf p headers).foldlM lengthStep .noBody = some .close := by
      rw [hkinds, lengthLoop_append hbefore rfl, if_pos ⟨hopen, hafter⟩]
      simp [hclosed]
    have hfinal : finalLength version .close = .noBody := by
      simp [finalLength, hversion]
    refine h ⟨header, hheader, hnamed, hkind⟩ (askedConnection (kindsOf p headers))
      ((httpAnalyzeHeaders_eq_ok hcase).2 ⟨_, hlength, hrefused, ?_⟩)
    rw [hfinal]
  · rintro h ⟨header, hheader, hnamed, hvalue⟩ connection hok
    have hchunked : .transferEncoding true ∈ kindsOf p headers := by
      have hkind := kind_of_encoding (p := p) hnamed
      rw [hvalue] at hkind
      exact List.mem_map.2 ⟨header, hheader, hkind⟩
    obtain ⟨length, hlength, hrefused, heq⟩ := (httpAnalyzeHeaders_eq_ok hcase).1 hok
    have hsome : framings (kindsOf p headers) ≠ [] := by
      intro hnil
      rw [framings, List.filterMap_eq_nil_iff] at hnil
      exact absurd (hnil _ hchunked) (by simp [HeaderKind.framing])
    obtain ⟨given, rest, hcons⟩ := List.exists_cons_of_ne_nil hsome
    obtain ⟨before, kind, after, hkinds, hbefore, hkind, -⟩ := framings_eq_cons hcons
    rw [hkinds, lengthLoop_append hbefore hkind] at hlength
    by_cases hfirst : .close ∉ before ∧ framings after = []
    · obtain ⟨hopen, hafter⟩ := hfirst
      rw [if_pos ⟨hopen, hafter⟩] at hlength
      obtain ⟨taken, rfl, htaken⟩ := Option.map_eq_some_iff.1 hlength
      obtain ⟨hbody, hnotClose⟩ := framing_length hkind
      -- the only field that gives a length is the one that is chunked
      have hsame : kind = .transferEncoding true := by
        rw [hkinds, List.mem_append, List.mem_cons] at hchunked
        rw [framings, List.filterMap_eq_nil_iff] at hbefore hafter
        rcases hchunked with hin | hin | hin
        · exact absurd (hbefore _ hin) (by simp [HeaderKind.framing])
        · exact hin.symm
        · exact absurd (hafter _ hin) (by simp [HeaderKind.framing])
      subst hsame
      have hfinal : finalLength version length = .noBody :=
        (congrArg HTTPAnalyzeHeaders.length heq).symm
      by_cases hclosed : .close ∈ after
      · rw [if_pos hclosed] at htaken
        subst htaken
        rcases h with hversion | hnot | hyes
        · simp [finalLength, hversion] at hfinal
        · exact hnot ⟨before, after, hkinds, hbefore, hafter, hopen, hclosed⟩
        · exact hrefused hyes
      · rw [if_neg hclosed] at htaken
        subst htaken
        simp [finalLength, hbody, hnotClose] at hfinal
    · rw [if_neg hfirst] at hlength
      cases hlength

/-- **When the fields alone say how long the body is.** -/
theorem bodyFraming_iff (hcase : ∀ a b, p.tstrEqIgnoreCase a b = eqIgnoreCase a b)
    (version : HTTPProtocolVersion) (headers : List HttpHeaderField) :
    (OrderIndependent p version headers ↔ ¬ OrderMatters (kindsOf p headers)) ∧
      (LengthTaken p version headers ↔ ∀ length, OneLength headers length →
        .close ∉ kindsOf p headers ∧ ¬ ConnectionRefused (kindsOf p headers)) ∧
      (ChunkedTaken p version headers ↔ version = .v1Dot0 ∨
        ¬ ClosedBehindChunked (kindsOf p headers) ∨ ConnectionRefused (kindsOf p headers)) :=
  ⟨orderIndependent_iff hcase, lengthTaken_iff hcase, chunkedTaken_iff hcase⟩

/-- A request with a body of five bytes. -/
def lengthFive (connection : String) : List HttpHeaderField :=
  [⟨ascii "Content-Length", ascii "5"⟩, ⟨ascii "Connection", ascii connection⟩]

/-- The connection stays open. -/
theorem bodyFraming_keepAlive :
    OrderIndependent HeadParser.plain .v1Dot1 (lengthFive "keep-alive") ∧
    LengthTaken HeadParser.plain .v1Dot1 (lengthFive "keep-alive") ∧
      ChunkedTaken HeadParser.plain .v1Dot1 (lengthFive "keep-alive") := by
  have hcase : ∀ a b, HeadParser.plain.tstrEqIgnoreCase a b = eqIgnoreCase a b :=
    HeadParser.plain_lawful.eqIgnoreCase
  obtain ⟨horder, hlength, hchunked⟩ := bodyFraming_iff hcase .v1Dot1 (lengthFive "keep-alive")
  have hkinds : kindsOf HeadParser.plain (lengthFive "keep-alive") =
      [.contentLength (some 5), .keepAlive] := by
    decide
  rw [hkinds] at horder hlength hchunked
  have hrefused : ¬ ConnectionRefused [.contentLength (some 5), .keepAlive] := by
    rw [ConnectionRefused, not_or]
    decide
  refine ⟨horder.2 ?_, hlength.2 fun _ _ => ⟨by decide, hrefused⟩, hchunked.2 (.inr (.inl ?_))⟩
  · rintro (⟨-, hclose, -⟩ | ⟨hhead, -⟩)
    · exact absurd hclose (by decide)
    · exact absurd hhead (by decide)
  · rintro ⟨before, after, hsplit, -⟩
    have hmem : HeaderKind.transferEncoding true ∈ before ++ .transferEncoding true :: after := by
      simp
    rw [← hsplit] at hmem
    exact absurd hmem (by decide)

/-- `Connection: close` behind the length: the body is not read, and in front of it the request is
refused. -/
theorem closed_overwrites : ¬ OrderIndependent HeadParser.plain .v1Dot1 (lengthFive "close") ∧
    ¬ LengthTaken HeadParser.plain .v1Dot1 (lengthFive "close") := by
  have hresult : httpAnalyzeHeaders HeadParser.plain .v1Dot1 (lengthFive "close") =
      .ok ⟨.noBody, .nothingSpecial⟩ := by
    decide
  constructor
  · intro h
    have hfront := (h _ (front_reordered (ascii "connection") _)).1
    rw [hresult] at hfront
    exact absurd hfront (by decide)
  · intro h
    obtain ⟨connection, hok⟩ := h 5 ⟨⟨_, rfl, by decide, by decide⟩, by decide, by decide⟩
    rw [hresult] at hok
    cases hok

end SimpleServer.Http
