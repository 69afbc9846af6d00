import Mathlib.Data.List.TakeWhile
import SimpleServer.Http.Head
import SimpleServer.Proof.DelimiterSearch

/-!
# A head is read as it was written

The words of a request line and the first colon of a header line are found where they stand.
Blanks before a value are left out, while blanks behind it become a part of it.

* `parseRequestLine_ok_iff`: the request lines that are accepted.
* `parseHeadersLoop_lines`: the loop over lines that are fields.
* `headParsing_iff`: **when a head comes back as it was meant.**
-/

namespace SimpleServer.Http

open Lib Utils Hpack Http2

variable {Uri : Type} {p : HeadParser Uri} {blank : UInt8 → Prop} [DecidablePred blank]
variable {reader : BufferedReader} {line after : Bytes} {lines : List Bytes}

/-! ## Lines -/

/-- A line that the search for its end finds: no line end starts behind a lone carriage return. -/
abbrev IsLine (line : Bytes) : Prop := FailedAttempts httpLineSeperators line

theorem isLine_of_not_mem (h : 0x0D ∉ line) : IsLine line := failedAttempts_of_not_mem h

/-- The reader delivers a line and stands behind its end. -/
theorem getUntilDelimiter_line (hsteady : reader.Steady) (hline : IsLine line)
    (hunread : reader.unread = line ++ (httpLineSeperators ++ after)) :
    ∃ reader', bufferedReaderGetUntilDelimiter reader httpLineSeperators = (reader', .ok line) ∧
      reader'.Steady ∧ reader'.unread = after := by
  have hscan := scan_of_attempts (by decide) hline after
  rw [← hunread] at hscan
  obtain ⟨reader', hfound, hforward, -⟩ := getUntilDelimiter_found hsteady hscan
  have hdelivered : reader.unread.take
      (line.length + httpLineSeperators.length - httpLineSeperators.length) = line := by
    rw [Nat.add_sub_cancel, hunread, List.take_left]
  rw [hdelivered] at hfound
  refine ⟨reader', hfound, hforward.steady, ?_⟩
  rw [hforward.unread hsteady.toReady, hunread, ← List.append_assoc]
  exact List.drop_left' List.length_append

/-! ## The request line -/

theorem intercalate_three (c : UInt8) (first second third : Bytes) :
    [c].intercalate [first, second, third] = first ++ c :: (second ++ c :: third) := by
  simp [List.intercalate]

/-- The request lines that are accepted. -/
theorem parseRequestLine_ok_iff (hlaw : p.Lawful blank) {method : HTTPRequestMethod} {uri : Uri}
    {version : HTTPProtocolVersion} :
    parseRequestLine p line = .ok ⟨method, uri, version⟩ ↔
      ∃ target, 0x20 ∉ target ∧ p.parseRequestUri target = some uri ∧
        line = (HeadText.mk method target version []).requestLine := by
  have hspace : ascii " " = [0x20] := by decide
  unfold parseRequestLine
  rw [hspace]
  constructor
  · intro h
    split at h
    · rename_i first target last hpieces
      have hjoined := hlaw.joined line 0x20
      have hclean := hlaw.pieces line 0x20 target (by rw [hpieces]; simp)
      rw [hpieces] at hjoined
      split at h
      · cases h
      · rename_i uri' huri
        split at h
        · cases h
        · rename_i method' hmethod
          split at h
          · cases h
          · rename_i version' hversion
            cases h
            rw [getHttpMethodFromString_eq_some] at hmethod
            rw [getProtocolVersionFromString_eq_some] at hversion
            refine ⟨target, hclean, huri, ?_⟩
            rw [← hjoined, intercalate_three, hmethod, hversion]
            rfl
    · cases h
  · rintro ⟨target, htarget, huri, rfl⟩
    have hpieces : p.tstrSplitPieces (HeadText.mk method target version []).requestLine [0x20] =
        [methodText method, target, versionText version] := by
      rw [hlaw.splitPieces (by simp [HeadText.requestLine])]
      symm
      refine eq_splitOn (by simp) (intercalate_three _ _ _ _) ?_
      intro piece hpiece
      simp only [List.mem_cons, List.not_mem_nil, or_false] at hpiece
      rcases hpiece with rfl | rfl | rfl
      · exact space_notMem_methodText method
      · exact htarget
      · exact space_notMem_versionText version
    have hmethod : getHttpMethodFromString (methodText method) = some method :=
      getHttpMethodFromString_eq_some.2 rfl
    have hversion : getProtocolVersionFromString (versionText version) = some version :=
      getProtocolVersionFromString_eq_some.2 rfl
    rw [hpieces]
    dsimp only
    rw [huri]
    dsimp only
    rw [hmethod]
    dsimp only
    rw [hversion]

/-- Three words have two spaces between them. -/
theorem parseRequestLine_spaces (hlaw : p.Lawful blank) (h : line.count 0x20 ≠ 2) :
    parseRequestLine p line = .error := by
  have hspace : ascii " " = [0x20] := by decide
  unfold parseRequestLine
  rw [hspace]
  split
  · rename_i first target last hpieces
    have hjoined := hlaw.joined line 0x20
    have hclean : ∀ piece ∈ [first, target, last], List.count 0x20 piece = 0 := by
      intro piece hpiece
      rw [← hpieces] at hpiece
      exact List.count_eq_zero.2 (hlaw.pieces line 0x20 piece hpiece)
    rw [hpieces] at hjoined
    rw [intercalate_three] at hjoined
    refine absurd ?_ h
    rw [← hjoined]
    simp [hclean first (by simp), hclean target (by simp), hclean last (by simp)]
  · rfl

/-- Two request lines with the same words at their ends, and the same bytes behind them. -/
theorem requestLine_unique {head : HeadText} {target after after' : Bytes}
    (htarget : 0x20 ∉ target) (htarget' : 0x20 ∉ head.target)
    (h : (HeadText.mk head.method target head.version []).requestLine ++ after =
      head.requestLine ++ after') : target = head.target := by
  unfold HeadText.requestLine at h
  simp only [List.append_assoc, List.cons_append, List.append_cancel_left_eq, List.cons.injEq,
    true_and] at h
  have hfirst : splitFirst [0x20] (target ++ 0x20 :: (versionText head.version ++ after)) =
      some (target, versionText head.version ++ after) := splitFirst_append_cons htarget
  rw [h, splitFirst_append_cons htarget'] at hfirst
  exact (congrArg Prod.fst (Option.some.inj hfirst)).symm

/-! ## The headers -/

/-- What a header line becomes. -/
theorem parseHeaderLine_field (hlaw : p.Lawful blank) {field : FieldText}
    (hname : 0x3A ∉ field.name) :
    parseHeaderLine p field.line = some ⟨field.name,
      (field.before ++ (field.value ++ field.after)).dropWhile fun c => blank c⟩ := by
  have hcolon : ascii ":" = [0x3A] := by decide
  unfold parseHeaderLine FieldText.line
  rw [hcolon, hlaw.split, splitFirst_append_cons hname, Option.map_some]
  dsimp only
  rw [hlaw.lstrip]

/-- A line without a colon is not a field. -/
theorem parseHeaderLine_none (hlaw : p.Lawful blank) :
    parseHeaderLine p line = none ↔ 0x3A ∉ line := by
  have hcolon : ascii ":" = [0x3A] := by decide
  unfold parseHeaderLine
  rw [hcolon, hlaw.split, Option.map_eq_none_iff, splitFirst_eq_none, List.singleton_infix_iff]

/-- One round of the loop. -/
theorem parseHeadersLoop_line (hsteady : reader.Steady) (hline : IsLine line)
    (hunread : reader.unread = line ++ (httpLineSeperators ++ after)) :
    ∃ reader', reader'.Steady ∧ reader'.unread = after ∧ ∀ fuel headerFields,
      parseHeadersLoop p (fuel + 1) reader headerFields =
        if line.length = 0 then (reader', .ok headerFields)
        else
          match parseHeaderLine p line with
          | none => (reader', .error (.advanced "Failed to parse header key"))
          | some field => parseHeadersLoop p fuel reader' (headerFields ++ [field]) := by
  obtain ⟨reader', hfound, hsteady', hafter⟩ := getUntilDelimiter_line hsteady hline hunread
  refine ⟨reader', hsteady', hafter, ?_⟩
  intro fuel headerFields
  conv_lhs => unfold parseHeadersLoop
  rewrite [hfound]
  rfl

/-- The loop over lines that are fields. -/
theorem parseHeadersLoop_lines (hlaw : p.Lawful blank) (hsteady : reader.Steady)
    (hlines : ∀ line ∈ lines, IsLine line) (hcolon : ∀ line ∈ lines, 0x3A ∈ line)
    (hunread : reader.unread = linesText lines ++ after) :
    ∃ reader', reader'.Steady ∧ reader'.unread = after ∧ ∀ fuel headerFields,
      parseHeadersLoop p (fuel + lines.length) reader headerFields =
        parseHeadersLoop p fuel reader' (headerFields ++ lines.filterMap (parseHeaderLine p)) := by
  induction lines generalizing reader with
  | nil =>
    refine ⟨reader, hsteady, hunread, ?_⟩
    intro fuel headerFields
    rw [List.filterMap_nil, List.append_nil, List.length_nil, Nat.add_zero]
  | cons line lines ih =>
    have hunread : reader.unread = line ++ (httpLineSeperators ++ (linesText lines ++ after)) := by
      simpa [linesText] using hunread
    obtain ⟨reader', hsteady', hafter, hround⟩ :=
      parseHeadersLoop_line hsteady (hlines line List.mem_cons_self) hunread
    obtain ⟨reader'', hsteady'', hafter', hrest⟩ := ih hsteady'
      (fun line hline => hlines line (List.mem_cons_of_mem _ hline))
      (fun line hline => hcolon line (List.mem_cons_of_mem _ hline)) hafter
    refine ⟨reader'', hsteady'', hafter', ?_⟩
    intro fuel headerFields
    have hmem := hcolon line List.mem_cons_self
    have hne : ¬ line.length = 0 := by
      intro hzero
      rw [List.length_eq_zero_iff.1 hzero] at hmem
      cases hmem
    cases hfield : parseHeaderLine p line with
    | none => exact absurd hmem ((parseHeaderLine_none hlaw).1 hfield)
    | some field =>
      rw [List.length_cons, ← Nat.add_assoc, hround, if_neg hne, hfield]
      dsimp only
      rw [hrest, List.filterMap_cons_some hfield, List.append_assoc, List.singleton_append]

/-- There is fuel for every line. -/
theorem parseHeaders_fuel (hsteady : reader.Steady)
    (hunread : reader.unread = linesText lines ++ after) :
    ∃ fuel, parseHeaders p reader = parseHeadersLoop p (fuel + 1 + lines.length) reader [] := by
  have hlength (lines : List Bytes) : lines.length ≤ (linesText lines).length := by
    induction lines with
    | nil => exact Nat.zero_le _
    | cons line lines ih =>
      simp only [linesText, List.flatMap_cons, List.length_append, List.length_cons] at ih ⊢
      have hend : httpLineSeperators.length = 2 := rfl
      omega
  have hle := hlength lines
  have hwhole : (linesText lines).length ≤ reader.unread.length := by
    rw [hunread, List.length_append]
    omega
  refine ⟨reader.unread.length - lines.length, ?_⟩
  unfold parseHeaders
  rw [searchFuel hsteady]
  congr 1
  omega

/-- Header lines up to the empty one. -/
theorem parseHeaders_ok (hlaw : p.Lawful blank) (hsteady : reader.Steady)
    (hlines : ∀ line ∈ lines, IsLine line) (hcolon : ∀ line ∈ lines, 0x3A ∈ line)
    (hunread : reader.unread = linesText lines ++ (httpLineSeperators ++ after)) :
    (parseHeaders p reader).2 = .ok (lines.filterMap (parseHeaderLine p)) := by
  obtain ⟨fuel, hfuel⟩ := parseHeaders_fuel (p := p) hsteady hunread
  obtain ⟨reader', hsteady', hafter, hloop⟩ :=
    parseHeadersLoop_lines hlaw hsteady hlines hcolon hunread
  have hempty : IsLine [] := .nil
  obtain ⟨reader'', -, -, hround⟩ := parseHeadersLoop_line (p := p) hsteady' hempty hafter
  rw [hfuel, hloop, hround, if_pos List.length_nil, List.nil_append]

/-- Header lines up to one that is not a field. -/
theorem parseHeaders_error (hlaw : p.Lawful blank) (hsteady : reader.Steady)
    (hlines : ∀ line ∈ lines, IsLine line) (hcolon : ∀ line ∈ lines, 0x3A ∈ line)
    (hline : IsLine line) (hne : line ≠ []) (hnone : 0x3A ∉ line)
    (hunread : reader.unread = linesText lines ++ (line ++ (httpLineSeperators ++ after))) :
    (parseHeaders p reader).2 = .error (.advanced "Failed to parse header key") := by
  obtain ⟨fuel, hfuel⟩ := parseHeaders_fuel (p := p) hsteady hunread
  obtain ⟨reader', hsteady', hafter, hloop⟩ :=
    parseHeadersLoop_lines hlaw hsteady hlines hcolon hunread
  obtain ⟨reader'', -, -, hround⟩ := parseHeadersLoop_line (p := p) hsteady' hline hafter
  have hlength : ¬ line.length = 0 := fun hzero => hne (List.length_eq_zero_iff.1 hzero)
  rw [hfuel, hloop, hround, if_neg hlength, (parseHeaderLine_none hlaw).2 hnone]

/-! ## The head -/

theorem parseHead_of_line (hsteady : reader.Steady) (hline : IsLine line)
    (hunread : reader.unread = line ++ (httpLineSeperators ++ after)) :
    ∃ reader', reader'.Steady ∧ reader'.unread = after ∧
      (parseHead p reader).2 = (parseRequestLine p line).toExcept.bind fun requestLine =>
        (parseHeaders p reader').2.map fun headerFields => (requestLine, headerFields) := by
  obtain ⟨reader', hfound, hsteady', hafter⟩ := getUntilDelimiter_line hsteady hline hunread
  refine ⟨reader', hsteady', hafter, ?_⟩
  unfold parseHead parseHttp1RequestLine
  rw [hfound]
  dsimp only
  cases (parseRequestLine p line).toExcept with
  | error e => rfl
  | ok requestLine =>
    dsimp only
    cases parseHeaders p reader' with
    | mk reader'' result => cases result <;> rfl

/-- A request line that is accepted is the next line of the stream. -/
theorem parseHead_ok (hsteady : reader.Steady) {requestLine : HttpRequestLine Uri}
    {headerFields : List HttpHeaderField}
    (h : (parseHead p reader).2 = .ok (requestLine, headerFields)) :
    ∃ line after, IsLine line ∧ reader.unread = line ++ (httpLineSeperators ++ after) ∧
      parseRequestLine p line = .ok requestLine := by
  have hresult : (parseHttp1RequestLine p reader).2 = .ok requestLine := by
    unfold parseHead at h
    dsimp only at h
    cases hresult : (parseHttp1RequestLine p reader).2 with
    | ok requestLine' =>
      rw [hresult] at h
      cases hheaders : parseHeaders p (parseHttp1RequestLine p reader).1 with
      | mk reader' result =>
        simp only [HttpRequestLineResult.toExcept, hheaders] at h
        cases result with
        | error e => cases h
        | ok headerFields' =>
          cases h
          rfl
    | error | unsupportedHttpVersion | unsupportedMethod | uriError =>
      rw [hresult] at h
      cases h
  unfold parseHttp1RequestLine at hresult
  split at hresult
  · rename_i reader' line heq
    have hok := congrArg Prod.snd heq
    obtain ⟨hline, ⟨after, hunread⟩, -⟩ := getUntilDelimiter_ok hsteady (by decide) hok
    exact ⟨line, after, hline, hunread, hresult⟩
  · cases hresult

/-- The field that a field text becomes: blanks behind a value that is not empty stay. -/
def FieldText.parsed (field : FieldText) : HttpHeaderField :=
  ⟨field.name, if field.value = [] then [] else field.value ++ field.after⟩

/-- What of the head is read as it was meant: a request line that is one line, and no blanks behind
a value that is not empty. -/
structure HeadText.Clean (head : HeadText) : Prop where
  line : IsLine head.requestLine
  values : ∀ field ∈ head.fields, field.after = [] ∨ field.value = []

theorem FieldText.parsed_eq_field {field : FieldText} :
    field.parsed = field.field ↔ field.after = [] ∨ field.value = [] := by
  unfold FieldText.parsed FieldText.field
  rw [HttpHeaderField.mk.injEq]
  by_cases hvalue : field.value = []
  · simp [hvalue]
  · simp [hvalue]

/-- The blanks before a value go, and with an empty value also those behind it. -/
theorem FieldText.Valid.stripped {field : FieldText} (h : field.Valid blank) :
    (field.before ++ (field.value ++ field.after)).dropWhile (fun c => blank c) =
      if field.value = [] then [] else field.value ++ field.after := by
  have hbefore : ∀ c ∈ field.before, decide (blank c) = true := fun c hc =>
    decide_eq_true (h.before_blank c hc)
  have hafter : ∀ c ∈ field.after, decide (blank c) = true := fun c hc =>
    decide_eq_true (h.after_blank c hc)
  rw [List.dropWhile_append_of_pos hbefore]
  cases hvalue : field.value with
  | nil => rw [List.nil_append, if_pos rfl, List.dropWhile_eq_nil_iff.2 hafter]
  | cons c value =>
    have hfirst : ¬ blank c := h.starts c (by rw [hvalue]; rfl)
    rw [if_neg (List.cons_ne_nil c value), List.cons_append,
      List.dropWhile_cons_of_neg (by simpa using hfirst)]

omit [DecidablePred blank] in
theorem FieldText.Valid.colon_notMem {field : FieldText} (h : field.Valid blank) :
    0x3A ∉ field.name := fun hmem => absurd (h.token _ hmem) (by decide)

omit [DecidablePred blank] in
/-- A header line holds no carriage return. -/
theorem FieldText.Valid.isLine {field : FieldText} (h : field.Valid blank) :
    IsLine field.line := by
  apply isLine_of_not_mem
  have hname : 0x0D ∉ field.name := fun hmem => absurd (h.token _ hmem) (by decide)
  have hrest := h.noReturn
  unfold FieldText.line
  rw [List.mem_append, List.mem_cons]
  rintro (hmem | hsame | hmem)
  · exact hname hmem
  · cases hsame
  · exact hrest hmem

/-- Header lines become their fields, in order. -/
theorem filterMap_parseHeaderLine (hlaw : p.Lawful blank) {fields : List FieldText}
    (hfields : ∀ field ∈ fields, field.Valid blank) :
    (fields.map FieldText.line).filterMap (parseHeaderLine p) = fields.map FieldText.parsed := by
  rw [List.filterMap_map, ← List.filterMap_eq_map]
  apply List.filterMap_congr
  intro field hfield
  have hvalid := hfields field hfield
  simp only [Function.comp_apply]
  rw [parseHeaderLine_field hlaw hvalid.colon_notMem, hvalid.stripped]
  rfl

theorem HeadText.bytes_eq (head : HeadText) (rest : Bytes) :
    head.bytes ++ rest = head.requestLine ++ (httpLineSeperators ++
      (linesText (head.fields.map FieldText.line) ++ (httpLineSeperators ++ rest))) := by
  simp [HeadText.bytes, linesText]

/-- What a head with a request line in one piece is read as. -/
theorem parseHead_head (hlaw : p.Lawful blank) (hsteady : reader.Steady) {head : HeadText}
    {rest : Bytes} {uri : Uri} (hvalid : head.Valid blank)
    (hunread : reader.unread = head.bytes ++ rest)
    (huri : p.parseRequestUri head.target = some uri) (hline : IsLine head.requestLine) :
    (parseHead p reader).2 =
      .ok (⟨head.method, uri, head.version⟩, head.fields.map FieldText.parsed) := by
  rw [head.bytes_eq] at hunread
  obtain ⟨reader', hsteady', hafter, hhead⟩ := parseHead_of_line (p := p) hsteady hline hunread
  have hrequest : parseRequestLine p head.requestLine = .ok ⟨head.method, uri, head.version⟩ :=
    (parseRequestLine_ok_iff hlaw).2 ⟨head.target, hvalid.target, huri, rfl⟩
  have hlines : ∀ line ∈ head.fields.map FieldText.line, IsLine line := by
    intro line hmem
    obtain ⟨field, hfield, rfl⟩ := List.mem_map.1 hmem
    exact (hvalid.fields field hfield).isLine
  have hcolon : ∀ line ∈ head.fields.map FieldText.line, 0x3A ∈ line := by
    intro line hmem
    obtain ⟨field, hfield, rfl⟩ := List.mem_map.1 hmem
    exact List.mem_append_right _ List.mem_cons_self
  rw [hhead, hrequest, parseHeaders_ok hlaw hsteady' hlines hcolon hafter,
    filterMap_parseHeaderLine hlaw hvalid.fields]
  rfl

/-- What the parser makes of the heads that a stream may begin with. -/
structure HeadParsing (p : HeadParser Uri) (blank : UInt8 → Prop) (reader : BufferedReader) :
    Prop where
  /-- A head comes back as it was meant. -/
  reads : ∀ (head : HeadText) (rest : Bytes) (uri : Uri), head.Valid blank →
    reader.unread = head.bytes ++ rest → p.parseRequestUri head.target = some uri →
    (parseHead p reader).2 =
      .ok (⟨head.method, uri, head.version⟩, head.fields.map FieldText.field)
  /-- A request line without exactly two spaces is refused. -/
  spaces : ∀ line rest : Bytes, IsLine line →
    reader.unread = line ++ (httpLineSeperators ++ rest) → line.count 0x20 ≠ 2 →
    (parseHead p reader).2 = .error (.advanced "failed to parse request line")
  /-- A header line without a colon is refused. -/
  colon : ∀ (requestLine line : Bytes) (lines : List Bytes) (rest : Bytes), IsLine requestLine →
    (∀ line ∈ lines, IsLine line ∧ 0x3A ∈ line) → IsLine line → line ≠ [] → 0x3A ∉ line →
    reader.unread = linesText (requestLine :: lines) ++ (line ++ (httpLineSeperators ++ rest)) →
    ∃ e, (parseHead p reader).2 = .error e
  /-- A request that is delivered has the head that was read. -/
  delivered : ∀ (httpReader : HTTPReader) (request : Http1Request Uri),
    httpReader.bufferedReader = reader →
    (getHttpRequest p httpReader).2.request = some request →
    (parseHead p reader).2 = .ok (request.requestLine, request.headerFields)

/-- Refusals do not depend on what the stream begins with. -/
theorem HeadParsing.of_reads (hlaw : p.Lawful blank) (hsteady : reader.Steady)
    (h : ∀ (head : HeadText) (rest : Bytes) (uri : Uri), head.Valid blank →
      reader.unread = head.bytes ++ rest → p.parseRequestUri head.target = some uri →
      (parseHead p reader).2 =
        .ok (⟨head.method, uri, head.version⟩, head.fields.map FieldText.field)) :
    HeadParsing p blank reader where
  reads := h
  spaces line rest hline hunread hcount := by
    obtain ⟨reader', -, -, hhead⟩ := parseHead_of_line (p := p) hsteady hline hunread
    rw [hhead, parseRequestLine_spaces hlaw hcount]
    rfl
  colon requestLine line lines rest hrequest hlines hline hne hnone hunread := by
    have hunread : reader.unread = requestLine ++ (httpLineSeperators ++
        (linesText lines ++ (line ++ (httpLineSeperators ++ rest)))) := by
      simpa [linesText] using hunread
    obtain ⟨reader', hsteady', hafter, hhead⟩ := parseHead_of_line (p := p) hsteady hrequest hunread
    have herror := parseHeaders_error hlaw hsteady' (fun line hmem => (hlines line hmem).1)
      (fun line hmem => (hlines line hmem).2) hline hne hnone hafter
    rw [hhead, herror]
    cases (parseRequestLine p requestLine).toExcept with
    | error e => exact ⟨e, rfl⟩
    | ok requestLine => exact ⟨_, rfl⟩
  delivered := by
    rintro httpReader request rfl h
    exact getHttpRequest_head h

/-- **When a head comes back as it was meant**, however its bytes arrive: the line end is found
behind the request line, and there are no blanks behind a value that is not empty. A request line
without exactly two spaces and a header line without a colon are always refused, and only a head
that was read is delivered. -/
theorem headParsing_iff (hlaw : p.Lawful blank) (hsteady : reader.Steady) :
    HeadParsing p blank reader ↔ ∀ (head : HeadText) (rest : Bytes), head.Valid blank →
      reader.unread = head.bytes ++ rest →
      p.parseRequestUri head.target = none ∨ head.Clean := by
  constructor
  · intro h head rest hvalid hunread
    cases huri : p.parseRequestUri head.target with
    | none => exact .inl rfl
    | some uri =>
      right
      have hreads := h.reads head rest uri hvalid hunread huri
      -- the request line that was accepted is the one that was written
      have hline : IsLine head.requestLine := by
        obtain ⟨line, after, hline, hunread', hrequest⟩ := parseHead_ok hsteady hreads
        obtain ⟨target, htarget, -, rfl⟩ := (parseRequestLine_ok_iff hlaw).1 hrequest
        rw [hunread, head.bytes_eq] at hunread'
        have hsame := requestLine_unique htarget hvalid.target hunread'.symm
        rw [hsame] at hline
        exact hline
      rw [parseHead_head hlaw hsteady hvalid hunread huri hline] at hreads
      have hfields := (Prod.mk.inj (Except.ok.inj hreads)).2
      refine ⟨hline, ?_⟩
      intro field hfield
      exact FieldText.parsed_eq_field.1 (List.map_inj_left.1 hfields field hfield)
  · intro h
    apply HeadParsing.of_reads hlaw hsteady
    intro head rest uri hvalid hunread huri
    rcases h head rest hvalid hunread with hnone | hclean
    · rw [hnone] at huri
      cases huri
    · rw [parseHead_head hlaw hsteady hvalid hunread huri hclean.line]
      have hfields : head.fields.map FieldText.parsed = head.fields.map FieldText.field :=
        List.map_congr_left fun field hfield =>
          FieldText.parsed_eq_field.2 (hclean.values field hfield)
      rw [hfields]

omit [DecidablePred blank] in
/-- A stream without a blank before a carriage return, and with two spaces before the first one,
begins with heads that are read as they were meant only. -/
theorem clean_of_stream {head : HeadText} {stream rest : Bytes} (hvalid : head.Valid blank)
    (hstream : stream = head.bytes ++ rest)
    (hfirst : ∀ before after, stream = before ++ 0x0D :: after → 0x0D ∉ before →
      before.count 0x20 = 2)
    (hblank : ∀ c, blank c → ¬ [c, 0x0D] <:+: stream) : head.Clean where
  line := by
    apply isLine_of_not_mem
    intro hmem
    have hmethod : 0x0D ∉ methodText head.method := by cases head.method <;> decide
    have hversion : 0x0D ∉ versionText head.version := by cases head.version <;> decide
    have htarget : 0x0D ∈ head.target := by
      simpa [HeadText.requestLine, hmethod, hversion] using hmem
    obtain ⟨before, after, hsplit, hnot⟩ := List.eq_append_cons_of_mem htarget
    have hspaces : 0x20 ∉ before := fun hin =>
      hvalid.target (by rw [hsplit]; exact List.mem_append_left _ hin)
    have hcount := hfirst (methodText head.method ++ 0x20 :: before)
      (after ++ 0x20 :: versionText head.version ++ (httpLineSeperators ++
        (linesText (head.fields.map FieldText.line) ++ (httpLineSeperators ++ rest))))
      (by rw [hstream, head.bytes_eq, HeadText.requestLine, hsplit]; simp)
      (by simp [hmethod, hnot])
    rw [List.count_append, List.count_cons_self, List.count_eq_zero.2 hspaces,
      List.count_eq_zero.2 (space_notMem_methodText _)] at hcount
    cases hcount
  values field hfield := by
    rcases List.eq_nil_or_concat field.after with hnil | ⟨before, c, hlast⟩
    · exact .inl hnil
    · have hc : blank c := (hvalid.fields field hfield).after_blank c (by rw [hlast]; simp)
      -- the last blank of the line stands before its end
      have hline : [c, 0x0D] <:+: field.line ++ httpLineSeperators := by
        refine ⟨field.name ++ 0x3A :: (field.before ++ (field.value ++ before)), [0x0A], ?_⟩
        rw [FieldText.line, hlast]
        simp [httpLineSeperators]
      obtain ⟨first, last, hfields⟩ := List.append_of_mem hfield
      have hin : field.line ++ httpLineSeperators <:+: stream := by
        refine ⟨linesText (head.requestLine :: first.map FieldText.line),
          linesText (last.map FieldText.line) ++ (httpLineSeperators ++ rest), ?_⟩
        rw [hstream, HeadText.bytes, hfields]
        simp [linesText]
      exact absurd (hline.trans hin) (hblank c hc)

/-- A host with two spaces before it. -/
theorem headParsing_host : HeadParsing HeadParser.plain IsSpace
    (getBufferedReader [.bytes 0x47 (ascii "ET / HTTP/1.1\r\nHost:  a\r\n\r\n")]) := by
  rw [headParsing_iff HeadParser.plain_lawful (oneRead_steady _ _)]
  intro head rest hvalid hunread
  right
  refine clean_of_stream hvalid hunread ?_ ?_
  · intro before after hsplit hnot
    have hfirst : splitFirst [0x0D] (before ++ 0x0D :: after) = some (before, after) :=
      splitFirst_append_cons hnot
    rw [← hsplit] at hfirst
    have hline : splitFirst [0x0D] (getBufferedReader
        [.bytes 0x47 (ascii "ET / HTTP/1.1\r\nHost:  a\r\n\r\n")]).unread =
          some (ascii "GET / HTTP/1.1", ascii "\nHost:  a\r\n\r\n") := by decide +kernel
    rw [hline] at hfirst
    obtain ⟨rfl, -⟩ := Prod.mk.inj (Option.some.inj hfirst)
    decide
  · rintro c rfl
    decide +kernel

/-- A blank behind a length becomes a part of it. -/
theorem blankBehindLength_kept : ¬ HeadParsing HeadParser.plain IsSpace
    (getBufferedReader [.bytes 0x50 (ascii "OST / HTTP/1.1\r\nContent-Length: 5 \r\n\r\n")]) := by
  intro h
  have hfield :
      (FieldText.mk (ascii "Content-Length") [0x20] (ascii "5") [0x20]).Valid IsSpace := by
    have hname : (ascii "Content-Length").all (fun c => decide (IsTokenChar c)) = true := by decide
    refine ⟨by decide, ?_, ?_, ?_, ?_, ?_, by decide, by decide⟩
    · simpa using hname
    · simp [IsSpace]
    · simp [IsSpace]
    · intro c hc
      have hfirst : (ascii "5").head? = some 0x35 := by decide
      cases hfirst.symm.trans hc
      decide
    · intro c hc
      have hlast : (ascii "5").getLast? = some 0x35 := by decide
      cases hlast.symm.trans hc
      decide
  have hreads := h.reads
    ⟨.post, ascii "/", .v1Dot1, [⟨ascii "Content-Length", [0x20], ascii "5", [0x20]⟩]⟩ []
    (ascii "/") ⟨by decide, fun field hmem => List.mem_singleton.1 hmem ▸ hfield⟩ (by decide) rfl
  have hread : (parseHead HeadParser.plain (getBufferedReader
      [.bytes 0x50 (ascii "OST / HTTP/1.1\r\nContent-Length: 5 \r\n\r\n")])).2 =
        .ok (⟨.post, ascii "/", .v1Dot1⟩, [⟨ascii "Content-Length", ascii "5 "⟩]) := by
    decide +kernel
  rw [hread] at hreads
  revert hreads
  decide

end SimpleServer.Http
