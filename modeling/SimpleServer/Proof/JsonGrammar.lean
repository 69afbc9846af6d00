import SimpleServer.Proof.JsonComplete
import SimpleServer.Proof.JsonSound

/-!
# The JSON parser and the grammar

* `parse_fault_iff`, `parse_ok_iff`: when a whole text ends in a fault, and when it has a value.
* `grammarRight_iff`: the bytes on which the parser follows the grammar.
-/

namespace SimpleServer.Json

variable {utf8 : Utf8proc} {data : Bytes} {value : JsonValue}

/-- Behind whitespace, the parser ends in a fault. -/
def StopsText (data : Bytes) : Prop := ∃ ws view, data = spaces ws ++ view ∧ Stops view

theorem dropWs_text (text : JsonText) :
    dropWs text.bytes = dropWs (text.value.bytes ++ spaces text.after) :=
  dropWs_spaces text.before _

/-- Whitespace ends a number. -/
theorem endsNumber_spaces (ws : List Ws) : EndsNumber (spaces ws) := by
  cases ws with
  | nil => exact noHead_nil _
  | cons w ws =>
    apply endsNumber_cons
    cases w <;> rfl

theorem dropWs_eq_nil {view : Bytes} : dropWs view = [] ↔ ∃ ws, view = spaces ws := by
  constructor
  · intro hnil
    obtain ⟨ws, hws⟩ := exists_spaces view
    rw [hnil, List.append_nil] at hws
    exact ⟨ws, hws⟩
  · rintro ⟨ws, rfl⟩
    have hspaces := dropWs_spaces ws []
    rwa [List.append_nil] at hspaces

/-- The whole text is parsed from behind the whitespace at its beginning. -/
theorem exists_run (utf8 : Utf8proc) (data : Bytes) : ∃ st : JsonParseState,
    st.view = dropWs data ∧
    (∀ fault, parseValue utf8 (st.view.length + 1) st = .error (.fault fault) ↔
      jsonValueParseFromStr utf8 data = .error fault) ∧
    ∀ value, jsonValueParseFromStr utf8 data = .ok (.ok value) ↔
      ∃ st', parseValue utf8 (st.view.length + 1) st = .ok (value, st') ∧ dropWs st'.view = [] := by
  refine ⟨skipWs ⟨data, ⟨.string data, ⟨0, 0⟩⟩⟩, rfl, ?_⟩
  generalize hst : skipWs ⟨data, ⟨.string data, ⟨0, 0⟩⟩⟩ = st
  rcases hrun : parseValue utf8 (st.view.length + 1) st with (error | fault) | ⟨value, st'⟩
  · have hparse : jsonValueParseFromStr utf8 data = .ok (.error error) := by
      rw [jsonValueParseFromStr, jsonValueParseFromStrImpl, hst]
      simp only [hrun]
    simp [hparse]
  · have hparse : jsonValueParseFromStr utf8 data = .error fault := by
      rw [jsonValueParseFromStr, jsonValueParseFromStrImpl, hst]
      simp only [hrun]
    simp [hparse]
  · by_cases hnil : dropWs st'.view = []
    · have hparse : jsonValueParseFromStr utf8 data = .ok (.ok value) := by
        rw [jsonValueParseFromStr, jsonValueParseFromStrImpl, hst]
        simp [hrun, JsonParseState.isEof, hnil]
      simp [hparse, hnil]
    · have hparse : ∃ error, jsonValueParseFromStr utf8 data = .ok (.error error) := by
        rw [jsonValueParseFromStr, jsonValueParseFromStrImpl, hst]
        simp [hrun, JsonParseState.isEof, hnil]
      obtain ⟨error, hparse⟩ := hparse
      simp [hparse, hnil]

/-- **The parser ends in a fault exactly on the texts that stop it.** -/
theorem parse_fault_iff (hutf8 : utf8.Decodes) (data : Bytes) :
    (∃ fault, jsonValueParseFromStr utf8 data = .error fault) ↔ StopsText data := by
  obtain ⟨st, hview, hfaults, -⟩ := exists_run utf8 data
  constructor
  · rintro ⟨fault, hfault⟩
    obtain ⟨ws, hws⟩ := exists_spaces data
    have hstops := (parseValue_sound hutf8 _ st (Nat.lt_succ_self _)).fault fault
      ((hfaults fault).2 hfault)
    rw [hview] at hstops
    exact ⟨ws, dropWs data, hws, hstops⟩
  · rintro ⟨ws, view, rfl, hstops⟩
    rw [dropWs_spaces] at hview
    obtain ⟨fault, hfault⟩ :=
      hstops.faults hutf8 (st.view.length + 1) (by rw [hview]; omega) st hview
    exact ⟨fault, (hfaults fault).1 hfault⟩

/-- **A result is the value of a text that passes the checks.** -/
theorem parse_sound (hutf8 : utf8.Decodes)
    (h : jsonValueParseFromStr utf8 data = .ok (.ok value)) :
    ∃ text : JsonText, text.bytes = data ∧ text.value.Accepted ∧ value = text.value.eval .code := by
  obtain ⟨st, hview, -, hvalues⟩ := exists_run utf8 data
  obtain ⟨st', hrun, hnil⟩ := (hvalues value).1 h
  obtain ⟨before, hbefore⟩ := exists_spaces data
  obtain ⟨after, hafter⟩ := dropWs_eq_nil.1 hnil
  obtain ⟨text, htext, haccepted, hvalue⟩ :=
    (parseValue_sound hutf8 _ st (Nat.lt_succ_self _)).ok value st' hrun
  refine ⟨⟨before, text, after⟩, ?_, haccepted, hvalue⟩
  rw [JsonText.bytes, ← hafter, ← htext, hview]
  exact hbefore.symm

/-- **A text that passes the checks is read, or a number in it ends in a fault.** -/
theorem parse_text (hutf8 : utf8.Decodes) (text : JsonText) (haccepted : text.value.Accepted) :
    jsonValueParseFromStr utf8 text.bytes = .ok (.ok (text.value.eval .code)) ∨
      text.value.numbers ≠ [] ∧ ∃ fault, jsonValueParseFromStr utf8 text.bytes = .error fault := by
  obtain ⟨st, hview, hfaults, hvalues⟩ := exists_run utf8 text.bytes
  rw [dropWs_text] at hview
  rcases ValueText.reads hutf8 text.value haccepted _ (endsNumber_spaces text.after)
    (st.view.length + 1) (by rw [hview]; omega) st hview with
    ⟨st', hrun, hst'⟩ | ⟨hnumbers, fault, hfault⟩
  · left
    apply (hvalues _).2
    exact ⟨st', hrun, by rw [hst']; exact dropWs_eq_nil.2 ⟨text.after, rfl⟩⟩
  · exact Or.inr ⟨hnumbers, fault, (hfaults fault).1 hfault⟩

/-- **Where nothing stops it, the parser gives the values of the texts that pass its checks.** -/
theorem parse_ok_iff (hutf8 : utf8.Decodes) (hstops : ¬ StopsText data) (value : JsonValue) :
    jsonValueParseFromStr utf8 data = .ok (.ok value) ↔ ∃ text : JsonText, text.bytes = data ∧
      text.value.Accepted ∧ value = text.value.eval .code := by
  constructor
  · exact parse_sound hutf8
  · rintro ⟨text, rfl, haccepted, rfl⟩
    rcases parse_text hutf8 text haccepted with hparse | ⟨-, hfault⟩
    · exact hparse
    · exact absurd ((parse_fault_iff hutf8 text.bytes).1 hfault) hstops

/-! ## What the grammar says -/

/-- The bytes are a text of the grammar with distinct keys and parts that fit, for `value`. -/
structure JsonText.Writes (text : JsonText) (data : Bytes) (value : JsonValue) : Prop where
  bytes : text.bytes = data
  distinct : text.value.DistinctKeys .grammar
  fits : ∀ number ∈ text.value.numbers, number.Fits
  value : value = text.value.eval .grammar

/-- The parser gives a result, and that is ok with the values that the grammar assigns and with
no others. -/
def GrammarRight (utf8 : Utf8proc) (data : Bytes) : Prop :=
  ∃ result, jsonValueParseFromStr utf8 data = .ok result ∧
    ∀ value, result = .ok value ↔ ∃ text : JsonText, text.Writes data value

/-- The integer and exponent parts fit, and no string has a surrogate pair. -/
structure JsonText.Plain (text : JsonText) : Prop where
  fits : ∀ number ∈ text.value.numbers, number.Fits
  noPairs : ∀ string ∈ text.value.strings, NoPairs string.units

/-- Without numbers that are too large and without surrogate pairs, the code reads what the
grammar says. -/
theorem JsonText.Plain.agree {text : JsonText} (h : text.Plain) :
    Reading.code.Agree .grammar text.value.numbers text.value.strings := by
  constructor
  · intro number hnumber
    exact (NumberText.read_of_fits (h.fits number hnumber)).2
  · intro string hstring
    exact (joinSurrogates_eq_self.2 (h.noPairs string hstring)).symm

theorem JsonText.Plain.writes {text : JsonText} (h : text.Plain)
    (haccepted : text.value.Accepted) :
    text.Writes text.bytes (text.value.eval .code) := by
  refine ⟨rfl, haccepted.2.mono ?_, h.fits, text.value.eval_eq_iff.2 h.agree⟩
  intro key hkey key' hkey' heq
  rw [h.agree.2 key hkey, h.agree.2 key' hkey', heq]

/-- The parser takes every text of the grammar. -/
theorem JsonText.Writes.accepted {text : JsonText} (h : text.Writes data value) :
    text.value.Accepted := by
  refine ⟨fun number hnumber => (NumberText.read_of_fits (h.fits number hnumber)).1,
    h.distinct.mono ?_⟩
  intro key _ key' _ heq
  exact congrArg joinSurrogates heq

/-- The strings of a value have no surrogate pair when those of its text have none. -/
theorem noPairs_of_eval {text text' : ValueText}
    (h : text.eval .code = text'.eval .code)
    (hpairs : ∀ string ∈ text'.strings, NoPairs string.units) :
    ∀ string ∈ text.strings, NoPairs string.units := by
  have hstrings := congrArg JsonValue.strings h
  rw [ValueText.eval_strings, ValueText.eval_strings] at hstrings
  intro string hstring
  have hmem : string.units ∈ text'.strings.map StringText.units := by
    rw [Reading.code] at hstrings
    rw [← hstrings]
    exact List.mem_map_of_mem hstring
  obtain ⟨string', hstring', heq⟩ := List.mem_map.1 hmem
  rw [← heq]
  exact hpairs string' hstring'

/-- **The parser follows the grammar on the bytes that do not stop it, unless they are a text
with a number that is too large for its parts, or with a surrogate pair.** -/
theorem grammarRight_iff (hutf8 : utf8.Decodes) (data : Bytes) :
    GrammarRight utf8 data ↔ ¬ StopsText data ∧
      ((∃ text : JsonText, text.bytes = data ∧ text.value.Accepted) →
        ∃ text : JsonText, text.bytes = data ∧ text.value.Accepted ∧ text.Plain) := by
  constructor
  · rintro ⟨result, hresult, hright⟩
    have hstops : ¬ StopsText data := by
      intro hstops
      obtain ⟨fault, hfault⟩ := (parse_fault_iff hutf8 data).2 hstops
      rw [hresult] at hfault
      cases hfault
    refine ⟨hstops, ?_⟩
    rintro ⟨text, hbytes, haccepted⟩
    have hparse := (parse_ok_iff hutf8 hstops _).2 ⟨text, hbytes, haccepted, rfl⟩
    rw [hresult] at hparse
    obtain ⟨text', hwrites⟩ := (hright _).1 (Except.ok.inj hparse)
    have hparse' := (parse_ok_iff hutf8 hstops _).2 ⟨text', hwrites.bytes, hwrites.accepted, rfl⟩
    rw [hresult, Except.ok.injEq, Except.ok.inj hparse, JsonParseResult.ok.injEq] at hparse'
    have hagree := text'.value.eval_eq_iff.1 (hparse'.symm.trans hwrites.value)
    refine ⟨text', hwrites.bytes, hwrites.accepted, hwrites.fits, ?_⟩
    intro string hstring
    exact joinSurrogates_eq_self.1 (hagree.2 string hstring).symm
  · rintro ⟨hstops, hplain⟩
    have hfault : ∀ fault, jsonValueParseFromStr utf8 data ≠ .error fault := by
      intro fault hfault
      exact hstops ((parse_fault_iff hutf8 data).1 ⟨fault, hfault⟩)
    rcases hresult : jsonValueParseFromStr utf8 data with fault | result
    · exact absurd hresult (hfault fault)
    refine ⟨result, hresult, ?_⟩
    intro value
    have hvalue := parse_ok_iff hutf8 hstops value
    rw [hresult, Except.ok.injEq] at hvalue
    rw [hvalue]
    constructor
    · rintro ⟨text, hbytes, haccepted, rfl⟩
      obtain ⟨text', rfl, haccepted', hplain'⟩ := hplain ⟨text, hbytes, haccepted⟩
      have hparse := (parse_ok_iff hutf8 hstops _).2 ⟨text, hbytes, haccepted, rfl⟩
      have hparse' := (parse_ok_iff hutf8 hstops _).2 ⟨text', rfl, haccepted', rfl⟩
      rw [hparse, Except.ok.injEq, JsonParseResult.ok.injEq] at hparse'
      rw [hparse']
      exact ⟨text', hplain'.writes haccepted'⟩
    · rintro ⟨text, hwrites⟩
      obtain ⟨text', hbytes', haccepted', hplain'⟩ := hplain ⟨text, hwrites.bytes, hwrites.accepted⟩
      have hparse := (parse_ok_iff hutf8 hstops _).2 ⟨text, hwrites.bytes, hwrites.accepted, rfl⟩
      have hparse' := (parse_ok_iff hutf8 hstops _).2 ⟨text', hbytes', haccepted', rfl⟩
      rw [hparse, Except.ok.injEq, JsonParseResult.ok.injEq] at hparse'
      have hplain : text.Plain := ⟨hwrites.fits, noPairs_of_eval hparse' hplain'.noPairs⟩
      refine ⟨text, hwrites.bytes, hwrites.accepted, ?_⟩
      rw [hwrites.value]
      exact (text.value.eval_eq_iff.2 hplain.agree).symm

/-- The parser follows the grammar on a number and an escape in an array in an object. -/
theorem grammarRight_nested : Utf8proc.plain.Decodes ∧
    GrammarRight .plain (ascii "\x7b\"a\":[1.5,\"\\n\"]\x7d") := by
  refine ⟨Utf8proc.plain_decodes, (grammarRight_iff Utf8proc.plain_decodes _).2 ⟨?_, ?_⟩⟩
  · intro hstops
    obtain ⟨fault, hfault⟩ := (parse_fault_iff Utf8proc.plain_decodes _).2 hstops
    have hok : (jsonValueParseFromStr .plain
        (ascii "\x7b\"a\":[1.5,\"\\n\"]\x7d")).isOk = true := by decide +kernel
    rw [hfault] at hok
    cases hok
  · rintro -
    refine ⟨⟨[], .object ⟨[], []⟩ ⟨[.unescaped 'a' ⟨by decide, by decide, by decide⟩]⟩ ⟨[], []⟩
      (.array ⟨[], []⟩ (.number ⟨false, .digits 0 [], some ⟨5, []⟩, none⟩)
        (.cons ⟨[], []⟩ (.string ⟨[.escape .lineFeed]⟩) .nil) ⟨[], []⟩) .nil ⟨[], []⟩, []⟩,
      by decide +kernel, ⟨?_, ?_⟩, ?_, ?_⟩
    · simp [ValueText.numbers, MoreValues.numbers, MoreMembers.numbers, IntText.Unseen,
        WrapUnseen]
    · simp [ValueText.DistinctKeys, MoreValues.DistinctKeys, MoreMembers.DistinctKeys,
        MoreMembers.keys]
    · intro number hnumber
      simp only [ValueText.numbers, MoreValues.numbers, MoreMembers.numbers, List.append_nil,
        List.mem_singleton] at hnumber
      subst hnumber
      exact ⟨by decide, by simp⟩
    · intro string hstring
      simp only [ValueText.strings, MoreValues.strings, MoreMembers.strings, List.append_nil,
        List.nil_append, List.mem_pair] at hstring
      rcases hstring with rfl | rfl
      · exact List.isChain_singleton _
      · exact List.isChain_singleton _

/-- Digits and nothing else are an integer part. -/
theorem bytes_of_digits {number : NumberText} {text : JsonText}
    (hvalue : text.value = .number number)
    (hdigits : ∀ byte ∈ text.bytes, 0x30 ≤ byte ∧ byte ≤ 0x39) :
    text.bytes = number.int.bytes := by
  obtain ⟨before, value, after⟩ := text
  obtain rfl : value = .number number := hvalue
  obtain ⟨minus, int, frac, exp⟩ := number
  simp only [JsonText.bytes, ValueText.bytes, NumberText.bytes, List.mem_append] at hdigits
  have hspaces : ∀ ws : List Ws, (∀ byte ∈ spaces ws, 0x30 ≤ byte ∧ byte ≤ 0x39) → ws = [] := by
    intro ws hws
    cases ws with
    | nil => rfl
    | cons w ws =>
      have hbyte := hws w.byte (by simp [spaces])
      cases w <;> exact absurd hbyte (by decide)
  obtain rfl := hspaces before fun byte hbyte => hdigits byte (.inl hbyte)
  obtain rfl := hspaces after fun byte hbyte => hdigits byte (.inr (.inr hbyte))
  cases minus with
  | true => exact absurd (hdigits 0x2D (by simp)) (by decide)
  | false =>
    cases frac with
    | some frac => exact absurd (hdigits 0x2E (by simp [FracText.bytes])) (by decide)
    | none =>
      cases exp with
      | some exp =>
        obtain ⟨upper, sign, first, more⟩ := exp
        cases upper with
        | true => exact absurd (hdigits 0x45 (by simp [ExpText.bytes])) (by decide)
        | false => exact absurd (hdigits 0x65 (by simp [ExpText.bytes])) (by decide)
      | none => simp [JsonText.bytes, ValueText.bytes, NumberText.bytes, spaces]

/-- An exponent directly behind the integer part, inside an array, fails an assertion; and an
integer that does not fit is read as another number. -/
theorem numbers_misread : Utf8proc.plain.Decodes ∧
    (jsonValueParseFromStr .plain (ascii "[1e5]") = .error .assertion ∧
      ¬ GrammarRight .plain (ascii "[1e5]")) ∧
    jsonValueParseFromStr .plain (ascii "30000000000000000000") =
        .ok (.ok (.number 11553255926290448384)) ∧
      ¬ GrammarRight .plain (ascii "30000000000000000000") := by
  have hparse : jsonValueParseFromStr .plain (ascii "[1e5]") = .error .assertion := by rfl
  have hlarge : jsonValueParseFromStr .plain (ascii "30000000000000000000") =
      .ok (.ok (.number 11553255926290448384)) := by rfl
  refine ⟨Utf8proc.plain_decodes, ⟨hparse, ?_⟩, hlarge, ?_⟩
  · rintro ⟨result, hresult, -⟩
    rw [hparse] at hresult
    cases hresult
  · rintro ⟨result, hresult, hright⟩
    rw [hlarge] at hresult
    obtain ⟨text, hbytes, -, hfits, hvalue⟩ := (hright _).1 (Except.ok.inj hresult).symm
    cases htext : text.value with
    | number number =>
      have hdigits : ∀ byte ∈ ascii "30000000000000000000",
          (0x30 : UInt8) ≤ byte ∧ byte ≤ 0x39 := by decide +kernel
      have hint := bytes_of_digits htext (hbytes ▸ hdigits)
      have hless := (hfits number (by rw [htext]; exact List.mem_singleton_self _)).int
      rw [hbytes] at hint
      cases hnumber : number.int with
      | zero =>
        rw [hnumber] at hint
        exact absurd hint (by decide)
      | digits first more =>
        have hdata : ascii "30000000000000000000" = digitBytes (3 :: List.replicate 19 0) := by
          decide
        have hsame : digitBytes (first.succ :: more) = digitBytes (3 :: List.replicate 19 0) := by
          rw [← hdata, hint, hnumber]
          rfl
        have hinjective : Function.Injective digitByte := by decide
        obtain ⟨hfirst, rfl⟩ := List.cons.inj (List.map_injective_iff.2 hinjective hsame)
        rw [hnumber, IntText.value, hfirst] at hless
        exact absurd hless (by decide)
    | _ =>
      rw [htext] at hvalue
      cases hvalue

end SimpleServer.Json
