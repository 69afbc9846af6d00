import SimpleServer.Proof.JsonGrammar
import SimpleServer.Proof.JsonPrint

/-!
# Printing and parsing JSON values

* `exists_text`: a value with printable strings of scalar values is printed as a text of the
  grammar, for the same value.
* `roundTrips_iff`: the values that printing and parsing gives back.
-/

namespace SimpleServer.Json

variable {utf8 : Utf8proc} {order : EntryOrder} {formatNumber : ℚ → Bytes} {indentSize : ℕ}
  {reading : Reading}

/-! ## The texts that are printed -/

section Trees

variable (indentSize)

/-- The whitespace of `start_str`. -/
def openingOf : Structural := ⟨[], if indentSize > 4 then [.lineFeed] else []⟩

/-- The whitespace of `separator_str`. -/
def commaOf : Structural :=
  ⟨[], if indentSize = 0 then [.space] else if indentSize > 4 then [.lineFeed]
    else List.replicate indentSize .space⟩

/-- The whitespace of `end_str`. -/
def closingOf : Structural := ⟨if indentSize > 4 then [.lineFeed] else [], []⟩

def moreValuesOf : List ValueText → MoreValues
  | [] => .nil
  | text :: texts => .cons (commaOf indentSize) text (moreValuesOf texts)

/-- The text of an array with given values. -/
def arrayOf : List ValueText → ValueText
  | [] => .emptyArray (openingOf indentSize) (closingOf indentSize)
  | text :: texts =>
    .array (openingOf indentSize) text (moreValuesOf indentSize texts) (closingOf indentSize)

def moreMembersOf : List (StringText × ValueText) → MoreMembers
  | [] => .nil
  | (key, text) :: members =>
    .cons (commaOf indentSize) key ⟨[], [.space]⟩ text (moreMembersOf members)

/-- The text of an object with given members. -/
def objectOf : List (StringText × ValueText) → ValueText
  | [] => .emptyObject (openingOf indentSize) (closingOf indentSize)
  | (key, text) :: members =>
    .object (openingOf indentSize) key ⟨[], [.space]⟩ text (moreMembersOf indentSize members)
      (closingOf indentSize)

end Trees

theorem openingOf_bytes (bracket : UInt8) :
    (openingOf indentSize).bytes bracket = startStr bracket indentSize := by
  unfold openingOf startStr Structural.bytes
  split_ifs <;> rfl

theorem closingOf_bytes (bracket : UInt8) :
    (closingOf indentSize).bytes bracket = endStr bracket indentSize := by
  unfold closingOf endStr Structural.bytes
  split_ifs <;> rfl

theorem commaOf_bytes : (commaOf indentSize).bytes 0x2C = separatorStr indentSize := by
  unfold commaOf separatorStr Structural.bytes
  split_ifs
  · rfl
  · rfl
  · simp [spaces, Ws.byte]

/-- The bytes of a member. -/
def memberBytes (member : StringText × ValueText) : Bytes :=
  member.1.bytes ++ (ascii ": " ++ member.2.bytes)

theorem moreValuesOf_bytes (texts : List ValueText) : (moreValuesOf indentSize texts).bytes =
    separated (separatorStr indentSize) false (texts.map ValueText.bytes) := by
  induction texts with
  | nil => rfl
  | cons text texts ih =>
    rw [moreValuesOf, MoreValues.bytes, commaOf_bytes, ih]
    rfl

theorem arrayOf_bytes (texts : List ValueText) : (arrayOf indentSize texts).bytes =
    startStr 0x5B indentSize ++ (separated (separatorStr indentSize) true
      (texts.map ValueText.bytes) ++ endStr 0x5D indentSize) := by
  cases texts with
  | nil => rw [arrayOf, ValueText.bytes, openingOf_bytes, closingOf_bytes]; rfl
  | cons text texts =>
    rw [arrayOf, ValueText.bytes, openingOf_bytes, closingOf_bytes, moreValuesOf_bytes,
      List.map_cons, separated, if_pos rfl, List.nil_append, List.append_assoc]

theorem moreMembersOf_bytes (members : List (StringText × ValueText)) :
    (moreMembersOf indentSize members).bytes =
      separated (separatorStr indentSize) false (members.map memberBytes) := by
  induction members with
  | nil => rfl
  | cons member members ih =>
    rw [moreMembersOf, MoreMembers.bytes, commaOf_bytes, ih, List.map_cons, separated, memberBytes,
      List.append_assoc, List.append_assoc]
    rfl

theorem objectOf_bytes (members : List (StringText × ValueText)) :
    (objectOf indentSize members).bytes =
      startStr 0x7B indentSize ++ (separated (separatorStr indentSize) true
        (members.map memberBytes) ++ endStr 0x7D indentSize) := by
  cases members with
  | nil => rw [objectOf, ValueText.bytes, openingOf_bytes, closingOf_bytes]; rfl
  | cons member members =>
    rw [objectOf, ValueText.bytes, openingOf_bytes, closingOf_bytes, moreMembersOf_bytes,
      List.map_cons, separated, if_pos rfl, List.nil_append, memberBytes, List.append_assoc,
      List.append_assoc, List.append_assoc]
    rfl

theorem arrayOf_eval (texts : List ValueText) :
    (arrayOf indentSize texts).eval reading = .array (texts.map (ValueText.eval reading)) := by
  have hmore : ∀ texts : List ValueText,
      (moreValuesOf indentSize texts).eval reading = texts.map (ValueText.eval reading) := by
    intro texts
    induction texts with
    | nil => rfl
    | cons text texts ih => rw [moreValuesOf, MoreValues.eval, ih, List.map_cons]
  cases texts with
  | nil => rfl
  | cons text texts => rw [arrayOf, ValueText.eval, hmore, List.map_cons]

theorem objectOf_eval (members : List (StringText × ValueText)) :
    (objectOf indentSize members).eval reading =
      .object (members.map fun member => (reading.string member.1, member.2.eval reading)) := by
  have hmore : ∀ members : List (StringText × ValueText),
      (moreMembersOf indentSize members).eval reading =
        members.map fun member => (reading.string member.1, member.2.eval reading) := by
    intro members
    induction members with
    | nil => rfl
    | cons member members ih => rw [moreMembersOf, MoreMembers.eval, ih, List.map_cons]
  cases members with
  | nil => rfl
  | cons member members => rw [objectOf, ValueText.eval, hmore, List.map_cons]

theorem arrayOf_numbers {texts : List ValueText} (h : ∀ text ∈ texts, text.numbers = []) :
    (arrayOf indentSize texts).numbers = [] := by
  have hmore : ∀ texts : List ValueText, (∀ text ∈ texts, text.numbers = []) →
      (moreValuesOf indentSize texts).numbers = [] := by
    intro texts h
    induction texts with
    | nil => rfl
    | cons text texts ih =>
      rw [List.forall_mem_cons] at h
      rw [moreValuesOf, MoreValues.numbers, h.1, ih h.2, List.append_nil]
  cases texts with
  | nil => rfl
  | cons text texts =>
    rw [List.forall_mem_cons] at h
    rw [arrayOf, ValueText.numbers, h.1, hmore texts h.2, List.append_nil]

theorem objectOf_numbers {members : List (StringText × ValueText)}
    (h : ∀ member ∈ members, member.2.numbers = []) :
    (objectOf indentSize members).numbers = [] := by
  have hmore : ∀ members : List (StringText × ValueText),
      (∀ member ∈ members, member.2.numbers = []) →
        (moreMembersOf indentSize members).numbers = [] := by
    intro members h
    induction members with
    | nil => rfl
    | cons member members ih =>
      rw [List.forall_mem_cons] at h
      rw [moreMembersOf, MoreMembers.numbers, h.1, ih h.2, List.append_nil]
  cases members with
  | nil => rfl
  | cons member members =>
    rw [List.forall_mem_cons] at h
    rw [objectOf, ValueText.numbers, h.1, hmore members h.2, List.append_nil]

theorem arrayOf_distinctKeys {texts : List ValueText}
    (h : ∀ text ∈ texts, text.DistinctKeys reading) :
    (arrayOf indentSize texts).DistinctKeys reading := by
  have hmore : ∀ texts : List ValueText, (∀ text ∈ texts, text.DistinctKeys reading) →
      (moreValuesOf indentSize texts).DistinctKeys reading := by
    intro texts h
    induction texts with
    | nil => trivial
    | cons text texts ih =>
      rw [List.forall_mem_cons] at h
      exact ⟨h.1, ih h.2⟩
  cases texts with
  | nil => trivial
  | cons text texts =>
    rw [List.forall_mem_cons] at h
    exact ⟨h.1, hmore texts h.2⟩

theorem objectOf_distinctKeys {members : List (StringText × ValueText)}
    (hkeys : (members.map fun member => reading.string member.1).Nodup)
    (h : ∀ member ∈ members, member.2.DistinctKeys reading) :
    (objectOf indentSize members).DistinctKeys reading := by
  have hmoreKeys : ∀ members : List (StringText × ValueText),
      (moreMembersOf indentSize members).keys = members.map Prod.fst := by
    intro members
    induction members with
    | nil => rfl
    | cons member members ih => rw [moreMembersOf, MoreMembers.keys, ih, List.map_cons]
  have hmore : ∀ members : List (StringText × ValueText),
      (∀ member ∈ members, member.2.DistinctKeys reading) →
        (moreMembersOf indentSize members).DistinctKeys reading := by
    intro members h
    induction members with
    | nil => trivial
    | cons member members ih =>
      rw [List.forall_mem_cons] at h
      exact ⟨h.1, ih h.2⟩
  cases members with
  | nil => trivial
  | cons member members =>
    rw [List.forall_mem_cons] at h
    refine ⟨?_, h.1, hmore members h.2⟩
    rw [List.map_cons, hmoreKeys, List.map_map]
    exact hkeys

/-! ## What is printed for a value -/

/-- The text is printed for a value, and says the same value. -/
structure Written (utf8 : Utf8proc) (order : EntryOrder) (formatNumber : ℚ → Bytes)
    (indentSize : ℕ) (text : ValueText) (value : JsonValue) : Prop where
  prints : jsonToStringVariantImpl utf8 order formatNumber indentSize value = .ok text.bytes
  numbers : text.numbers = []
  distinct : text.DistinctKeys .code
  same : (text.eval .code).same value = true

/-- The member is printed for an entry. -/
structure MemberWritten (utf8 : Utf8proc) (order : EntryOrder) (formatNumber : ℚ → Bytes)
    (indentSize : ℕ) (member : StringText × ValueText) (entry : JsonString × JsonValue) : Prop where
  key : member.1.units = entry.1
  prints : jsonToStringStringImpl utf8 entry.1 = .ok member.1.bytes
  value : Written utf8 order formatNumber indentSize member.2 entry.2

theorem exists_forall₂ {α β : Type} {R : α → β → Prop} {right : List β}
    (h : ∀ b ∈ right, ∃ a, R a b) : ∃ left, List.Forall₂ R left right := by
  induction right with
  | nil => exact ⟨[], .nil⟩
  | cons b right ih =>
    rw [List.forall_mem_cons] at h
    obtain ⟨a, ha⟩ := h.1
    obtain ⟨left, hleft⟩ := ih h.2
    exact ⟨a :: left, .cons ha hleft⟩

theorem exists_of_forall₂ {α β : Type} {R : α → β → Prop} {left : List α} {right : List β}
    (h : List.Forall₂ R left right) : ∀ a ∈ left, ∃ b ∈ right, R a b := by
  induction h with
  | nil => simp
  | cons hhead htail ih =>
    rw [List.forall_mem_cons]
    refine ⟨⟨_, List.mem_cons_self .., hhead⟩, ?_⟩
    intro a ha
    obtain ⟨b, hb, hab⟩ := ih a ha
    exact ⟨b, List.mem_cons_of_mem _ hb, hab⟩

theorem written_array {texts : List ValueText} {values : JsonArray}
    (h : List.Forall₂ (Written utf8 order formatNumber indentSize) texts values) :
    Written utf8 order formatNumber indentSize (arrayOf indentSize texts) (.array values) := by
  constructor
  · rw [print_array, arrayOf_bytes]
    refine ⟨texts.map ValueText.bytes, ?_, rfl⟩
    rw [List.forall₂_map_left_iff]
    exact h.imp fun _ _ hwritten => hwritten.prints
  · apply arrayOf_numbers
    intro text htext
    obtain ⟨value, -, hwritten⟩ := exists_of_forall₂ h text htext
    exact hwritten.numbers
  · apply arrayOf_distinctKeys
    intro text htext
    obtain ⟨value, -, hwritten⟩ := exists_of_forall₂ h text htext
    exact hwritten.distinct
  · rw [arrayOf_eval, JsonValue.same, JsonArray.same_iff, List.forall₂_map_left_iff]
    exact h.imp fun _ _ hwritten => hwritten.same

theorem written_object {members : List (StringText × ValueText)} {entries entries' : JsonObject}
    (hkeys : entries.keys.Nodup) (hperm : entries'.Perm entries)
    (hprint : ∀ bytes, jsonToStringVariantImpl utf8 order formatNumber indentSize
        (.object entries) = .ok bytes ↔
      ∃ pieces, List.Forall₂ (EntryPrints utf8 order formatNumber indentSize) pieces entries' ∧
        bytes = startStr 0x7B indentSize ++
          (separated (separatorStr indentSize) true pieces ++ endStr 0x7D indentSize))
    (h : List.Forall₂ (MemberWritten utf8 order formatNumber indentSize) members entries') :
    Written utf8 order formatNumber indentSize (objectOf indentSize members)
      (.object entries) := by
  constructor
  · rw [hprint, objectOf_bytes]
    refine ⟨members.map memberBytes, ?_, rfl⟩
    rw [List.forall₂_map_left_iff]
    apply h.imp
    intro member entry hmember
    exact ⟨member.1.bytes, member.2.bytes, hmember.prints, hmember.value.prints, rfl⟩
  · apply objectOf_numbers
    intro member hmember
    obtain ⟨entry, -, hwritten⟩ := exists_of_forall₂ h member hmember
    exact hwritten.value.numbers
  · apply objectOf_distinctKeys
    · have hsame : (members.map fun member => Reading.code.string member.1) =
          entries'.map Prod.fst := by
        rw [← List.forall₂_eq_eq_eq, List.forall₂_map_left_iff, List.forall₂_map_right_iff]
        exact h.imp fun _ _ hmember => hmember.key
      rw [hsame]
      exact (hperm.map Prod.fst).nodup_iff.2 hkeys
    · intro member hmember
      obtain ⟨entry, -, hwritten⟩ := exists_of_forall₂ h member hmember
      exact hwritten.value.distinct
  · rw [objectOf_eval, JsonValue.same, Bool.and_eq_true, beq_iff_eq, JsonObject.same_iff]
    constructor
    · rw [List.length_map, h.length_eq, hperm.length_eq]
    · intro entry hentry
      obtain ⟨member, hmember, rfl⟩ := List.mem_map.1 hentry
      obtain ⟨⟨key, value⟩, hmem, hwritten⟩ := exists_of_forall₂ h member hmember
      refine ⟨value, ?_, hwritten.value.same⟩
      have hkey : Reading.code.string member.1 = key := hwritten.key
      rw [hkey]
      exact JsonObject.get_of_mem hkeys (hperm.mem_iff.1 hmem)

/-- **A value with printable strings of scalar values is printed as a text of the grammar.** -/
theorem exists_text (hutf8 : utf8.Prints) (order : EntryOrder) (formatNumber : ℚ → Bytes)
    (indentSize : ℕ) (value : JsonValue) :
    value.numbers = [] → value.DistinctKeys → (∀ string ∈ value.strings, Printable string) →
      (∀ string ∈ value.strings, ∀ c ∈ string, IsScalar c) →
      ∃ text, Written utf8 order formatNumber indentSize text value := by
  induction value using JsonValue.induction with
  | object entries ih =>
    rintro hnumbers ⟨hkeys, hdistinct⟩ hprintable hscalar
    rw [JsonValue.numbers, JsonObject.numbers_eq_nil] at hnumbers
    rw [JsonObject.distinctKeys_iff] at hdistinct
    obtain ⟨entries', hperm, hprint⟩ := print_object utf8 order formatNumber indentSize entries
    have hmembers : ∀ entry ∈ entries', ∃ member,
        MemberWritten utf8 order formatNumber indentSize member entry := by
      intro entry hentry
      have hmem := hperm.mem_iff.1 hentry
      have hstrings : ∀ string, string = entry.1 ∨ string ∈ entry.2.strings →
          string ∈ JsonObject.strings entries :=
        fun string hstring => JsonObject.mem_strings.2 ⟨entry, hmem, hstring⟩
      have hkey := hstrings entry.1 (Or.inl rfl)
      obtain ⟨text, htext⟩ := ih entry hmem (hnumbers entry hmem) (hdistinct entry hmem)
        (fun string hstring => hprintable string (hstrings string (Or.inr hstring)))
        (fun string hstring => hscalar string (hstrings string (Or.inr hstring)))
      obtain ⟨key, hunits, hbytes⟩ := exists_stringText (hscalar _ hkey) (hprintable _ hkey)
      refine ⟨(key, text), hunits, ?_, htext⟩
      rw [jsonToStringStringImpl_ok hutf8 fun c hc => (hscalar _ hkey c hc).1]
      exact ⟨hprintable _ hkey, hbytes⟩
    obtain ⟨members, hmembers⟩ := exists_forall₂ hmembers
    exact ⟨_, written_object hkeys hperm hprint hmembers⟩
  | array values ih =>
    intro hnumbers hdistinct hprintable hscalar
    rw [JsonValue.numbers, JsonArray.numbers_eq_nil] at hnumbers
    rw [JsonValue.DistinctKeys, JsonArray.distinctKeys_iff] at hdistinct
    have htexts : ∀ value ∈ values, ∃ text,
        Written utf8 order formatNumber indentSize text value := by
      intro value hvalue
      have hstrings : ∀ string ∈ value.strings, string ∈ JsonArray.strings values :=
        fun string hstring => JsonArray.mem_strings.2 ⟨value, hvalue, hstring⟩
      exact ih value hvalue (hnumbers value hvalue) (hdistinct value hvalue)
        (fun string hstring => hprintable string (hstrings string hstring))
        (fun string hstring => hscalar string (hstrings string hstring))
    obtain ⟨texts, htexts⟩ := exists_forall₂ htexts
    exact ⟨_, written_array htexts⟩
  | number value =>
    intro hnumbers
    cases hnumbers
  | string string =>
    intro _ _ hprintable hscalar
    have hmem : string ∈ (JsonValue.string string).strings := List.mem_singleton_self string
    obtain ⟨text, hunits, hbytes⟩ := exists_stringText (hscalar _ hmem) (hprintable _ hmem)
    refine ⟨.string text, ?_, rfl, trivial, beq_iff_eq.2 hunits⟩
    rw [jsonToStringVariantImpl, ValueText.bytes,
      jsonToStringStringImpl_ok hutf8 fun c hc => (hscalar _ hmem c hc).1]
    exact ⟨hprintable _ hmem, hbytes⟩
  | boolean value =>
    exact fun _ _ _ _ => ⟨.boolean value, rfl, rfl, trivial, beq_self_eq_true value⟩
  | null => exact fun _ _ _ _ => ⟨.null, rfl, rfl, trivial, rfl⟩

/-! ## Round trips -/

/-- Printing a value succeeds, and parsing what was printed gives the value back. -/
def RoundTrips (utf8 : Utf8proc) (order : EntryOrder) (formatNumber : ℚ → Bytes)
    (indentSize : ℕ) (value : JsonValue) : Prop :=
  ∃ bytes value',
    jsonValueToStringAdvanced utf8 order formatNumber indentSize value = .ok (some bytes) ∧
    jsonValueParseFromStr utf8 bytes = .ok (.ok value') ∧ value'.same value = true

theorem jsonValueToStringAdvanced_ok {value : JsonValue} {bytes : Bytes} :
    jsonValueToStringAdvanced utf8 order formatNumber indentSize value = .ok (some bytes) ↔
      jsonToStringVariantImpl utf8 order formatNumber indentSize value = .ok bytes ∧
        bytes ≠ [] := by
  simp only [jsonValueToStringAdvanced, except_bind_ok, Except.ok.injEq]
  constructor
  · rintro ⟨printed, hprinted, hsome⟩
    split_ifs at hsome with hlength
    cases hsome
    exact ⟨hprinted, fun hnil => hlength (by rw [hnil]; rfl)⟩
  · rintro ⟨hprinted, hne⟩
    refine ⟨bytes, hprinted, if_neg ?_⟩
    rwa [List.length_eq_zero_iff]

/-- A value whose strings are over the code points of Unicode, surrogates included, comes back
when its strings are printable and have no surrogates. -/
theorem roundTrips_of_codepoints (hdecodes : utf8.Decodes) (hprints : utf8.Prints)
    {value : JsonValue} (hnumbers : value.numbers = []) (hdistinct : value.DistinctKeys)
    (hrange : ∀ string ∈ value.strings, ∀ c ∈ string, IsCodepoint c) :
    RoundTrips utf8 order formatNumber indentSize value ↔
      (∀ string ∈ value.strings, Printable string) ∧
        ∀ string ∈ value.strings, ∀ c ∈ string, ¬ Lib.IsSurrogate c.toNat := by
  constructor
  · rintro ⟨bytes, value', hprinted, hparsed, -⟩
    have hshows := printed_shows hprints value bytes hnumbers hrange
      (jsonValueToStringAdvanced_ok.1 hprinted).1
    obtain ⟨text, hbytes, -⟩ := parse_sound hdecodes hparsed
    refine ⟨hshows.printable, ?_⟩
    intro string hstring c hc hsurrogate
    have hutf8 : Lib.IsUtf8 bytes := by
      rw [← hbytes]
      exact text.isUtf8
    have hcast : ((c.toNat : ℕ) : ℤ) = c := Int.toNat_of_nonneg (hrange string hstring c hc).1
    refine hshows.spells.not_surrogate hutf8 ⟨string, hstring, ?_, hsurrogate⟩ hsurrogate
    rw [hcast]
    exact hc
  · rintro ⟨hprintable, hscalar⟩
    obtain ⟨text, hwritten⟩ := exists_text hprints order formatNumber indentSize value hnumbers
      hdistinct hprintable fun string hstring c hc =>
        ⟨hrange string hstring c hc, hscalar string hstring c hc⟩
    have haccepted := ValueText.accepted_leaf hwritten.numbers hwritten.distinct
    have hbytes : (JsonText.mk [] text []).bytes = text.bytes := List.append_nil _
    have hne := text.append_ne_nil []
    rw [List.append_nil] at hne
    refine ⟨text.bytes, text.eval .code, jsonValueToStringAdvanced_ok.2 ⟨hwritten.prints, hne⟩, ?_,
      hwritten.same⟩
    rcases parse_text hdecodes ⟨[], text, []⟩ haccepted with hparsed | ⟨hnumbers, -⟩
    · rwa [hbytes] at hparsed
    · exact absurd hwritten.numbers hnumbers

/-- What a character of a string stands for is a code point. -/
theorem StringChar.unit_range (char : StringChar) : IsCodepoint char.unit := by
  cases char with
  | unescaped c hc =>
    have hlt := Lib.toNat_lt c
    refine ⟨?_, ?_⟩ <;> simp only [unit] <;> omega
  | escape kind => cases kind <;> exact ⟨by decide, by decide⟩
  | unicode d₁ d₂ d₃ d₄ =>
    have h₁ := d₁.value.isLt
    have h₂ := d₂.value.isLt
    have h₃ := d₃.value.isLt
    have h₄ := d₄.value.isLt
    refine ⟨?_, ?_⟩ <;> simp only [unit] <;> omega

/-- **The values that printing and parsing gives back**, and the accepted texts without numbers
whose value does. -/
theorem roundTrips_iff (hdecodes : utf8.Decodes) (hprints : utf8.Prints) (order : EntryOrder)
    (formatNumber : ℚ → Bytes) (indentSize : ℕ) :
    (∀ value : JsonValue, value.numbers = [] → value.DistinctKeys →
      (∀ string ∈ value.strings, ∀ c ∈ string, IsScalar c) →
      (RoundTrips utf8 order formatNumber indentSize value ↔
        ∀ string ∈ value.strings, Printable string)) ∧
    ∀ (data : Bytes) (value : JsonValue), jsonValueParseFromStr utf8 data = .ok (.ok value) →
      value.numbers = [] →
      (RoundTrips utf8 order formatNumber indentSize value ↔
        (∀ string ∈ value.strings, Printable string) ∧
          ∀ string ∈ value.strings, ∀ c ∈ string, ¬ Lib.IsSurrogate c.toNat) := by
  constructor
  · intro value hnumbers hdistinct hscalar
    rw [roundTrips_of_codepoints hdecodes hprints hnumbers hdistinct
      fun string hstring c hc => (hscalar string hstring c hc).1]
    exact and_iff_left fun string hstring c hc => (hscalar string hstring c hc).2
  · intro data value hparsed hnumbers
    obtain ⟨text, -, haccepted, rfl⟩ := parse_sound hdecodes hparsed
    apply roundTrips_of_codepoints hdecodes hprints hnumbers haccepted.2.eval
    rw [ValueText.eval_strings]
    intro string hstring c hc
    obtain ⟨stringText, -, rfl⟩ := List.mem_map.1 hstring
    obtain ⟨char, -, rfl⟩ := List.mem_map.1 hc
    exact char.unit_range

/-- The value `["a"]` and the text `"\n"` come back. -/
theorem roundTrips_array :
    RoundTrips .plain .insertion (fun _ => []) 2 (.array [.string [0x61]]) ∧
      RoundTrips .plain .insertion (fun _ => []) 2 (.string [0x0A]) := by
  obtain ⟨hvalues, htexts⟩ := roundTrips_iff Utf8proc.plain_decodes Utf8proc.plain_prints
    .insertion (fun _ => []) 2
  have hprintable : ∀ c : ℤ, c = 0x61 ∨ c = 0x0A → Printable [c] := by
    rintro c (rfl | rfl)
    · exact ⟨by simp, by simp [IsControl], by decide⟩
    · exact ⟨by simp, by simp [shortEscape], by decide⟩
  constructor
  · apply (hvalues (.array [.string [0x61]]) rfl ⟨trivial, trivial⟩ _).2
    · intro string hstring
      obtain rfl := List.mem_singleton.1 hstring
      exact hprintable _ (Or.inl rfl)
    · intro string hstring c hc
      obtain rfl := List.mem_singleton.1 hstring
      obtain rfl := List.mem_singleton.1 hc
      exact ⟨⟨by decide, by decide⟩, by decide⟩
  · apply (htexts (ascii "\"\\n\"") (.string [0x0A]) rfl rfl).2
    constructor
    · intro string hstring
      obtain rfl := List.mem_singleton.1 hstring
      exact hprintable _ (Or.inr rfl)
    · intro string hstring c hc
      obtain rfl := List.mem_singleton.1 hstring
      obtain rfl := List.mem_singleton.1 hc
      decide

/-- The empty string, a control character and an escaped surrogate do not come back. -/
theorem printing_fails : Utf8proc.plain.Decodes ∧ Utf8proc.plain.Prints ∧
    jsonValueToStringAdvanced .plain .insertion (fun _ => []) 0 (.string []) =
      .error (.oomAssert "error in formatting json string") ∧
    jsonValueToStringAdvanced .plain .insertion (fun _ => []) 0 (.string [0x01]) =
      .error .assertion ∧
    jsonValueParseFromStr .plain (ascii "\"\\ud800\"") = .ok (.ok (.string [0xD800])) ∧
    ¬ RoundTrips .plain .insertion (fun _ => []) 0 (.string []) ∧
    ¬ RoundTrips .plain .insertion (fun _ => []) 0 (.string [0x01]) ∧
    ¬ RoundTrips .plain .insertion (fun _ => []) 0 (.string [0xD800]) := by
  have hempty : jsonValueToStringAdvanced .plain .insertion (fun _ => []) 0 (.string []) =
      .error (.oomAssert "error in formatting json string") := rfl
  have hcontrol : jsonValueToStringAdvanced .plain .insertion (fun _ => []) 0 (.string [0x01]) =
      .error .assertion := rfl
  refine ⟨Utf8proc.plain_decodes, Utf8proc.plain_prints, hempty, hcontrol, rfl, ?_, ?_, ?_⟩
  · rintro ⟨bytes, value, hprinted, -⟩
    rw [hempty] at hprinted
    cases hprinted
  · rintro ⟨bytes, value, hprinted, -⟩
    rw [hcontrol] at hprinted
    cases hprinted
  · intro hround
    have hrange : ∀ string ∈ (JsonValue.string [0xD800]).strings, ∀ c ∈ string, IsCodepoint c := by
      intro string hstring c hc
      obtain rfl := List.mem_singleton.1 hstring
      obtain rfl := List.mem_singleton.1 hc
      exact ⟨by decide, by decide⟩
    have hdistinct : (JsonValue.string [0xD800]).DistinctKeys := trivial
    have hscalar := ((roundTrips_of_codepoints Utf8proc.plain_decodes Utf8proc.plain_prints rfl
      hdistinct hrange).1 hround).2
    exact hscalar [0xD800] (List.mem_singleton_self _) 0xD800 (List.mem_singleton_self _)
      (by decide)

end SimpleServer.Json
