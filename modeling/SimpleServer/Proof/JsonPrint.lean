import SimpleServer.Proof.JsonEscape

/-!
# What the JSON printer appends

* `print_array`, `print_object`: arrays and objects from the pieces that their parts give.
* `printed_shows`: whatever is printed has printable strings, and its bytes encode the surrogates
  of these strings.
-/

namespace SimpleServer.Json

variable {utf8 : Utf8proc} {order : EntryOrder} {formatNumber : ℚ → Bytes} {indentSize : ℕ}
  {bytes separator : Bytes} {start : Bool}

/-! ## Pieces -/

/-- Pieces with a separator in front of all but the first. -/
def separated (separator : Bytes) : Bool → List Bytes → Bytes
  | _, [] => []
  | start, piece :: pieces =>
    (if start then [] else separator) ++ (piece ++ separated separator false pieces)

theorem except_bind_ok {α β ε : Type} {result : Except ε α} {next : α → Except ε β} {out : β} :
    (result >>= next) = .ok out ↔ ∃ value, result = .ok value ∧ next value = .ok out := by
  cases result with
  | error error => simp [bind, Except.bind]
  | ok value => simp [bind, Except.bind]

/-- The loops end well exactly when every part does. -/
theorem appendSeparated_ok {parts : List (Except Fault Bytes)} :
    appendSeparated separator start parts = .ok bytes ↔
      ∃ pieces, parts = pieces.map .ok ∧ bytes = separated separator start pieces := by
  induction parts generalizing start bytes with
  | nil => simp [appendSeparated, separated, eq_comm]
  | cons part parts ih =>
    simp only [appendSeparated, except_bind_ok, Except.ok.injEq, ih]
    constructor
    · rintro ⟨piece, rfl, _, ⟨pieces, rfl, rfl⟩, rfl⟩
      exact ⟨piece :: pieces, rfl, rfl⟩
    · rintro ⟨_ | ⟨piece, pieces⟩, hparts, rfl⟩
      · cases hparts
      · obtain ⟨rfl, rfl⟩ := List.cons.inj hparts
        exact ⟨piece, rfl, _, ⟨pieces, rfl, rfl⟩, rfl⟩

theorem map_eq_map_ok {α : Type} {f : α → Except Fault Bytes} {items : List α}
    {pieces : List Bytes} :
    items.map f = pieces.map .ok ↔
      List.Forall₂ (fun piece item => f item = .ok piece) pieces items := by
  rw [← List.forall₂_eq_eq_eq, List.forall₂_map_left_iff, List.forall₂_map_right_iff]
  exact ⟨List.Forall₂.flip, List.Forall₂.flip⟩

theorem forall₂_imp_mem {α β : Type} {R S : α → β → Prop} {left : List α} {right : List β}
    (h : List.Forall₂ R left right) (himp : ∀ a, ∀ b ∈ right, R a b → S a b) :
    List.Forall₂ S left right := by
  induction h with
  | nil => exact .nil
  | cons hhead htail ih =>
    refine .cons (himp _ _ (List.mem_cons_self ..) hhead) (ih ?_)
    intro a b hb
    exact himp a b (List.mem_cons_of_mem _ hb)

/-- The text of an array. -/
theorem print_array {values : JsonArray} :
    jsonToStringVariantImpl utf8 order formatNumber indentSize (.array values) = .ok bytes ↔
      ∃ pieces, List.Forall₂ (fun piece value =>
          jsonToStringVariantImpl utf8 order formatNumber indentSize value = .ok piece)
          pieces values ∧
        bytes = startStr 0x5B indentSize ++
          (separated (separatorStr indentSize) true pieces ++ endStr 0x5D indentSize) := by
  rw [jsonToStringVariantImpl, jsonToStringArrayImpl, valuesToString_eq_map]
  simp only [except_bind_ok, appendSeparated_ok, map_eq_map_ok, Except.ok.injEq]
  constructor
  · rintro ⟨_, ⟨pieces, hpieces, rfl⟩, rfl⟩
    exact ⟨pieces, hpieces, rfl⟩
  · rintro ⟨pieces, hpieces, rfl⟩
    exact ⟨_, ⟨pieces, hpieces, rfl⟩, rfl⟩

/-- The text of an entry. -/
def EntryPrints (utf8 : Utf8proc) (order : EntryOrder) (formatNumber : ℚ → Bytes) (indentSize : ℕ)
    (piece : Bytes) (entry : JsonString × JsonValue) : Prop :=
  ∃ key value, jsonToStringStringImpl utf8 entry.1 = .ok key ∧
    jsonToStringVariantImpl utf8 order formatNumber indentSize entry.2 = .ok value ∧
    piece = key ++ (ascii ": " ++ value)

theorem jsonToStringEntry_ok {entry : JsonString × JsonValue} {piece : Bytes} :
    jsonToStringEntry utf8
        (entry.1, jsonToStringVariantImpl utf8 order formatNumber indentSize entry.2) = .ok piece ↔
      EntryPrints utf8 order formatNumber indentSize piece entry := by
  simp only [jsonToStringEntry, except_bind_ok, Except.ok.injEq, EntryPrints]
  constructor
  · rintro ⟨key, hkey, value, hvalue, rfl⟩
    exact ⟨key, value, hkey, hvalue, rfl⟩
  · rintro ⟨key, value, hkey, hvalue, rfl⟩
    exact ⟨key, hkey, value, hvalue, rfl⟩

/-- The iterator goes over the entries in some order. -/
theorem exists_iterate {α : Type} (order : EntryOrder) (f : JsonString × JsonValue → JsonString × α)
    (entries : JsonObject) : ∃ entries' : JsonObject, entries'.Perm entries ∧
      order.iterate (entries.map f) = entries'.map f := by
  have hpieces : List.Forall₂ (fun piece entry => piece = f entry) (entries.map f) entries := by
    rw [List.forall₂_map_left_iff, List.forall₂_same]
    exact fun _ _ => rfl
  obtain ⟨entries', hentries', hperm⟩ :=
    List.perm_comp_forall₂ (order.perm (entries.map f)) hpieces
  refine ⟨entries', hperm, ?_⟩
  rw [← List.forall₂_eq_eq_eq, List.forall₂_map_right_iff]
  exact hentries'

/-- The text of an object, its entries in the order of the iterator. -/
theorem print_object (utf8 : Utf8proc) (order : EntryOrder) (formatNumber : ℚ → Bytes)
    (indentSize : ℕ) (entries : JsonObject) :
    ∃ entries' : JsonObject, entries'.Perm entries ∧ ∀ bytes,
      jsonToStringVariantImpl utf8 order formatNumber indentSize (.object entries) = .ok bytes ↔
        ∃ pieces, List.Forall₂ (EntryPrints utf8 order formatNumber indentSize) pieces entries' ∧
          bytes = startStr 0x7B indentSize ++
            (separated (separatorStr indentSize) true pieces ++ endStr 0x7D indentSize) := by
  obtain ⟨entries', hperm, hiterate⟩ := exists_iterate order (fun entry =>
    (entry.1, jsonToStringVariantImpl utf8 order formatNumber indentSize entry.2)) entries
  refine ⟨entries', hperm, fun bytes => ?_⟩
  rw [jsonToStringVariantImpl, jsonToStringObjectImpl, entriesToString_eq_map, hiterate,
    List.map_map]
  simp only [except_bind_ok, appendSeparated_ok, map_eq_map_ok, Except.ok.injEq,
    Function.comp_apply, jsonToStringEntry_ok]
  constructor
  · rintro ⟨_, ⟨pieces, hpieces, rfl⟩, rfl⟩
    exact ⟨pieces, hpieces, rfl⟩
  · rintro ⟨pieces, hpieces, rfl⟩
    exact ⟨_, ⟨pieces, hpieces, rfl⟩, rfl⟩

/-! ## What the bytes encode -/

/-- The surrogates of a string. -/
def surrogatesOf (string : JsonString) (c : ℕ) : Prop := (c : ℤ) ∈ string ∧ Lib.IsSurrogate c

/-- The bytes are those of a value: its strings are printable, and their surrogates are encoded. -/
structure Shows (bytes : Bytes) (strings : List JsonString) : Prop where
  printable : ∀ string ∈ strings, Printable string
  spells : Lib.Spells bytes fun c => ∃ string ∈ strings, surrogatesOf string c

theorem Shows.append {bytes' : Bytes} {strings strings' : List JsonString}
    (h : Shows bytes strings) (h' : Shows bytes' strings') :
    Shows (bytes ++ bytes') (strings ++ strings') := by
  constructor
  · rw [List.forall_mem_append]
    exact ⟨h.printable, h'.printable⟩
  · apply (h.spells.append h'.spells).mono
    rintro c ⟨string, hstring, hc⟩
    rcases List.mem_append.1 hstring with hmem | hmem
    · exact Or.inl ⟨string, hmem, hc⟩
    · exact Or.inr ⟨string, hmem, hc⟩

theorem shows_ascii (h : ∀ byte ∈ bytes, byte < 0x80) : Shows bytes [] := by
  refine ⟨by simp, (Lib.isUtf8_ascii h).spells.mono ?_⟩
  rintro c ⟨string, hstring, -⟩
  cases hstring

/-- The same strings, each one at least once. -/
theorem Shows.subset {strings strings' : List JsonString} (h : Shows bytes strings)
    (hsubset : strings' ⊆ strings) : Shows bytes strings' := by
  refine ⟨fun string hstring => h.printable string (hsubset hstring), h.spells.mono ?_⟩
  rintro c ⟨string, hstring, hc⟩
  exact ⟨string, hsubset hstring, hc⟩

theorem spells_escapedBytes {codepoint : ℤ} (hrange : IsCodepoint codepoint) :
    Lib.Spells (escapedBytes codepoint) fun c => (c : ℤ) = codepoint ∧ Lib.IsSurrogate c := by
  cases h : shortEscape codepoint with
  | some kind =>
    have hkinds : ∀ kind : Escape, Lib.IsAscii [0x5C, kind.letter] ∧ kind.codepoint < 0x80 := by
      intro kind
      cases kind <;> decide
    have hascii : Lib.IsAscii (escapedBytes codepoint) := by
      rw [escapedBytes, h]
      exact (hkinds kind).1
    have hsmall : codepoint < 0x80 := by
      rw [← shortEscape_codepoint h]
      exact (hkinds kind).2
    apply hascii.isUtf8.spells.mono
    rintro c ⟨rfl, hc⟩
    unfold Lib.IsSurrogate at hc
    omega
  | none =>
    rw [escapedBytes, h]
    dsimp only
    rw [encodeByRange_eq hrange]
    apply (Lib.spells_codepoint codepoint.toNat).mono
    rintro c ⟨rfl, -⟩
    exact (Int.toNat_natCast c).symm

theorem spells_flatMap {string : JsonString} (hrange : ∀ c ∈ string, IsCodepoint c) :
    Lib.Spells (string.flatMap escapedBytes) (surrogatesOf string) := by
  induction string with
  | nil =>
    apply Lib.isUtf8_nil.spells.mono
    rintro c ⟨hmem, -⟩
    cases hmem
  | cons codepoint string ih =>
    rw [List.forall_mem_cons] at hrange
    rw [List.flatMap_cons]
    apply ((spells_escapedBytes hrange.1).append (ih hrange.2)).mono
    rintro c ⟨hmem, hc⟩
    rcases List.mem_cons.1 hmem with heq | hmem
    · exact Or.inl ⟨heq, hc⟩
    · exact Or.inr ⟨hmem, hc⟩

/-- What is printed for a string. -/
theorem shows_string (hutf8 : utf8.Prints) {string : JsonString}
    (hrange : ∀ c ∈ string, IsCodepoint c) (h : jsonToStringStringImpl utf8 string = .ok bytes) :
    Shows bytes [string] := by
  obtain ⟨hprintable, rfl⟩ := (jsonToStringStringImpl_ok hutf8 hrange).1 h
  have hquote : Lib.Spells [0x22] fun _ => False := (Lib.IsAscii.isUtf8 (by decide)).spells
  refine ⟨by simpa using hprintable, ?_⟩
  rw [← List.singleton_append]
  apply (hquote.append ((spells_flatMap hrange).append hquote)).mono
  rintro c ⟨string', hstring', hc⟩
  rw [List.mem_singleton.1 hstring'] at hc
  exact Or.inr (Or.inl hc)

/-! ## What the pieces encode -/

theorem shows_separated {α : Type} {strings : α → List JsonString}
    (hseparator : ∀ byte ∈ separator, byte < 0x80) {pieces : List Bytes} {items : List α}
    (h : List.Forall₂ (fun piece item => Shows piece (strings item)) pieces items) :
    Shows (separated separator start pieces) (items.flatMap strings) := by
  induction h generalizing start with
  | nil => exact shows_ascii (by simp [separated])
  | cons hpiece hmore ih =>
    have hfirst : Shows (if start = true then [] else separator) [] := by
      cases start with
      | true => exact shows_ascii (by simp)
      | false => exact shows_ascii hseparator
    exact hfirst.append (hpiece.append ih)

theorem separatorStr_ascii : ∀ byte ∈ separatorStr indentSize, byte < 0x80 := by
  unfold separatorStr
  split_ifs
  · exact Lib.isAscii_iff.1 (by decide)
  · exact Lib.isAscii_iff.1 (by decide)
  · intro byte hbyte
    rcases List.mem_cons.1 hbyte with rfl | hmem
    · decide
    · rw [List.eq_of_mem_replicate hmem]
      decide

/-- Brackets and pieces. -/
theorem shows_bracketed {strings : List JsonString} {opening closing : UInt8}
    (hopening : opening < 0x80) (hclosing : closing < 0x80) (h : Shows bytes strings) :
    Shows (startStr opening indentSize ++ (bytes ++ endStr closing indentSize)) strings := by
  have hstart : Shows (startStr opening indentSize) [] := by
    apply shows_ascii
    unfold startStr
    split_ifs <;> simp [hopening]
  have hend : Shows (endStr closing indentSize) [] := by
    apply shows_ascii
    unfold endStr
    split_ifs <;> simp [hclosing]
  have hall := hstart.append (h.append hend)
  rwa [List.append_nil] at hall

/-- **What is printed has printable strings, and its bytes encode their surrogates.** -/
theorem printed_shows (hutf8 : utf8.Prints) (value : JsonValue) :
    ∀ bytes, value.numbers = [] →
      (∀ string ∈ value.strings, ∀ c ∈ string, IsCodepoint c) →
      jsonToStringVariantImpl utf8 order formatNumber indentSize value = .ok bytes →
      Shows bytes value.strings := by
  induction value using JsonValue.induction with
  | object entries ih =>
    intro bytes hnumbers hrange h
    obtain ⟨entries', hperm, hprint⟩ :=
      print_object utf8 order formatNumber indentSize entries
    obtain ⟨pieces, hpieces, rfl⟩ := (hprint bytes).1 h
    rw [JsonValue.numbers, JsonObject.numbers_eq_nil] at hnumbers
    have hshows : List.Forall₂ (fun piece entry => Shows piece (entry.1 :: entry.2.strings))
        pieces entries' := by
      apply forall₂_imp_mem hpieces
      rintro piece entry hentry ⟨keyBytes, valueBytes, hkey, hvalue, rfl⟩
      have hmem := hperm.mem_iff.1 hentry
      have hstrings : ∀ string ∈ entry.1 :: entry.2.strings, ∀ c ∈ string, IsCodepoint c := by
        intro string hstring
        exact hrange string (JsonObject.mem_strings.2 ⟨entry, hmem, List.mem_cons.1 hstring⟩)
      rw [List.forall_mem_cons] at hstrings
      have hcolon : Shows (ascii ": ") [] := shows_ascii (Lib.isAscii_iff.1 (by decide))
      exact (shows_string hutf8 hstrings.1 hkey).append
        (hcolon.append (ih entry hmem _ (hnumbers entry hmem) hstrings.2 hvalue))
    apply (shows_bracketed (by decide) (by decide)
      (shows_separated separatorStr_ascii hshows)).subset
    intro string hstring
    obtain ⟨entry, hentry, hcases⟩ := JsonObject.mem_strings.1 hstring
    exact List.mem_flatMap.2 ⟨entry, hperm.mem_iff.2 hentry, List.mem_cons.2 hcases⟩
  | array values ih =>
    intro bytes hnumbers hrange h
    obtain ⟨pieces, hpieces, rfl⟩ := print_array.1 h
    rw [JsonValue.numbers, JsonArray.numbers_eq_nil] at hnumbers
    have hshows : List.Forall₂ (fun piece value => Shows piece value.strings) pieces values := by
      apply forall₂_imp_mem hpieces
      intro piece value hvalue hpiece
      apply ih value hvalue piece (hnumbers value hvalue) _ hpiece
      intro string hstring
      exact hrange string (JsonArray.mem_strings.2 ⟨value, hvalue, hstring⟩)
    apply (shows_bracketed (by decide) (by decide)
      (shows_separated separatorStr_ascii hshows)).subset
    intro string hstring
    exact List.mem_flatMap.2 (JsonArray.mem_strings.1 hstring)
  | number value =>
    intro bytes hnumbers
    cases hnumbers
  | string string =>
    intro bytes _ hrange h
    exact shows_string hutf8 (hrange string (List.mem_singleton_self string)) h
  | boolean value =>
    intro bytes _ _ h
    cases h
    apply shows_ascii
    cases value <;> exact Lib.isAscii_iff.1 (by decide)
  | null =>
    intro bytes _ _ h
    cases h
    exact shows_ascii (Lib.isAscii_iff.1 (by decide))

end SimpleServer.Json
