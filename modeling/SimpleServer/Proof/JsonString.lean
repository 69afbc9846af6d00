import SimpleServer.Json.Grammar
import SimpleServer.Json.Parse

/-!
# The strings the parser reads

One round of the loop over a string takes one character of the grammar off the text.

* `parseString_reads`: the text of a string is read, to its units.
* `parseString_sound`, `parseString_no_fault`: what was read is the text of a string.
-/

namespace SimpleServer.Json

variable {utf8 : Utf8proc} {rest : Bytes} {loc : SourceLocation} {st st' : JsonParseState}
  {string : JsonString}

/-! ## The next code point -/

theorem utf8EncodeChar_length_pos (c : Char) : 0 < (String.utf8EncodeChar c).length := by
  rw [String.length_utf8EncodeChar]
  exact c.utf8Size_pos

theorem not_isEof_scalar (c : Char) (rest : Bytes) (loc : SourceLocation) :
    (⟨String.utf8EncodeChar c ++ rest, loc⟩ : JsonParseState).isEof = false := by
  have hpos := utf8EncodeChar_length_pos c
  rw [JsonParseState.isEof, List.isEmpty_eq_false_iff]
  intro hnil
  rw [(List.append_eq_nil_iff.1 hnil).1] at hpos
  simp at hpos

theorem utf8GetNextCharAndConsume_reads (hutf8 : utf8.Decodes) (c : Char) (rest : Bytes)
    (loc : SourceLocation) :
    Reads (utf8GetNextCharAndConsume utf8 ⟨String.utf8EncodeChar c ++ rest, loc⟩) c.toNat rest := by
  have hpos := utf8EncodeChar_length_pos c
  have hneg : ¬ ((String.utf8EncodeChar c).length : ℤ) < 0 := by omega
  have hzero : ¬ ((String.utf8EncodeChar c).length : ℤ) = 0 := by omega
  have hfits : ¬ (String.utf8EncodeChar c ++ rest).length < (String.utf8EncodeChar c).length := by
    rw [List.length_append]
    omega
  refine ⟨loc.advanceColBy (String.utf8EncodeChar c).length, ?_⟩
  simp only [utf8GetNextCharAndConsume, not_isEof_scalar, hutf8.scalar, hneg, hzero,
    Int.toNat_natCast, hfits, JsonParseState.skipBy, List.drop_left, if_false, Bool.false_eq_true]

/-- Without an error the bytes begin with a scalar value. -/
theorem exists_scalar (hutf8 : utf8.Decodes)
    (herror : ∀ error, utf8GetNextCharAndConsume utf8 st ≠ .error (.error error)) :
    ∃ (c : Char) (rest : Bytes), st.view = String.utf8EncodeChar c ++ rest := by
  by_contra hnone
  rw [utf8GetNextCharAndConsume] at herror
  by_cases heof : st.isEof = true
  · simp [heof, JsonParseState.errorAt] at herror
  have hle : (utf8.iterate st.view).1 ≤ 0 := by
    apply hutf8.malformed
    rintro c ⟨rest, hrest⟩
    exact hnone ⟨c, rest, hrest.symm⟩
  rcases hiterate : utf8.iterate st.view with ⟨result, codepoint⟩
  rw [hiterate] at hle
  rw [if_neg heof, hiterate] at herror
  dsimp only at herror hle
  split_ifs at herror with hneg hzero hfits
  · simp [JsonParseState.errorAt] at herror
  · simp [JsonParseState.errorAt] at herror
  · omega
  · omega

/-! ## Escapes -/

theorem hexValue_byte (digit : HexDigit) : hexValue digit.byte = some (digit.value : ℕ) := by
  have hall : ∀ (value : Fin 16) (upper : Bool),
      hexValue (HexDigit.byte ⟨value, upper⟩) = some (value : ℕ) := by decide
  exact hall digit.value digit.upper

/-- A digit at an offset from the first one of its kind. -/
theorem byte_eq_of_toNat {byte : UInt8} {start value : ℕ} (h : byte.toNat = start + value)
    (hsmall : start + value < 256) : byte = UInt8.ofNat (start + value) := by
  apply UInt8.toNat_inj.1
  rw [h, UInt8.toNat_ofNat']
  omega

theorem exists_hexDigit {byte : UInt8} {value : ℕ} (h : hexValue byte = some value) :
    ∃ digit : HexDigit, byte = digit.byte ∧ value = digit.value := by
  unfold hexValue at h
  simp only [UInt8.le_iff_toNat_le, UInt8.reduceToNat] at h
  split_ifs at h with hdigit hupper hlower
  · obtain rfl := Option.some.inj h
    refine ⟨⟨⟨byte.toNat - 0x30, by omega⟩, true⟩, ?_, rfl⟩
    rw [HexDigit.byte, if_pos (by rw [Fin.lt_def]; simp; omega)]
    exact byte_eq_of_toNat (by simp; omega) (by simp; omega)
  · obtain rfl := Option.some.inj h
    refine ⟨⟨⟨byte.toNat - 0x41 + 10, by omega⟩, true⟩, ?_, rfl⟩
    rw [HexDigit.byte, if_neg (by rw [Fin.lt_def]; simp), if_pos rfl]
    exact byte_eq_of_toNat (by simp; omega) (by simp; omega)
  · obtain rfl := Option.some.inj h
    refine ⟨⟨⟨byte.toNat - 0x61 + 10, by omega⟩, false⟩, ?_, rfl⟩
    rw [HexDigit.byte, if_neg (by rw [Fin.lt_def]; simp), if_neg (by simp)]
    exact byte_eq_of_toNat (by simp; omega) (by simp; omega)

theorem composeCodepoint_reads (d₁ d₂ d₃ d₄ : HexDigit) :
    composeCodepoint [d₁.byte, d₂.byte, d₃.byte, d₄.byte] 0 =
      some (StringChar.unit (.unicode d₁ d₂ d₃ d₄)) := by
  simp only [composeCodepoint, hexValue_byte, StringChar.unit, Option.some.injEq]
  push_cast
  ring

theorem parseEscape_kind (kind : Escape) (rest : Bytes) (loc : SourceLocation) :
    Reads (parseEscape ⟨kind.letter :: rest, loc⟩) kind.codepoint rest := by
  cases kind <;> exact ⟨loc.advanceColBy 1, rfl⟩

theorem parseUnicodeEscape_reads (d₁ d₂ d₃ d₄ : HexDigit) (rest : Bytes) (loc : SourceLocation) :
    Reads (parseUnicodeEscape ⟨d₁.byte :: d₂.byte :: d₃.byte :: d₄.byte :: rest, loc⟩)
      (StringChar.unit (.unicode d₁ d₂ d₃ d₄)) rest := by
  have henough : ¬ (d₁.byte :: d₂.byte :: d₃.byte :: d₄.byte :: rest).length < 4 := by
    simp only [List.length_cons]
    omega
  refine ⟨loc.advanceColBy 4, ?_⟩
  rw [parseUnicodeEscape, if_neg henough]
  simp only [List.take_succ_cons, List.take_zero, composeCodepoint_reads, JsonParseState.skipBy,
    List.drop_succ_cons, List.drop_zero]

theorem exists_hexDigits {bytes : Bytes} {composed result : Utf8Codepoint}
    (h : composeCodepoint bytes composed = some result) :
    ∀ byte ∈ bytes, ∃ digit : HexDigit, byte = digit.byte := by
  induction bytes generalizing composed with
  | nil => simp
  | cons byte bytes ih =>
    rw [composeCodepoint] at h
    cases hvalue : hexValue byte with
    | none => simp [hvalue] at h
    | some value =>
      obtain ⟨digit, hdigit, -⟩ := exists_hexDigit hvalue
      rw [hvalue] at h
      exact List.forall_mem_cons.2 ⟨⟨digit, hdigit⟩, ih h⟩

/-- Without an error the bytes go on with four hexadecimal digits. -/
theorem exists_unicode (herror : ∀ error, parseUnicodeEscape st ≠ .error (.error error)) :
    ∃ (d₁ d₂ d₃ d₄ : HexDigit) (rest : Bytes),
      st.view = d₁.byte :: d₂.byte :: d₃.byte :: d₄.byte :: rest := by
  obtain ⟨view, loc⟩ := st
  rw [parseUnicodeEscape] at herror
  split_ifs at herror with hshort
  · simp [JsonParseState.errorAt] at herror
  dsimp only at herror hshort
  cases hcompose : composeCodepoint (view.take 4) 0 with
  | none => simp [hcompose, JsonParseState.errorAt] at herror
  | some composed =>
    have hdigits := exists_hexDigits hcompose
    rcases view with _ | ⟨b₁, _ | ⟨b₂, _ | ⟨b₃, _ | ⟨b₄, rest⟩⟩⟩⟩
    · simp at hshort
    · simp at hshort
    · simp at hshort
    · simp at hshort
    · simp only [List.take_succ_cons, List.take_zero, List.forall_mem_cons] at hdigits
      obtain ⟨⟨d₁, rfl⟩, ⟨d₂, rfl⟩, ⟨d₃, rfl⟩, ⟨d₄, rfl⟩, -⟩ := hdigits
      exact ⟨d₁, d₂, d₃, d₄, rest, rfl⟩

/-- Without an error the bytes go on with an escape. -/
theorem exists_escape (herror : ∀ error, parseEscape st ≠ .error (.error error)) :
    ∃ (char : StringChar) (rest : Bytes), 0x5C :: st.view = char.bytes ++ rest ∧
      Reads (parseEscape st) char.unit rest := by
  obtain ⟨view, loc⟩ := st
  cases view with
  | nil => simp [parseEscape, JsonParseState.errorAt] at herror
  | cons letter rest =>
    have hkind : ∀ kind : Escape, letter = kind.letter →
        ∃ (char : StringChar) (rest' : Bytes), 0x5C :: letter :: rest = char.bytes ++ rest' ∧
          Reads (parseEscape ⟨letter :: rest, loc⟩) char.unit rest' := by
      rintro kind rfl
      exact ⟨.escape kind, rest, rfl, parseEscape_kind kind rest loc⟩
    by_cases hquote : letter = 0x22
    · exact hkind .quotationMark hquote
    by_cases hsolidus : letter = 0x5C
    · exact hkind .reverseSolidus hsolidus
    by_cases hslash : letter = 0x2F
    · exact hkind .solidus hslash
    by_cases hb : letter = 0x62
    · exact hkind .backspace hb
    by_cases hf : letter = 0x66
    · exact hkind .formFeed hf
    by_cases hn : letter = 0x6E
    · exact hkind .lineFeed hn
    by_cases hr : letter = 0x72
    · exact hkind .carriageReturn hr
    by_cases ht : letter = 0x74
    · exact hkind .tab ht
    by_cases hu : letter = 0x75
    · subst hu
      have hunicode : parseEscape ⟨0x75 :: rest, loc⟩ =
          parseUnicodeEscape ⟨rest, loc.advanceColBy 1⟩ := rfl
      rw [hunicode] at herror ⊢
      obtain ⟨d₁, d₂, d₃, d₄, rest', hrest⟩ := exists_unicode herror
      obtain rfl : rest = d₁.byte :: d₂.byte :: d₃.byte :: d₄.byte :: rest' := hrest
      exact ⟨.unicode d₁ d₂ d₃ d₄, rest', rfl, parseUnicodeEscape_reads d₁ d₂ d₃ d₄ rest' _⟩
    · simp [parseEscape, hquote, hsolidus, hslash, hb, hf, hn, hr, ht, hu,
        JsonParseState.errorAt] at herror

/-! ## The loop -/

/-- A character that is no escape is taken off at once. -/
theorem stringLoop_unescaped (hutf8 : utf8.Decodes) (fuel : ℕ) {c : Char} (hc : IsUnescaped c)
    (rest : Bytes) (loc : SourceLocation) (string : JsonString) :
    ∃ loc', stringLoop utf8 (fuel + 1) ⟨String.utf8EncodeChar c ++ rest, loc⟩ string =
      stringLoop utf8 fuel ⟨rest, loc'⟩ (string ++ [(c.toNat : ℤ)]) := by
  obtain ⟨hcontrol, hquote, hsolidus⟩ := hc
  have hneg : ¬ (c.toNat : ℤ) < 0 := by omega
  have hlow : ¬ (c.toNat : ℤ) < 0x20 := by omega
  have hquote' : ¬ (c.toNat : ℤ) = 0x22 := by omega
  have hsolidus' : ¬ (c.toNat : ℤ) = 0x5C := by omega
  have hmax : (c.toNat : ℤ) ≤ 0x10FFFF := by
    have hvalid : c.toNat < 0xD800 ∨ 0xDFFF < c.toNat ∧ c.toNat < 0x110000 := c.valid
    omega
  obtain ⟨loc', hread⟩ := (utf8GetNextCharAndConsume_reads hutf8 c rest loc).andThen _
  refine ⟨loc', ?_⟩
  rw [stringLoop, not_isEof_scalar, if_neg Bool.false_ne_true, hread, if_neg hneg, if_neg hlow,
    if_neg hquote', if_neg hsolidus', if_pos hmax]
  -- the three ranges of `unescaped` do the same
  split_ifs <;> rfl

/-- The closing quotation mark ends the loop. -/
theorem stringLoop_quote (hutf8 : utf8.Decodes) (fuel : ℕ) (rest : Bytes) (loc : SourceLocation)
    (string : JsonString) :
    Reads (stringLoop utf8 (fuel + 1) ⟨0x22 :: rest, loc⟩ string) string rest := by
  obtain ⟨loc', hread⟩ := (utf8GetNextCharAndConsume_reads hutf8 '"' rest loc).andThen _
  have hbytes : 0x22 :: rest = String.utf8EncodeChar '"' ++ rest := rfl
  refine ⟨loc', ?_⟩
  rw [hbytes, stringLoop, not_isEof_scalar, if_neg Bool.false_ne_true, hread]
  rfl

/-- Behind a reverse solidus the loop reads an escape. -/
theorem stringLoop_escape (hutf8 : utf8.Decodes) (fuel : ℕ) (rest : Bytes) (loc : SourceLocation)
    (string : JsonString) :
    ∃ loc', stringLoop utf8 (fuel + 1) ⟨0x5C :: rest, loc⟩ string =
      (parseEscape ⟨rest, loc'⟩).andThen fun codepoint st =>
        stringLoop utf8 fuel st (string ++ [codepoint]) := by
  obtain ⟨loc', hread⟩ := (utf8GetNextCharAndConsume_reads hutf8 '\\' rest loc).andThen _
  have hbytes : 0x5C :: rest = String.utf8EncodeChar '\\' ++ rest := rfl
  refine ⟨loc', ?_⟩
  rw [hbytes, stringLoop, not_isEof_scalar, if_neg Bool.false_ne_true, hread]
  rfl

/-- **One round of the loop takes one character of the grammar.** -/
theorem stringLoop_char (hutf8 : utf8.Decodes) (fuel : ℕ) (char : StringChar) (rest : Bytes)
    (loc : SourceLocation) (string : JsonString) :
    ∃ loc', stringLoop utf8 (fuel + 1) ⟨char.bytes ++ rest, loc⟩ string =
      stringLoop utf8 fuel ⟨rest, loc'⟩ (string ++ [char.unit]) := by
  have hescape : ∀ behind, char.bytes ++ rest = 0x5C :: behind →
      (∀ loc, Reads (parseEscape ⟨behind, loc⟩) char.unit rest) →
      ∃ loc', stringLoop utf8 (fuel + 1) ⟨char.bytes ++ rest, loc⟩ string =
        stringLoop utf8 fuel ⟨rest, loc'⟩ (string ++ [char.unit]) := by
    intro behind hbytes hreads
    obtain ⟨loc₁, hloop⟩ := stringLoop_escape hutf8 fuel behind loc string
    obtain ⟨loc₂, hread⟩ := (hreads loc₁).andThen
      fun codepoint st => stringLoop utf8 fuel st (string ++ [codepoint])
    exact ⟨loc₂, by rw [hbytes, hloop, hread]⟩
  cases char with
  | unescaped c hc => exact stringLoop_unescaped hutf8 fuel hc rest loc string
  | escape kind => exact hescape _ rfl fun loc => parseEscape_kind kind rest loc
  | unicode d₁ d₂ d₃ d₄ =>
    exact hescape _ rfl fun loc => parseUnicodeEscape_reads d₁ d₂ d₃ d₄ rest _

/-- Without an error the bytes begin with the closing mark or with a character. -/
theorem stringLoop_cases (hutf8 : utf8.Decodes) (fuel : ℕ)
    (herror : ∀ error, stringLoop utf8 (fuel + 1) st string ≠ .error (.error error)) :
    (∃ rest, st.view = 0x22 :: rest) ∨ ∃ (char : StringChar) (rest : Bytes),
      st.view = char.bytes ++ rest := by
  obtain ⟨view, loc⟩ := st
  have heof : (⟨view, loc⟩ : JsonParseState).isEof = false := by
    by_contra heof
    rw [Bool.not_eq_false] at heof
    simp [stringLoop, heof, JsonParseState.errorAt] at herror
  have hnext : ∀ error, utf8GetNextCharAndConsume utf8 ⟨view, loc⟩ ≠ .error (.error error) := by
    intro error hnext
    apply herror error
    rw [stringLoop, heof, if_neg Bool.false_ne_true, hnext]
    rfl
  obtain ⟨c, rest, hview⟩ := exists_scalar hutf8 hnext
  obtain rfl : view = String.utf8EncodeChar c ++ rest := hview
  by_cases hquote : c = '"'
  · exact Or.inl ⟨rest, by rw [hquote]; rfl⟩
  right
  by_cases hsolidus : c = '\\'
  · subst hsolidus
    obtain ⟨loc', hloop⟩ := stringLoop_escape hutf8 fuel rest loc string
    have hbytes : String.utf8EncodeChar '\\' ++ rest = 0x5C :: rest := rfl
    rw [hbytes, hloop] at herror
    have hescape : ∀ error, parseEscape ⟨rest, loc'⟩ ≠ .error (.error error) := by
      intro error hfail
      apply herror error
      rw [hfail]
      rfl
    obtain ⟨char, rest', hchar, -⟩ := exists_escape hescape
    exact ⟨char, rest', hchar⟩
  · refine ⟨.unescaped c ⟨?_, ?_, ?_⟩, rest, rfl⟩
    · by_contra hcontrol
      have hneg : ¬ (c.toNat : ℤ) < 0 := by omega
      have hlow : (c.toNat : ℤ) < 0x20 := by omega
      obtain ⟨loc', hread⟩ := (utf8GetNextCharAndConsume_reads hutf8 c rest loc).andThen _
      rw [stringLoop, heof, if_neg Bool.false_ne_true, hread, if_neg hneg, if_pos hlow] at herror
      simp [JsonParseState.errorAt] at herror
    · intro h
      exact hquote (Char.toNat_inj.1 h)
    · intro h
      exact hsolidus (Char.toNat_inj.1 h)

theorem StringText.tailBytes_cons (char : StringChar) (chars : List StringChar) :
    tailBytes (char :: chars) = char.bytes ++ tailBytes chars := by
  simp [tailBytes]

theorem StringChar.bytes_length_pos (char : StringChar) : 0 < char.bytes.length := by
  cases char with
  | unescaped c hc => exact utf8EncodeChar_length_pos c
  | escape kind => simp [bytes]
  | unicode d₁ d₂ d₃ d₄ => simp [bytes]

theorem stringLoop_reads (hutf8 : utf8.Decodes) (chars : List StringChar) (fuel : ℕ)
    (loc : SourceLocation) (string : JsonString)
    (hfuel : (StringText.tailBytes chars ++ rest).length < fuel) :
    Reads (stringLoop utf8 fuel ⟨StringText.tailBytes chars ++ rest, loc⟩ string)
      (string ++ chars.map StringChar.unit) rest := by
  induction chars generalizing fuel loc string with
  | nil =>
    obtain ⟨fuel, rfl⟩ : ∃ n, fuel = n + 1 := ⟨fuel - 1, by omega⟩
    rw [List.map_nil, List.append_nil]
    exact stringLoop_quote hutf8 fuel rest loc string
  | cons char chars ih =>
    obtain ⟨fuel, rfl⟩ : ∃ n, fuel = n + 1 := ⟨fuel - 1, by omega⟩
    have hpos := char.bytes_length_pos
    rw [StringText.tailBytes_cons, List.append_assoc] at hfuel ⊢
    rw [List.length_append] at hfuel
    obtain ⟨loc', hchar⟩ :=
      stringLoop_char hutf8 fuel char (StringText.tailBytes chars ++ rest) loc string
    rw [hchar]
    have hmore := ih fuel loc' (string ++ [char.unit]) (by omega)
    rwa [List.append_assoc, List.singleton_append, ← List.map_cons] at hmore

/-- With fuel for every byte the loop ends in an error or has read characters up to a closing
mark. -/
theorem stringLoop_total (hutf8 : utf8.Decodes) (fuel : ℕ) (st : JsonParseState)
    (string : JsonString) (hfuel : st.view.length < fuel) :
    (∃ error, stringLoop utf8 fuel st string = .error (.error error)) ∨
      ∃ (chars : List StringChar) (rest : Bytes), st.view = StringText.tailBytes chars ++ rest := by
  induction fuel generalizing st string with
  | zero => omega
  | succ fuel ih =>
    by_contra hnone
    rw [not_or] at hnone
    obtain ⟨herror, hnone⟩ := hnone
    obtain ⟨view, loc⟩ := st
    rcases stringLoop_cases hutf8 fuel (fun error h => herror ⟨error, h⟩) with
      ⟨rest, hview⟩ | ⟨char, rest, hview⟩
    · exact hnone ⟨[], rest, hview⟩
    · obtain rfl : view = char.bytes ++ rest := hview
      have hpos := char.bytes_length_pos
      obtain ⟨loc', hchar⟩ := stringLoop_char hutf8 fuel char rest loc string
      rw [hchar] at herror
      rw [List.length_append] at hfuel
      rcases ih ⟨rest, loc'⟩ (string ++ [char.unit]) (by dsimp only; omega) with
        hfail | ⟨chars, behind, hrest⟩
      · exact herror hfail
      · apply hnone
        refine ⟨char :: chars, behind, ?_⟩
        rw [StringText.tailBytes_cons, List.append_assoc]
        exact congrArg (char.bytes ++ ·) hrest

/-! ## Whole strings -/

/-- **The text of a string is read, to its units.** -/
theorem parseString_reads (hutf8 : utf8.Decodes) (text : StringText) (rest : Bytes)
    (loc : SourceLocation) :
    Reads (parseString utf8 ⟨text.bytes ++ rest, loc⟩) text.units rest := by
  have heof : (StringText.tailBytes text.chars ++ rest).isEmpty = false := by
    rw [List.isEmpty_eq_false_iff]
    simp [StringText.tailBytes]
  have hloop := stringLoop_reads hutf8 text.chars
    ((StringText.tailBytes text.chars ++ rest).length + 1) (loc.advanceColBy 1) []
    (Nat.lt_succ_self _)
  rw [List.nil_append] at hloop
  simp only [parseString, StringText.bytes, List.cons_append, ne_eq, not_true_eq_false, if_false,
    JsonParseState.skipBy, JsonParseState.isEof, List.drop_one, List.tail_cons, heof,
    Bool.false_eq_true]
  exact hloop

/-- Without an error the bytes begin with the text of a string. -/
theorem exists_string (hutf8 : utf8.Decodes)
    (herror : ∀ error, parseString utf8 st ≠ .error (.error error)) :
    ∃ (text : StringText) (rest : Bytes), st.view = text.bytes ++ rest := by
  obtain ⟨view, loc⟩ := st
  cases view with
  | nil => simp [parseString, JsonParseState.errorAt] at herror
  | cons next view =>
    by_cases hnext : next = 0x22
    · subst hnext
      by_cases heof : view.isEmpty = true
      · simp [parseString, JsonParseState.skipBy, JsonParseState.isEof, heof,
          JsonParseState.errorAt] at herror
      · have hparse : parseString utf8 ⟨0x22 :: view, loc⟩ =
            stringLoop utf8 (view.length + 1) ⟨view, loc.advanceColBy 1⟩ [] := by
          simp [parseString, JsonParseState.skipBy, JsonParseState.isEof, heof]
        rw [hparse] at herror
        rcases stringLoop_total hutf8 (view.length + 1) ⟨view, loc.advanceColBy 1⟩ []
          (Nat.lt_succ_self _) with ⟨error, hfail⟩ | ⟨chars, rest, hview⟩
        · exact absurd hfail (herror error)
        · obtain rfl : view = StringText.tailBytes chars ++ rest := hview
          exact ⟨⟨chars⟩, rest, rfl⟩
    · simp [parseString, hnext, JsonParseState.errorAt] at herror

/-- Without an error the text of a string is read. -/
theorem exists_string_read (hutf8 : utf8.Decodes)
    (herror : ∀ error, parseString utf8 st ≠ .error (.error error)) :
    ∃ (text : StringText) (st' : JsonParseState), st.view = text.bytes ++ st'.view ∧
      parseString utf8 st = .ok (text.units, st') := by
  obtain ⟨text, rest, hview⟩ := exists_string hutf8 herror
  obtain ⟨view, loc⟩ := st
  obtain rfl : view = text.bytes ++ rest := hview
  obtain ⟨loc', hread⟩ := parseString_reads hutf8 text rest loc
  exact ⟨text, ⟨rest, loc'⟩, rfl, hread⟩

/-- **What was read is the text of a string.** -/
theorem parseString_sound (hutf8 : utf8.Decodes) (h : parseString utf8 st = .ok (string, st')) :
    ∃ text : StringText, st.view = text.bytes ++ st'.view ∧ string = text.units := by
  have herror : ∀ error, parseString utf8 st ≠ .error (.error error) := by simp [h]
  obtain ⟨text, st₁, hview, hread⟩ := exists_string_read hutf8 herror
  rw [h] at hread
  cases hread
  exact ⟨text, hview, rfl⟩

theorem parseString_no_fault (hutf8 : utf8.Decodes) (st : JsonParseState) (fault : Fault) :
    parseString utf8 st ≠ .error (.fault fault) := by
  intro h
  have herror : ∀ error, parseString utf8 st ≠ .error (.error error) := by simp [h]
  obtain ⟨text, st', -, hread⟩ := exists_string_read hutf8 herror
  rw [h] at hread
  cases hread

end SimpleServer.Json
