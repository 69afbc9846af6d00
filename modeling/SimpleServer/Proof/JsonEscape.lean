import SimpleServer.Json.Grammar
import SimpleServer.Json.Print

/-!
# How the JSON printer writes strings

* `jsonToStringStringImpl_ok`: the strings that are printed, and their bytes.
* `exists_stringText`: the bytes of a string of scalar values follow the grammar.
-/

namespace SimpleServer.Json

variable {utf8 : Utf8proc} {codepoint : ℤ} {string : JsonString} {bytes : Bytes}

/-- A code point of Unicode, surrogates included. -/
def IsCodepoint (codepoint : ℤ) : Prop := 0 ≤ codepoint ∧ codepoint < 0x110000

/-- A code point of Unicode that is no surrogate. -/
def IsScalar (codepoint : ℤ) : Prop :=
  IsCodepoint codepoint ∧ ¬ Lib.IsSurrogate codepoint.toNat

/-- The escape of two characters for a code point that needs one. -/
def shortEscape (codepoint : ℤ) : Option Escape :=
  if codepoint = 0x22 then some .quotationMark
  else if codepoint = 0x5C then some .reverseSolidus
  else if codepoint = 0x08 then some .backspace
  else if codepoint = 0x0C then some .formFeed
  else if codepoint = 0x0A then some .lineFeed
  else if codepoint = 0x0D then some .carriageReturn
  else if codepoint = 0x09 then some .tab
  else none

/-- The bytes of a code point in a printed string. -/
def escapedBytes (codepoint : ℤ) : Bytes :=
  match shortEscape codepoint with
  | some kind => [0x5C, kind.letter]
  | none => encodeByRange codepoint

/-- The number of these bytes. -/
def escapedSize (codepoint : ℤ) : ℕ :=
  if (shortEscape codepoint).isSome then 2
  else if codepoint < 0x80 then 1
  else if codepoint < 0x800 then 2
  else if codepoint < 0x10000 then 3
  else 4

/-- The strings that are printed: not empty, without control characters that have no short
escape, and short enough for the `int` of `snprintf`. -/
structure Printable (string : JsonString) : Prop where
  nonempty : string ≠ []
  controls : ∀ codepoint ∈ string, IsControl codepoint → (shortEscape codepoint).isSome
  short : (string.map escapedSize).sum + 3 < 2 ^ 31

/-! ## One code point -/

theorem shortEscape_codepoint {kind : Escape} (h : shortEscape codepoint = some kind) :
    kind.codepoint = codepoint := by
  unfold shortEscape at h
  split_ifs at h with h₁ h₂ h₃ h₄ h₅ h₆ h₇ <;> cases h
  · exact h₁.symm
  · exact h₂.symm
  · exact h₃.symm
  · exact h₄.symm
  · exact h₅.symm
  · exact h₆.symm
  · exact h₇.symm

/-- A code point with a short escape is escaped by it. -/
theorem escape_short {kind : Escape} (h : shortEscape codepoint = some kind) :
    jsonImplNeedsEscaping utf8 codepoint = true ∧
      jsonImplEscapeCharInto codepoint = .ok (escapedBytes codepoint) := by
  have hcodepoint := shortEscape_codepoint h
  rw [escapedBytes, h]
  cases kind with
  | solidus =>
    obtain rfl : 0x2F = codepoint := hcodepoint
    cases h
  | _ =>
    subst hcodepoint
    exact ⟨rfl, rfl⟩

theorem not_short (h : shortEscape codepoint = none) :
    ¬ (codepoint = 0x22 ∨ codepoint = 0x5C) ∧ codepoint ≠ 0x08 ∧ codepoint ≠ 0x0C ∧
      codepoint ≠ 0x0A ∧ codepoint ≠ 0x0D ∧ codepoint ≠ 0x09 := by
  unfold shortEscape at h
  split_ifs at h
  tauto

/-- Without a short escape, exactly the control characters are escaped. -/
theorem needsEscaping_iff (hutf8 : utf8.Prints) (hrange : 0 ≤ codepoint)
    (h : shortEscape codepoint = none) :
    jsonImplNeedsEscaping utf8 codepoint = true ↔ IsControl codepoint := by
  obtain ⟨hquote, hshort⟩ := not_short h
  unfold jsonImplNeedsEscaping
  rw [if_neg hquote]
  by_cases hsolidus : codepoint = 0x2F
  · have hcontrol : ¬ IsControl 0x2F := by decide
    simp [hsolidus, hcontrol]
  · rw [if_neg hsolidus, if_neg (by tauto)]
    exact hutf8.isControl codepoint hrange

/-- A control character without a short escape fails the assertion. -/
theorem escape_control (h : shortEscape codepoint = none) (hcontrol : IsControl codepoint) :
    jsonImplEscapeCharInto codepoint = .error .assertion := by
  obtain ⟨hquote, hshort⟩ := not_short h
  have hsmall : codepoint ≤ 0x9F ∧ codepoint ≠ 0x2F := by
    unfold IsControl at hcontrol
    omega
  unfold jsonImplEscapeCharInto
  rw [if_neg (by tauto), if_neg hshort.1, if_neg hshort.2.1, if_neg hshort.2.2.1,
    if_neg hshort.2.2.2.1, if_neg hshort.2.2.2.2, if_neg (not_lt.2 (hsmall.1.trans (by decide)))]

theorem encodeByRange_eq (hrange : IsCodepoint codepoint) :
    encodeByRange codepoint = Lib.encodeCodepoint codepoint.toNat :=
  if_neg (not_lt.2 hrange.1)

theorem escapedBytes_length (hrange : IsCodepoint codepoint) :
    (escapedBytes codepoint).length = escapedSize codepoint := by
  unfold escapedBytes escapedSize
  cases h : shortEscape codepoint with
  | some kind => rfl
  | none =>
    obtain ⟨hlow, hhigh⟩ := hrange
    obtain ⟨n, rfl⟩ := Int.eq_ofNat_of_zero_le hlow
    rw [encodeByRange_eq ⟨hlow, hhigh⟩, Int.toNat_natCast, Lib.encodeCodepoint]
    simp only [Option.isSome_none, Bool.false_eq_true, if_false]
    split_ifs <;> first | rfl | omega

/-! ## Strings -/

/-- A character with an escape, or without a need for one, is appended. -/
theorem normalizeLoop_cons (hutf8 : utf8.Prints) (hrange : IsCodepoint codepoint)
    (hcontrol : IsControl codepoint → (shortEscape codepoint).isSome) (buffer : Bytes) :
    normalizeLoop utf8 (codepoint :: string) buffer =
      normalizeLoop utf8 string (buffer ++ escapedBytes codepoint) := by
  rw [normalizeLoop]
  cases h : shortEscape codepoint with
  | some kind =>
    obtain ⟨hneeds, hescape⟩ : jsonImplNeedsEscaping utf8 codepoint = true ∧ _ := escape_short h
    rw [if_pos hneeds, hescape]
  | none =>
    have hnot : ¬ IsControl codepoint := by
      intro hyes
      have hsome := hcontrol hyes
      rw [h] at hsome
      cases hsome
    have hbytes : utf8.encodeChar codepoint = escapedBytes codepoint := by
      rw [hutf8.encodeChar, escapedBytes, h]
    have hlength : (escapedBytes codepoint).length ≠ 0 := by
      have hsize : codepoint.toNat < 0x110000 := by
        obtain ⟨hlow, hhigh⟩ := hrange
        omega
      rw [escapedBytes, h]
      dsimp only
      rw [encodeByRange_eq hrange, Ne, List.length_eq_zero_iff]
      exact Lib.encodeCodepoint_ne_nil hsize
    rw [if_neg (by rw [needsEscaping_iff hutf8 hrange.1 h]; exact hnot), hbytes]
    dsimp only
    rw [if_neg hlength]

theorem normalizeLoop_ok (hutf8 : utf8.Prints) (hrange : ∀ c ∈ string, IsCodepoint c)
    (hcontrols : ∀ c ∈ string, IsControl c → (shortEscape c).isSome) (buffer : Bytes) :
    normalizeLoop utf8 string buffer = .ok (some (buffer ++ string.flatMap escapedBytes)) := by
  induction string generalizing buffer with
  | nil => simp [normalizeLoop]
  | cons c string ih =>
    rw [List.forall_mem_cons] at hrange hcontrols
    rw [normalizeLoop_cons hutf8 hrange.1 hcontrols.1, ih hrange.2 hcontrols.2, List.flatMap_cons,
      List.append_assoc]

/-- A control character without a short escape ends the program. -/
theorem normalizeLoop_control (hutf8 : utf8.Prints) (hrange : ∀ c ∈ string, IsCodepoint c)
    (hcontrols : ¬ ∀ c ∈ string, IsControl c → (shortEscape c).isSome) (buffer : Bytes) :
    normalizeLoop utf8 string buffer = .error .assertion := by
  induction string generalizing buffer with
  | nil => simp at hcontrols
  | cons c string ih =>
    rw [List.forall_mem_cons] at hrange hcontrols
    by_cases hgood : IsControl c → (shortEscape c).isSome
    · rw [normalizeLoop_cons hutf8 hrange.1 hgood]
      exact ih hrange.2 (fun hall => hcontrols ⟨hgood, hall⟩) _
    · rw [Classical.not_imp, Bool.not_eq_true, Option.isSome_eq_false_iff,
        Option.isNone_iff_eq_none] at hgood
      have hneeds := (needsEscaping_iff hutf8 hrange.1.1 hgood.2).2 hgood.1
      rw [normalizeLoop, if_pos hneeds, escape_control hgood.2 hgood.1]

theorem flatMap_escapedBytes_length (hrange : ∀ c ∈ string, IsCodepoint c) :
    (string.flatMap escapedBytes).length = (string.map escapedSize).sum := by
  rw [List.length_flatMap]
  exact congrArg List.sum (List.map_congr_left fun c hc => escapedBytes_length (hrange c hc))

/-- **The strings that are printed.** -/
theorem jsonToStringStringImpl_ok (hutf8 : utf8.Prints) (hrange : ∀ c ∈ string, IsCodepoint c) :
    jsonToStringStringImpl utf8 string = .ok bytes ↔
      Printable string ∧ bytes = 0x22 :: (string.flatMap escapedBytes ++ [0x22]) := by
  have hlength : (0x22 :: (string.flatMap escapedBytes ++ [0x22])).length + 1 =
      (string.map escapedSize).sum + 3 := by
    rw [List.length_cons, List.length_append, flatMap_escapedBytes_length hrange,
      List.length_singleton]
  rw [jsonToStringStringImpl, getNormalizedStringFromCodepointsJsonEscaped]
  by_cases hnil : string = []
  · rw [if_pos hnil]
    constructor
    · intro h
      cases h
    · rintro ⟨hprintable, -⟩
      exact absurd hnil hprintable.nonempty
  rw [if_neg hnil]
  by_cases hcontrols : ∀ c ∈ string, IsControl c → (shortEscape c).isSome
  · rw [normalizeLoop_ok hutf8 hrange hcontrols, List.nil_append]
    dsimp only
    rw [formatString, hlength]
    by_cases hshort : (string.map escapedSize).sum + 3 < 2 ^ 31
    · rw [if_pos hshort, Except.ok.injEq, eq_comm, iff_and_self]
      exact fun _ => ⟨hnil, hcontrols, hshort⟩
    · rw [if_neg hshort]
      constructor
      · intro h
        cases h
      · rintro ⟨hprintable, -⟩
        exact absurd hprintable.short hshort
  · rw [normalizeLoop_control hutf8 hrange hcontrols]
    constructor
    · intro h
      cases h
    · rintro ⟨hprintable, -⟩
      exact absurd hprintable.controls hcontrols

/-- A printed character follows the grammar. -/
theorem exists_stringChar (hscalar : IsScalar codepoint)
    (hcontrol : IsControl codepoint → (shortEscape codepoint).isSome) :
    ∃ char : StringChar, char.unit = codepoint ∧ char.bytes = escapedBytes codepoint := by
  cases h : shortEscape codepoint with
  | some kind =>
    refine ⟨.escape kind, shortEscape_codepoint h, ?_⟩
    rw [escapedBytes, h]
    rfl
  | none =>
    obtain ⟨⟨hlow, hhigh⟩, hsurrogate⟩ := hscalar
    obtain ⟨hquote, -⟩ := not_short h
    obtain ⟨n, rfl⟩ := Int.eq_ofNat_of_zero_le hlow
    rw [Int.toNat_natCast] at hsurrogate
    obtain ⟨c, rfl⟩ := Lib.exists_char (c := n) (by omega) hsurrogate
    have hunescaped : IsUnescaped c := by
      have hnot : ¬ IsControl (c.toNat : ℤ) := by
        intro hyes
        have hsome := hcontrol hyes
        rw [h] at hsome
        cases hsome
      unfold IsControl at hnot
      unfold IsUnescaped
      omega
    refine ⟨.unescaped c hunescaped, rfl, ?_⟩
    rw [escapedBytes, h]
    dsimp only
    rw [encodeByRange_eq ⟨hlow, hhigh⟩, Int.toNat_natCast, Lib.encodeCodepoint_char]
    rfl

theorem exists_stringChars (hscalar : ∀ c ∈ string, IsScalar c)
    (hcontrols : ∀ c ∈ string, IsControl c → (shortEscape c).isSome) :
    ∃ chars : List StringChar, chars.map StringChar.unit = string ∧
      chars.flatMap StringChar.bytes = string.flatMap escapedBytes := by
  induction string with
  | nil => exact ⟨[], rfl, rfl⟩
  | cons c string ih =>
    rw [List.forall_mem_cons] at hscalar hcontrols
    obtain ⟨char, hunit, hbytes⟩ := exists_stringChar hscalar.1 hcontrols.1
    obtain ⟨chars, hunits, hmore⟩ := ih hscalar.2 hcontrols.2
    refine ⟨char :: chars, ?_, ?_⟩
    · rw [List.map_cons, hunit, hunits]
    · rw [List.flatMap_cons, List.flatMap_cons, hbytes, hmore]

/-- **A printed string of scalar values is the text of that string.** -/
theorem exists_stringText (hscalar : ∀ c ∈ string, IsScalar c) (hprintable : Printable string) :
    ∃ text : StringText, text.units = string ∧
      text.bytes = 0x22 :: (string.flatMap escapedBytes ++ [0x22]) := by
  obtain ⟨chars, hunits, hbytes⟩ := exists_stringChars hscalar hprintable.controls
  refine ⟨⟨chars⟩, hunits, ?_⟩
  rw [StringText.bytes, StringText.tailBytes, hbytes]

end SimpleServer.Json
