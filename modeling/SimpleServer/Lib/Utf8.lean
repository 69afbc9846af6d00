import Mathlib.Tactic

/-!
# UTF-8 by ranges

An encoder that looks at nothing but the size of a number also encodes the surrogates. Texts
that one of them gets into are not well-formed.

* `encodeCodepoint_char`: on scalar values it is the encoding of the Lean library.
* `IsUtf8.not_surrogate`: a well-formed text does not encode a surrogate.
* `Spells`: texts by the code points they encode, and what they put together.
-/

namespace Lib

/-- The bytes of a number by its size. -/
def encodeCodepoint (c : ℕ) : List UInt8 :=
  if c < 0x80 then [UInt8.ofNat c]
  else if c < 0x800 then [UInt8.ofNat (0xC0 + c / 64), UInt8.ofNat (0x80 + c % 64)]
  else if c < 0x10000 then
    [UInt8.ofNat (0xE0 + c / 4096), UInt8.ofNat (0x80 + c / 64 % 64), UInt8.ofNat (0x80 + c % 64)]
  else if c < 0x110000 then
    [UInt8.ofNat (0xF0 + c / 262144), UInt8.ofNat (0x80 + c / 4096 % 64),
      UInt8.ofNat (0x80 + c / 64 % 64), UInt8.ofNat (0x80 + c % 64)]
  else []

/-- Half of a surrogate pair. -/
def IsSurrogate (c : ℕ) : Prop := 0xD800 ≤ c ∧ c ≤ 0xDFFF

instance (c : ℕ) : Decidable (IsSurrogate c) := inferInstanceAs (Decidable (_ ∧ _))

/-- The encodings of scalar values, one after the other. -/
def IsUtf8 (bytes : List UInt8) : Prop :=
  ∃ chars : List Char, bytes = chars.flatMap String.utf8EncodeChar

/-! ## Well-formed texts -/

theorem isUtf8_nil : IsUtf8 [] := ⟨[], rfl⟩

theorem IsUtf8.append {bytes bytes' : List UInt8} (h : IsUtf8 bytes) (h' : IsUtf8 bytes') :
    IsUtf8 (bytes ++ bytes') := by
  obtain ⟨chars, rfl⟩ := h
  obtain ⟨chars', rfl⟩ := h'
  exact ⟨chars ++ chars', List.flatMap_append.symm⟩

theorem isUtf8_char (c : Char) : IsUtf8 (String.utf8EncodeChar c) :=
  ⟨[c], (List.append_nil _).symm⟩

theorem isUtf8_ascii {bytes : List UInt8} (h : ∀ byte ∈ bytes, byte < 0x80) : IsUtf8 bytes := by
  induction bytes with
  | nil => exact isUtf8_nil
  | cons byte bytes ih =>
    rw [List.forall_mem_cons] at h
    have hsmall : byte.toNat < 0x80 := UInt8.lt_iff_toNat_lt.1 h.1
    have hvalid : byte.toNat.isValidChar := Or.inl (by omega)
    have hbyte : String.utf8EncodeChar (Char.ofNatAux byte.toNat hvalid) = [byte] := by
      have hval : (Char.ofNatAux byte.toNat hvalid).val.toNat = byte.toNat := rfl
      rw [String.utf8EncodeChar, hval, if_pos (by omega), UInt8.ofNat_toNat]
    rw [← List.singleton_append, ← hbyte]
    exact (isUtf8_char _).append (ih h.2)

/-- All bytes are below 128, as a test that runs. -/
abbrev IsAscii (bytes : List UInt8) : Prop := bytes.all (fun byte => byte < 0x80) = true

theorem isAscii_iff {bytes : List UInt8} : IsAscii bytes ↔ ∀ byte ∈ bytes, byte < 0x80 := by
  simp [IsAscii]

theorem IsAscii.isUtf8 {bytes : List UInt8} (h : IsAscii bytes) : IsUtf8 bytes :=
  isUtf8_ascii (isAscii_iff.1 h)

/-- The first character of a text is determined. -/
theorem utf8EncodeChar_append_inj {c d : Char} {rest rest' : List UInt8}
    (h : String.utf8EncodeChar c ++ rest = String.utf8EncodeChar d ++ rest') :
    c = d ∧ rest = rest' := by
  have hdecode : ∀ (c : Char) (rest : List UInt8),
      (String.utf8EncodeChar c ++ rest).toByteArray.utf8DecodeChar? 0 = some c := by
    intro c rest
    rw [List.toByteArray_append]
    exact ByteArray.utf8DecodeChar?_utf8EncodeChar_append
  have hchar := hdecode c rest
  rw [h, hdecode d rest'] at hchar
  obtain rfl := Option.some.inj hchar
  exact ⟨rfl, List.append_cancel_left h⟩

/-! ## Scalar values and surrogates -/

theorem toNat_lt (c : Char) : c.toNat < 0x110000 := by
  have hvalid : c.toNat.isValidChar := c.valid
  unfold Nat.isValidChar at hvalid
  omega

theorem encodeCodepoint_char (c : Char) : encodeCodepoint c.toNat = String.utf8EncodeChar c := by
  have hval : c.val.toNat = c.toNat := rfl
  have hlt := toNat_lt c
  rw [encodeCodepoint, String.utf8EncodeChar, hval]
  generalize c.toNat = n at hlt
  have hmore : ∀ m : ℕ, m % 0x40 + 0x80 = 0x80 + m % 64 := fun m => Nat.add_comm _ _
  simp only [hmore]
  by_cases hone : n < 0x80
  · rw [if_pos hone, if_pos (by omega)]
  by_cases htwo : n < 0x800
  · have hfirst : n / 64 % 0x20 + 0xC0 = 0xC0 + n / 64 := by omega
    rw [if_neg hone, if_pos htwo, if_neg (by omega), if_pos (by omega), hfirst]
  by_cases hthree : n < 0x10000
  · have hfirst : n / 4096 % 0x10 + 0xE0 = 0xE0 + n / 4096 := by omega
    rw [if_neg hone, if_neg htwo, if_pos hthree, if_neg (by omega), if_neg (by omega),
      if_pos (by omega), hfirst]
  · have hfirst : n / 262144 % 0x08 + 0xF0 = 0xF0 + n / 262144 := by omega
    rw [if_neg hone, if_neg htwo, if_neg hthree, if_pos hlt, if_neg (by omega),
      if_neg (by omega), if_neg (by omega), hfirst]

theorem encodeCodepoint_ne_nil {c : ℕ} (hc : c < 0x110000) : encodeCodepoint c ≠ [] := by
  unfold encodeCodepoint
  split_ifs <;> simp

theorem exists_char {c : ℕ} (hc : c < 0x110000) (hsurrogate : ¬ IsSurrogate c) :
    ∃ char : Char, char.toNat = c := by
  have hvalid : c.isValidChar := by
    rw [IsSurrogate] at hsurrogate
    unfold Nat.isValidChar
    omega
  exact ⟨Char.ofNatAux c hvalid, rfl⟩

/-- No scalar value is encoded as a surrogate is. -/
theorem surrogate_ne_char {c : ℕ} (hc : IsSurrogate c) (d : Char) (rest rest' : List UInt8) :
    encodeCodepoint c ++ rest ≠ String.utf8EncodeChar d ++ rest' := by
  intro h
  have hvalid : d.toNat.isValidChar := d.valid
  unfold Nat.isValidChar at hvalid
  unfold IsSurrogate at hc
  have hthree : encodeCodepoint c = [UInt8.ofNat (0xE0 + c / 4096),
      UInt8.ofNat (0x80 + c / 64 % 64), UInt8.ofNat (0x80 + c % 64)] := by
    rw [encodeCodepoint, if_neg (by omega), if_neg (by omega), if_pos (by omega)]
  rw [← encodeCodepoint_char, hthree] at h
  generalize d.toNat = n at h hvalid
  -- the first byte says three bytes, the second one that they are not a surrogate
  unfold encodeCodepoint at h
  split_ifs at h with hone htwo hn hfour
  · have hfirst := congrArg UInt8.toNat (List.cons.inj h).1
    simp only [UInt8.toNat_ofNat'] at hfirst
    omega
  · have hfirst := congrArg UInt8.toNat (List.cons.inj h).1
    simp only [UInt8.toNat_ofNat'] at hfirst
    omega
  · have hfirst := congrArg UInt8.toNat (List.cons.inj h).1
    have hsecond := congrArg UInt8.toNat (List.cons.inj (List.cons.inj h).2).1
    simp only [UInt8.toNat_ofNat'] at hfirst hsecond
    omega
  · have hfirst := congrArg UInt8.toNat (List.cons.inj h).1
    simp only [UInt8.toNat_ofNat'] at hfirst
    omega
  · omega

/-- **A well-formed text does not encode a surrogate.** -/
theorem IsUtf8.not_surrogate {codepoints : List ℕ} {rest : List UInt8}
    (h : IsUtf8 (codepoints.flatMap encodeCodepoint ++ rest)) :
    ∀ c ∈ codepoints, ¬ IsSurrogate c := by
  induction codepoints with
  | nil => simp
  | cons c codepoints ih =>
    obtain ⟨chars, hchars⟩ := h
    rw [List.flatMap_cons, List.append_assoc] at hchars
    have hhead : ¬ IsSurrogate c := by
      intro hc
      cases chars with
      | nil =>
        have hsize : c < 0x110000 := by
          unfold IsSurrogate at hc
          omega
        exact encodeCodepoint_ne_nil hsize (List.append_eq_nil_iff.1 hchars).1
      | cons d chars =>
        rw [List.flatMap_cons] at hchars
        exact surrogate_ne_char hc d _ _ hchars
    rw [List.forall_mem_cons]
    refine ⟨hhead, ih ?_⟩
    by_cases hsize : c < 0x110000
    · obtain ⟨char, rfl⟩ := exists_char hsize hhead
      cases chars with
      | nil => exact absurd (List.append_eq_nil_iff.1 hchars).1 (encodeCodepoint_ne_nil hsize)
      | cons d chars =>
        rw [encodeCodepoint_char, List.flatMap_cons] at hchars
        exact ⟨chars, (utf8EncodeChar_append_inj hchars).2⟩
    · have hnone : encodeCodepoint c = [] := by
        unfold encodeCodepoint
        split_ifs <;> first | omega | rfl
      rw [hnone, List.nil_append] at hchars
      exact ⟨chars, hchars⟩

/-! ## Texts by code points -/

/-- The bytes encode code points, the marked ones among them. -/
def Spells (bytes : List UInt8) (marks : ℕ → Prop) : Prop :=
  ∃ codepoints : List ℕ, bytes = codepoints.flatMap encodeCodepoint ∧
    ∀ c, marks c → c ∈ codepoints

theorem Spells.mono {bytes : List UInt8} {marks marks' : ℕ → Prop} (h : Spells bytes marks)
    (hmarks : ∀ c, marks' c → marks c) : Spells bytes marks' := by
  obtain ⟨codepoints, hbytes, hmem⟩ := h
  exact ⟨codepoints, hbytes, fun c hc => hmem c (hmarks c hc)⟩

theorem Spells.append {bytes bytes' : List UInt8} {marks marks' : ℕ → Prop}
    (h : Spells bytes marks) (h' : Spells bytes' marks') :
    Spells (bytes ++ bytes') fun c => marks c ∨ marks' c := by
  obtain ⟨codepoints, rfl, hmem⟩ := h
  obtain ⟨codepoints', rfl, hmem'⟩ := h'
  refine ⟨codepoints ++ codepoints', List.flatMap_append.symm, ?_⟩
  intro c hc
  rw [List.mem_append]
  rcases hc with hc | hc
  · exact Or.inl (hmem c hc)
  · exact Or.inr (hmem' c hc)

theorem spells_codepoint (c : ℕ) : Spells (encodeCodepoint c) (· = c) :=
  ⟨[c], (List.append_nil _).symm, by simp⟩

theorem IsUtf8.spells {bytes : List UInt8} (h : IsUtf8 bytes) : Spells bytes fun _ => False := by
  obtain ⟨chars, rfl⟩ := h
  refine ⟨chars.map Char.toNat, ?_, by simp⟩
  rw [List.flatMap_map]
  exact congrArg (List.flatMap · chars) (funext fun c => (encodeCodepoint_char c).symm)

/-- A well-formed text has no surrogate among its marks. -/
theorem Spells.not_surrogate {bytes : List UInt8} {marks : ℕ → Prop} (h : Spells bytes marks)
    (hutf8 : IsUtf8 bytes) {c : ℕ} (hc : marks c) : ¬ IsSurrogate c := by
  obtain ⟨codepoints, rfl, hmem⟩ := h
  rw [← List.append_nil (codepoints.flatMap encodeCodepoint)] at hutf8
  exact hutf8.not_surrogate c (hmem c hc)

end Lib
