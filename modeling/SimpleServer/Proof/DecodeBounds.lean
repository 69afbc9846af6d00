import SimpleServer.Hpack.Machine

/-!
# The decoder stays inside its input

The length of a string literal is a 64 bit number that the peer chooses. The position and
the length are added in `size_t` before they are compared with the size of the input, so a
length close to `2 ^ 64` wraps and passes the check. Then the memory for the string is
allocated, which fails for such a length, with one exception: a string that is not Huffman
coded asks for `length + 1` bytes, which is 0 for the length `2 ^ 64 - 1`.

* `decodeHpackVariableInteger_inside`, `parseLiteralStringValue_inside`: what one integer and
  one string literal read.
* `iteration_inside`, `iteration_outside`: what one round of the loop reads, without and with
  a literal that wraps.
* `decoder_stays_inside`: the decoder ends, moves on in every round and reads only its input
  exactly when it meets no literal that wraps.
-/

namespace SimpleServer.Hpack

open Lib

/-- All slices that were read lie inside the input. -/
def Decoder.Inside (data : Bytes) (d : Decoder) : Prop := ∀ r ∈ d.reads, r.1 + r.2 ≤ data.length

/-- From `d` to `d'` the position did not go back, and everything stayed inside. -/
structure Moved (data : Bytes) (d d' : Decoder) : Prop where
  forward : d.pos ≤ d'.pos
  pos_le : d'.pos ≤ data.length
  inside : d'.Inside data

variable {m : Machine} {data : Bytes} {d d' : Decoder}

theorem Decoder.Inside.note (h : d.Inside data) {start length : ℕ}
    (hs : start + length ≤ data.length) : (d.note start length).Inside data := by
  intro r hr
  rcases List.mem_append.1 hr with hr | hr
  · exact h r hr
  · rw [List.mem_singleton.1 hr]
    exact hs

theorem Moved.trans {d'' : Decoder} (h : Moved data d d') (h' : Moved data d' d'') :
    Moved data d d'' := ⟨h.forward.trans h'.forward, h'.pos_le, h'.inside⟩

theorem Moved.refl (hpos : d.pos ≤ data.length) (hin : d.Inside data) : Moved data d d :=
  ⟨le_rfl, hpos, hin⟩

/-! ## The steps of a read -/

theorem readByte_run (data : Bytes) (d : Decoder) :
    (readByte data).run d = .ok (data.getD d.pos 0) (d.note d.pos 1) := rfl

theorem failAtEnd_inside (e : Fault) (hin : d.Inside data) :
    Ends (failAtEnd data e) d (fun _ d' => ¬ d.pos ≥ data.length ∧ d' = d)
      (Decoder.Inside data) := by
  unfold failAtEnd
  rw [ends_bind_of_ok (EStateM.run_get _)]
  exact ends_failIf hin

theorem failAtEnd_run (e : Fault) (hpos : d.pos < data.length) :
    (failAtEnd data e).run d = .ok () d := by
  unfold failAtEnd
  rw [run_bind_of_ok (EStateM.run_get _), run_failIf_eq_ok]
  exact ⟨not_le.2 hpos, rfl⟩

theorem advance_run_mod (d : Decoder) (length : ℕ) :
    (advance length).run d = .ok () { d with pos := (d.pos + length) % sizeRange } := rfl

/-- One byte further, which does not wrap. -/
theorem advance_run (hsize : data.length < 2 ^ 57) (hpos : d.pos < data.length) :
    (advance 1).run d = .ok () { d with pos := d.pos + 1 } := by
  have hmod : (d.pos + 1) % sizeRange = d.pos + 1 := by
    rw [Nat.mod_eq_of_lt]
    unfold sizeRange
    omega
  rw [advance_run_mod, hmod]

/-! ## Integers -/

theorem decodeIntegerLoop_inside (hsize : data.length < 2 ^ 57) :
    ∀ (fuel amount : ℕ) (result : BitVec 64) (d : Decoder), d.pos ≤ data.length →
      d.Inside data →
      Ends (m.decodeIntegerLoop data fuel amount result) d (fun _ d' => Moved data d d')
        (Decoder.Inside data) := by
  intro fuel
  induction fuel with
  | zero =>
    intro amount result d hpos hin
    exact hin
  | succ fuel ih =>
    intro amount result d hpos hin
    unfold Machine.decodeIntegerLoop
    refine (failAtEnd_inside _ hin).bind ?_
    rintro _ d₁ - ⟨hlt, rfl⟩
    have hlt : d₁.pos < data.length := by omega
    have hin₁ : (d₁.note d₁.pos 1).Inside data := hin.note (by omega)
    rw [ends_bind_of_ok (readByte_run data d₁),
      ends_bind_of_ok (advance_run (d := d₁.note d₁.pos 1) hsize hlt)]
    have hstep : Moved data d₁ { d₁.note d₁.pos 1 with pos := d₁.pos + 1 } :=
      ⟨Nat.le_succ _, hlt, hin₁⟩
    refine Ends.bind (ends_failIf hstep.inside) ?_
    rintro _ d₂ - ⟨-, rfl⟩
    by_cases hlast : (data.getD d₁.pos 0).toNat < 0x80
    · rw [if_pos hlast]
      exact hstep
    · rw [if_neg hlast]
      exact (ih _ _ _ hstep.pos_le hstep.inside).imp fun _ _ h => hstep.trans h

/-- **An integer** takes at least one byte and reads only its own. -/
theorem decodeHpackVariableInteger_inside (m : Machine) (hsize : data.length < 2 ^ 57)
    (prefixBits : ℕ) (hpos : d.pos < data.length) (hin : d.Inside data) :
    Ends (m.decodeHpackVariableInteger data prefixBits) d
      (fun _ d' => d.pos < d'.pos ∧ Moved data d d') (Decoder.Inside data) := by
  have hin₁ : (d.note d.pos 1).Inside data := hin.note (by omega)
  have hstep : Moved data d { d.note d.pos 1 with pos := d.pos + 1 } :=
    ⟨Nat.le_succ _, hpos, hin₁⟩
  unfold Machine.decodeHpackVariableInteger
  rw [ends_bind_of_ok (readByte_run data d)]
  dsimp only
  rw [ends_bind_of_ok (advance_run (d := d.note d.pos 1) hsize hpos)]
  by_cases hshort : (data.getD d.pos 0).toNat % 2 ^ prefixBits < 2 ^ prefixBits - 1
  · rw [if_pos hshort]
    exact ⟨Nat.lt_succ_self _, hstep⟩
  · rw [if_neg hshort, ends_bind_of_ok (EStateM.run_get _)]
    refine (decodeIntegerLoop_inside hsize _ _ _ _ hstep.pos_le hstep.inside).imp ?_
    intro _ d' h
    exact ⟨lt_of_lt_of_le (Nat.lt_succ_self _) h.forward, hstep.trans h⟩

/-! ## String literals -/

theorem readRawBytes_run {start length : ℕ} (hslice : start + length ≤ data.length) :
    (readRawBytes data start length).run d =
      .ok ((data.drop start).take length) (d.note start length) := by
  unfold readRawBytes
  rw [run_bind_of_ok (EStateM.run_modify _ _), run_failIf_bind (by omega)]
  rfl

/-- The bytes of a string that lies inside. -/
theorem literalContent_inside (isHuffman : Bool) {start length : ℕ}
    (hslice : start + length ≤ data.length) (hpos : d.pos ≤ data.length) (hin : d.Inside data) :
    Ends (m.literalContent data isHuffman start length) d (fun _ d' => Moved data d d')
      (Decoder.Inside data) := by
  have hnote : Moved data d (d.note start length) := ⟨le_rfl, hpos, hin.note hslice⟩
  unfold Machine.literalContent
  cases isHuffman with
  | true =>
    rw [if_pos rfl]
    refine (ends_failIf hin).bind ?_
    rintro _ d₁ - ⟨-, rfl⟩
    rw [ends_bind_of_ok (readRawBytes_run hslice)]
    cases hpackHuffmanDecodeBytes ((data.drop start).take length) with
    | error e => exact hnote.inside
    | ok result => exact hnote
  | false =>
    rw [if_neg Bool.false_ne_true]
    refine (ends_failIf hin).bind ?_
    rintro _ d₁ - ⟨-, rfl⟩
    unfold Ends
    rw [readRawBytes_run hslice]
    exact hnote

/-- The memory for a string is not found when its length is close to `2 ^ 64`, so nothing is
read. -/
theorem literalContent_huge (isHuffman : Bool) {start length : ℕ}
    (hlow : sizeRange - 2 ^ 57 < length) (hhigh : length < sizeRange)
    (hwrap : isHuffman = true ∨ length + 1 ≠ sizeRange) (hin : d.Inside data) :
    Ends (m.literalContent data isHuffman start length) d (fun _ _ => False)
      (Decoder.Inside data) := by
  unfold sizeRange at hlow hhigh hwrap
  unfold Machine.literalContent
  cases isHuffman with
  | true =>
    have hmalloc : m.malloc ((Machine.huffmanMemorySize length + 1) % sizeRange) = false := by
      have hbits : length * 8 % 2 ^ 64 = 2 ^ 64 - (2 ^ 64 - length) * 8 := by omega
      have hsum : (length * 8 % 2 ^ 64 + (5 - 1)) % 2 ^ 64 = length * 8 % 2 ^ 64 + 4 :=
        Nat.mod_eq_of_lt (by omega)
      apply m.malloc_huge
      unfold Machine.huffmanMemorySize minHpackBitsPerChar sizeRange
      rw [hsum, hbits, Nat.mod_eq_of_lt (by omega)]
      omega
    rw [if_pos rfl]
    refine (ends_failIf hin).bind ?_
    rintro _ d₁ - ⟨hfound, rfl⟩
    exact absurd hmalloc hfound
  | false =>
    have hne : length + 1 ≠ 2 ^ 64 := hwrap.resolve_left Bool.false_ne_true
    have hmalloc : m.malloc ((length + 1) % sizeRange) = false := by
      apply m.malloc_huge
      unfold sizeRange
      omega
    rw [if_neg Bool.false_ne_true]
    refine (ends_failIf hin).bind ?_
    rintro _ d₁ - ⟨hfound, rfl⟩
    exact absurd hmalloc hfound

/-- After the length: the sum of position and length either does not wrap and is checked, or
the memory is not found. -/
theorem literalOfLength_inside (isHuffman : Bool) (length : BitVec 64)
    (hsize : data.length < 2 ^ 57) (hpos : d.pos < data.length) (hin : d.Inside data)
    (hwrap : isHuffman = true ∨ length.toNat + 1 ≠ sizeRange) :
    Ends (m.literalOfLength data isHuffman length) d (fun _ d' => Moved data d d')
      (Decoder.Inside data) := by
  have hlength : length.toNat < sizeRange := length.isLt
  unfold Machine.literalOfLength
  by_cases hzero : length = 0
  · rw [if_pos hzero]
    exact Moved.refl hpos.le hin
  rw [if_neg hzero, ends_bind_of_ok (EStateM.run_get _)]
  refine (ends_failIf hin).bind ?_
  rintro _ d₁ - ⟨hbound, rfl⟩
  rw [ends_bind_of_ok (advance_run_mod d₁ _)]
  by_cases hsum : d₁.pos + length.toNat < sizeRange
  · rw [Nat.mod_eq_of_lt hsum] at hbound
    have hstep : Moved data d₁ { d₁ with pos := (d₁.pos + length.toNat) % sizeRange } := by
      refine ⟨?_, ?_, hin⟩
      · rw [Nat.mod_eq_of_lt hsum]
        exact Nat.le_add_right _ _
      · rw [Nat.mod_eq_of_lt hsum]
        exact not_lt.1 hbound
    refine (literalContent_inside isHuffman (not_lt.1 hbound) hstep.pos_le hstep.inside).imp ?_
    intro _ d' h
    exact hstep.trans h
  · have hlow : sizeRange - 2 ^ 57 < length.toNat := by
      unfold sizeRange at hsum ⊢
      omega
    refine Ends.imp (literalContent_huge isHuffman hlow hlength hwrap
      (d := { d₁ with pos := (d₁.pos + length.toNat) % sizeRange }) hin) ?_
    intro _ _ h
    exact h.elim

/-- The string literal at the position of `d` is not Huffman coded, has the length `2 ^ 64 - 1`
and is followed by a byte. -/
def WrapsAt (m : Machine) (data : Bytes) (d : Decoder) : Prop :=
  d.pos < data.length ∧ data.getD d.pos 0 &&& 0x80 = 0 ∧
    ∃ length d', (m.decodeHpackVariableInteger data 7).run (d.note d.pos 1) = .ok length d' ∧
      length.toNat + 1 = sizeRange ∧ d'.pos < data.length

/-- **A string literal** that does not wrap reads only its own bytes. -/
theorem parseLiteralStringValue_inside (hsize : data.length < 2 ^ 57) (hin : d.Inside data)
    (hwrap : ¬ WrapsAt m data d) :
    Ends (m.parseLiteralStringValue data) d (fun _ d' => Moved data d d')
      (Decoder.Inside data) := by
  unfold Machine.parseLiteralStringValue
  refine (failAtEnd_inside _ hin).bind ?_
  rintro _ d₁ - ⟨hpos, rfl⟩
  have hpos : d₁.pos < data.length := not_le.1 hpos
  rw [ends_bind_of_ok (readByte_run data d₁)]
  have hnote : Moved data d₁ (d₁.note d₁.pos 1) := ⟨le_rfl, hpos.le, hin.note hpos⟩
  refine Ends.bind
    (decodeHpackVariableInteger_inside m hsize 7 (d := d₁.note d₁.pos 1) hpos hnote.inside) ?_
  rintro length d₂ hlength ⟨-, hmoved⟩
  refine (failAtEnd_inside _ hmoved.inside).bind ?_
  rintro _ d₃ - ⟨hpos₃, rfl⟩
  have hpos₃ : d₃.pos < data.length := not_le.1 hpos₃
  refine (literalOfLength_inside _ length hsize hpos₃ hmoved.inside ?_).imp ?_
  · -- with a clear H bit the length `2 ^ 64 - 1` would wrap
    by_cases hbit : data.getD d₁.pos 0 &&& 0x80 = 0
    · right
      intro hlen
      exact hwrap ⟨hpos, hbit, length, d₃, hlength, hlen, hpos₃⟩
    · left
      simpa using hbit
  · intro _ d' h
    exact (hnote.trans hmoved).trans h

/-- With the length `2 ^ 64 - 1` the sum of position and length is one less than the
position, and no memory is asked for. -/
theorem literalOfLength_outside (length : BitVec 64) (hlength : length.toNat + 1 = sizeRange)
    (hsize : data.length < 2 ^ 57) (hpos : d.pos < data.length) (hstart : 0 < d.pos) :
    Ends (m.literalOfLength data false length) d (fun _ _ => False)
      (fun d' => ¬ d'.Inside data) := by
  have hlarge : 2 ^ 57 < length.toNat := by
    unfold sizeRange at hlength
    omega
  have hsum : (d.pos + length.toNat) % sizeRange = d.pos - 1 := by
    unfold sizeRange at hlength ⊢
    omega
  have hne : length ≠ 0 := by
    rintro rfl
    exact absurd hlarge (by decide)
  have hmalloc : ¬ m.malloc ((length.toNat + 1) % sizeRange) = false := by
    rw [hlength, Nat.mod_self, m.malloc_zero]
    decide
  have hout : data.length < d.pos + length.toNat := by omega
  unfold Machine.literalOfLength Machine.literalContent
  rw [if_neg hne, ends_bind_of_ok (EStateM.run_get _)]
  unfold Ends
  rw [run_failIf_bind (by rw [hsum]; omega), run_bind_of_ok (advance_run_mod d _),
    if_neg Bool.false_ne_true, run_failIf_bind hmalloc]
  unfold readRawBytes
  rw [run_bind_of_ok (EStateM.run_modify _ _), failIf, if_pos hout]
  intro hinside
  have hslice := hinside (d.pos, length.toNat)
    (List.mem_append_right _ (List.mem_singleton.2 rfl))
  exact absurd hout (not_lt.2 hslice)

/-- A string literal that wraps reads outside the input. -/
theorem parseLiteralStringValue_outside (hsize : data.length < 2 ^ 57) (hin : d.Inside data)
    (hwrap : WrapsAt m data d) :
    Ends (m.parseLiteralStringValue data) d (fun _ _ => False)
      (fun d' => ¬ d'.Inside data) := by
  obtain ⟨hpos, hbit, length, d₂, hlength, hlen, hpos₂⟩ := hwrap
  have hmoved := ((ends_iff.1 (decodeHpackVariableInteger_inside m hsize 7
    (d := d.note d.pos 1) hpos (hin.note hpos))).1 _ _ hlength).1
  have hclear : (data.getD d.pos 0 &&& 0x80 != 0) = false := by simpa using hbit
  unfold Machine.parseLiteralStringValue
  rw [ends_bind_of_ok (failAtEnd_run _ hpos), ends_bind_of_ok (readByte_run data d)]
  dsimp only
  rw [ends_bind_of_ok hlength, ends_bind_of_ok (failAtEnd_run _ hpos₂), hclear]
  exact literalOfLength_outside length hlen hsize hpos₂ (lt_of_le_of_lt (Nat.zero_le _) hmoved)

/-! ## Items -/

/-- The key or the value of the literal field at the position of `d`, whose index has so many
bits in the first byte, is a literal that wraps. -/
def FieldWraps (m : Machine) (data : Bytes) (prefixBits : ℕ) (d : Decoder) : Prop :=
  ∃ index d₁, (m.decodeHpackVariableInteger data prefixBits).run d = .ok index d₁ ∧
    (index = 0 ∧ WrapsAt m data d₁ ∨
      ∃ key d₂, (m.parseLiteralKey data index).run d₁ = .ok key d₂ ∧ WrapsAt m data d₂)

theorem tableEntry_inside (index : ℕ) (hin : d.Inside data) :
    Ends (tableEntry index) d (fun _ d' => d' = d) (Decoder.Inside data) := by
  unfold tableEntry
  rw [ends_bind_of_ok (EStateM.run_get _)]
  cases hpackGetTableEntryAt d.state index with
  | none => exact hin
  | some entry => exact rfl

theorem parseLiteralKey_inside (hsize : data.length < 2 ^ 57) (index : BitVec 64)
    (hpos : d.pos ≤ data.length) (hin : d.Inside data)
    (hwrap : index = 0 → ¬ WrapsAt m data d) :
    Ends (m.parseLiteralKey data index) d (fun _ d' => Moved data d d')
      (Decoder.Inside data) := by
  unfold Machine.parseLiteralKey
  by_cases hzero : index = 0
  · rw [if_pos hzero]
    exact parseLiteralStringValue_inside hsize hin (hwrap hzero)
  · rw [if_neg hzero]
    refine (tableEntry_inside _ hin).bind ?_
    rintro entry d₁ - rfl
    exact Moved.refl hpos hin

theorem parseHpackLiteralHeaderField_inside (hsize : data.length < 2 ^ 57) (prefixBits : ℕ)
    (hpos : d.pos < data.length) (hin : d.Inside data)
    (hwrap : ¬ FieldWraps m data prefixBits d) :
    Ends (m.parseHpackLiteralHeaderField data prefixBits) d
      (fun _ d' => d.pos < d'.pos ∧ Moved data d d') (Decoder.Inside data) := by
  unfold Machine.parseHpackLiteralHeaderField
  refine Ends.bind (decodeHpackVariableInteger_inside m hsize prefixBits hpos hin) ?_
  rintro index d₁ hindex ⟨hlt, hmoved₁⟩
  refine Ends.bind (parseLiteralKey_inside hsize index hmoved₁.pos_le hmoved₁.inside ?_) ?_
  · intro hzero hw
    exact hwrap ⟨index, d₁, hindex, .inl ⟨hzero, hw⟩⟩
  rintro key d₂ hkey hmoved₂
  refine (failAtEnd_inside _ hmoved₂.inside).bind ?_
  rintro _ d₃ - ⟨-, rfl⟩
  refine Ends.bind (parseLiteralStringValue_inside hsize hmoved₂.inside ?_) ?_
  · intro hw
    exact hwrap ⟨index, d₁, hindex, .inr ⟨key, d₃, hkey, hw⟩⟩
  rintro value d₄ - hmoved₄
  have hmoved : Moved data d d₄ := (hmoved₁.trans hmoved₂).trans hmoved₄
  have hlt₄ : d.pos < d₄.pos :=
    lt_of_lt_of_le hlt (hmoved₂.forward.trans hmoved₄.forward)
  exact ⟨hlt₄, hmoved.forward, hmoved.pos_le, hmoved.inside⟩

theorem parseHpackLiteralHeaderField_outside (hsize : data.length < 2 ^ 57) (prefixBits : ℕ)
    (hpos : d.pos < data.length) (hin : d.Inside data)
    (hwrap : FieldWraps m data prefixBits d) :
    Ends (m.parseHpackLiteralHeaderField data prefixBits) d (fun _ _ => False)
      (fun d' => ¬ d'.Inside data) := by
  obtain ⟨index, d₁, hindex, hwrap⟩ := hwrap
  have hmoved₁ := ((ends_iff.1
    (decodeHpackVariableInteger_inside m hsize prefixBits hpos hin)).1 _ _ hindex).2
  unfold Machine.parseHpackLiteralHeaderField
  rw [ends_bind_of_ok hindex]
  -- the key wraps, or the key is read and the value wraps
  by_cases hkeyWraps : index = 0 ∧ WrapsAt m data d₁
  · have hout := parseLiteralStringValue_outside hsize hmoved₁.inside hkeyWraps.2
    unfold Machine.parseLiteralKey
    rw [if_pos hkeyWraps.1]
    exact hout.bind fun _ _ _ h => h.elim
  · obtain ⟨key, d₂, hkey, hw⟩ := hwrap.resolve_left hkeyWraps
    have hnoWrap : index = 0 → ¬ WrapsAt m data d₁ := fun hzero hw => hkeyWraps ⟨hzero, hw⟩
    have hmoved₂ := (ends_iff.1
      (parseLiteralKey_inside hsize index hmoved₁.pos_le hmoved₁.inside hnoWrap)).1 _ _ hkey
    rw [ends_bind_of_ok hkey, ends_bind_of_ok (failAtEnd_run _ hw.1)]
    exact (parseLiteralStringValue_outside hsize hmoved₂.inside hw).bind fun _ _ _ h => h.elim

theorem ends_withItemMessage (message : String) {x : HpackReader Unit} {Q : Unit → Decoder → Prop}
    {E : Decoder → Prop} : Ends (withItemMessage message x) d Q E ↔ Ends x d Q E := by
  unfold Ends withItemMessage
  rw [EStateM.run_adaptExcept]
  cases x.run d <;> rfl

theorem parseHpackIndexedHeaderField_inside (m : Machine) (hsize : data.length < 2 ^ 57)
    (hpos : d.pos < data.length) (hin : d.Inside data) :
    Ends (m.parseHpackIndexedHeaderField data) d
      (fun _ d' => d.pos < d'.pos ∧ Moved data d d') (Decoder.Inside data) := by
  unfold Machine.parseHpackIndexedHeaderField
  refine Ends.bind (decodeHpackVariableInteger_inside m hsize 7 hpos hin) ?_
  rintro index d₁ - ⟨hlt, hmoved⟩
  refine (ends_failIf hmoved.inside).bind ?_
  rintro _ d₂ - ⟨-, rfl⟩
  refine (tableEntry_inside _ hmoved.inside).bind ?_
  rintro ⟨key, value⟩ d₃ - rfl
  cases value with
  | none => exact hmoved.inside
  | some value => exact ⟨hlt, hmoved.forward, hmoved.pos_le, hmoved.inside⟩

theorem parseHpackDynamicTableSizeUpdate_inside (m : Machine) (hsize : data.length < 2 ^ 57)
    (hpos : d.pos < data.length) (hin : d.Inside data) :
    Ends (m.parseHpackDynamicTableSizeUpdate data) d
      (fun _ d' => d.pos < d'.pos ∧ Moved data d d') (Decoder.Inside data) := by
  unfold Machine.parseHpackDynamicTableSizeUpdate
  refine Ends.bind (decodeHpackVariableInteger_inside m hsize 5 hpos hin) ?_
  rintro newSize d₁ - ⟨hlt, hmoved⟩
  exact ⟨hlt, hmoved.forward, hmoved.pos_le, hmoved.inside⟩

/-- The bits of the index in the first byte of a literal field; other items have none. -/
def literalPrefix (byte : UInt8) : Option ℕ :=
  if byte &&& 0x80 != 0 then none
  else if byte &&& 0xC0 == 0x40 then some 6
  else if byte &&& 0xE0 == 0x20 then none
  else some 4

/-- The item at the position of `d` is a literal field that wraps. -/
def ItemWraps (m : Machine) (data : Bytes) (d : Decoder) : Prop :=
  ∃ bits, literalPrefix (data.getD d.pos 0) = some bits ∧
    FieldWraps m data bits (d.note d.pos 1)

/-- What the three literal representations do after the field is read keeps the position. -/
theorem literalField_bind {bits : ℕ} {f : HttpHeaderField → HpackReader Unit}
    {Q : Unit → Decoder → Prop} {E : Decoder → Prop}
    (hf : ∀ field d, ∃ state, (f field).run d = .ok () { d with state := state })
    (h : Ends (m.parseHpackLiteralHeaderField data bits) d
      (fun _ d' => ∀ state, Q () { d' with state := state }) E) :
    Ends (m.parseHpackLiteralHeaderField data bits >>= f) d Q E := by
  refine Ends.bind h ?_
  intro field d₁ _ hQ
  obtain ⟨state, hrun⟩ := hf field d₁
  unfold Ends
  rw [hrun]
  exact hQ state

/-- The parse function of a literal field ends as the shared part does. -/
theorem literalItem_ends {byte : UInt8} {bits : ℕ} {Q : Unit → Decoder → Prop}
    {E : Decoder → Prop} (hbits : literalPrefix byte = some bits)
    (h : Ends (m.parseHpackLiteralHeaderField data bits) d
      (fun _ d' => ∀ state, Q () { d' with state := state }) E) :
    Ends (m.parseItem data byte) d Q E := by
  unfold literalPrefix at hbits
  unfold Machine.parseItem
  by_cases h₁ : (byte &&& 0x80 != 0) = true
  · rw [if_pos h₁] at hbits
    cases hbits
  rw [if_neg h₁] at hbits ⊢
  by_cases h₂ : (byte &&& 0xC0 == 0x40) = true
  · rw [if_pos h₂] at hbits ⊢
    cases hbits
    rw [ends_withItemMessage]
    exact literalField_bind (fun _ _ => ⟨_, rfl⟩) h
  rw [if_neg h₂] at hbits ⊢
  by_cases h₃ : (byte &&& 0xE0 == 0x20) = true
  · rw [if_pos h₃] at hbits
    cases hbits
  rw [if_neg h₃] at hbits ⊢
  cases hbits
  -- both representations without an insertion are the same function
  have hsame : Ends (m.parseHpackLiteralHeaderField data 4 >>= fun _ => pure ()) d Q E :=
    literalField_bind (fun _ d => ⟨d.state, rfl⟩) h
  by_cases h₄ : (byte &&& 0xF0 == 0x10) = true
  · rw [if_pos h₄, ends_withItemMessage]
    exact hsame
  · rw [if_neg h₄, ends_withItemMessage]
    exact hsame

theorem parseItem_other {byte : UInt8} (hsize : data.length < 2 ^ 57)
    (hpos : d.pos < data.length) (hin : d.Inside data) (hbits : literalPrefix byte = none) :
    Ends (m.parseItem data byte) d (fun _ d' => d.pos < d'.pos ∧ Moved data d d')
      (Decoder.Inside data) := by
  unfold literalPrefix at hbits
  unfold Machine.parseItem
  by_cases h₁ : (byte &&& 0x80 != 0) = true
  · rw [if_pos h₁, ends_withItemMessage]
    exact parseHpackIndexedHeaderField_inside m hsize hpos hin
  rw [if_neg h₁] at hbits ⊢
  by_cases h₂ : (byte &&& 0xC0 == 0x40) = true
  · rw [if_pos h₂] at hbits
    cases hbits
  rw [if_neg h₂] at hbits ⊢
  by_cases h₃ : (byte &&& 0xE0 == 0x20) = true
  · rw [if_pos h₃, ends_withItemMessage]
    exact parseHpackDynamicTableSizeUpdate_inside m hsize hpos hin
  · rw [if_neg h₃] at hbits
    cases hbits

/-! ## Rounds of the loop -/

/-- **One round** without a literal that wraps moves on and reads only the input. -/
theorem iteration_inside (hsize : data.length < 2 ^ 57) (hpos : d.pos < data.length)
    (hin : d.Inside data) (hwrap : ¬ ItemWraps m data d) :
    Ends (m.iteration data) d (fun _ d' => d.pos < d'.pos ∧ Moved data d d')
      (Decoder.Inside data) := by
  have hnote : (d.note d.pos 1).Inside data := hin.note hpos
  unfold Machine.iteration
  rw [ends_bind_of_ok (readByte_run data d)]
  cases hbits : literalPrefix (data.getD d.pos 0) with
  | none =>
    refine (parseItem_other (d := d.note d.pos 1) hsize hpos hnote hbits).imp ?_
    intro _ d' h
    exact ⟨h.1, h.2.forward, h.2.pos_le, h.2.inside⟩
  | some bits =>
    have hfield : ¬ FieldWraps m data bits (d.note d.pos 1) := fun h => hwrap ⟨bits, hbits, h⟩
    refine literalItem_ends hbits ?_
    refine (parseHpackLiteralHeaderField_inside hsize bits (d := d.note d.pos 1) hpos hnote
      hfield).imp ?_
    intro _ d' h state
    exact ⟨h.1, h.2.forward, h.2.pos_le, h.2.inside⟩

/-- A round with a literal that wraps reads outside the input. -/
theorem iteration_outside (hsize : data.length < 2 ^ 57) (hpos : d.pos < data.length)
    (hin : d.Inside data) (hwrap : ItemWraps m data d) :
    ¬ Ends (m.iteration data) d (fun _ d' => d'.Inside data) (Decoder.Inside data) := by
  obtain ⟨bits, hbits, hfield⟩ := hwrap
  have hout : Ends (m.iteration data) d (fun _ _ => False) (fun d' => ¬ d'.Inside data) := by
    unfold Machine.iteration
    rw [ends_bind_of_ok (readByte_run data d)]
    refine literalItem_ends hbits ?_
    refine (parseHpackLiteralHeaderField_outside hsize bits (d := d.note d.pos 1) hpos
      (hin.note hpos) hfield).imp ?_
    intro _ _ h
    exact h.elim
  intro hreads
  rw [ends_iff] at hout hreads
  cases hrun : (m.iteration data).run d with
  | ok u d' => exact hout.1 _ _ hrun
  | error e d' => exact hout.2 _ _ hrun (hreads.2 _ _ hrun)

/-- The rounds of the loop lead from `d` to another decoder. -/
inductive Reaches (m : Machine) (data : Bytes) (d : Decoder) : Decoder → Prop
  | start : Reaches m data d d
  | round {e e' : Decoder} : Reaches m data d e → e.pos < data.length →
      (m.iteration data).run e = .ok () e' → Reaches m data d e'

/-- The decoder ends, every round that succeeds moves on and stays below the size, and every
round, also the one that fails, reads only the input. -/
structure StaysInside (m : Machine) (state : HpackDecompressState) (data : Bytes) : Prop where
  terminates : ∃ fuel, (m.decompressLoop data fuel (.start state)).isSome
  forward : ∀ d d', Reaches m data (.start state) d → d.pos < data.length →
    (m.iteration data).run d = .ok () d' → d.pos < d'.pos ∧ d'.pos ≤ data.length
  reads : ∀ d, Reaches m data (.start state) d → d.pos < data.length →
    Ends (m.iteration data) d (fun _ d' => d'.Inside data) (Decoder.Inside data)

/-- Without a literal that wraps, every round starts inside. -/
theorem Reaches.inside {e : Decoder} (hsize : data.length < 2 ^ 57)
    (hpos : d.pos ≤ data.length) (hin : d.Inside data)
    (hwrap : ∀ e, Reaches m data d e → e.pos < data.length → ¬ ItemWraps m data e)
    (h : Reaches m data d e) : e.pos ≤ data.length ∧ e.Inside data := by
  induction h with
  | start => exact ⟨hpos, hin⟩
  | round he hlt hrun ih =>
    have hround := (ends_iff.1 (iteration_inside hsize hlt ih.2 (hwrap _ he hlt))).1 _ _ hrun
    exact ⟨hround.2.pos_le, hround.2.inside⟩

/-- Rounds that move on come to an end: the bytes that are left are rounds enough. -/
theorem decompressLoop_isSome {d₀ : Decoder}
    (hforward : ∀ d d', Reaches m data d₀ d → d.pos < data.length →
      (m.iteration data).run d = .ok () d' → d.pos < d'.pos) :
    ∀ (fuel : ℕ) (d : Decoder), Reaches m data d₀ d → data.length - d.pos ≤ fuel →
      (m.decompressLoop data fuel d).isSome := by
  intro fuel
  induction fuel with
  | zero =>
    intro d _ hfuel
    have hend : d.pos ≥ data.length := by omega
    unfold Machine.decompressLoop
    rw [if_pos hend]
    rfl
  | succ fuel ih =>
    intro d hd hfuel
    unfold Machine.decompressLoop
    by_cases hend : d.pos ≥ data.length
    · rw [if_pos hend]
      rfl
    rw [if_neg hend]
    have hlt : d.pos < data.length := not_le.1 hend
    dsimp only
    cases hrun : (m.iteration data).run d with
    | error e d' => rfl
    | ok u d' =>
      have hstep := hforward d d' hd hlt hrun
      exact ih d' (hd.round hlt hrun) (by omega)

/-- **The decoder stays inside its input** exactly when it meets no string literal that is not
Huffman coded, has the length `2 ^ 64 - 1` and is followed by a byte. -/
theorem decoder_stays_inside (m : Machine) (state : HpackDecompressState) (data : Bytes)
    (hsize : data.length < 2 ^ 57) :
    StaysInside m state data ↔
      ∀ d, Reaches m data (.start state) d → d.pos < data.length → ¬ ItemWraps m data d := by
  have hstart : (Decoder.start state).Inside data := nofun
  constructor
  · intro h d hd hlt hwrap
    -- a round starts with what the rounds before it have read
    have hin : d.Inside data := by
      cases hd with
      | start => exact hstart
      | round he hpos hrun => exact (ends_iff.1 (h.reads _ he hpos)).1 _ _ hrun
    exact iteration_outside hsize hlt hin hwrap (h.reads d hd hlt)
  · intro hwrap
    have hround : ∀ d, Reaches m data (.start state) d → d.pos < data.length →
        Ends (m.iteration data) d (fun _ d' => d.pos < d'.pos ∧ Moved data d d')
          (Decoder.Inside data) := by
      intro d hd hlt
      have hin := (hd.inside hsize (Nat.zero_le _) hstart hwrap).2
      exact iteration_inside hsize hlt hin (hwrap d hd hlt)
    have hforward : ∀ d d', Reaches m data (.start state) d → d.pos < data.length →
        (m.iteration data).run d = .ok () d' → d.pos < d'.pos ∧ Moved data d d' :=
      fun d d' hd hlt hrun => (ends_iff.1 (hround d hd hlt)).1 _ _ hrun
    refine ⟨⟨data.length, ?_⟩, ?_, ?_⟩
    · exact decompressLoop_isSome (fun d d' hd hlt hrun => (hforward d d' hd hlt hrun).1)
        data.length _ .start (Nat.sub_le _ _)
    · intro d d' hd hlt hrun
      obtain ⟨hmove, hmoved⟩ := hforward d d' hd hlt hrun
      exact ⟨hmove, hmoved.pos_le⟩
    · intro d hd hlt
      exact (hround d hd hlt).imp fun _ _ h => h.2.inside

/-- The length of a literal that wraps does not fit into its first byte. -/
theorem WrapsAt.firstByte (h : WrapsAt m data d) : data.getD d.pos 0 = 0x7F := by
  obtain ⟨-, hbit, length, d', hlength, hlen, -⟩ := h
  have hbyte : ∀ byte : UInt8, byte &&& 0x80 = 0 → ¬ byte.toNat % 2 ^ 7 < 2 ^ 7 - 1 →
      byte = 0x7F := forall_byte (by decide +kernel)
  refine hbyte _ hbit fun hshort => ?_
  unfold Machine.decodeHpackVariableInteger at hlength
  rw [run_bind_of_ok (readByte_run data (d.note d.pos 1))] at hlength
  dsimp only at hlength
  rw [run_bind_of_ok (advance_run_mod _ _)] at hlength
  have hfirst : (data.getD (d.note d.pos 1).pos 0).toNat % 2 ^ 7 < 2 ^ 7 - 1 := hshort
  rw [if_pos hfirst, run_pure_eq_ok] at hlength
  rw [← hlength.1, BitVec.toNat_ofNat, Nat.mod_eq_of_lt (by omega)] at hlen
  unfold sizeRange at hlen
  omega

theorem ItemWraps.mem (h : ItemWraps m data d) : 0x7F ∈ data := by
  -- the byte at the start of the literal is one of the data
  have hmem : ∀ {e : Decoder}, WrapsAt m data e → 0x7F ∈ data := by
    intro e he
    rw [← he.firstByte, List.getD_eq_getElem _ _ he.1]
    exact List.getElem_mem _
  obtain ⟨bits, -, index, d₁, -, ⟨-, hw⟩ | ⟨key, d₂, -, hw⟩⟩ := h
  · exact hmem hw
  · exact hmem hw

/-- A block of one literal field, `a: b`, without indexing. -/
theorem decoder_stays_inside_literal :
    StaysInside .x86 (getDefaultHpackDynamicTableState 4096) [0x00, 0x01, 0x61, 0x01, 0x62] := by
  refine (decoder_stays_inside .x86 _ [0x00, 0x01, 0x61, 0x01, 0x62] (by decide)).2 ?_
  intro d _ _ hwrap
  exact absurd hwrap.mem (by decide)

/-- The key of this field has the length `127 + (0 << 0) + (127 << 7) + (127 << 14)
+ (127 << 21) + (15 << 28)`, where the last shift is negative: the sum is `-1`. -/
def wrappingBlock : Bytes := [0x00, 0x7F, 0x80, 0xFF, 0xFF, 0xFF, 0x0F, 0x61]

theorem wrappingBlock_outside :
    ¬ StaysInside .x86 (getDefaultHpackDynamicTableState 4096) wrappingBlock := by
  intro h
  have hwrap : ItemWraps .x86 wrappingBlock
      (.start (getDefaultHpackDynamicTableState 4096)) := by
    refine ⟨4, rfl, 0, _, rfl, .inl ⟨rfl, by decide, by decide, _, _, rfl, ?_, by decide⟩⟩
    rfl
  have hstart : (Decoder.start (getDefaultHpackDynamicTableState 4096)).Inside wrappingBlock :=
    nofun
  exact iteration_outside (by decide) (by decide) hstart hwrap (h.reads _ .start (by decide))

end SimpleServer.Hpack
