import Mathlib.Data.List.Basic
import Mathlib.Data.UInt
import Mathlib.Tactic.IntervalCases

/-!
# Base64

Three bytes are written as four letters of six bits each. The last group may have one or two bytes
and is filled up with '='.

* `decode_encode`: **what is encoded is decoded again.**
* `length_encode`, `zero_notMem_encode`: what a text of letters looks like.
* `decodeLetters_of_decode`: reading letters up to something else agrees with reading whole groups.
-/

namespace Lib.Base64

/-- The letter for six bits. -/
def letter (value : ℕ) : UInt8 :=
  if value < 26 then UInt8.ofNat (0x41 + value)
  else if value < 52 then UInt8.ofNat (0x61 + (value - 26))
  else if value < 62 then UInt8.ofNat (0x30 + (value - 52))
  else if value = 62 then 0x2B
  else 0x2F

/-- The sign at the end of a group that is not full. -/
def pad : UInt8 := 0x3D

/-- The six bits of a letter. -/
def letterValue (c : UInt8) : Option ℕ :=
  if 0x41 ≤ c ∧ c ≤ 0x5A then some (c.toNat - 0x41)
  else if 0x61 ≤ c ∧ c ≤ 0x7A then some (c.toNat - 0x61 + 26)
  else if 0x30 ≤ c ∧ c ≤ 0x39 then some (c.toNat - 0x30 + 52)
  else if c = 0x2B then some 62
  else if c = 0x2F then some 63
  else none

def encode : List UInt8 → List UInt8
  | [] => []
  | [a] => [letter (a.toNat / 4), letter (a.toNat % 4 * 16), pad, pad]
  | [a, b] =>
    [letter (a.toNat / 4), letter (a.toNat % 4 * 16 + b.toNat / 16), letter (b.toNat % 16 * 4), pad]
  | a :: b :: c :: rest =>
    letter (a.toNat / 4) :: letter (a.toNat % 4 * 16 + b.toNat / 16) ::
      letter (b.toNat % 16 * 4 + c.toNat / 64) :: letter (c.toNat % 64) :: encode rest

/-- A full group. -/
def decodeGroup (a b c d : UInt8) : Option (List UInt8) := do
  let a ← letterValue a
  let b ← letterValue b
  let c ← letterValue c
  let d ← letterValue d
  return [UInt8.ofNat (a * 4 + b / 16), UInt8.ofNat (b % 16 * 16 + c / 4),
    UInt8.ofNat (c % 4 * 64 + d)]

/-- The last group. -/
def decodeLast (a b c d : UInt8) : Option (List UInt8) :=
  if d = pad then do
    let a ← letterValue a
    let b ← letterValue b
    if c = pad then return [UInt8.ofNat (a * 4 + b / 16)]
    else
      let c ← letterValue c
      return [UInt8.ofNat (a * 4 + b / 16), UInt8.ofNat (b % 16 * 16 + c / 4)]
  else decodeGroup a b c d

/-- The bytes of a text of groups, `none` if it is not one. -/
def decode : List UInt8 → Option (List UInt8)
  | [] => some []
  | [a, b, c, d] => decodeLast a b c d
  | a :: b :: c :: d :: rest => do
    let group ← decodeGroup a b c d
    let bytes ← decode rest
    return group ++ bytes
  | _ => none

/-! ## Letters -/

theorem letterValue_letter {value : ℕ} (h : value < 64) :
    letterValue (letter value) = some value := by
  interval_cases value <;> rfl

theorem letter_ne_pad {value : ℕ} (h : value < 64) : letter value ≠ pad := by
  intro hpad
  have hvalue := letterValue_letter h
  rw [hpad] at hvalue
  cases hvalue

theorem letter_ne_zero {value : ℕ} (h : value < 64) : letter value ≠ 0 := by
  intro hzero
  have hvalue := letterValue_letter h
  rw [hzero] at hvalue
  cases hvalue

/-! ## Round trip -/

variable {a b c : UInt8}

/-- Two numbers make up a byte again. -/
theorem ofNat_eq {n : ℕ} (h : n = a.toNat) : UInt8.ofNat n = a := by
  rw [h, UInt8.ofNat_toNat]

theorem decodeGroup_encode (a b c : UInt8) :
    decodeGroup (letter (a.toNat / 4)) (letter (a.toNat % 4 * 16 + b.toNat / 16))
      (letter (b.toNat % 16 * 4 + c.toNat / 64)) (letter (c.toNat % 64)) = some [a, b, c] := by
  have ha := a.toNat_lt
  have hb := b.toNat_lt
  have hc := c.toNat_lt
  unfold decodeGroup
  rw [letterValue_letter (by omega), letterValue_letter (by omega), letterValue_letter (by omega),
    letterValue_letter (by omega)]
  have hfirst : UInt8.ofNat (a.toNat / 4 * 4 + (a.toNat % 4 * 16 + b.toNat / 16) / 16) = a :=
    ofNat_eq (by omega)
  have hsecond : UInt8.ofNat ((a.toNat % 4 * 16 + b.toNat / 16) % 16 * 16 +
      (b.toNat % 16 * 4 + c.toNat / 64) / 4) = b := ofNat_eq (by omega)
  have hthird : UInt8.ofNat ((b.toNat % 16 * 4 + c.toNat / 64) % 4 * 64 + c.toNat % 64) = c :=
    ofNat_eq (by omega)
  simp only [Option.bind_eq_bind, Option.bind_some, Option.pure_def, hfirst, hsecond, hthird]

theorem decodeLast_encode_two (a b : UInt8) :
    decodeLast (letter (a.toNat / 4)) (letter (a.toNat % 4 * 16 + b.toNat / 16))
      (letter (b.toNat % 16 * 4)) pad = some [a, b] := by
  have ha := a.toNat_lt
  have hb := b.toNat_lt
  unfold decodeLast
  rw [if_pos rfl, letterValue_letter (by omega), letterValue_letter (by omega),
    letterValue_letter (by omega)]
  have hfirst : UInt8.ofNat (a.toNat / 4 * 4 + (a.toNat % 4 * 16 + b.toNat / 16) / 16) = a :=
    ofNat_eq (by omega)
  have hsecond : UInt8.ofNat ((a.toNat % 4 * 16 + b.toNat / 16) % 16 * 16 +
      b.toNat % 16 * 4 / 4) = b := ofNat_eq (by omega)
  have hpad : letter (b.toNat % 16 * 4) ≠ pad := letter_ne_pad (by omega)
  simp only [Option.bind_eq_bind, Option.bind_some, Option.pure_def, if_neg hpad, hfirst, hsecond]

theorem decodeLast_encode_one (a : UInt8) :
    decodeLast (letter (a.toNat / 4)) (letter (a.toNat % 4 * 16)) pad pad = some [a] := by
  have ha := a.toNat_lt
  unfold decodeLast
  rw [if_pos rfl, letterValue_letter (by omega), letterValue_letter (by omega)]
  have hfirst : UInt8.ofNat (a.toNat / 4 * 4 + a.toNat % 4 * 16 / 16) = a := ofNat_eq (by omega)
  simp only [Option.bind_eq_bind, Option.bind_some, Option.pure_def, if_true, hfirst]

theorem decode_group {d : UInt8} {rest : List UInt8} (hd : d ≠ pad) :
    decode (a :: b :: c :: d :: rest) =
      (decodeGroup a b c d).bind fun group => (decode rest).map fun bytes => group ++ bytes := by
  cases rest with
  | nil =>
    rw [show decode [a, b, c, d] = decodeLast a b c d from rfl]
    unfold decodeLast
    rw [if_neg hd]
    cases decodeGroup a b c d <;> simp [decode]
  | cons e rest =>
    rw [decode]
    · cases decodeGroup a b c d with
      | none => rfl
      | some group => cases decode (e :: rest) <;> rfl
    · simp

/-- **What is encoded is decoded again.** -/
theorem decode_encode (bytes : List UInt8) : decode (encode bytes) = some bytes := by
  fun_induction encode bytes with
  | case1 => rfl
  | case2 a => exact decodeLast_encode_one a
  | case3 a b => exact decodeLast_encode_two a b
  | case4 a b c rest ih =>
    have hc : c.toNat % 64 < 64 := Nat.mod_lt _ (by omega)
    rw [decode_group (letter_ne_pad hc), decodeGroup_encode, ih]
    rfl

/-! ## The text -/

theorem length_encode (bytes : List UInt8) :
    (encode bytes).length = (bytes.length + 2) / 3 * 4 := by
  fun_induction encode bytes with
  | case1 => rfl
  | case2 a => simp
  | case3 a b => simp
  | case4 a b c rest ih =>
    simp only [List.length_cons, ih]
    omega

theorem zero_notMem_encode (bytes : List UInt8) : 0 ∉ encode bytes := by
  have hletter {value : ℕ} (h : value < 64) : (0 : UInt8) ≠ letter value := (letter_ne_zero h).symm
  have hpad : (0 : UInt8) ≠ pad := by decide
  fun_induction encode bytes with
  | case1 => exact List.not_mem_nil
  | case2 a =>
    have ha := a.toNat_lt
    simp [hletter (show a.toNat / 4 < 64 by omega),
      hletter (show a.toNat % 4 * 16 < 64 by omega), hpad]
  | case3 a b =>
    have ha := a.toNat_lt
    have hb := b.toNat_lt
    simp [hletter (show a.toNat / 4 < 64 by omega),
      hletter (show a.toNat % 4 * 16 + b.toNat / 16 < 64 by omega),
      hletter (show b.toNat % 16 * 4 < 64 by omega), hpad]
  | case4 a b c rest ih =>
    have ha := a.toNat_lt
    have hb := b.toNat_lt
    have hc := c.toNat_lt
    simp [hletter (show a.toNat / 4 < 64 by omega),
      hletter (show a.toNat % 4 * 16 + b.toNat / 16 < 64 by omega),
      hletter (show b.toNat % 16 * 4 + c.toNat / 64 < 64 by omega),
      hletter (show c.toNat % 64 < 64 by omega), ih]

theorem encode_eq_nil {bytes : List UInt8} : encode bytes = [] ↔ bytes = [] := by
  constructor
  · intro h
    have hdecode := decode_encode bytes
    rw [h] at hdecode
    exact (Option.some.inj hdecode).symm
  · rintro rfl
    rfl

/-! ## Letters without groups -/

/-- The bytes of numbers of six bits; bits that do not make up a byte are left out. -/
def ofSixBits : List ℕ → List UInt8
  | a :: b :: c :: d :: rest =>
    UInt8.ofNat (a * 4 + b / 16) :: UInt8.ofNat (b % 16 * 16 + c / 4) ::
      UInt8.ofNat (c % 4 * 64 + d) :: ofSixBits rest
  | [a, b, c] => [UInt8.ofNat (a * 4 + b / 16), UInt8.ofNat (b % 16 * 16 + c / 4)]
  | [a, b] => [UInt8.ofNat (a * 4 + b / 16)]
  | _ => []

def isLetter (c : UInt8) : Bool := (letterValue c).isSome

/-- The letters that a text starts with. -/
def leadingLetters (text : List UInt8) : List UInt8 := text.takeWhile isLetter

/-- What the letters at the start of a text stand for. -/
def decodeLetters (text : List UInt8) : List UInt8 :=
  ofSixBits ((leadingLetters text).filterMap letterValue)

theorem length_ofSixBits (values : List ℕ) :
    (ofSixBits values).length = values.length / 4 * 3 + (values.length % 4 - 1) := by
  fun_induction ofSixBits values with
  | case1 a b c d rest ih =>
    simp only [List.length_cons, ih]
    omega
  | case2 a b c => simp
  | case3 a b => simp
  | case4 values h1 h2 h3 =>
    rcases values with _ | ⟨a, _ | ⟨b, _ | ⟨c, _ | ⟨d, rest⟩⟩⟩⟩
    · simp
    · simp
    · exact absurd rfl (h3 a b)
    · exact absurd rfl (h2 a b c)
    · exact absurd rfl (h1 a b c d rest)

theorem leadingLetters_cons {c : UInt8} {value : ℕ} (h : letterValue c = some value)
    (text : List UInt8) : leadingLetters (c :: text) = c :: leadingLetters text := by
  have hletter : isLetter c = true := by rw [isLetter, h, Option.isSome_some]
  rw [leadingLetters, List.takeWhile_cons_of_pos hletter]
  rfl

theorem leadingLetters_pad (text : List UInt8) : leadingLetters (pad :: text) = [] := rfl

/-- Every letter stands for a number. -/
theorem length_letters (text : List UInt8) :
    ((leadingLetters text).filterMap letterValue).length = (leadingLetters text).length := by
  induction text with
  | nil => rfl
  | cons c text ih =>
    cases hvalue : letterValue c with
    | none =>
      have hletter : isLetter c = false := by rw [isLetter, hvalue, Option.isSome_none]
      rw [leadingLetters, List.takeWhile_cons_of_neg (by rw [hletter]; exact Bool.false_ne_true)]
      rfl
    | some value =>
      rw [leadingLetters_cons hvalue, List.filterMap_cons, hvalue, List.length_cons,
        List.length_cons, ih]

/-- How many bytes the letters at the start of a text stand for. -/
theorem length_decodeLetters (text : List UInt8) :
    (decodeLetters text).length =
      (leadingLetters text).length / 4 * 3 + ((leadingLetters text).length % 4 - 1) := by
  rw [decodeLetters, length_ofSixBits, length_letters]

theorem decodeLetters_group {d : UInt8} {group : List UInt8} (h : decodeGroup a b c d = some group)
    (text : List UInt8) :
    decodeLetters (a :: b :: c :: d :: text) = group ++ decodeLetters text := by
  simp only [decodeGroup, Option.bind_eq_bind, Option.bind_eq_some_iff, Option.pure_def,
    Option.some.injEq] at h
  obtain ⟨va, ha, vb, hb, vc, hc, vd, hd, rfl⟩ := h
  unfold decodeLetters
  rw [leadingLetters_cons ha, leadingLetters_cons hb, leadingLetters_cons hc,
    leadingLetters_cons hd]
  simp only [List.filterMap_cons, ha, hb, hc, hd, ofSixBits, List.cons_append, List.nil_append]

theorem decodeLetters_last {d : UInt8} {bytes : List UInt8}
    (h : decodeLast a b c d = some bytes) : decodeLetters [a, b, c, d] = bytes := by
  unfold decodeLast at h
  split_ifs at h with hd hc
  · simp only [Option.bind_eq_bind, Option.bind_eq_some_iff, Option.pure_def,
      Option.some.injEq] at h
    obtain ⟨va, ha, vb, hb, rfl⟩ := h
    unfold decodeLetters
    rw [leadingLetters_cons ha, leadingLetters_cons hb, hc, leadingLetters_pad]
    simp only [List.filterMap_cons, ha, hb, List.filterMap_nil, ofSixBits]
  · simp only [Option.bind_eq_bind, Option.bind_eq_some_iff, Option.pure_def,
      Option.some.injEq] at h
    obtain ⟨va, ha, vb, hb, vc, hc, rfl⟩ := h
    unfold decodeLetters
    rw [hd, leadingLetters_cons ha, leadingLetters_cons hb, leadingLetters_cons hc,
      leadingLetters_pad]
    simp only [List.filterMap_cons, ha, hb, hc, List.filterMap_nil, ofSixBits]
  · have hgroup := decodeLetters_group h []
    have hnil : decodeLetters [] = [] := rfl
    rw [hnil, List.append_nil] at hgroup
    exact hgroup

/-- **Letters and groups**: what a text of groups stands for, its letters stand for. -/
theorem decodeLetters_of_decode {text bytes : List UInt8} (h : decode text = some bytes) :
    decodeLetters text = bytes := by
  fun_induction decode text generalizing bytes with
  | case1 => exact Option.some.inj h
  | case2 a b c d => exact decodeLetters_last h
  | case3 a b c d rest hrest ih =>
    simp only [Option.bind_eq_bind, Option.bind_eq_some_iff, Option.pure_def,
      Option.some.injEq] at h
    obtain ⟨group, hgroup, bytes', hbytes, rfl⟩ := h
    rw [decodeLetters_group hgroup, ih hbytes]
  | case4 => cases h

end Lib.Base64
