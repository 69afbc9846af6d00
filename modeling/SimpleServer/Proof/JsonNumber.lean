import SimpleServer.Json.Grammar
import SimpleServer.Json.Parse

/-!
# The numbers the parser reads

What the functions for the parts of a number do on the text of such a part, and what text they
have read when they give a result.

* `parseNumber_reads`: the text of a number is read, or ends in a fault.
* `parseNumber_sound`: what was read is the text of a number.
* `NumberStops`, `parseNumber_faults`, `parseNumber_stops`: the faults.
-/

namespace SimpleServer.Json

variable {rest : Bytes} {loc : SourceLocation} {st st' : JsonParseState}

/-! ## Digits -/

/-- The bytes do not begin with one of a kind. -/
def NoHead (kind : UInt8 → Bool) (rest : Bytes) : Prop :=
  ∀ first ∈ rest.head?, kind first = false

theorem noHead_nil (kind : UInt8 → Bool) : NoHead kind [] := by
  intro first h
  cases h

theorem noHead_cons {kind : UInt8 → Bool} {first : UInt8} :
    NoHead kind (first :: rest) ↔ kind first = false := by
  simp [NoHead]

theorem isDigit_digitByte : ∀ digit : Digit, isDigit (digitByte digit) = true := by decide

theorem digitByte_sub : ∀ digit : Digit, (digitByte digit - 0x30).toNat = digit := by decide

theorem digitByte_toUInt64 :
    ∀ digit : Digit, (digitByte digit - 0x30).toUInt64 = UInt64.ofNat digit := by decide

theorem exists_digit : ∀ value : UInt8, isDigit value = true →
    ∃ digit : Digit, value = digitByte digit := by
  intro value h
  simp only [isDigit, Bool.and_eq_true, decide_eq_true_eq, UInt8.le_iff_toNat_le,
    UInt8.reduceToNat] at h
  refine ⟨⟨value.toNat - 0x30, by omega⟩, ?_⟩
  apply UInt8.toNat_inj.1
  simp only [digitByte, UInt8.toNat_ofNat']
  omega

/-- The digits at the beginning of the bytes. -/
theorem exists_digits (view : Bytes) :
    ∃ digits rest, view = digitBytes digits ++ rest ∧ NoHead isDigit rest := by
  induction view with
  | nil => exact ⟨[], [], rfl, noHead_nil _⟩
  | cons first view ih =>
    by_cases hfirst : isDigit first = true
    · obtain ⟨digit, rfl⟩ := exists_digit first hfirst
      obtain ⟨digits, rest, rfl, hrest⟩ := ih
      exact ⟨digit :: digits, rest, rfl, hrest⟩
    · exact ⟨[], first :: view, rfl, noHead_cons.2 (by simpa using hfirst)⟩

theorem digitBytes_cons (digit : Digit) (digits : List Digit) :
    digitBytes (digit :: digits) = digitByte digit :: digitBytes digits := rfl

theorem decimalFrom_cons (value : ℕ) (digit : Digit) (digits : List Digit) :
    decimalFrom value (digit :: digits) = decimalFrom (value * 10 + digit) digits := rfl

theorem le_decimalFrom (value : ℕ) (digits : List Digit) : value ≤ decimalFrom value digits := by
  induction digits generalizing value with
  | nil => exact le_rfl
  | cons digit digits ih =>
    have h := ih (value * 10 + digit)
    rw [decimalFrom_cons]
    omega

/-! ## The integer part -/

/-- One round of the loop of the integer part. -/
def intRound (value : UInt64) (digit : Digit) : UInt64 := value * 10 + UInt64.ofNat digit

/-- The test of the loop does not see a value that gets too large. -/
def WrapUnseen : UInt64 → List Digit → Prop
  | _, [] => True
  | value, digit :: digits =>
    value ≤ intRound value digit ∧ WrapUnseen (intRound value digit) digits

/-- The integer part passes the test for an overflow. -/
def IntText.Unseen : IntText → Prop
  | .zero => True
  | .digits first more => WrapUnseen (UInt64.ofNat first.succ) more

/-- The integer part as the code reads it. -/
def IntText.read : IntText → UInt64
  | .zero => 0
  | .digits first more => more.foldl intRound (UInt64.ofNat first.succ)

theorem intPartLoop_digit (digit : Digit) (view : Bytes) (loc : SourceLocation) (value : UInt64) :
    intPartLoop (digitByte digit :: view) loc value =
      if value > intRound value digit then
        JsonParseState.errorAt ⟨view, loc.advanceColBy 1⟩
          "invalid number int part: value overflowed a 64 bit number!"
      else intPartLoop view (loc.advanceColBy 1) (intRound value digit) := by
  rw [intPartLoop]
  simp only [isDigit_digitByte, not_true_eq_false, if_false, digitByte_toUInt64]
  rfl

theorem intPartLoop_reads {digits : List Digit} {value : UInt64} (loc : SourceLocation)
    (hrest : NoHead isDigit rest) (h : WrapUnseen value digits) :
    Reads (intPartLoop (digitBytes digits ++ rest) loc value)
      (digits.foldl intRound value) rest := by
  induction digits generalizing value loc with
  | nil =>
    cases rest with
    | nil => exact ⟨loc, rfl⟩
    | cons next rest =>
      refine ⟨loc, ?_⟩
      have hnext := noHead_cons.1 hrest
      simp [digitBytes, intPartLoop, hnext]
  | cons digit digits ih =>
    obtain ⟨hround, hmore⟩ := h
    have hseen : ¬ value > intRound value digit := UInt64.not_lt.2 hround
    rw [digitBytes_cons, List.cons_append, intPartLoop_digit, if_neg hseen]
    exact ih _ hmore

theorem intPartLoop_ok {digits : List Digit} {value out : UInt64} (hrest : NoHead isDigit rest)
    (h : intPartLoop (digitBytes digits ++ rest) loc value = .ok (out, st')) :
    WrapUnseen value digits ∧ out = digits.foldl intRound value ∧ st'.view = rest := by
  by_cases hunseen : WrapUnseen value digits
  · obtain ⟨loc', hreads⟩ := intPartLoop_reads loc hrest hunseen
    rw [hreads] at h
    cases h
    exact ⟨hunseen, rfl, rfl⟩
  · exfalso
    induction digits generalizing value loc with
    | nil => exact hunseen trivial
    | cons digit digits ih =>
      rw [digitBytes_cons, List.cons_append, intPartLoop_digit] at h
      split_ifs at h with hover
      · simp at h
      · apply ih h
        intro hmore
        exact hunseen ⟨UInt64.not_lt.1 hover, hmore⟩

theorem intPartLoop_no_fault (view : Bytes) (loc : SourceLocation) (value : UInt64)
    (fault : Fault) : intPartLoop view loc value ≠ .error (.fault fault) := by
  induction view generalizing loc value with
  | nil => simp [intPartLoop]
  | cons next view ih =>
    rw [intPartLoop]
    dsimp only
    split_ifs
    · simp
    · exact ih _ _
    · simp

theorem parseNumberIntPart_reads {int : IntText} (loc : SourceLocation)
    (hrest : NoHead isDigit rest) (h : int.Unseen) :
    Reads (parseNumberIntPart ⟨int.bytes ++ rest, loc⟩) int.read rest := by
  cases int with
  | zero => exact ⟨loc.advanceColBy 1, rfl⟩
  | digits first more =>
    have hfirst : ∀ first : Fin 9, digitByte first.succ ≠ 0x30 ∧
        ¬ (digitByte first.succ > 0x39 ∨ digitByte first.succ < 0x31) := by decide
    rw [IntText.bytes, List.cons_append, parseNumberIntPart]
    simp only [(hfirst first).1, (hfirst first).2, if_false, digitByte_toUInt64]
    exact intPartLoop_reads _ hrest h

theorem parseNumberIntPart_sound {out : UInt64} (h : parseNumberIntPart st = .ok (out, st')) :
    ∃ int : IntText, st.view = int.bytes ++ st'.view ∧ int.Unseen ∧ out = int.read := by
  obtain ⟨view, loc⟩ := st
  cases view with
  | nil => simp [parseNumberIntPart] at h
  | cons first view =>
    simp only [parseNumberIntPart] at h
    split_ifs at h with hzero hstart
    · cases h
      exact ⟨.zero, by simp [hzero, IntText.bytes, JsonParseState.skipBy], trivial, rfl⟩
    · simp at h
    · -- the first digit is not zero
      have hdigit : isDigit first = true := by
        simp only [not_or, gt_iff_lt, UInt8.not_lt, UInt8.le_iff_toNat_le, UInt8.reduceToNat]
          at hstart
        simp only [isDigit, Bool.and_eq_true, decide_eq_true_eq, UInt8.le_iff_toNat_le,
          UInt8.reduceToNat]
        omega
      obtain ⟨digit, rfl⟩ := exists_digit first hdigit
      obtain ⟨digit, rfl⟩ : ∃ first : Fin 9, digit = first.succ := by
        have hne : digit ≠ 0 := by
          rintro rfl
          exact hzero rfl
        exact ⟨digit.pred hne, (Fin.succ_pred digit hne).symm⟩
      obtain ⟨digits, rest, rfl, hrest⟩ := exists_digits view
      rw [digitByte_toUInt64] at h
      obtain ⟨hunseen, rfl, rfl⟩ := intPartLoop_ok hrest h
      exact ⟨.digits digit digits, rfl, hunseen, rfl⟩

theorem parseNumberIntPart_no_fault (st : JsonParseState) (fault : Fault) :
    parseNumberIntPart st ≠ .error (.fault fault) := by
  obtain ⟨view, loc⟩ := st
  cases view with
  | nil => simp [parseNumberIntPart]
  | cons first view =>
    simp only [parseNumberIntPart]
    split_ifs <;> simp [intPartLoop_no_fault]

/-- Without an overflow the loop computes the decimal number. -/
theorem intRounds_of_fits {digits : List Digit} {value : UInt64}
    (h : decimalFrom value.toNat digits < 2 ^ 64) :
    WrapUnseen value digits ∧
      (digits.foldl intRound value).toNat = decimalFrom value.toNat digits := by
  induction digits generalizing value with
  | nil => exact ⟨trivial, rfl⟩
  | cons digit digits ih =>
    have hle := le_decimalFrom (value.toNat * 10 + digit) digits
    rw [decimalFrom_cons] at h
    have hround : (intRound value digit).toNat = value.toNat * 10 + digit := by
      have hdigit := digit.isLt
      simp only [intRound, UInt64.toNat_add, UInt64.toNat_mul, UInt64.toNat_ofNat',
        UInt64.reduceToNat]
      omega
    rw [← hround] at h
    obtain ⟨hunseen, hvalue⟩ := ih h
    refine ⟨⟨?_, hunseen⟩, ?_⟩
    · rw [UInt64.le_iff_toNat_le, hround]
      omega
    · rw [List.foldl_cons, hvalue, hround, decimalFrom_cons]

/-- **An integer part that fits passes the test and is read as it is.** -/
theorem IntText.read_of_fits {int : IntText} (h : int.value < 2 ^ 64) :
    int.Unseen ∧ int.read.toNat = int.value := by
  cases int with
  | zero => exact ⟨trivial, rfl⟩
  | digits first more =>
    have hfirst : (UInt64.ofNat first.succ).toNat = first.succ := by
      have hlt := first.succ.isLt
      rw [UInt64.toNat_ofNat']
      omega
    rw [IntText.value, ← hfirst] at h
    have hrounds := intRounds_of_fits h
    rw [hfirst] at hrounds
    exact hrounds

/-! ## The fraction -/

theorem fracPartLoop_reads {digits : List Digit} {divider value : ℚ} (hdivider : divider ≠ 0)
    (hrest : NoHead isDigit rest) :
    Reads (fracPartLoop (digitBytes digits ++ rest) loc divider value)
      (value + fraction digits / divider) rest := by
  induction digits generalizing divider value loc with
  | nil =>
    refine ⟨loc, ?_⟩
    cases rest with
    | nil => simp [digitBytes, fracPartLoop, fraction]
    | cons next rest =>
      have hnext := noHead_cons.1 hrest
      simp [digitBytes, fracPartLoop, hnext, fraction]
  | cons digit digits ih =>
    rw [digitBytes_cons, List.cons_append, fracPartLoop]
    simp only [isDigit_digitByte, not_true_eq_false, if_false, digitByte_sub]
    have hsum : value + fraction (digit :: digits) / divider =
        value + (digit : ℕ) / (divider * 10) + fraction digits / (divider * 10) := by
      rw [fraction]
      field_simp
      ring
    rw [hsum]
    exact ih (mul_ne_zero hdivider (by norm_num))

theorem parseNumberFracPart_reads (frac : FracText) (loc : SourceLocation)
    (hrest : NoHead isDigit rest) :
    Reads (parseNumberFracPart ⟨frac.bytes ++ rest, loc⟩) frac.value rest := by
  rw [FracText.bytes, digitBytes_cons, List.cons_append, List.cons_append, parseNumberFracPart]
  simp only [ne_eq, not_true_eq_false, if_false, isDigit_digitByte, digitByte_sub]
  have hvalue : frac.value = ((frac.first : ℕ) : ℚ) / 10 + fraction frac.more / 10 := by
    rw [FracText.value, fraction, add_div]
  rw [hvalue]
  exact fracPartLoop_reads (by norm_num) hrest

theorem parseNumberFracPart_sound {out : ℚ} (h : parseNumberFracPart st = .ok (out, st')) :
    ∃ frac : FracText, st.view = frac.bytes ++ st'.view ∧ out = frac.value ∧
      NoHead isDigit st'.view := by
  obtain ⟨view, loc⟩ := st
  cases view with
  | nil => simp [parseNumberFracPart] at h
  | cons next view =>
    by_cases hnext : next = 0x2E
    · subst hnext
      cases view with
      | nil => simp [parseNumberFracPart] at h
      | cons first view =>
        by_cases hfirst : isDigit first = true
        · obtain ⟨digit, rfl⟩ := exists_digit first hfirst
          obtain ⟨digits, rest, rfl, hrest⟩ := exists_digits view
          obtain ⟨loc', hreads⟩ := parseNumberFracPart_reads ⟨digit, digits⟩ loc hrest
          have heq : FracText.bytes ⟨digit, digits⟩ ++ rest =
              0x2E :: digitByte digit :: (digitBytes digits ++ rest) := rfl
          rw [heq, h] at hreads
          cases hreads
          exact ⟨⟨digit, digits⟩, rfl, rfl, hrest⟩
        · simp [parseNumberFracPart, hfirst] at h
    · simp [parseNumberFracPart, hnext] at h

theorem fracPartLoop_no_fault (view : Bytes) (loc : SourceLocation) (divider value : ℚ)
    (fault : Fault) : fracPartLoop view loc divider value ≠ .error (.fault fault) := by
  induction view generalizing loc divider value with
  | nil => simp [fracPartLoop]
  | cons next view ih =>
    rw [fracPartLoop]
    split_ifs <;> simp [ih]

theorem parseNumberFracPart_no_fault (st : JsonParseState) (fault : Fault) :
    parseNumberFracPart st ≠ .error (.fault fault) := by
  unfold parseNumberFracPart
  split
  · simp
  · split_ifs
    · simp
    · split
      · simp
      · split_ifs <;> simp [fracPartLoop_no_fault]

/-! ## The exponent -/

theorem expPartLoop_digit (digit : Digit) (view : Bytes) (loc : SourceLocation) (value : ℕ) :
    expPartLoop (digitByte digit :: view) loc value =
      if 2 ^ 63 ≤ value * 10 + digit then .error (.fault .undefined)
      else expPartLoop view (loc.advanceColBy 1) (value * 10 + digit : ℕ) := by
  have hsum : (value : ℤ) * 10 + ((digit : ℕ) : ℤ) = (value * 10 + digit : ℕ) := by
    push_cast
    ring
  rw [expPartLoop]
  simp only [isDigit_digitByte, not_true_eq_false, if_false, digitByte_sub, hsum]
  by_cases hlarge : 2 ^ 63 ≤ value * 10 + (digit : ℕ)
  · rw [if_pos hlarge, if_pos (by exact_mod_cast hlarge)]
  · -- the test of the loop comes too late: the sum does not get smaller
    have hkept : ¬ (value : ℤ) > ((value * 10 + digit : ℕ) : ℤ) := by
      push_cast
      omega
    rw [if_neg hlarge, if_neg (by exact_mod_cast hlarge), if_neg hkept]

theorem expPartLoop_reads {digits : List Digit} {value : ℕ} (hrest : NoHead isDigit rest)
    (h : decimalFrom value digits < 2 ^ 63) :
    Reads (expPartLoop (digitBytes digits ++ rest) loc value) (decimalFrom value digits) rest := by
  induction digits generalizing value loc with
  | nil =>
    refine ⟨loc, ?_⟩
    cases rest with
    | nil => rfl
    | cons next rest =>
      have hnext := noHead_cons.1 hrest
      simp [digitBytes, expPartLoop, hnext, decimalFrom]
  | cons digit digits ih =>
    have hle := le_decimalFrom (value * 10 + digit) digits
    rw [decimalFrom_cons] at h
    rw [digitBytes_cons, List.cons_append, expPartLoop_digit, if_neg (by omega), decimalFrom_cons]
    exact ih h

/-- A value beyond `int64_t` is a fault, whatever follows. -/
theorem expPartLoop_faults {digits : List Digit} {value : ℕ} (hvalue : value < 2 ^ 63)
    (h : 2 ^ 63 ≤ decimalFrom value digits) (rest : Bytes) :
    Faults (expPartLoop (digitBytes digits ++ rest) loc value) := by
  induction digits generalizing value loc with
  | nil =>
    exfalso
    exact absurd h (not_le.2 hvalue)
  | cons digit digits ih =>
    rw [digitBytes_cons, List.cons_append, expPartLoop_digit]
    split_ifs with hlarge
    · exact ⟨.undefined, rfl⟩
    · rw [decimalFrom_cons] at h
      exact ih (by omega) h

theorem digitByte_ne_sign : ∀ digit : Digit, digitByte digit ≠ 0x2B ∧ digitByte digit ≠ 0x2D := by
  decide

/-- The sign is taken off, and the loop sees the other digits. -/
theorem parseNumberExpPart_text (exp : ExpText) (rest : Bytes) (loc : SourceLocation) :
    ∃ loc', parseNumberExpPart ⟨exp.bytes ++ rest, loc⟩ =
      (expPartLoop (digitBytes exp.more ++ rest) loc' (exp.first : ℕ)).andThen fun value st =>
        .ok (if exp.sign = some true then -value else value, st) := by
  obtain ⟨upper, sign, first, more⟩ := exp
  obtain ⟨hplus, hminus⟩ := digitByte_ne_sign first
  have hletter : ∀ upper : Bool,
      ¬ ((if upper then 0x45 else 0x65 : UInt8) ≠ 0x65 ∧
        (if upper then 0x45 else 0x65 : UInt8) ≠ 0x45) := by decide
  simp only [parseNumberExpPart, ExpText.bytes, List.cons_append, hletter upper, if_false,
    JsonParseState.skipBy, JsonParseState.isEof, List.drop_one, List.tail_cons]
  rcases sign with _ | _ | _
  · refine ⟨(loc.advanceColBy 1).advanceColBy 1, ?_⟩
    simp [signBytes, expSign, digitBytes_cons, hplus, hminus, isDigit_digitByte, digitByte_sub]
  · refine ⟨((loc.advanceColBy 1).advanceColBy 1).advanceColBy 1, ?_⟩
    simp [signBytes, expSign, digitBytes_cons, JsonParseState.skipBy, isDigit_digitByte,
      digitByte_sub]
  · refine ⟨((loc.advanceColBy 1).advanceColBy 1).advanceColBy 1, ?_⟩
    simp [signBytes, expSign, digitBytes_cons, JsonParseState.skipBy, isDigit_digitByte,
      digitByte_sub]

theorem parseNumberExpPart_reads {exp : ExpText} (loc : SourceLocation)
    (hrest : NoHead isDigit rest) (h : exp.magnitude < 2 ^ 63) :
    Reads (parseNumberExpPart ⟨exp.bytes ++ rest, loc⟩) exp.value rest := by
  obtain ⟨loc', htext⟩ := parseNumberExpPart_text exp rest loc
  obtain ⟨loc, hloop⟩ := (expPartLoop_reads hrest h).andThen _
  rw [htext, hloop]
  exact ⟨loc, rfl⟩

theorem parseNumberExpPart_faults {exp : ExpText} (h : 2 ^ 63 ≤ exp.magnitude) (rest : Bytes)
    (loc : SourceLocation) :
    Faults (parseNumberExpPart ⟨exp.bytes ++ rest, loc⟩) := by
  obtain ⟨loc', htext⟩ := parseNumberExpPart_text exp rest loc
  rw [htext]
  have hfirst : (exp.first : ℕ) < 2 ^ 63 := by
    have := exp.first.isLt
    omega
  exact (expPartLoop_faults hfirst h rest).andThen

theorem expSign_view (st : JsonParseState) :
    ∃ sign, st.view = signBytes sign ++ (expSign st).2.view := by
  obtain ⟨view, loc⟩ := st
  cases view with
  | nil => exact ⟨none, rfl⟩
  | cons first view =>
    by_cases hplus : first = 0x2B
    · exact ⟨some false, by simp [expSign, hplus, signBytes, JsonParseState.skipBy]⟩
    by_cases hminus : first = 0x2D
    · exact ⟨some true, by simp [expSign, hminus, signBytes, JsonParseState.skipBy]⟩
    exact ⟨none, by simp [expSign, hplus, hminus, signBytes]⟩

/-- Without an error the bytes begin with the text of an exponent. -/
theorem exists_exp (herror : ∀ error, parseNumberExpPart st ≠ .error (.error error)) :
    ∃ exp rest, st.view = ExpText.bytes exp ++ rest ∧ NoHead isDigit rest := by
  obtain ⟨view, loc⟩ := st
  cases view with
  | nil => simp [parseNumberExpPart, JsonParseState.errorAt] at herror
  | cons letter view =>
    simp only [parseNumberExpPart] at herror
    by_cases hletter : letter ≠ 0x65 ∧ letter ≠ 0x45
    · simp [hletter, JsonParseState.errorAt] at herror
    rw [if_neg hletter] at herror
    obtain ⟨upper, rfl⟩ : ∃ upper : Bool, letter = if upper then 0x45 else 0x65 := by
      rcases not_and_or.1 hletter with hlower | hupper
      · exact ⟨false, not_not.1 hlower⟩
      · exact ⟨true, not_not.1 hupper⟩
    by_cases heof : (JsonParseState.skipBy
        ⟨(if upper then 0x45 else 0x65) :: view, loc⟩ 1).isEof = true
    · simp [heof, JsonParseState.errorAt] at herror
    rw [if_neg heof] at herror
    obtain ⟨sign, hsign⟩ := expSign_view
      (JsonParseState.skipBy ⟨(if upper then 0x45 else 0x65) :: view, loc⟩ 1)
    cases hview : (expSign (JsonParseState.skipBy
        ⟨(if upper then 0x45 else 0x65) :: view, loc⟩ 1)).2.view with
    | nil => simp [hview, JsonParseState.errorAt] at herror
    | cons first rest =>
      by_cases hfirst : isDigit first = true
      · obtain ⟨digit, rfl⟩ := exists_digit first hfirst
        obtain ⟨more, rest, rfl, hrest⟩ := exists_digits rest
        refine ⟨⟨upper, sign, digit, more⟩, rest, ?_, hrest⟩
        rw [hview] at hsign
        simp only [JsonParseState.skipBy, List.drop_one, List.tail_cons] at hsign
        simp only [ExpText.bytes, hsign, digitBytes_cons, List.cons_append, List.append_assoc]
      · simp [hview, hfirst, JsonParseState.errorAt] at herror

theorem parseNumberExpPart_sound {out : ℤ} (h : parseNumberExpPart st = .ok (out, st')) :
    ∃ exp : ExpText, st.view = exp.bytes ++ st'.view ∧ out = exp.value ∧
      NoHead isDigit st'.view := by
  have herror : ∀ error, parseNumberExpPart st ≠ .error (.error error) := by simp [h]
  obtain ⟨exp, rest, hview, hrest⟩ := exists_exp herror
  obtain ⟨view, loc⟩ := st
  subst hview
  rcases Nat.lt_or_ge exp.magnitude (2 ^ 63) with hsmall | hlarge
  · obtain ⟨loc', hreads⟩ := parseNumberExpPart_reads loc hrest hsmall
    rw [h] at hreads
    cases hreads
    exact ⟨exp, rfl, rfl, hrest⟩
  · obtain ⟨fault, hfault⟩ := parseNumberExpPart_faults hlarge rest loc
    rw [h] at hfault
    cases hfault

theorem parseNumberExpPart_fault {fault : Fault}
    (h : parseNumberExpPart st = .error (.fault fault)) :
    ∃ exp rest, st.view = ExpText.bytes exp ++ rest ∧ 2 ^ 63 ≤ exp.magnitude := by
  have herror : ∀ error, parseNumberExpPart st ≠ .error (.error error) := by simp [h]
  obtain ⟨exp, rest, hview, hrest⟩ := exists_exp herror
  refine ⟨exp, rest, hview, ?_⟩
  by_contra hsmall
  obtain ⟨view, loc⟩ := st
  subst hview
  obtain ⟨loc', hreads⟩ := parseNumberExpPart_reads loc hrest (not_le.1 hsmall)
  rw [h] at hreads
  cases hreads

/-! ## Whole numbers -/

theorem jsonNumberMakeValueIntExp_eq (value : ℚ) (exp : ℤ) :
    jsonNumberMakeValueIntExp value exp = value * 10 ^ exp := by
  unfold jsonNumberMakeValueIntExp
  split_ifs with hzero hneg
  · rw [hzero, zpow_zero, mul_one]
  · obtain ⟨n, rfl⟩ : ∃ n : ℕ, exp = -n := ⟨(-exp).toNat, by omega⟩
    rw [neg_neg, Int.toNat_natCast, zpow_neg, zpow_natCast, div_eq_mul_inv]
  · obtain ⟨n, rfl⟩ : ∃ n : ℕ, exp = n := ⟨exp.toNat, by omega⟩
    rw [Int.toNat_natCast, zpow_natCast]

theorem signedNumber_eq (minus : Bool) (value : ℚ) :
    signedNumber minus value = .number ((if minus then -1 else 1) * value) := by
  cases minus <;> simp [signedNumber]

/-- Nothing goes on with a number. -/
def EndsNumber (rest : Bytes) : Prop :=
  NoHead (fun next => isDigit next || next == 0x2E || next == 0x65 || next == 0x45) rest

theorem EndsNumber.noDigit (h : EndsNumber rest) : NoHead isDigit rest := by
  intro first hfirst
  have hall := h first hfirst
  simp only [Bool.or_eq_false_iff] at hall
  exact hall.1.1.1

theorem EndsNumber.head {first : UInt8} (h : EndsNumber (first :: rest)) :
    first ≠ 0x2E ∧ ¬ (first = 0x65 ∨ first = 0x45) := by
  have hall := noHead_cons.1 h
  simp only [Bool.or_eq_false_iff, beq_eq_false_iff_ne] at hall
  exact ⟨hall.1.1.2, not_or.2 ⟨hall.1.2, hall.2⟩⟩

/-- An exponent begins with its letter. -/
theorem ExpText.bytes_head (exp : ExpText) : ∃ letter more, exp.bytes = letter :: more ∧
    (letter = 0x65 ∨ letter = 0x45) ∧ letter ≠ 0x2E ∧ isDigit letter = false := by
  refine ⟨_, _, rfl, ?_⟩
  cases exp.upper <;> decide

/-- An exponent at which the parser stops: it is too large, or it is directly behind the integer
part and not at the end of the data. -/
def ExpStops (frac : Option FracText) (exp : ExpText) (rest : Bytes) : Prop :=
  2 ^ 63 ≤ exp.magnitude ∨ frac = none ∧ rest ≠ [] ∧ NoHead isDigit rest

section Behind

variable {minus : Bool} {int value : ℚ} {out : JsonValue}

theorem parseNumberBehindFrac_exp (exp : ExpText) (rest : Bytes) (loc : SourceLocation) :
    parseNumberBehindFrac minus value ⟨exp.bytes ++ rest, loc⟩ =
      (parseNumberExpPart ⟨exp.bytes ++ rest, loc⟩).andThen fun exp st =>
        .ok (signedNumber minus (jsonNumberMakeValueIntExp value exp), st) := by
  obtain ⟨letter, more, hbytes, hletter, -, -⟩ := exp.bytes_head
  rw [hbytes, List.cons_append, parseNumberBehindFrac]
  simp only [hletter, if_true]

theorem parseNumberBehindFrac_reads (exp : Option ExpText) (hrest : EndsNumber rest) :
    Reads (parseNumberBehindFrac minus value ⟨exp.elim [] ExpText.bytes ++ rest, loc⟩)
        (signedNumber minus (value * 10 ^ exp.elim 0 ExpText.value)) rest ∨
      Faults (parseNumberBehindFrac minus value ⟨exp.elim [] ExpText.bytes ++ rest, loc⟩) := by
  cases exp with
  | none =>
    left
    refine ⟨loc, ?_⟩
    cases rest with
    | nil => simp [parseNumberBehindFrac]
    | cons first rest => simp [parseNumberBehindFrac, hrest.head.2]
  | some exp =>
    rw [Option.elim_some, Option.elim_some, parseNumberBehindFrac_exp,
      ← jsonNumberMakeValueIntExp_eq]
    rcases Nat.lt_or_ge exp.magnitude (2 ^ 63) with hsmall | hlarge
    · left
      obtain ⟨loc', hread⟩ := (parseNumberExpPart_reads loc hrest.noDigit hsmall).andThen _
      rw [hread]
      exact ⟨loc', rfl⟩
    · right
      exact (parseNumberExpPart_faults hlarge rest _).andThen

theorem parseNumberBehindFrac_sound (h : parseNumberBehindFrac minus value st = .ok (out, st')) :
    ∃ exp : Option ExpText, st.view = exp.elim [] ExpText.bytes ++ st'.view ∧
      out = signedNumber minus (value * 10 ^ exp.elim 0 ExpText.value) := by
  have hnone : out = signedNumber minus value → st' = st →
      ∃ exp : Option ExpText, st.view = exp.elim [] ExpText.bytes ++ st'.view ∧
        out = signedNumber minus (value * 10 ^ exp.elim 0 ExpText.value) := by
    rintro rfl rfl
    exact ⟨none, rfl, by simp⟩
  unfold parseNumberBehindFrac at h
  split at h
  · cases h
    exact hnone rfl rfl
  · split_ifs at h with hletter
    · obtain ⟨expValue, st₁, hexp, hout⟩ := Parse.andThen_eq_ok.1 h
      cases hout
      obtain ⟨exp, hview, rfl, -⟩ := parseNumberExpPart_sound hexp
      exact ⟨some exp, hview, by rw [jsonNumberMakeValueIntExp_eq]; rfl⟩
    · cases h
      exact hnone rfl rfl

theorem parseNumberBehindFrac_fault {fault : Fault}
    (h : parseNumberBehindFrac minus value st = .error (.fault fault)) :
    ∃ exp rest, st.view = ExpText.bytes exp ++ rest ∧ 2 ^ 63 ≤ exp.magnitude := by
  unfold parseNumberBehindFrac at h
  split at h
  · cases h
  · split_ifs at h with hletter
    rcases Parse.andThen_eq_fault.1 h with hexp | ⟨expValue, st₁, -, hout⟩
    · exact parseNumberExpPart_fault hexp
    · cases hout

/-- The text behind the integer part. -/
def tailBytes (frac : Option FracText) (exp : Option ExpText) : Bytes :=
  frac.elim [] FracText.bytes ++ exp.elim [] ExpText.bytes

/-- What the text behind the integer part makes of its value. -/
def tailValue (frac : Option FracText) (exp : Option ExpText) (int : ℚ) : ℚ :=
  (int + frac.elim 0 FracText.value) * 10 ^ exp.elim 0 ExpText.value

theorem noDigit_exp (exp : ExpText) (rest : Bytes) : NoHead isDigit (exp.bytes ++ rest) := by
  obtain ⟨letter, more, hbytes, -, -, hdigit⟩ := exp.bytes_head
  rw [hbytes, List.cons_append]
  exact noHead_cons.2 hdigit

theorem parseNumberBehindInt_frac (minus : Bool) (int : ℚ) (frac : FracText)
    (hrest : NoHead isDigit rest) (loc : SourceLocation) :
    ∃ loc', parseNumberBehindInt minus int ⟨frac.bytes ++ rest, loc⟩ =
      parseNumberBehindFrac minus (int + frac.value) ⟨rest, loc'⟩ := by
  obtain ⟨loc', hread⟩ := (parseNumberFracPart_reads frac loc hrest).andThen
    fun frac st => parseNumberBehindFrac minus (int + frac) st
  refine ⟨loc', ?_⟩
  rw [← hread]
  rfl

theorem parseNumberBehindInt_exp (exp : ExpText) (rest : Bytes) (loc : SourceLocation) :
    parseNumberBehindInt minus int ⟨exp.bytes ++ rest, loc⟩ =
      (parseNumberExpPart ⟨exp.bytes ++ rest, loc⟩).andThen fun exp st =>
        if st.isEof then .ok (signedNumber minus (jsonNumberMakeValueIntExp int exp), st)
        else .error (.fault .assertion) := by
  obtain ⟨letter, more, hbytes, hletter, hpoint, -⟩ := exp.bytes_head
  rw [hbytes, List.cons_append, parseNumberBehindInt]
  simp only [hletter, hpoint, if_true, if_false]

/-- The text behind the integer part is read, or ends in a fault. -/
theorem parseNumberBehindInt_reads (frac : Option FracText) (exp : Option ExpText)
    (hrest : EndsNumber rest) :
    Reads (parseNumberBehindInt minus int ⟨tailBytes frac exp ++ rest, loc⟩)
        (signedNumber minus (tailValue frac exp int)) rest ∨
      Faults (parseNumberBehindInt minus int ⟨tailBytes frac exp ++ rest, loc⟩) := by
  cases frac with
  | some frac =>
    have hdigit : NoHead isDigit (exp.elim [] ExpText.bytes ++ rest) := by
      cases exp with
      | none => exact hrest.noDigit
      | some exp => exact noDigit_exp exp rest
    obtain ⟨loc', hfrac⟩ := parseNumberBehindInt_frac minus int frac hdigit loc
    rw [tailBytes, Option.elim_some, List.append_assoc, hfrac]
    exact parseNumberBehindFrac_reads exp hrest
  | none =>
    cases exp with
    | none =>
      left
      refine ⟨loc, ?_⟩
      cases rest with
      | nil => simp [tailBytes, tailValue, parseNumberBehindInt]
      | cons first rest =>
        simp [tailBytes, tailValue, parseNumberBehindInt, hrest.head.1, hrest.head.2]
    | some exp =>
      rw [tailBytes, Option.elim_none, List.nil_append, Option.elim_some, parseNumberBehindInt_exp]
      rcases Nat.lt_or_ge exp.magnitude (2 ^ 63) with hsmall | hlarge
      · obtain ⟨loc', hread⟩ := (parseNumberExpPart_reads loc hrest.noDigit hsmall).andThen _
        rw [hread]
        cases rest with
        | nil =>
          left
          refine ⟨loc', ?_⟩
          simp [JsonParseState.isEof, jsonNumberMakeValueIntExp_eq, tailValue]
        | cons first rest =>
          right
          exact ⟨.assertion, rfl⟩
      · right
        exact (parseNumberExpPart_faults hlarge rest _).andThen

theorem parseNumberBehindInt_sound (h : parseNumberBehindInt minus int st = .ok (out, st')) :
    ∃ frac exp, st.view = tailBytes frac exp ++ st'.view ∧
      out = signedNumber minus (tailValue frac exp int) := by
  have hnone : out = signedNumber minus int → st' = st →
      ∃ frac exp, st.view = tailBytes frac exp ++ st'.view ∧
        out = signedNumber minus (tailValue frac exp int) := by
    rintro rfl rfl
    exact ⟨none, none, rfl, by simp [tailValue]⟩
  unfold parseNumberBehindInt at h
  split at h
  · cases h
    exact hnone rfl rfl
  · split_ifs at h with hpoint hletter
    · obtain ⟨fracValue, st₁, hfrac, hbehind⟩ := Parse.andThen_eq_ok.1 h
      obtain ⟨frac, hview, rfl, -⟩ := parseNumberFracPart_sound hfrac
      obtain ⟨exp, hview₁, rfl⟩ := parseNumberBehindFrac_sound hbehind
      refine ⟨some frac, exp, ?_, rfl⟩
      rw [hview, hview₁, tailBytes, Option.elim_some, List.append_assoc]
    · obtain ⟨expValue, st₁, hexp, hout⟩ := Parse.andThen_eq_ok.1 h
      obtain ⟨exp, hview, rfl, -⟩ := parseNumberExpPart_sound hexp
      split_ifs at hout with heof
      cases hout
      refine ⟨none, some exp, hview, ?_⟩
      simp [jsonNumberMakeValueIntExp_eq, tailValue]
    · cases h
      exact hnone rfl rfl

theorem parseNumberBehindInt_fault {fault : Fault}
    (h : parseNumberBehindInt minus int st = .error (.fault fault)) :
    ∃ frac exp rest, st.view = tailBytes frac (some exp) ++ rest ∧ ExpStops frac exp rest := by
  unfold parseNumberBehindInt at h
  split at h
  · cases h
  · split_ifs at h with hpoint hletter
    · rcases Parse.andThen_eq_fault.1 h with hfrac | ⟨fracValue, st₁, hfrac, hbehind⟩
      · exact absurd hfrac (parseNumberFracPart_no_fault st fault)
      · obtain ⟨frac, hview, rfl, -⟩ := parseNumberFracPart_sound hfrac
        obtain ⟨exp, rest, hview₁, hlarge⟩ := parseNumberBehindFrac_fault hbehind
        refine ⟨some frac, exp, rest, ?_, Or.inl hlarge⟩
        rw [hview, hview₁, tailBytes, Option.elim_some, Option.elim_some, List.append_assoc]
    · rcases Parse.andThen_eq_fault.1 h with hexp | ⟨expValue, st₁, hexp, hout⟩
      · obtain ⟨exp, rest, hview, hlarge⟩ := parseNumberExpPart_fault hexp
        exact ⟨none, exp, rest, hview, Or.inl hlarge⟩
      · obtain ⟨exp, hview, rfl, hdigit⟩ := parseNumberExpPart_sound hexp
        refine ⟨none, exp, st₁.view, hview, Or.inr ⟨rfl, ?_, hdigit⟩⟩
        intro hnil
        simp [JsonParseState.isEof, hnil] at hout

theorem parseNumberBehindInt_stops {frac : Option FracText} {exp : ExpText}
    (h : ExpStops frac exp rest) :
    Faults (parseNumberBehindInt minus int ⟨tailBytes frac (some exp) ++ rest, loc⟩) := by
  rw [tailBytes, Option.elim_some, List.append_assoc]
  cases frac with
  | some frac =>
    rcases h with hlarge | ⟨hfrac, -, -⟩
    · obtain ⟨loc', hfrac⟩ :=
        parseNumberBehindInt_frac minus int frac (noDigit_exp exp rest) loc
      rw [Option.elim_some, hfrac, parseNumberBehindFrac_exp]
      exact (parseNumberExpPart_faults hlarge rest _).andThen
    · cases hfrac
  | none =>
    rw [Option.elim_none, List.nil_append, parseNumberBehindInt_exp]
    rcases Nat.lt_or_ge exp.magnitude (2 ^ 63) with hsmall | hlarge
    · rcases h with hlarge | ⟨-, hne, hdigit⟩
      · omega
      · obtain ⟨loc', hread⟩ := (parseNumberExpPart_reads loc hdigit hsmall).andThen _
        rw [hread]
        obtain ⟨first, rest, rfl⟩ := List.exists_cons_of_ne_nil hne
        exact ⟨.assertion, rfl⟩
    · exact (parseNumberExpPart_faults hlarge rest _).andThen

end Behind

/-- The number as the code reads it. -/
def NumberText.read (number : NumberText) : ℚ := number.valueWith number.int.read.toNat

/-- The bytes begin with a number at which the parser stops. -/
inductive NumberStops : Bytes → Prop
  | exponent (number : NumberText) (exp : ExpText) (rest : Bytes) (hexp : number.exp = some exp)
      (hint : number.int.Unseen) (hstops : ExpStops number.frac exp rest) :
      NumberStops (number.bytes ++ rest)

theorem NumberText.bytes_eq (number : NumberText) : number.bytes =
    (if number.minus then [0x2D] else []) ++
      (number.int.bytes ++ tailBytes number.frac number.exp) := rfl

theorem NumberText.read_eq (number : NumberText) : JsonValue.number number.read =
    signedNumber number.minus (tailValue number.frac number.exp number.int.read.toNat) := by
  rw [signedNumber_eq]
  rfl

/-- A number that fits is read as it is. -/
theorem NumberText.read_of_fits {number : NumberText} (h : number.Fits) :
    number.int.Unseen ∧ number.read = number.value := by
  obtain ⟨hunseen, hvalue⟩ := IntText.read_of_fits h.int
  refine ⟨hunseen, ?_⟩
  rw [NumberText.read, NumberText.value, hvalue]

/-- An integer part begins with a digit. -/
theorem IntText.bytes_head (int : IntText) :
    ∃ digit more, int.bytes = digitByte digit :: more := by
  cases int with
  | zero => exact ⟨0, [], rfl⟩
  | digits first more => exact ⟨first.succ, digitBytes more, rfl⟩

/-- The sign is taken off, then the integer part is read. -/
theorem parseNumber_text (minus : Bool) (int : IntText) (more : Bytes) (loc : SourceLocation) :
    ∃ loc', parseNumber ⟨(if minus then [0x2D] else []) ++ (int.bytes ++ more), loc⟩ =
      (parseNumberIntPart ⟨int.bytes ++ more, loc'⟩).andThen fun intPart st =>
        parseNumberBehindInt minus intPart.toNat st := by
  obtain ⟨digit, digits, hint⟩ := int.bytes_head
  have hminus : (digitByte digit == 0x2D) = false := by
    rw [beq_eq_false_iff_ne]
    exact (digitByte_ne_sign digit).2
  cases minus with
  | true =>
    refine ⟨loc.advanceColBy 1, ?_⟩
    simp [parseNumber, hint, JsonParseState.skipBy, JsonParseState.isEof]
  | false =>
    refine ⟨loc, ?_⟩
    simp [parseNumber, hint, hminus, JsonParseState.isEof]

/-- What is behind the integer part of a number is not a digit. -/
theorem noDigit_tail (frac : Option FracText) (exp : Option ExpText)
    (hrest : exp = none → NoHead isDigit rest) : NoHead isDigit (tailBytes frac exp ++ rest) := by
  cases frac with
  | some frac => exact noHead_cons.2 (by decide)
  | none =>
    cases exp with
    | none => exact hrest rfl
    | some exp => exact noDigit_exp exp rest

/-- **The text of a number is read, or ends in a fault.** -/
theorem parseNumber_reads {number : NumberText} (hint : number.int.Unseen)
    (hrest : EndsNumber rest) (loc : SourceLocation) :
    Reads (parseNumber ⟨number.bytes ++ rest, loc⟩) (.number number.read) rest ∨
      Faults (parseNumber ⟨number.bytes ++ rest, loc⟩) := by
  obtain ⟨loc', htext⟩ := parseNumber_text number.minus number.int
    (tailBytes number.frac number.exp ++ rest) loc
  obtain ⟨loc₁, hread⟩ := (parseNumberIntPart_reads loc'
    (noDigit_tail number.frac number.exp fun _ => hrest.noDigit) hint).andThen _
  rw [NumberText.bytes_eq, List.append_assoc, List.append_assoc, htext, hread, NumberText.read_eq]
  exact parseNumberBehindInt_reads number.frac number.exp hrest

theorem parseNumber_stops {view : Bytes} (h : NumberStops view) (loc : SourceLocation) :
    Faults (parseNumber ⟨view, loc⟩) := by
  obtain ⟨number, exp, rest, hexp, hint, hstops⟩ := h
  obtain ⟨loc', htext⟩ := parseNumber_text number.minus number.int
    (tailBytes number.frac (some exp) ++ rest) loc
  obtain ⟨loc₁, hread⟩ := (parseNumberIntPart_reads loc'
    (noDigit_tail number.frac (some exp) (by simp)) hint).andThen _
  rw [NumberText.bytes_eq, hexp, List.append_assoc, List.append_assoc, htext, hread]
  exact parseNumberBehindInt_stops hstops

/-- Without an error the bytes begin with a sign and an integer part. -/
theorem parseNumber_cases (herror : ∀ error, parseNumber st ≠ .error (.error error)) :
    ∃ (minus : Bool) (int : IntText) (st₁ : JsonParseState),
      st.view = (if minus then [0x2D] else []) ++ (int.bytes ++ st₁.view) ∧ int.Unseen ∧
        parseNumber st = parseNumberBehindInt minus int.read.toNat st₁ := by
  obtain ⟨view, loc⟩ := st
  cases view with
  | nil => simp [parseNumber, JsonParseState.errorAt] at herror
  | cons minusChar view =>
    have hsign : (⟨minusChar :: view, loc⟩ : JsonParseState).view =
        (if (minusChar == 0x2D) = true then [0x2D] else []) ++
          (if (minusChar == 0x2D) = true then JsonParseState.skipBy ⟨minusChar :: view, loc⟩ 1
            else ⟨minusChar :: view, loc⟩).view := by
      by_cases hminus : minusChar = 0x2D
      · simp [hminus, JsonParseState.skipBy]
      · simp [hminus]
    simp only [parseNumber] at herror ⊢
    generalize (if (minusChar == 0x2D) = true then JsonParseState.skipBy ⟨minusChar :: view, loc⟩ 1
      else ⟨minusChar :: view, loc⟩) = st₀ at hsign herror ⊢
    by_cases heof : st₀.isEof = true
    · simp [heof, JsonParseState.errorAt] at herror
    rw [if_neg heof] at herror ⊢
    rcases hint : parseNumberIntPart st₀ with stop | ⟨intValue, st₁⟩
    · rcases stop with error | fault
      · rw [hint] at herror
        exact absurd rfl (herror error)
      · exact absurd hint (parseNumberIntPart_no_fault st₀ fault)
    · obtain ⟨int, hview, hunseen, rfl⟩ := parseNumberIntPart_sound hint
      refine ⟨minusChar == 0x2D, int, st₁, ?_, hunseen, rfl⟩
      rw [← hview]
      exact hsign

/-- **What was read is the text of a number.** -/
theorem parseNumber_sound {out : JsonValue} (h : parseNumber st = .ok (out, st')) :
    ∃ number : NumberText, st.view = number.bytes ++ st'.view ∧ number.int.Unseen ∧
      out = .number number.read := by
  have herror : ∀ error, parseNumber st ≠ .error (.error error) := by simp [h]
  obtain ⟨minus, int, st₁, hview, hunseen, hparse⟩ := parseNumber_cases herror
  rw [h] at hparse
  obtain ⟨frac, exp, hview₁, rfl⟩ := parseNumberBehindInt_sound hparse.symm
  refine ⟨⟨minus, int, frac, exp⟩, ?_, hunseen, ?_⟩
  · rw [hview, hview₁, NumberText.bytes_eq, List.append_assoc, List.append_assoc]
  · rw [NumberText.read_eq]

theorem parseNumber_fault {fault : Fault} (h : parseNumber st = .error (.fault fault)) :
    NumberStops st.view := by
  have herror : ∀ error, parseNumber st ≠ .error (.error error) := by simp [h]
  obtain ⟨minus, int, st₁, hview, hunseen, hparse⟩ := parseNumber_cases herror
  rw [h] at hparse
  obtain ⟨frac, exp, rest, hview₁, hstops⟩ := parseNumberBehindInt_fault hparse.symm
  have htext : st.view = NumberText.bytes ⟨minus, int, frac, some exp⟩ ++ rest := by
    rw [hview, hview₁, NumberText.bytes_eq, List.append_assoc, List.append_assoc]
  rw [htext]
  exact .exponent ⟨minus, int, frac, some exp⟩ exp rest rfl hunseen hstops

end SimpleServer.Json
