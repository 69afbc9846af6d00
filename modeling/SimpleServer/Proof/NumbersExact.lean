import SimpleServer.Lib.Decimal
import SimpleServer.Utils.NumberParsing

/-!
# Which numbers are read exactly

The loop keeps the value of the digits modulo 2^64 and gives up when it gets smaller from one
digit to the next. A number of 2^64 and more can get past this.

* `parseU64Loop_eq_some`: what the loop accepts, and with which value.
* `numbersExact_iff`: **the parsers are exact on a text if and only if no too large number in it
  slips through.**
-/

namespace SimpleServer.Utils

open Lib

variable {text text' digits : Bytes} {v : ℕ}

/-! ## The loop -/

/-- The value of the digits that were read, as the loop keeps it. -/
def residue (digits : Bytes) : ℕ := decimalValue digits % 2 ^ 64

/-- From one digit to the next the residue does not get smaller. -/
def NeverSmaller (digits : Bytes) : Prop :=
  ∀ n < digits.length, residue (digits.take n) ≤ residue (digits.take (n + 1))

/-- The same for the digits behind others. -/
def NeverSmallerAfter (done digits : Bytes) : Prop :=
  ∀ n < digits.length, residue (done ++ digits.take n) ≤ residue (done ++ digits.take (n + 1))

theorem neverSmallerAfter_cons {done : Bytes} {c : UInt8} :
    NeverSmallerAfter done (c :: digits) ↔
      residue done ≤ residue (done ++ [c]) ∧ NeverSmallerAfter (done ++ [c]) digits := by
  unfold NeverSmallerAfter
  rw [List.length_cons, Nat.forall_lt_succ_left']
  simp

theorem residue_concat (done : Bytes) (c : UInt8) :
    (residue done * 10 + (c.toNat - 0x30)) % 2 ^ 64 = residue (done ++ [c]) := by
  unfold residue
  rw [decimalValue_concat]
  omega

/-- What the loop accepts behind digits that were read before. -/
theorem parseU64Loop_eq_some (done : Bytes) :
    parseU64Loop digits (residue done) = some v ↔
      (∀ c ∈ digits, IsDigit c) ∧ NeverSmallerAfter done digits ∧ residue (done ++ digits) = v := by
  induction digits generalizing done with
  | nil => simp [parseU64Loop, NeverSmallerAfter]
  | cons c digits ih =>
    rw [parseU64Loop, residue_concat, neverSmallerAfter_cons, List.forall_mem_cons]
    by_cases hc : IsDigit c
    · rw [if_neg (fun hother => not_isDigit_iff.2 hother hc)]
      by_cases hless : residue (done ++ [c]) < residue done
      · simp [hless]
      · have hle := not_lt.1 hless
        have hrest := ih (done ++ [c])
        simp only [hless, if_false, hrest, hc, hle, true_and, List.append_assoc,
          List.singleton_append]
    · rw [if_pos (not_isDigit_iff.1 hc)]
      simp [hc]

/-- What `parse_u64` accepts. -/
theorem parseU64_eq_some :
    parseU64 text = some v ↔ IsDecimal text ∧ NeverSmaller text ∧ residue text = v := by
  have hloop : parseU64Loop text 0 = some v ↔ _ := parseU64Loop_eq_some []
  unfold parseU64
  split_ifs with hempty
  · have hnil := List.length_eq_zero_iff.1 hempty
    constructor
    · nofun
    · intro h
      exact absurd hnil h.1.ne_nil
  · have hne : text ≠ [] := by
      intro hnil
      exact hempty (by rw [hnil, List.length_nil])
    rw [hloop]
    constructor
    · rintro ⟨hdigits, hnever, hv⟩
      exact ⟨⟨hne, hdigits⟩, hnever, hv⟩
    · rintro ⟨hdecimal, hnever, hv⟩
      exact ⟨hdecimal.digits, hnever, hv⟩

/-- A number below 2^64 goes through. -/
theorem neverSmaller_of_lt (h : decimalValue digits < 2 ^ 64) : NeverSmaller digits := by
  intro n hn
  have hstep : digits.take (n + 1) = digits.take n ++ [digits[n]] :=
    (List.take_append_getElem hn).symm
  have hle := le_decimalValue_append (digits.take (n + 1)) (digits.drop (n + 1))
  have hless := le_decimalValue_append (digits.take n) [digits[n]]
  rw [List.take_append_drop] at hle
  rw [← hstep] at hless
  unfold residue
  rw [Nat.mod_eq_of_lt (by omega), Nat.mod_eq_of_lt (by omega)]
  exact hless

/-! ## The sign -/

/-- What stands behind the sign, if there is one. -/
def unsignedPart : Bytes → Bytes
  | [] => []
  | first :: rest => if first = 0x2D ∨ first = 0x2B then rest else first :: rest

/-- The greatest magnitude that `parse_i64` takes. -/
def magnitudeLimit (text : Bytes) : ℕ := if text.head? = some 0x2D then 2 ^ 63 else 2 ^ 63 - 1

/-- The value with the sign of the text. -/
def withSign (text : Bytes) (magnitude : ℕ) : ℤ :=
  if text.head? = some 0x2D then -magnitude else magnitude

/-- An optional sign and a decimal number, with its value. -/
inductive SignedDecimal : Bytes → ℤ → Prop
  | unsigned {number : Bytes} (h : IsDecimal number) : SignedDecimal number (decimalValue number)
  | plus {number : Bytes} (h : IsDecimal number) :
    SignedDecimal (0x2B :: number) (decimalValue number)
  | minus {number : Bytes} (h : IsDecimal number) :
    SignedDecimal (0x2D :: number) (-decimalValue number)

theorem unsignedPart_decimal (h : IsDecimal digits) :
    unsignedPart digits = digits ∧ digits.head? ≠ some 0x2D := by
  cases digits with
  | nil => exact absurd rfl h.ne_nil
  | cons first rest =>
    have hfirst := isDigit_iff.1 (h.digits first List.mem_cons_self)
    have hminus : first ≠ 0x2D := by
      rintro rfl
      exact absurd hfirst.1 (by decide)
    have hplus : first ≠ 0x2B := by
      rintro rfl
      exact absurd hfirst.1 (by decide)
    simp [unsignedPart, hminus, hplus]

theorem signedDecimal_iff {value : ℤ} :
    SignedDecimal text value ↔ IsDecimal (unsignedPart text) ∧
      value = withSign text (decimalValue (unsignedPart text)) := by
  constructor
  · intro h
    cases h with
    | unsigned h =>
      obtain ⟨hpart, hhead⟩ := unsignedPart_decimal h
      rw [hpart, withSign, if_neg hhead]
      exact ⟨h, rfl⟩
    | plus h => exact ⟨h, rfl⟩
    | minus h => exact ⟨h, rfl⟩
  · rintro ⟨hdecimal, rfl⟩
    cases text with
    | nil => exact absurd rfl hdecimal.ne_nil
    | cons first rest =>
      by_cases hminus : first = 0x2D
      · subst hminus
        exact .minus hdecimal
      by_cases hplus : first = 0x2B
      · subst hplus
        exact .plus hdecimal
      have hpart : unsignedPart (first :: rest) = first :: rest := by
        simp [unsignedPart, hminus, hplus]
      have hsign : withSign (first :: rest) (decimalValue (first :: rest)) =
          decimalValue (first :: rest) := by
        simp [withSign, hminus]
      rw [hpart] at hdecimal ⊢
      rw [hsign]
      exact .unsigned hdecimal

theorem toInt_neg_ofNat {n : ℕ} (h : n ≤ 2 ^ 63) : (-Int64.ofNat n).toInt = -n := by
  rw [Int64.toInt_neg, Int64.toInt_ofNat']
  simp only [Int64.size]
  rw [Int.bmod_def, Int.bmod_def]
  omega

/-- The check of the range, when the number that is returned is the signed one inside it. -/
theorem checked_eq_some {number : Int64} {magnitude limit : ℕ} {value signed : ℤ}
    (h : magnitude ≤ limit → number.toInt = signed) :
    (if magnitude > limit then none else some number).map Int64.toInt = some value ↔
      magnitude ≤ limit ∧ value = signed := by
  by_cases hlarge : magnitude > limit
  · have hnot : ¬ magnitude ≤ limit := not_le.2 hlarge
    simp [hlarge, hnot]
  · have hle := not_lt.1 hlarge
    simp [hlarge, hle, h hle, eq_comm]

/-- What `parse_i64` accepts. -/
theorem parseI64_eq_some {value : ℤ} :
    (parseI64 text).map Int64.toInt = some value ↔
      ∃ magnitude, parseU64 (unsignedPart text) = some magnitude ∧
        magnitude ≤ magnitudeLimit text ∧ value = withSign text magnitude := by
  cases text with
  | nil => simp [parseI64, unsignedPart, parseU64]
  | cons first rest =>
    have hpart : (if first = 0x2D ∨ first = 0x2B then rest else first :: rest) =
        unsignedPart (first :: rest) := rfl
    rw [parseI64, hpart, parseU64]
    by_cases hempty : (unsignedPart (first :: rest)).length = 0
    · rw [if_pos hempty, if_pos hempty]
      simp
    · rw [if_neg hempty, if_neg hempty]
      cases hloop : parseU64Loop (unsignedPart (first :: rest)) 0 with
      | none => simp
      | some magnitude =>
        have hchecked : (if first = 0x2D then
              if magnitude > 2 ^ 63 then none else some (-Int64.ofNat magnitude)
            else if magnitude > 2 ^ 63 - 1 then none else some (Int64.ofNat magnitude)).map
              Int64.toInt = some value ↔
            magnitude ≤ magnitudeLimit (first :: rest) ∧
              value = withSign (first :: rest) magnitude := by
          unfold magnitudeLimit withSign
          by_cases hminus : first = 0x2D
          · have hhead : (first :: rest).head? = some 0x2D := by simpa using hminus
            rw [if_pos hminus, if_pos hhead, if_pos hhead]
            exact checked_eq_some toInt_neg_ofNat
          · have hhead : (first :: rest).head? ≠ some 0x2D := by simpa using hminus
            rw [if_neg hminus, if_neg hhead, if_neg hhead]
            apply checked_eq_some
            intro hle
            exact Int64.toInt_ofNat_of_lt (by omega)
        simpa using hchecked

/-! ## Exactness -/

/-- `parse_u64` accepts what is a decimal number below 2^64, with its value. -/
def U64Exact (text : Bytes) : Prop :=
  ∀ v, parseU64 text = some v ↔ IsDecimal text ∧ decimalValue text = v ∧ v < 2 ^ 64

/-- `parse_i64` accepts what is a signed decimal number in its range, with its value. -/
def I64Exact (text : Bytes) : Prop :=
  ∀ v : ℤ, (parseI64 text).map Int64.toInt = some v ↔
    SignedDecimal text v ∧ -2 ^ 63 ≤ v ∧ v < 2 ^ 63

/-- A number that is too large, whose residue does not get smaller from any digit to the next. -/
structure SlipsThrough (digits : Bytes) : Prop where
  decimal : IsDecimal digits
  large : 2 ^ 64 ≤ decimalValue digits
  never : NeverSmaller digits

/-- Too large numbers apart, the residue is the value. -/
theorem parseU64_of_not_slips (h : ¬ SlipsThrough digits) :
    parseU64 digits = some v ↔ IsDecimal digits ∧ decimalValue digits = v ∧ v < 2 ^ 64 := by
  rw [parseU64_eq_some]
  constructor
  · rintro ⟨hdecimal, hnever, hv⟩
    have hsmall : decimalValue digits < 2 ^ 64 := by
      by_contra hlarge
      exact h ⟨hdecimal, not_lt.1 hlarge, hnever⟩
    rw [residue, Nat.mod_eq_of_lt hsmall] at hv
    exact ⟨hdecimal, hv, hv ▸ hsmall⟩
  · rintro ⟨hdecimal, rfl, hsmall⟩
    exact ⟨hdecimal, neverSmaller_of_lt hsmall, Nat.mod_eq_of_lt hsmall⟩

theorem SlipsThrough.parseU64 (h : SlipsThrough digits) : parseU64 digits = some (residue digits) :=
  parseU64_eq_some.2 ⟨h.decimal, h.never, rfl⟩

theorem u64Exact_iff : U64Exact text ↔ ¬ SlipsThrough text := by
  constructor
  · intro hexact hslips
    obtain ⟨-, hvalue, hless⟩ := (hexact _).1 hslips.parseU64
    have hlarge := hslips.large
    omega
  · intro h v
    exact parseU64_of_not_slips h

theorem magnitude_in_range (magnitude : ℕ) :
    magnitude ≤ magnitudeLimit text ↔
      -2 ^ 63 ≤ withSign text magnitude ∧ withSign text magnitude < 2 ^ 63 := by
  unfold magnitudeLimit withSign
  split_ifs <;> omega

theorem i64Exact_iff : I64Exact text ↔
    ¬ (SlipsThrough (unsignedPart text) ∧ residue (unsignedPart text) ≤ magnitudeLimit text) := by
  constructor
  · rintro hexact ⟨hslips, hle⟩
    have haccepted := parseI64_eq_some.2 ⟨_, hslips.parseU64, hle, rfl⟩
    obtain ⟨hsigned, hlow, hhigh⟩ := (hexact _).1 haccepted
    have hvalue := (signedDecimal_iff.1 hsigned).2
    have hlarge := hslips.large
    have hsmall : residue (unsignedPart text) < 2 ^ 64 := Nat.mod_lt _ (by omega)
    unfold withSign at hvalue
    split_ifs at hvalue <;> omega
  · intro h v
    rw [parseI64_eq_some, signedDecimal_iff]
    by_cases hslips : SlipsThrough (unsignedPart text)
    · have hover : ¬ residue (unsignedPart text) ≤ magnitudeLimit text := by
        intro hle
        exact h ⟨hslips, hle⟩
      rw [hslips.parseU64]
      constructor
      · rintro ⟨magnitude, hmagnitude, hle, -⟩
        cases hmagnitude
        exact absurd hle hover
      · rintro ⟨⟨-, rfl⟩, hrange⟩
        have hle := (magnitude_in_range _).2 hrange
        have hlarge := hslips.large
        unfold magnitudeLimit at hle
        split_ifs at hle <;> omega
    · constructor
      · rintro ⟨magnitude, hmagnitude, hle, rfl⟩
        obtain ⟨hdecimal, rfl, -⟩ := (parseU64_of_not_slips hslips).1 hmagnitude
        exact ⟨⟨hdecimal, rfl⟩, (magnitude_in_range _).1 hle⟩
      · rintro ⟨⟨hdecimal, rfl⟩, hrange⟩
        have hle := (magnitude_in_range _).2 hrange
        have hsmall : decimalValue (unsignedPart text) < 2 ^ 64 := by
          unfold magnitudeLimit at hle
          split_ifs at hle <;> omega
        exact ⟨_, (parseU64_of_not_slips hslips).2 ⟨hdecimal, rfl, hsmall⟩, hle, rfl⟩

/-- **The parsers are exact** on a text if and only if no too large number slips through. -/
theorem numbersExact_iff (text : Bytes) :
    (U64Exact text ↔ ¬ SlipsThrough text) ∧
      (I64Exact text ↔
        ¬ (SlipsThrough (unsignedPart text) ∧
          residue (unsignedPart text) ≤ magnitudeLimit text)) :=
  ⟨u64Exact_iff, i64Exact_iff⟩

/-- A number of 20 digits that is read as 2053255926290448384. -/
theorem twentyDigits_accepted :
    ¬ U64Exact (ascii "20500000000000000000") ∧ ¬ I64Exact (ascii "20500000000000000000") := by
  constructor
  · intro hexact
    have haccepted : parseU64 (ascii "20500000000000000000") = some 2053255926290448384 := by decide
    have hvalue := ((hexact _).1 haccepted).2.1
    revert hvalue
    decide
  · intro hexact
    have haccepted : (parseI64 (ascii "20500000000000000000")).map Int64.toInt =
        some 2053255926290448384 := by decide
    have hvalue := (signedDecimal_iff.1 ((hexact _).1 haccepted).1).2
    revert hvalue
    decide

end SimpleServer.Utils
