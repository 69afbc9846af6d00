import Mathlib.Data.Nat.Digits.Lemmas
import Mathlib.Data.UInt

/-!
# Decimal numbers

A decimal number is written as a text of digits, the most significant one first. Leading zeros
do not count.

* `decimalValue_append`: a text behind another one.
* `decimalText`: how a number is printed; `decimalValue_decimalText` reads it back.
-/

namespace Lib

def IsDigit (c : UInt8) : Prop := 0x30 ≤ c ∧ c ≤ 0x39

instance : DecidablePred IsDigit := fun c => inferInstanceAs (Decidable (0x30 ≤ c ∧ c ≤ 0x39))

/-- The value of a text of digits. -/
def decimalValue (text : List UInt8) : ℕ :=
  text.foldl (fun value c => value * 10 + (c.toNat - 0x30)) 0

/-- At least one digit, and nothing but digits. -/
structure IsDecimal (text : List UInt8) : Prop where
  ne_nil : text ≠ []
  digits : ∀ c ∈ text, IsDigit c

instance (text : List UInt8) : Decidable (IsDecimal text) :=
  haveI := List.decidableBAll IsDigit text
  decidable_of_iff (text ≠ [] ∧ ∀ c ∈ text, IsDigit c)
    ⟨fun h => ⟨h.1, h.2⟩, fun h => ⟨h.ne_nil, h.digits⟩⟩

variable {text text' : List UInt8} {c : UInt8}

@[simp] theorem decimalValue_nil : decimalValue [] = 0 := rfl

theorem foldl_decimal (value : ℕ) (text : List UInt8) :
    text.foldl (fun value c => value * 10 + (c.toNat - 0x30)) value =
      value * 10 ^ text.length + decimalValue text := by
  induction text generalizing value with
  | nil => simp [decimalValue]
  | cons c text ih =>
    have hrest := ih (0 * 10 + (c.toNat - 0x30))
    rw [decimalValue, List.foldl_cons, List.foldl_cons, ih, hrest, List.length_cons, pow_succ]
    ring

theorem decimalValue_append (text text' : List UInt8) :
    decimalValue (text ++ text') = decimalValue text * 10 ^ text'.length + decimalValue text' := by
  rw [decimalValue, List.foldl_append, foldl_decimal]
  rfl

theorem decimalValue_concat (text : List UInt8) (c : UInt8) :
    decimalValue (text ++ [c]) = decimalValue text * 10 + (c.toNat - 0x30) := by
  rw [decimalValue, List.foldl_append]
  rfl

theorem isDigit_iff : IsDigit c ↔ 0x30 ≤ c.toNat ∧ c.toNat ≤ 0x39 := by
  rw [IsDigit, UInt8.le_iff_toNat_le, UInt8.le_iff_toNat_le]
  rfl

theorem not_isDigit_iff : ¬ IsDigit c ↔ c < 0x30 ∨ c > 0x39 := by
  rw [IsDigit, not_and_or, UInt8.not_le, UInt8.not_le, gt_iff_lt]

theorem le_decimalValue_append (text text' : List UInt8) :
    decimalValue text ≤ decimalValue (text ++ text') := by
  rw [decimalValue_append]
  have hpow : 1 ≤ 10 ^ text'.length := Nat.one_le_pow _ _ (by omega)
  have hscaled := Nat.le_mul_of_pos_right (decimalValue text) hpow
  omega

theorem decimalValue_cons (c : UInt8) (text : List UInt8) :
    decimalValue (c :: text) = (c.toNat - 0x30) * 10 ^ text.length + decimalValue text := by
  have happend := decimalValue_append [c] text
  rw [List.singleton_append] at happend
  rw [happend]
  simp [decimalValue]

theorem decimalValue_lt (h : ∀ c ∈ text, IsDigit c) : decimalValue text < 10 ^ text.length := by
  induction text with
  | nil => simp
  | cons c text ih =>
    rw [List.forall_mem_cons] at h
    have hrest := ih h.2
    have hdigit := isDigit_iff.1 h.1
    have hhead : (c.toNat - 0x30) * 10 ^ text.length ≤ 9 * 10 ^ text.length :=
      Nat.mul_le_mul_right _ (by omega)
    rw [decimalValue_cons, List.length_cons, pow_succ]
    omega

/-! ## Printing -/

/-- The digits of a number, without leading zeros. -/
def decimalText (n : ℕ) : List UInt8 :=
  if n = 0 then [0x30] else ((Nat.digits 10 n).map fun d => UInt8.ofNat (0x30 + d)).reverse

theorem digit_toNat {d : ℕ} (h : d < 10) : (UInt8.ofNat (0x30 + d)).toNat = 0x30 + d := by
  rw [UInt8.toNat_ofNat']
  omega

theorem decimalValue_digits {ds : List ℕ} (h : ∀ d ∈ ds, d < 10) :
    decimalValue (ds.map fun d => UInt8.ofNat (0x30 + d)).reverse = Nat.ofDigits 10 ds := by
  induction ds with
  | nil => rfl
  | cons d ds ih =>
    rw [List.forall_mem_cons] at h
    rw [List.map_cons, List.reverse_cons, decimalValue_concat, ih h.2, digit_toNat h.1,
      Nat.ofDigits_cons]
    omega

theorem decimalText_decimal (n : ℕ) : IsDecimal (decimalText n) := by
  unfold decimalText
  split_ifs with hzero
  · refine ⟨by simp, ?_⟩
    intro c hc
    rw [List.mem_singleton.1 hc]
    decide
  · refine ⟨by simpa [Nat.digits_ne_nil_iff_ne_zero] using hzero, ?_⟩
    intro c hc
    obtain ⟨d, hd, rfl⟩ := List.mem_map.1 (List.mem_reverse.1 hc)
    have hlt : d < 10 := Nat.digits_lt_base (by omega) hd
    rw [isDigit_iff, digit_toNat hlt]
    omega

theorem decimalText_notMem {c : UInt8} (h : ¬ IsDigit c) (n : ℕ) : c ∉ decimalText n :=
  fun hmem => h ((decimalText_decimal n).digits c hmem)

/-- A number of at most `k` digits is printed with at most `k` digits. -/
theorem length_decimalText_le {n k : ℕ} (h : n < 10 ^ k) (hk : 0 < k) :
    (decimalText n).length ≤ k := by
  unfold decimalText
  split_ifs with hzero
  · exact hk
  · rw [List.length_reverse, List.length_map]
    exact (Nat.digits_length_le_iff (by omega) n).2 h

/-- **A printed number is read back.** -/
theorem decimalValue_decimalText (n : ℕ) : decimalValue (decimalText n) = n := by
  unfold decimalText
  split_ifs with hzero
  · rw [hzero]
    rfl
  · rw [decimalValue_digits fun d hd => Nat.digits_lt_base (by omega) hd, Nat.ofDigits_digits]

end Lib
