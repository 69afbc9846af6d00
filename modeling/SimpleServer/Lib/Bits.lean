import Mathlib.Data.List.GetD
import Mathlib.Tactic

/-!
# Byte strings as bit strings

`bitsOf` reads a byte string as the list of its bits, most significant bit of
each byte first.

* `bitsOf_getElem?`: bit `8 * i + j` is bit `7 - j` of byte `i`.
* `orBit_bits`, `padOnes_bits`: writing one more bit into a byte that is still
  zero below, and filling the rest of a byte with ones.
-/

namespace Lib

/-- The bits of a byte, most significant first. -/
def bitsOfByte (b : UInt8) : List Bool :=
  (List.range 8).map fun i => b.toNat.testBit (7 - i)

/-- The bits of a byte string, in order. -/
def bitsOf (bs : List UInt8) : List Bool := bs.flatMap bitsOfByte

@[simp] theorem bitsOfByte_length (b : UInt8) : (bitsOfByte b).length = 8 := by simp [bitsOfByte]

@[simp] theorem bitsOf_nil : bitsOf [] = [] := rfl

@[simp] theorem bitsOf_cons (b : UInt8) (bs : List UInt8) :
    bitsOf (b :: bs) = bitsOfByte b ++ bitsOf bs := by simp [bitsOf]

@[simp] theorem bitsOf_append (a b : List UInt8) : bitsOf (a ++ b) = bitsOf a ++ bitsOf b := by
  simp [bitsOf]

@[simp] theorem bitsOf_length (bs : List UInt8) : (bitsOf bs).length = 8 * bs.length := by
  induction bs with
  | nil => rfl
  | cons b bs ih => simp [ih]; omega

/-- Bit `8 * i + j` of a byte string is bit `j` (from the top) of its byte `i`. -/
theorem bitsOf_getElem? {bs : List UInt8} {i j : ℕ} {b : UInt8} (hi : bs[i]? = some b)
    (hj : j < 8) :
    (bitsOf bs)[8 * i + j]? = some (b.toNat.testBit (7 - j)) := by
  induction bs generalizing i with
  | nil => simp at hi
  | cons a bs ih =>
    rcases i with _ | i
    · simp only [List.getElem?_cons_zero, Option.some.injEq] at hi
      subst hi
      rw [bitsOf_cons, List.getElem?_append_left (by simp; omega)]
      simp [bitsOfByte, hj]
    · simp only [List.getElem?_cons_succ] at hi
      rw [bitsOf_cons, List.getElem?_append_right (by simp; omega)]
      rw [show 8 * (i + 1) + j - (bitsOfByte a).length = 8 * i + j by simp; omega]
      exact ih hi

theorem bitsOf_take {bs : List UInt8} {i : ℕ} (hi : i < bs.length) :
    bitsOf (bs.take (i + 1)) = bitsOf (bs.take i) ++ bitsOfByte (bs.getD i 0) := by
  rw [List.take_succ_eq_append_getElem hi, bitsOf_append, bitsOf_cons, bitsOf_nil, List.append_nil,
    List.getD_eq_getElem _ _ hi]

/-- The `n` low bits of a number, lowest first. -/
def lowBits : ℕ → ℕ → List Bool
  | 0, _ => []
  | n + 1, value => (value % 2 == 1) :: lowBits n (value / 2)

@[simp] theorem lowBits_length (n value : ℕ) : (lowBits n value).length = n := by
  induction n generalizing value with
  | zero => rfl
  | succ n ih => rw [lowBits, List.length_cons, ih]

/-- Every statement about a byte can be checked on the numbers below 256. -/
theorem forall_byte {P : UInt8 → Prop} (h : ∀ i : Fin 256, P (UInt8.ofNat i.val)) : ∀ b, P b := by
  intro b
  have := h ⟨b.toNat, b.toNat_lt⟩
  simpa using this

/-- A byte whose bits from position `k` (from the top) on are all zero. -/
def zeroFrom (k : ℕ) (b : UInt8) : Prop := (bitsOfByte b).drop k = List.replicate (8 - k) false

instance (k : ℕ) (b : UInt8) : Decidable (zeroFrom k b) := inferInstanceAs (Decidable (_ = _))

/-- A byte with bit `k` from the top or-ed in. -/
def orBit (cur : UInt8) (k : ℕ) (bit : Bool) : UInt8 :=
  cur ||| UInt8.ofNat (bit.toNat <<< (7 - k))

/-- A byte with all bits from position `k` on set. -/
def padOnes (cur : UInt8) (k : ℕ) : UInt8 := cur ||| UInt8.ofNat ((1 <<< (8 - k)) - 1)

theorem orBit_bits (cur : UInt8) (bit : Bool) {k : ℕ} (hk : k < 8) (hz : zeroFrom k cur) :
    (bitsOfByte (orBit cur k bit)).take (k + 1) = (bitsOfByte cur).take k ++ [bit] ∧
      zeroFrom (k + 1) (orBit cur k bit) := by
  have key : ∀ i : Fin 256, ∀ (k : Fin 8) (bit : Bool), zeroFrom k.val (UInt8.ofNat i.val) →
      (bitsOfByte (orBit (UInt8.ofNat i.val) k.val bit)).take (k.val + 1) =
          (bitsOfByte (UInt8.ofNat i.val)).take k.val ++ [bit] ∧
        zeroFrom (k.val + 1) (orBit (UInt8.ofNat i.val) k.val bit) := by decide +kernel
  have := forall_byte (P := fun b => ∀ (k : Fin 8) (bit : Bool), zeroFrom k.val b →
    (bitsOfByte (orBit b k.val bit)).take (k.val + 1) = (bitsOfByte b).take k.val ++ [bit] ∧
      zeroFrom (k.val + 1) (orBit b k.val bit)) key cur ⟨k, hk⟩ bit
  exact this hz

theorem padOnes_bits (cur : UInt8) {k : ℕ} (hk : k < 8) (hz : zeroFrom k cur) :
    bitsOfByte (padOnes cur k) = (bitsOfByte cur).take k ++ List.replicate (8 - k) true := by
  have key : ∀ i : Fin 256, ∀ k : Fin 8, zeroFrom k.val (UInt8.ofNat i.val) →
      bitsOfByte (padOnes (UInt8.ofNat i.val) k.val) =
        (bitsOfByte (UInt8.ofNat i.val)).take k.val ++ List.replicate (8 - k.val) true := by
    decide +kernel
  have := forall_byte (P := fun b => ∀ k : Fin 8, zeroFrom k.val b →
    bitsOfByte (padOnes b k.val) = (bitsOfByte b).take k.val ++ List.replicate (8 - k.val) true)
    key cur ⟨k, hk⟩
  exact this hz

end Lib
