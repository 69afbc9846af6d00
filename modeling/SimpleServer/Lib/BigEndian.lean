import Mathlib.Tactic

/-!
# Numbers in network byte order

* `ofBE_toBE`: writing a number in `n` bytes and reading it gives its residue.
* `ofBE_append`: reading two byte strings one after the other.
-/

namespace Lib

/-- The `n` low bytes of a number, the highest first. -/
def toBE : ℕ → ℕ → List UInt8
  | 0, _ => []
  | n + 1, v => UInt8.ofNat (v / 256 ^ n) :: toBE n v

/-- The number whose bytes are given, the highest first. -/
def ofBE (bytes : List UInt8) : ℕ := bytes.foldl (fun value b => value * 256 + b.toNat) 0

@[simp] theorem toBE_length (n v : ℕ) : (toBE n v).length = n := by
  induction n with
  | zero => rfl
  | succ n ih => rw [toBE, List.length_cons, ih]

theorem foldl_be (bytes : List UInt8) (value : ℕ) :
    bytes.foldl (fun value b => value * 256 + b.toNat) value =
      value * 256 ^ bytes.length + ofBE bytes := by
  induction bytes generalizing value with
  | nil => simp [ofBE]
  | cons b bytes ih =>
    unfold ofBE
    rw [List.foldl_cons, List.foldl_cons, ih, ih, List.length_cons, pow_succ]
    ring

theorem ofBE_append (bytes bytes' : List UInt8) :
    ofBE (bytes ++ bytes') = ofBE bytes * 256 ^ bytes'.length + ofBE bytes' := by
  have h := foldl_be bytes' (ofBE bytes)
  rw [← h]
  exact List.foldl_append

@[simp] theorem ofBE_nil : ofBE [] = 0 := rfl

theorem ofBE_cons (b : UInt8) (bytes : List UInt8) :
    ofBE (b :: bytes) = b.toNat * 256 ^ bytes.length + ofBE bytes := by
  have h := ofBE_append [b] bytes
  rw [List.singleton_append] at h
  rw [h]
  simp [ofBE]

/-- **Writing and reading** a number. -/
theorem ofBE_toBE (n v : ℕ) : ofBE (toBE n v) = v % 256 ^ n := by
  induction n with
  | zero => simp [toBE, Nat.mod_one]
  | succ n ih =>
    have hbyte : (UInt8.ofNat (v / 256 ^ n)).toNat = v / 256 ^ n % 256 := UInt8.toNat_ofNat'
    rw [toBE, ofBE_cons, ih, toBE_length, hbyte, Nat.mod_pow_succ, Nat.add_comm, Nat.mul_comm]

theorem ofBE_toBE_of_lt {n v : ℕ} (h : v < 256 ^ n) : ofBE (toBE n v) = v := by
  rw [ofBE_toBE, Nat.mod_eq_of_lt h]

end Lib
