import SimpleServer.Lib.BigEndian

/-!
# Numbers in memory

A number lies in memory in the byte order of the machine. Network order is the big-endian one.

* `ByteOrder.load_store`: what is stored is loaded again.
* `ByteOrder.store_toNetwork`: a number in network order has its highest byte first in memory.
* `ByteOrder.toLittle_load`: what is read of bytes in little-endian order.
-/

namespace Lib

theorem ofBE_lt (bytes : List UInt8) : ofBE bytes < 256 ^ bytes.length := by
  induction bytes with
  | nil => simp
  | cons b bytes ih =>
    have hb : b.toNat < 256 := b.toNat_lt
    rw [ofBE_cons, List.length_cons, pow_succ]
    nlinarith

/-- Only the low bytes count. -/
theorem toBE_mul_add (n high value : ℕ) : toBE n (high * 256 ^ n + value) = toBE n value := by
  induction n generalizing high with
  | zero => rfl
  | succ n ih =>
    have hsplit : high * 256 ^ (n + 1) + value = high * 256 * 256 ^ n + value := by ring
    have hdiv : (high * 256 * 256 ^ n + value) / 256 ^ n = high * 256 + value / 256 ^ n := by
      rw [Nat.add_comm, Nat.add_mul_div_right _ _ (by positivity), Nat.add_comm]
    have hbyte : UInt8.ofNat (high * 256 + value / 256 ^ n) = UInt8.ofNat (value / 256 ^ n) := by
      apply UInt8.toNat_inj.1
      rw [UInt8.toNat_ofNat', UInt8.toNat_ofNat']
      omega
    rw [toBE, toBE, hsplit, ih, hdiv, hbyte]

/-- **Reading and writing** bytes. -/
theorem toBE_ofBE (bytes : List UInt8) : toBE bytes.length (ofBE bytes) = bytes := by
  induction bytes with
  | nil => rfl
  | cons b bytes ih =>
    have hdiv : (b.toNat * 256 ^ bytes.length + ofBE bytes) / 256 ^ bytes.length = b.toNat := by
      rw [Nat.add_comm, Nat.add_mul_div_right _ _ (by positivity),
        Nat.div_eq_of_lt (ofBE_lt bytes), Nat.zero_add]
    rw [ofBE_cons, List.length_cons, toBE, toBE_mul_add, ih, hdiv, UInt8.ofNat_toNat]

/-- The order of the bytes of a number in memory. -/
inductive ByteOrder where
  | little
  | big
deriving Repr, DecidableEq

namespace ByteOrder

variable (order : ByteOrder) {n value : ℕ}

/-- The memory of a number with `n` bytes. -/
def store (n value : ℕ) : List UInt8 :=
  match order with
  | little => (toBE n value).reverse
  | big => toBE n value

/-- The number that lies in memory. -/
def load (bytes : List UInt8) : ℕ :=
  match order with
  | little => ofBE bytes.reverse
  | big => ofBE bytes

/-- The number with the bytes in the other order. -/
def swapBytes (n value : ℕ) : ℕ := ofBE (toBE n value).reverse

/-- From the order of the machine to network order, and back. -/
def toNetwork (n value : ℕ) : ℕ :=
  match order with
  | little => swapBytes n value
  | big => value

/-- From little-endian order to the order of the machine, and back. -/
def toLittle (n value : ℕ) : ℕ :=
  match order with
  | little => value
  | big => swapBytes n value

@[simp] theorem length_store : (order.store n value).length = n := by
  cases order <;> simp [store]

theorem load_store (h : value < 256 ^ n) : order.load (order.store n value) = value := by
  cases order with
  | little => rw [store, load, List.reverse_reverse, ofBE_toBE_of_lt h]
  | big => exact ofBE_toBE_of_lt h

theorem swapBytes_lt : swapBytes n value < 256 ^ n := by
  simpa [swapBytes] using ofBE_lt (toBE n value).reverse

/-- **Swapping the bytes** turns the memory round. -/
theorem store_swapBytes : order.store n (swapBytes n value) = (order.store n value).reverse := by
  have h := toBE_ofBE (toBE n value).reverse
  rw [List.length_reverse, toBE_length] at h
  cases order with
  | little => rw [store, store, swapBytes, h]
  | big => rw [store, store, swapBytes, h]

/-- A number in network order lies in memory with its highest byte first. -/
theorem store_toNetwork : order.store n (order.toNetwork n value) = toBE n value := by
  cases order with
  | little => rw [toNetwork, store_swapBytes, store, List.reverse_reverse]
  | big => rfl

theorem toNetwork_lt (h : value < 256 ^ n) : order.toNetwork n value < 256 ^ n := by
  cases order with
  | little => exact swapBytes_lt
  | big => exact h

/-- Bytes in little-endian order have their highest byte last. -/
theorem toLittle_load (bytes : List UInt8) :
    order.toLittle bytes.length (order.load bytes) = ofBE bytes.reverse := by
  cases order with
  | little => rfl
  | big => rw [toLittle, load, swapBytes, toBE_ofBE]

end ByteOrder

end Lib
