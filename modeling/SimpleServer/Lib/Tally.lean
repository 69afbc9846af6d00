import Mathlib.Algebra.BigOperators.Group.Finset.Basic
import Mathlib.Algebra.Order.BigOperators.Group.Finset

/-!
# Weights of the first entries of a table

A table is a function on the natural numbers of which one entry is changed at a time. `tally`
adds up a weight of its first entries.

* `tally_update`, `tally_extend`: what one change does to the sum.
* `le_tally`: the weight of an entry is a part of the sum.
-/

namespace Lib

variable {α : Type} {weight : α → ℕ} {f : ℕ → α} {n i : ℕ} {a : α}

/-- The sum of the weights of the first `n` entries. -/
def tally (weight : α → ℕ) (f : ℕ → α) (n : ℕ) : ℕ := ∑ i ∈ Finset.range n, weight (f i)

/-- An entry is changed. -/
theorem tally_update (weight : α → ℕ) (f : ℕ → α) (a : α) (hi : i < n) :
    tally weight (Function.update f i a) n + weight (f i) = tally weight f n + weight a := by
  have hmem : i ∈ Finset.range n := Finset.mem_range.2 hi
  have hrest : ∑ j ∈ (Finset.range n).erase i, weight (Function.update f i a j) =
      ∑ j ∈ (Finset.range n).erase i, weight (f j) := by
    refine Finset.sum_congr rfl fun j hj => ?_
    rw [Function.update_of_ne (Finset.ne_of_mem_erase hj)]
  unfold tally
  rw [← Finset.add_sum_erase _ _ hmem, ← Finset.add_sum_erase _ (fun j => weight (f j)) hmem,
    hrest, Function.update_self]
  omega

/-- The entry behind the first `n` is set. -/
theorem tally_extend (weight : α → ℕ) (f : ℕ → α) (a : α) (n : ℕ) :
    tally weight (Function.update f n a) (n + 1) = tally weight f n + weight a := by
  unfold tally
  rw [Finset.sum_range_succ, Function.update_self]
  congr 1
  refine Finset.sum_congr rfl fun j hj => ?_
  rw [Function.update_of_ne (Finset.mem_range.1 hj).ne]

theorem le_tally (weight : α → ℕ) (f : ℕ → α) (hi : i < n) : weight (f i) ≤ tally weight f n :=
  Finset.single_le_sum (fun j _ => Nat.zero_le (weight (f j))) (Finset.mem_range.2 hi)

theorem tally_eq_zero (h : ∀ j < n, weight (f j) = 0) : tally weight f n = 0 :=
  Finset.sum_eq_zero fun j hj => h j (Finset.mem_range.1 hj)

end Lib
