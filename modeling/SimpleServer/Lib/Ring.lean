import Mathlib.Tactic

/-!
# Cyclic buffers and lists cut to a budget

An array whose elements are moved one after the other, the list a cyclic buffer over
it holds, and the longest prefix of a list whose sizes stay within a budget.

* `moves_at`: a sequence of moves that never reads a place it has written carries every
  element to its place.
* `ringList_cons`: writing the slot before the first one puts an element in front.
* `fit_greatest`: `fit` is the longest prefix within the budget.
* `fit_dropLast`: dropping the last element of a list that does not fit loses nothing of it.
-/

namespace Lib

variable {α : Type}

/-! ## Moves in an array -/

/-- Copy the element at `src i` to `dst i`, for one `i` after the other. -/
def moves (d : α) (src dst : ℕ → ℕ) (order : List ℕ) (e : List α) : List α :=
  order.foldl (fun e i => e.set (dst i) (e.getD (src i) d)) e

variable {d : α} {src dst : ℕ → ℕ}

@[simp] theorem moves_length (order : List ℕ) (e : List α) :
    (moves d src dst order e).length = e.length := by
  induction order generalizing e with
  | nil => rfl
  | cons i order ih =>
    have h := ih (e.set (dst i) (e.getD (src i) d))
    rw [List.length_set] at h
    exact h

/-- A place no move writes to keeps its element. -/
theorem moves_of_ne (src : ℕ → ℕ) {order : List ℕ} {j : ℕ} (h : ∀ i ∈ order, dst i ≠ j)
    (e : List α) :
    (moves d src dst order e).getD j d = e.getD j d := by
  induction order generalizing e with
  | nil => rfl
  | cons i order ih =>
    have hi : dst i ≠ j := h i List.mem_cons_self
    have hrest := ih (fun k hk => h k (List.mem_cons_of_mem _ hk))
      (e.set (dst i) (e.getD (src i) d))
    unfold moves at hrest ⊢
    rw [List.foldl_cons, hrest]
    simp [List.getD_eq_getElem?_getD, List.getElem?_set_ne hi]

/-- **Moves in a safe order.** If no move reads or writes a place that an earlier one has
written, every element arrives. -/
theorem moves_at (src dst : ℕ → ℕ) {order : List ℕ} {e : List α}
    (hsafe : order.Pairwise fun i j => dst i ≠ src j ∧ dst i ≠ dst j)
    (hdst : ∀ i ∈ order, dst i < e.length) {i : ℕ} (hi : i ∈ order) :
    (moves d src dst order e).getD (dst i) d = e.getD (src i) d := by
  induction order generalizing e with
  | nil => exact absurd hi List.not_mem_nil
  | cons k order ih =>
    obtain ⟨hk, hpair⟩ := List.pairwise_cons.1 hsafe
    have hlt : dst k < e.length := hdst k List.mem_cons_self
    rcases List.mem_cons.1 hi with rfl | hmem
    · -- the later moves leave the place alone
      have hkeep := moves_of_ne (d := d) src (fun j hj => ((hk j hj).2).symm)
        (e.set (dst i) (e.getD (src i) d))
      unfold moves at hkeep ⊢
      rw [List.foldl_cons, hkeep]
      simp [List.getD_eq_getElem?_getD, hlt]
    · -- the first move did not touch what this one reads
      have hrest := ih (e := e.set (dst k) (e.getD (src k) d)) hpair
        (fun j hj => by rw [List.length_set]; exact hdst j (List.mem_cons_of_mem _ hj)) hmem
      unfold moves at hrest ⊢
      rw [List.foldl_cons, hrest]
      simp [List.getD_eq_getElem?_getD, List.getElem?_set_ne (hk i hmem).1]

/-! ## Cyclic buffers -/

/-- The `count` elements from slot `start` on, in a buffer of `cap` slots. -/
def ringList (d : α) (entries : List α) (cap start count : ℕ) : List α :=
  (List.range count).map fun i => entries.getD ((start + i) % cap) d

variable {entries entries' : List α} {cap cap' start start' count : ℕ}

@[simp] theorem ringList_length : (ringList d entries cap start count).length = count := by
  simp [ringList]

@[simp] theorem ringList_zero : ringList d entries cap start 0 = [] := rfl

theorem ringList_succ : ringList d entries cap start (count + 1) =
    ringList d entries cap start count ++ [entries.getD ((start + count) % cap) d] := by
  simp [ringList, List.range_succ]

/-- Two buffers that agree on every occupied slot hold the same list. -/
theorem ringList_congr (h : ∀ i < count,
    entries.getD ((start + i) % cap) d = entries'.getD ((start' + i) % cap') d) :
    ringList d entries cap start count = ringList d entries' cap' start' count := by
  apply List.map_congr_left
  intro i hi
  exact h i (List.mem_range.1 hi)

/-- The slot `i` places behind `start`, when the buffer wraps around at most once. -/
theorem add_mod_cap {i : ℕ} (hstart : start < cap) (hi : i ≤ cap) :
    (start + i) % cap = if start + i < cap then start + i else start + i - cap := by
  split_ifs with h
  · exact Nat.mod_eq_of_lt h
  · rw [Nat.mod_eq_sub_mod (not_lt.1 h)]
    exact Nat.mod_eq_of_lt (by omega)

/-- **A new first element** goes into the slot before the first one. -/
theorem ringList_cons (x : α) (hlen : entries.length = cap) (hstart : start < cap)
    (hcount : count < cap) :
    ringList d (entries.set ((start + cap - 1) % cap) x) cap ((start + cap - 1) % cap)
      (count + 1) = x :: ringList d entries cap start count := by
  have hfirst : (start + cap - 1) % cap = if start = 0 then cap - 1 else start - 1 := by
    split_ifs with h
    · subst h
      rw [Nat.zero_add, Nat.mod_eq_of_lt (by omega)]
    · rw [Nat.mod_eq_sub_mod (by omega), Nat.mod_eq_of_lt (by omega)]
      omega
  have hlt : (start + cap - 1) % cap < cap := Nat.mod_lt _ (by omega)
  unfold ringList
  rw [List.range_succ_eq_map, List.map_cons, List.map_map]
  congr 1
  · rw [Nat.add_zero, Nat.mod_eq_of_lt hlt]
    simp [List.getD_eq_getElem?_getD, hlen, hlt]
  · apply List.map_congr_left
    intro i hi
    have hi' : i < count := List.mem_range.1 hi
    -- the occupied slots are all different from the new one
    have hslot : ((start + cap - 1) % cap + (i + 1)) % cap = (start + i) % cap := by
      rw [Nat.mod_add_mod, show start + cap - 1 + (i + 1) = start + i + cap by omega,
        Nat.add_mod_right]
    have hne : (start + cap - 1) % cap ≠ (start + i) % cap := by
      rw [hfirst, add_mod_cap hstart (by omega)]
      split_ifs <;> omega
    simp only [Function.comp, Nat.succ_eq_add_one]
    rw [hslot]
    simp [List.getD_eq_getElem?_getD, List.getElem?_set_ne hne]

/-! ## Lists cut to a budget -/

/-- The longest prefix whose sizes add up to at most `budget`. -/
def fit (size : α → ℕ) : ℕ → List α → List α
  | _, [] => []
  | budget, a :: l => if size a ≤ budget then a :: fit size (budget - size a) l else []

variable {size : α → ℕ} {budget : ℕ} {l p : List α}

theorem fit_initial (size : α → ℕ) (budget : ℕ) (l : List α) : fit size budget l <+: l := by
  induction l generalizing budget with
  | nil => exact List.prefix_rfl
  | cons a l ih =>
    unfold fit
    split_ifs with h
    · exact List.cons_prefix_cons.2 ⟨rfl, ih (budget - size a)⟩
    · exact List.nil_prefix

theorem fit_sum_le (size : α → ℕ) (budget : ℕ) (l : List α) :
    ((fit size budget l).map size).sum ≤ budget := by
  induction l generalizing budget with
  | nil => exact Nat.zero_le _
  | cons a l ih =>
    unfold fit
    split_ifs with h
    · have hrest := ih (budget - size a)
      rw [List.map_cons, List.sum_cons]
      omega
    · exact Nat.zero_le _

/-- **`fit` is the longest** prefix within the budget. -/
theorem fit_greatest (hp : p <+: l) (hsum : (p.map size).sum ≤ budget) :
    p <+: fit size budget l := by
  induction l generalizing budget p with
  | nil => exact hp
  | cons a l ih =>
    cases p with
    | nil => exact List.nil_prefix
    | cons b p =>
      obtain ⟨rfl, hp'⟩ := List.cons_prefix_cons.1 hp
      rw [List.map_cons, List.sum_cons] at hsum
      unfold fit
      rw [if_pos (by omega)]
      exact List.cons_prefix_cons.2 ⟨rfl, ih hp' (by omega)⟩

theorem fit_eq_self (hsum : (l.map size).sum ≤ budget) : fit size budget l = l :=
  List.IsPrefix.eq_of_length_le (fit_initial size budget l)
    (fit_greatest List.prefix_rfl hsum).length_le

/-- **Dropping the last element** of a list that does not fit. -/
theorem fit_dropLast (hsum : budget < (l.map size).sum) :
    fit size budget l.dropLast = fit size budget l := by
  have hle := (fit_greatest (List.IsPrefix.trans (fit_initial size budget _)
    (List.dropLast_prefix l)) (fit_sum_le size budget l.dropLast)).length_le
  -- what fits of the whole list is a proper prefix of it
  have hproper : fit size budget l <+: l.dropLast := by
    obtain ⟨t, ht⟩ := fit_initial size budget l
    rcases List.eq_nil_or_concat' t with rfl | ⟨t', a, rfl⟩
    · have hfit := fit_sum_le size budget l
      rw [List.append_nil] at ht
      rw [ht] at hfit
      omega
    · refine ⟨t', ?_⟩
      have hdrop := congrArg List.dropLast ht
      rwa [← List.append_assoc, List.dropLast_concat] at hdrop
  exact (List.IsPrefix.eq_of_length_le (fit_greatest hproper (fit_sum_le size budget l)) hle).symm

/-- Nothing fits into an empty budget when every element has a size. -/
theorem fit_zero (size : α → ℕ) (hpos : ∀ a, 0 < size a) (l : List α) : fit size 0 l = [] := by
  cases l with
  | nil => rfl
  | cons a l =>
    unfold fit
    rw [if_neg (by have := hpos a; omega)]

end Lib
