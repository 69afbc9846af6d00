import Mathlib.Tactic

/-!
# Cutting a list into parts

A loop over an offset cuts a list into parts of at most `n` elements and marks the part that
reaches the end.

* `fragmentLoop_flatten`: the parts are the list.
* `fragmentLoop_first`, `fragmentLoop_last`: only the first part starts at the first offset,
  and exactly the last one is marked.
-/

namespace Lib

variable {α : Type}

/-- A part of a list: where it starts, what it holds, and whether it is the last. -/
structure Fragment (α : Type) where
  offset : ℕ
  content : List α
  last : Bool
deriving Repr, DecidableEq

/-- The parts from an offset on. -/
def fragmentLoop (n : ℕ) (l : List α) : ℕ → ℕ → List (Fragment α)
  | 0, _ => []
  | fuel + 1, offset =>
    if offset < l.length then
      let size := if offset + n ≥ l.length then l.length - offset else n
      ⟨offset, (l.drop offset).take size, offset + size ≥ l.length⟩ ::
        fragmentLoop n l fuel (offset + size)
    else []

/-- All parts; every round takes an element. -/
def fragments (n : ℕ) (l : List α) : List (Fragment α) := fragmentLoop n l l.length 0

variable {n fuel offset : ℕ} {l : List α}

theorem fragmentLoop_end (fuel : ℕ) (h : l.length ≤ offset) :
    fragmentLoop n l fuel offset = [] := by
  cases fuel with
  | zero => rfl
  | succ fuel => rw [fragmentLoop, if_neg (not_lt.2 h)]

/-- One round: the part is the last one and nothing follows, or it has `n` elements. -/
theorem fragmentLoop_step (n fuel : ℕ) (h : offset < l.length) :
    (l.length ≤ offset + n ∧ fragmentLoop n l (fuel + 1) offset =
      [⟨offset, l.drop offset, true⟩]) ∨
    (offset + n < l.length ∧ fragmentLoop n l (fuel + 1) offset =
      ⟨offset, (l.drop offset).take n, false⟩ :: fragmentLoop n l fuel (offset + n)) := by
  rw [fragmentLoop, if_pos h]
  dsimp only
  by_cases hend : offset + n ≥ l.length
  · left
    have hall : offset + (l.length - offset) = l.length := by omega
    rw [if_pos hend, hall, fragmentLoop_end fuel le_rfl,
      List.take_of_length_le (by rw [List.length_drop])]
    exact ⟨hend, by simp⟩
  · right
    rw [if_neg hend]
    exact ⟨by omega, by simp only [hend, decide_false]⟩

/-- **The parts are the list.** -/
theorem fragmentLoop_flatten (hn : 0 < n) (hfuel : l.length ≤ offset + fuel) :
    ((fragmentLoop n l fuel offset).map Fragment.content).flatten = l.drop offset := by
  induction fuel generalizing offset with
  | zero =>
    rw [List.drop_of_length_le (by omega)]
    rfl
  | succ fuel ih =>
    by_cases h : offset < l.length
    · rcases fragmentLoop_step n fuel h with ⟨-, heq⟩ | ⟨-, heq⟩
      · rw [heq]
        simp
      · rw [heq, List.map_cons, List.flatten_cons, ih (by omega), ← List.drop_drop,
          List.take_append_drop]
    · rw [fragmentLoop_end _ (not_lt.1 h), List.drop_of_length_le (not_lt.1 h)]
      rfl

theorem fragmentLoop_length_le (fuel offset : ℕ) :
    ∀ f ∈ fragmentLoop n l fuel offset, f.content.length ≤ n := by
  induction fuel generalizing offset with
  | zero => exact nofun
  | succ fuel ih =>
    intro f hf
    by_cases h : offset < l.length
    · rcases fragmentLoop_step n fuel h with ⟨hle, heq⟩ | ⟨-, heq⟩
      · rw [heq, List.mem_singleton] at hf
        rw [hf]
        simp only [List.length_drop]
        omega
      · rw [heq, List.mem_cons] at hf
        rcases hf with rfl | hf
        · simp only [List.length_take]
          omega
        · exact ih _ f hf
    · rw [fragmentLoop_end _ (not_lt.1 h)] at hf
      cases hf

/-- A part is what stands in the list at its offset. -/
theorem fragmentLoop_content (fuel offset : ℕ) :
    ∀ f ∈ fragmentLoop n l fuel offset, (l.drop f.offset).take f.content.length = f.content := by
  induction fuel generalizing offset with
  | zero => exact nofun
  | succ fuel ih =>
    intro f hf
    by_cases h : offset < l.length
    · rcases fragmentLoop_step n fuel h with ⟨-, heq⟩ | ⟨-, heq⟩
      · rw [heq, List.mem_singleton] at hf
        rw [hf]
        exact List.take_length
      · rw [heq, List.mem_cons] at hf
        rcases hf with rfl | hf
        · simp only [List.length_take]
          rw [← List.take_take, List.take_length]
        · exact ih _ f hf
    · rw [fragmentLoop_end _ (not_lt.1 h)] at hf
      cases hf

theorem fragmentLoop_offset (fuel offset : ℕ) :
    ∀ f ∈ fragmentLoop n l fuel offset, offset ≤ f.offset := by
  induction fuel generalizing offset with
  | zero => exact nofun
  | succ fuel ih =>
    intro f hf
    by_cases h : offset < l.length
    · rcases fragmentLoop_step n fuel h with ⟨-, heq⟩ | ⟨-, heq⟩
      · rw [heq, List.mem_singleton] at hf
        rw [hf]
      · rw [heq, List.mem_cons] at hf
        rcases hf with rfl | hf
        · exact le_rfl
        · have hle := ih (offset + n) f hf
          omega
    · rw [fragmentLoop_end _ (not_lt.1 h)] at hf
      cases hf

/-- Only the first part starts at the offset. -/
theorem fragmentLoop_first (hn : 0 < n) (h : offset < l.length)
    (hfuel : l.length ≤ offset + fuel) :
    ∃ f rest, fragmentLoop n l fuel offset = f :: rest ∧ f.offset = offset ∧
      ∀ g ∈ rest, offset < g.offset := by
  obtain ⟨fuel, rfl⟩ : ∃ k, fuel = k + 1 := ⟨fuel - 1, by omega⟩
  rcases fragmentLoop_step n fuel h with ⟨-, heq⟩ | ⟨-, heq⟩
  · exact ⟨_, _, heq, rfl, nofun⟩
  · refine ⟨_, _, heq, rfl, ?_⟩
    intro g hg
    have hle := fragmentLoop_offset fuel (offset + n) g hg
    omega

/-- **Exactly the last part is marked.** -/
theorem fragmentLoop_last (hn : 0 < n) (h : offset < l.length)
    (hfuel : l.length ≤ offset + fuel) :
    ∃ pre f, fragmentLoop n l fuel offset = pre ++ [f] ∧ f.last = true ∧
      ∀ g ∈ pre, g.last = false := by
  induction fuel generalizing offset with
  | zero => omega
  | succ fuel ih =>
    rcases fragmentLoop_step n fuel h with ⟨-, heq⟩ | ⟨hlt, heq⟩
    · exact ⟨[], _, heq, rfl, nofun⟩
    · obtain ⟨pre, f, hrest, hlast, hpre⟩ := ih hlt (by omega)
      refine ⟨_ :: pre, f, by rw [heq, hrest]; rfl, hlast, ?_⟩
      intro g hg
      rcases List.mem_cons.1 hg with rfl | hg
      · rfl
      · exact hpre g hg

end Lib
