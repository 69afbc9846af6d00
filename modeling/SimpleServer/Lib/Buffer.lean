import Mathlib.Data.List.Basic
import Mathlib.Tactic

/-!
# Writing into a buffer

A buffer is the list of its cells. `memcpy` writes a text at an index, `store` one element, and
`slice` reads; they fail where they would leave the buffer.

* `memcpy_of_starts`: a buffer that starts with a text, after one more piece.
-/

namespace Lib.Buffer

variable {α : Type*} {buffer written text piece : List α} {index : ℕ} {a : α}

/-- The cells from an index on are overwritten. -/
def memcpy (buffer : List α) (index : ℕ) (piece : List α) : Option (List α) :=
  if index + piece.length ≤ buffer.length then
    some (buffer.take index ++ piece ++ buffer.drop (index + piece.length))
  else none

/-- The cells from an index on, as many as asked for. -/
def slice (buffer : List α) (index length : ℕ) : Option (List α) :=
  if index + length ≤ buffer.length then some ((buffer.drop index).take length) else none

/-- One cell is overwritten. -/
def store (buffer : List α) (index : ℕ) (a : α) : Option (List α) := memcpy buffer index [a]

theorem memcpy_eq_none :
    memcpy buffer index piece = none ↔ buffer.length < index + piece.length := by
  unfold memcpy
  split_ifs with h
  · simpa using h
  · simpa using h

theorem memcpy_length (h : memcpy buffer index piece = some written) :
    written.length = buffer.length := by
  unfold memcpy at h
  split_ifs at h with hroom
  obtain rfl := Option.some.inj h
  simp only [List.length_append, List.length_take, List.length_drop]
  omega

theorem memcpy_room (h : memcpy buffer index piece = some written) :
    index + piece.length ≤ buffer.length := by
  by_contra hroom
  rw [memcpy_eq_none.2 (not_le.1 hroom)] at h
  cases h

/-- **One more piece** behind the text that the buffer starts with. -/
theorem memcpy_of_starts (index : ℕ) (piece : List α) (h : text <+: buffer)
    (hindex : index = text.length)
    (hroom : index + piece.length ≤ buffer.length) :
    ∃ written, memcpy buffer index piece = some written ∧ text ++ piece <+: written ∧
      written.length = buffer.length := by
  obtain ⟨rest, rfl⟩ := h
  have hwritten : memcpy (text ++ rest) index piece =
      some ((text ++ rest).take index ++ piece ++ (text ++ rest).drop (index + piece.length)) :=
    if_pos hroom
  refine ⟨_, hwritten, ?_, memcpy_length hwritten⟩
  rw [hindex, List.take_left]
  exact List.prefix_append _ _

end Lib.Buffer
