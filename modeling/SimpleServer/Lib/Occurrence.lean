import Mathlib.Data.List.Infix
import Mathlib.Data.Nat.Find

/-!
# The first occurrence of a pattern

A text contains a pattern, if it is something, the pattern and something. The shortest such
beginning is what stands before the first occurrence. A matcher that starts again behind an
element that does not fit finds an occurrence only if what stands before it is made of its
failed attempts.

* `FirstAt`: what stands before the first occurrence; there is one (`exists_firstAt`), and only
  one (`FirstAt.unique`).
* `FailedAttempts`: attempts that find a beginning of the pattern and then another element.
* `splitFirst`: what stands before the first occurrence, and what stands behind it.
-/

namespace Lib

variable {α : Type*} {pattern text before : List α}

/-- The text up to the first occurrence of the pattern. -/
structure FirstAt (pattern text before : List α) : Prop where
  occurs : ∃ after, text = before ++ (pattern ++ after)
  first : ∀ before' after', text = before' ++ (pattern ++ after') →
    before.length ≤ before'.length

/-- A text that contains the pattern has a first occurrence of it. -/
theorem exists_firstAt (h : pattern <:+: text) : ∃ before, FirstAt pattern text before := by
  classical
  have hsome : ∃ n before after, text = before ++ (pattern ++ after) ∧ before.length = n := by
    obtain ⟨before, after, rfl⟩ := h
    exact ⟨_, before, after, by rw [List.append_assoc], rfl⟩
  obtain ⟨before, after, htext, hlength⟩ := Nat.find_spec hsome
  refine ⟨before, ⟨after, htext⟩, ?_⟩
  intro before' after' htext'
  rw [hlength]
  exact Nat.find_min' hsome ⟨before', after', htext', rfl⟩

theorem FirstAt.infix (h : FirstAt pattern text before) : pattern <:+: text := by
  obtain ⟨after, rfl⟩ := h.occurs
  exact ⟨before, after, by rw [List.append_assoc]⟩

theorem FirstAt.unique {before' : List α} (h : FirstAt pattern text before)
    (h' : FirstAt pattern text before') : before = before' := by
  obtain ⟨after, htext⟩ := h.occurs
  obtain ⟨after', htext'⟩ := h'.occurs
  have hle := h.first _ _ htext'
  have hge := h'.first _ _ htext
  exact (List.append_inj (htext.symm.trans htext') (le_antisymm hle hge)).1

/-- What stands before a pattern is free of its first element: this is the first occurrence. -/
theorem firstAt_of_not_mem {first : α} {rest after : List α} (before : List α)
    (h : first ∉ before) :
    FirstAt (first :: rest) (before ++ (first :: rest ++ after)) before := by
  refine ⟨⟨after, rfl⟩, ?_⟩
  intro before' after' htext
  by_contra hshort
  have hlt : before'.length < before.length := by omega
  have hget := congrArg (·[before'.length]?) htext
  simp only [List.getElem?_append_left hlt, List.getElem?_append_right (Nat.le_refl _),
    Nat.sub_self, List.cons_append, List.getElem?_cons_zero] at hget
  exact h (List.mem_of_getElem? hget)

/-- Attempts to match the pattern, each of which ends with the element that does not fit. -/
inductive FailedAttempts (pattern : List α) : List α → Prop
  | nil : FailedAttempts pattern []
  | attempt (found : ℕ) (element : α) (rest : List α) : found < pattern.length →
      pattern[found]? ≠ some element → FailedAttempts pattern rest →
      FailedAttempts pattern (pattern.take found ++ element :: rest)

/-- Every element fails at once if none of them starts the pattern. -/
theorem failedAttempts_of_not_mem {first : α} {rest : List α} (h : first ∉ before) :
    FailedAttempts (first :: rest) before := by
  induction before with
  | nil => exact .nil
  | cons element before ih =>
    have hother : first ≠ element := fun heq => h (by simp [heq])
    have hbefore := ih fun hmem => h (by simp [hmem])
    apply FailedAttempts.attempt 0 element before
    · simp
    · simpa using hother
    · exact hbefore


/-! ## Splitting -/

section Splitting

variable [DecidableEq α]

/-- What stands before the first occurrence of the pattern, and what stands behind it. -/
def splitFirst (pattern : List α) : List α → Option (List α × List α)
  | [] => if pattern = [] then some ([], []) else none
  | a :: text =>
    if pattern <+: a :: text then some ([], (a :: text).drop pattern.length)
    else (splitFirst pattern text).map fun parts => (a :: parts.1, parts.2)

theorem splitFirst_of_isPrefix {after : List α} : splitFirst pattern (pattern ++ after) =
    some ([], after) := by
  cases htext : pattern ++ after with
  | nil =>
    obtain ⟨rfl, rfl⟩ := List.append_eq_nil_iff.1 htext
    rfl
  | cons a text =>
    rw [splitFirst, ← htext, if_pos (List.prefix_append _ _), List.drop_left]

/-- The pattern occurs nowhere inside the text or across its end. -/
def Unstarted (pattern text after : List α) : Prop :=
  ∀ n < text.length, ¬ pattern <+: text.drop n ++ (pattern ++ after)

/-- **The first occurrence is found**, when the pattern starts nowhere before it. -/
theorem splitFirst_append {after : List α} (h : Unstarted pattern before after) :
    splitFirst pattern (before ++ (pattern ++ after)) = some (before, after) := by
  induction before with
  | nil => exact splitFirst_of_isPrefix
  | cons a before ih =>
    have hfirst : ¬ pattern <+: a :: (before ++ (pattern ++ after)) := by
      simpa using h 0 (by simp)
    have hrest : Unstarted pattern before after := by
      intro n hn
      simpa using h (n + 1) (by simpa using hn)
    rw [List.cons_append, splitFirst, if_neg hfirst, ih hrest]
    rfl

theorem splitFirst_eq_some {after : List α} (h : splitFirst pattern text = some (before, after)) :
    text = before ++ (pattern ++ after) := by
  induction text generalizing before with
  | nil =>
    rw [splitFirst] at h
    split_ifs at h with hnil
    cases h
    simp [hnil]
  | cons a text ih =>
    rw [splitFirst] at h
    split_ifs at h with hfirst
    · cases h
      obtain ⟨after, htext⟩ := hfirst
      rw [← htext, List.drop_left]
      rfl
    · obtain ⟨⟨before', after'⟩, hsplit, hparts⟩ := Option.map_eq_some_iff.1 h
      cases hparts
      rw [ih hsplit]
      rfl

theorem splitFirst_eq_none : splitFirst pattern text = none ↔ ¬ pattern <:+: text := by
  induction text with
  | nil =>
    rw [splitFirst, List.infix_nil]
    split_ifs with hnil <;> simp [hnil]
  | cons a text ih =>
    rw [splitFirst, List.infix_cons_iff]
    split_ifs with hfirst
    · simp [hfirst]
    · simp [hfirst, ih]

/-- The pattern does not occur before its first occurrence. -/
theorem splitFirst_before {after : List α} (hne : pattern ≠ [])
    (h : splitFirst pattern text = some (before, after)) : ¬ pattern <:+: before := by
  induction text generalizing before with
  | nil =>
    rw [splitFirst, if_neg hne] at h
    cases h
  | cons a text ih =>
    rw [splitFirst] at h
    split_ifs at h with hfirst
    · cases h
      rwa [List.infix_nil]
    · obtain ⟨⟨before', after'⟩, hsplit, hparts⟩ := Option.map_eq_some_iff.1 h
      cases hparts
      have htext := splitFirst_eq_some hsplit
      rw [List.infix_cons_iff, not_or]
      refine ⟨?_, ih hsplit⟩
      intro hprefix
      apply hfirst
      rw [htext, ← List.cons_append]
      exact hprefix.trans (List.prefix_append _ _)

variable {c : α}

/-- No piece has the separator. -/
theorem notMem_of_mem_splitOn (text : List α) : ∀ piece ∈ text.splitOn c, c ∉ piece := by
  induction text with
  | nil => simp
  | cons a text ih =>
    rw [List.splitOn_cons_eq_if_modifyHead]
    cases hpieces : text.splitOn c with
    | nil => exact absurd hpieces (List.splitOn_ne_nil c text)
    | cons piece pieces =>
      rw [hpieces] at ih
      split_ifs with hsame
      · intro piece' hpiece'
        rcases List.mem_cons.1 hpiece' with rfl | hrest
        · exact List.not_mem_nil
        · exact ih piece' hrest
      · rw [List.modifyHead_cons]
        intro piece' hpiece'
        rcases List.mem_cons.1 hpiece' with rfl | hrest
        · rw [List.mem_cons, not_or]
          refine ⟨?_, ih piece List.mem_cons_self⟩
          rintro rfl
          exact hsame (beq_self_eq_true c)
        · exact ih piece' (List.mem_cons_of_mem _ hrest)

/-- The pieces between separators are determined by their text. -/
theorem eq_splitOn {pieces : List (List α)} (hne : pieces ≠ [])
    (hjoined : [c].intercalate pieces = text) (hclean : ∀ piece ∈ pieces, c ∉ piece) :
    pieces = text.splitOn c := by
  rw [← hjoined, List.splitOn_intercalate c hclean hne]

theorem splitFirst_append_cons {after : List α} (h : c ∉ before) :
    splitFirst [c] (before ++ c :: after) = some (before, after) := by
  have hstart : Unstarted [c] before after := by
    intro n hn hstarts
    rw [List.drop_eq_getElem_cons hn, List.cons_append, List.cons_prefix_cons] at hstarts
    exact h (hstarts.1 ▸ List.getElem_mem hn)
  exact splitFirst_append hstart

theorem splitFirst_eq_none_of_not_mem (h : c ∉ text) : splitFirst [c] text = none := by
  rw [splitFirst_eq_none, List.singleton_infix_iff]
  exact h

theorem splitFirst_cons_eq_some {after : List α} :
    splitFirst [c] text = some (before, after) ↔ text = before ++ c :: after ∧ c ∉ before := by
  constructor
  · intro h
    have hnot := splitFirst_before (by simp) h
    rw [List.singleton_infix_iff] at hnot
    exact ⟨splitFirst_eq_some h, hnot⟩
  · rintro ⟨rfl, hnot⟩
    exact splitFirst_append_cons hnot

end Splitting

end Lib
