import SimpleServer.Http.Parser
import SimpleServer.Lib.Occurrence

/-!
# The string library of the parser

What `parser.c` relies on in the tstr library: pieces between delimiters, the first delimiter,
blanks at the beginning, and names up to the case of their letters.
-/

namespace SimpleServer.Http

open Lib

variable {Uri : Type}

/-- The functions of the string library do what they say; `blank` are the bytes that
`tstr_view_lstrip` takes for blanks, a space and control characters. -/
structure HeadParser.Lawful (p : HeadParser Uri) (blank : UInt8 → Prop) [DecidablePred blank] :
    Prop where
  joined : ∀ value c, [c].intercalate (p.tstrSplitPieces value [c]) = value
  pieces : ∀ value c, ∀ piece ∈ p.tstrSplitPieces value [c], c ∉ piece
  split : ∀ value c, p.tstrSplit value [c] = splitFirst [c] value
  lstrip : ∀ value, p.tstrViewLstrip value = value.dropWhile fun c => blank c
  space : blank 0x20
  control : ∀ c, blank c → c ≤ 0x20
  eqIgnoreCase : ∀ a b, p.tstrEqIgnoreCase a b = eqIgnoreCase a b

/-- The pieces of a text that is not empty. -/
theorem HeadParser.Lawful.splitPieces {p : HeadParser Uri} {blank : UInt8 → Prop}
    [DecidablePred blank] (hlaw : p.Lawful blank) {value : Bytes} (hne : value ≠ []) (c : UInt8) :
    p.tstrSplitPieces value [c] = value.splitOn c := by
  have hjoined := hlaw.joined value c
  have hpieces : p.tstrSplitPieces value [c] ≠ [] := by
    intro hempty
    rw [hempty] at hjoined
    exact hne hjoined.symm
  exact eq_splitOn hpieces hjoined (hlaw.pieces value c)

/-- A space. -/
def IsSpace (c : UInt8) : Prop := c = 0x20

instance : DecidablePred IsSpace := fun c => inferInstanceAs (Decidable (c = 0x20))

theorem HeadParser.plain_lawful : HeadParser.plain.Lawful IsSpace where
  joined _ c := List.intercalate_splitOn c
  pieces value _ := notMem_of_mem_splitOn value
  split value c := by
    by_cases hmem : c ∈ value
    · obtain ⟨first, second, rfl, hnot⟩ := List.eq_append_cons_of_mem hmem
      have hall : ∀ a ∈ first, decide (a ≠ c) = true := by
        intro a ha
        exact decide_eq_true fun hsame => hnot (hsame ▸ ha)
      have htake : (first ++ c :: second).takeWhile (fun a => a ≠ c) = first := by
        rw [List.takeWhile_append_of_pos hall, List.takeWhile_cons_of_neg (by simp),
          List.append_nil]
      have hdrop : (first ++ c :: second).dropWhile (fun a => a ≠ c) = c :: second := by
        rw [List.dropWhile_append_of_pos hall, List.dropWhile_cons_of_neg (by simp)]
      rw [splitFirst_append_cons hnot]
      refine (if_pos hmem).trans ?_
      exact congrArg some (Prod.ext htake (congrArg (List.drop 1) hdrop))
    · rw [splitFirst_eq_none_of_not_mem hmem]
      exact if_neg hmem
  lstrip _ := rfl
  space := rfl
  control c h := by
    rw [h]
    exact UInt8.le_refl _
  eqIgnoreCase a b := by
    rw [Bool.eq_iff_iff, eqIgnoreCase, beq_iff_eq]
    exact decide_eq_true_iff

end SimpleServer.Http
