import SimpleServer.Proof.PathBuilding

/-!
# Two paths up to a slash at the end

`is_the_same_path` subtracts the second length from the first one as unsigned numbers, so only a
first path that is longer by one is compared at all.

* `lengthDifference_eq_one`: which lengths are compared.
* `comparedRight_iff`: **when the comparison is right.**
-/

namespace SimpleServer.Http

open Lib Utils

variable {path1 path2 : Bytes} {len1 len2 : ℕ}

/-- The same path, or one of them with a slash behind it. -/
def SameUpToSlash (path1 path2 : Bytes) : Prop :=
  path1 = path2 ∨ path1 = path2 ++ [slash] ∨ path2 = path1 ++ [slash]

/-- The comparison says what it should. -/
def ComparedRight (path1 path2 : Bytes) : Prop :=
  isTheSamePath path1 path2 = true ↔ SameUpToSlash path1 path2

/-! ## The difference of the lengths -/

/-- `diff`. -/
def lengthDifference (len1 len2 : ℕ) : UInt64 :=
  absI64 (Int64.ofNat len1) - (Int64.ofNat len2).toUInt64

/-- The lengths for which the difference is 1. -/
def DifferByOne (len1 len2 : ℕ) : Prop :=
  len1 < 2 ^ 63 ∧ len1 = len2 + 1 ∨ len1 = 0 ∧ len2 = 2 ^ 64 - 1 ∨
    2 ^ 63 ≤ len1 ∧ len1 + len2 = 2 ^ 64 - 1

theorem ofNat_neg_iff (h : len1 < 2 ^ 64) : Int64.ofNat len1 < 0 ↔ 2 ^ 63 ≤ len1 := by
  have hsize : Int64.size = 2 ^ 64 := rfl
  rw [Int64.lt_iff_toInt_lt, Int64.toInt_ofNat', Int64.toInt_zero, Int.bmod_def, hsize]
  push_cast
  omega

theorem absI64_toNat (h : len1 < 2 ^ 64) :
    (absI64 (Int64.ofNat len1)).toNat = if len1 < 2 ^ 63 then len1 else 2 ^ 64 - len1 := by
  unfold absI64
  by_cases hsmall : len1 < 2 ^ 63
  · have hnot : ¬ Int64.ofNat len1 < 0 := by
      rw [ofNat_neg_iff h]
      omega
    rw [if_neg hnot, if_pos hsmall, Int64.toUInt64_ofNat', UInt64.toNat_ofNat_of_lt' h]
  · have hneg : Int64.ofNat len1 < 0 := by
      rw [ofNat_neg_iff h]
      omega
    have hvalue : (-(Int64.ofNat len1 + 1)).toUInt64 + 1 = -UInt64.ofNat len1 := by
      rw [Int64.toUInt64_neg, Int64.toUInt64_add, Int64.toUInt64_ofNat', UInt64.neg_add]
      exact UInt64.sub_add_cancel _ _
    have hsize : UInt64.size = 2 ^ 64 := rfl
    rw [if_pos hneg, if_neg hsmall, hvalue, UInt64.toNat_neg, UInt64.toNat_ofNat_of_lt' h, hsize]
    omega

theorem lengthDifference_eq_one (h1 : len1 < 2 ^ 64) (h2 : len2 < 2 ^ 64) :
    lengthDifference len1 len2 = 1 ↔ DifferByOne len1 len2 := by
  have habs := absI64_toNat h1
  have hone : (1 : UInt64).toNat = 1 := rfl
  rw [← UInt64.toNat_inj, lengthDifference, UInt64.toNat_sub, habs, Int64.toUInt64_ofNat',
    UInt64.toNat_ofNat_of_lt' h2, hone, DifferByOne]
  by_cases hsmall : len1 < 2 ^ 63
  · rw [if_pos hsmall]
    omega
  · rw [if_neg hsmall]
    omega

/-! ## The result -/

/-- Other paths that are taken for the same: by lengths so large that their difference wraps around,
or because of a zero byte. -/
structure TakenForSame (path1 path2 : Bytes) : Prop where
  lengths : DifferByOne path1.length path2.length
  slash : (if path1.length < path2.length then path2 else path1).getLast? = some slash
  beginning : cString (path1.take (min path1.length path2.length)) =
    cString (path2.take (min path1.length path2.length))

theorem isTheSamePath_iff (h1 : path1.length < 2 ^ 64) (h2 : path2.length < 2 ^ 64) :
    isTheSamePath path1 path2 = true ↔
      path1 = path2 ∨ path1.length ≠ path2.length ∧ TakenForSame path1 path2 := by
  have hdifference := lengthDifference_eq_one h1 h2
  unfold isTheSamePath
  by_cases hlength : path1.length = path2.length
  · simp [hlength]
  · have hne : path1 ≠ path2 := fun heq => hlength (congrArg List.length heq)
    rw [if_neg hlength, or_iff_right hne, and_iff_right hlength]
    dsimp only
    rw [show absI64 (Int64.ofNat path1.length) - (Int64.ofNat path2.length).toUInt64 =
      lengthDifference path1.length path2.length from rfl]
    by_cases hone : lengthDifference path1.length path2.length = 1
    · have hlengths := hdifference.1 hone
      rw [hone, if_neg (by decide), if_pos rfl]
      by_cases hslash : (if path1.length < path2.length then path2 else path1).getLast? = some slash
      · rw [if_neg (not_not.2 hslash), decide_eq_true_eq]
        exact ⟨fun h => ⟨hlengths, hslash, h⟩, fun h => h.beginning⟩
      · rw [if_pos hslash]
        exact ⟨nofun, fun h => absurd h.slash hslash⟩
    · have hlengths : ¬ DifferByOne path1.length path2.length := mt hdifference.2 hone
      rw [if_neg hone]
      simp only [ite_self, Bool.false_eq_true, false_iff]
      exact fun h => hlengths h.lengths

/-- A slash more on the first path is seen, except for lengths above 2^63. -/
theorem takenForSame_slash (path : Bytes) (h : (path ++ [slash]).length ≤ 2 ^ 63) :
    TakenForSame (path ++ [slash]) path where
  lengths := by
    rw [List.length_append, List.length_singleton] at h ⊢
    unfold DifferByOne
    omega
  slash := by
    rw [if_neg (by simp), List.getLast?_concat]
  beginning := by simp

theorem TakenForSame.lengths_ne (h : TakenForSame path1 path2) : path1.length ≠ path2.length := by
  intro heq
  have hlengths := h.lengths
  unfold DifferByOne at hlengths
  omega

/-- **When the comparison is right**: if the second path is not the first one with a slash behind
it, the first one not the second one with a slash and longer than 2^63, and if no other paths are
taken for the same. -/
theorem comparedRight_iff (path1 path2 : Bytes) (h1 : path1.length < 2 ^ 64)
    (h2 : path2.length < 2 ^ 64) :
    ComparedRight path1 path2 ↔ path2 ≠ path1 ++ [slash] ∧
      (path1 = path2 ++ [slash] → path1.length ≤ 2 ^ 63) ∧
        (TakenForSame path1 path2 → SameUpToSlash path1 path2) := by
  rw [ComparedRight, isTheSamePath_iff h1 h2]
  constructor
  · intro h
    refine ⟨?_, ?_, fun htaken => h.1 (.inr ⟨htaken.lengths_ne, htaken⟩)⟩
    · intro hsame
      have hlength := congrArg List.length hsame
      rw [List.length_append, List.length_singleton] at hlength
      rcases h.2 (.inr (.inr hsame)) with heq | ⟨-, htaken⟩
      · rw [heq] at hlength
        omega
      · have hlengths := htaken.lengths
        unfold DifferByOne at hlengths
        omega
    · intro hsame
      have hlength := congrArg List.length hsame
      rw [List.length_append, List.length_singleton] at hlength
      rcases h.2 (.inr (.inl hsame)) with heq | ⟨-, htaken⟩
      · rw [heq] at hlength
        omega
      · have hlengths := htaken.lengths
        unfold DifferByOne at hlengths
        omega
  · rintro ⟨hbehind, hlong, htaken⟩
    constructor
    · rintro (heq | ⟨-, h⟩)
      · exact .inl heq
      · exact htaken h
    · rintro (heq | hsame | hsame)
      · exact .inl heq
      · have hlength := hlong hsame
        subst hsame
        have hslash := takenForSame_slash path2 hlength
        exact .inr ⟨hslash.lengths_ne, hslash⟩
      · exact absurd hsame hbehind

/-- Without zero bytes and with lengths below 2^63 only the first condition is left. -/
theorem TakenForSame.sameUpToSlash (h : TakenForSame path1 path2) (h1 : path1.length < 2 ^ 63)
    (h2 : path2.length < 2 ^ 63) (hzero1 : 0 ∉ path1) (hzero2 : 0 ∉ path2) :
    SameUpToSlash path1 path2 := by
  obtain ⟨hlengths, hslash, hbeginning⟩ := h
  have hlength : path1.length = path2.length + 1 := by
    unfold DifferByOne at hlengths
    omega
  have htake1 : 0 ∉ path1.take path2.length := fun hin => hzero1 (List.mem_of_mem_take hin)
  rw [if_neg (by omega)] at hslash
  rw [min_eq_right (by omega), List.take_length, cString_eq_self hzero2, cString_eq_self htake1]
    at hbeginning
  obtain ⟨init, rfl⟩ := List.getLast?_eq_some_iff.1 hslash
  rw [List.length_append, List.length_singleton, Nat.add_right_cancel_iff] at hlength
  rw [← hlength, List.take_left] at hbeginning
  exact .inr (.inl (by rw [hbeginning]))

/-- A folder with a slash at its end is the same as the one without. -/
theorem comparedRight_secondShorter : ComparedRight (ascii "/srv/") (ascii "/srv") := by
  refine (comparedRight_iff _ _ (by decide) (by decide)).2
    ⟨by decide, fun _ => by decide, fun h => ?_⟩
  exact h.sameUpToSlash (by decide) (by decide) (by decide) (by decide)

/-- The other way round it is not. -/
theorem firstShorter_differs : ¬ ComparedRight (ascii "/srv") (ascii "/srv/") := by
  intro h
  have hsame : isTheSamePath (ascii "/srv") (ascii "/srv/") = true := h.2 (.inr (.inr rfl))
  exact absurd hsame (by decide)

end SimpleServer.Http
