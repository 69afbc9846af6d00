import Mathlib.Data.List.Basic
import Mathlib.Tactic

/-!
# Sorting with a comparison function

A comparison function says by the sign of a number how two elements compare. Where it is consistent,
a stable sort puts the elements in ascending order and keeps the order of those that compare equal;
where it is not, nothing is said but that the elements stay the same.

* `IsStableSort.firstLeast`: the first element of a kind, in a sorted list.
* `exists_first_greatest`: the first one of the greatest.
* `stableSort_isStableSort`, `exists_stableSort_first`: there is a stable sort, and any element of
  an inconsistent list may come first.
-/

namespace Lib

variable {α : Type*} {compare : α → α → ℤ} {sort : List α → List α} {list : List α} {a : α}

/-- The comparison function orders the elements of a list. -/
structure Consistent (compare : α → α → ℤ) (list : List α) : Prop where
  swap : ∀ a ∈ list, ∀ b ∈ list, compare a b ≤ 0 ↔ 0 ≤ compare b a
  trans : ∀ a ∈ list, ∀ b ∈ list, ∀ c ∈ list,
    compare a b ≤ 0 → compare b c ≤ 0 → compare a c ≤ 0

/-- A stable sort in ascending order. -/
structure IsStableSort (compare : α → α → ℤ) (sort : List α → List α) : Prop where
  perm : ∀ list, (sort list).Perm list
  ascending : ∀ list, Consistent compare list →
    (sort list).Pairwise fun a b => compare a b ≤ 0
  stable : ∀ list, Consistent compare list → ∀ a ∈ list,
    (sort list).filter (fun b => compare a b = 0) = list.filter fun b => compare a b = 0

/-- The first one of the least elements with a property. -/
def FirstLeast (compare : α → α → ℤ) (property : α → Prop) (list : List α) (a : α) : Prop :=
  ∃ before after, list = before ++ a :: after ∧ property a ∧
    (∀ b ∈ before, property b → compare a b < 0) ∧ ∀ b ∈ after, property b → compare a b ≤ 0

theorem Consistent.refl (h : Consistent compare list) (ha : a ∈ list) : compare a a ≤ 0 := by
  rcases le_total (compare a a) 0 with hle | hle
  · exact hle
  · exact (h.swap a ha a ha).2 hle

theorem Consistent.eq_zero (h : Consistent compare list) (ha : a ∈ list) : compare a a = 0 :=
  le_antisymm (h.refl ha) ((h.swap a ha a ha).1 (h.refl ha))

/-- Nothing of a kind is found in the sorted list if there is nothing of it. -/
theorem IsStableSort.find?_eq_none_iff (hsort : IsStableSort compare sort) {property : α → Prop}
    [DecidablePred property] :
    (sort list).find? (fun b => property b) = none ↔ ∀ b ∈ list, ¬ property b := by
  rw [List.find?_eq_none]
  simp only [(hsort.perm list).mem_iff, decide_eq_true_eq]

/-- **The first element of a kind** in the sorted list is the first one of the least. -/
theorem IsStableSort.firstLeast (hsort : IsStableSort compare sort)
    (h : Consistent compare list) {property : α → Prop} [DecidablePred property]
    (hfind : (sort list).find? (fun b => property b) = some a) :
    FirstLeast compare property list a := by
  have hproperty : property a := by simpa using List.find?_some hfind
  have hmem : a ∈ list := (hsort.perm list).mem_iff.1 (List.mem_of_find?_eq_some hfind)
  obtain ⟨-, first, last, hsorted, hfirst⟩ := List.find?_eq_some_iff_append.1 hfind
  have hleast : ∀ b ∈ list, property b → compare a b ≤ 0 := by
    intro b hb hkind
    have hpair := hsort.ascending list h
    rw [← (hsort.perm list).mem_iff, hsorted, List.mem_append, List.mem_cons] at hb
    rw [hsorted] at hpair
    rcases hb with hb | rfl | hb
    · have hnot := hfirst b hb
      simp [hkind] at hnot
    · exact h.refl hmem
    · exact List.rel_of_pairwise_cons (List.pairwise_append.1 hpair).2.1 hb
  -- among those that compare equal the order is the one of the list
  have hequal : list.find? (fun b => compare a b = 0 ∧ property b) = some a := by
    have hfilter := hsort.stable list h a hmem
    have hsame : (sort list).find? (fun b => compare a b = 0 ∧ property b) = some a := by
      rw [List.find?_eq_some_iff_append]
      refine ⟨decide_eq_true ⟨h.eq_zero hmem, hproperty⟩, first, last, hsorted, ?_⟩
      intro b hb
      have hnot := hfirst b hb
      simp only [Bool.not_eq_true', decide_eq_false_iff_not] at hnot ⊢
      exact fun hboth => hnot hboth.2
    have hsplit (l : List α) : l.find? (fun b => compare a b = 0 ∧ property b) =
        (l.filter fun b => compare a b = 0).find? fun b => property b := by
      rw [List.find?_filter]
      simp
    rw [hsplit, ← hfilter, ← hsplit, hsame]
  obtain ⟨-, before, after, hlist, hbefore⟩ := List.find?_eq_some_iff_append.1 hequal
  refine ⟨before, after, hlist, hproperty, ?_, ?_⟩
  · intro b hb hkind
    have hle := hleast b (by simp [hlist, hb]) hkind
    have hnot := hbefore b hb
    simp only [Bool.not_eq_true', decide_eq_false_iff_not, not_and] at hnot
    exact lt_of_le_of_ne hle fun hzero => hnot hzero hkind
  · intro b hb hkind
    exact hleast b (by simp [hlist, hb]) hkind

/-- Two places of a list are the same, or one is in front of the other. -/
theorem append_cons_cases {first last before after : List α} {b : α}
    (h : first ++ a :: last = before ++ b :: after) :
    a = b ∨ (∃ middle, before = first ++ a :: middle ∧ last = middle ++ b :: after) ∨
      ∃ middle, first = before ++ b :: middle ∧ after = middle ++ a :: last := by
  rcases List.append_eq_append_iff.1 h with ⟨middle, hbefore, hlast⟩ | ⟨middle, hfirst, hafter⟩
  · cases middle with
    | nil => exact .inl (List.cons.inj hlast).1
    | cons c middle =>
      obtain ⟨rfl, hrest⟩ := List.cons.inj hlast
      exact .inr (.inl ⟨middle, hbefore, hrest⟩)
  · cases middle with
    | nil => exact .inl (List.cons.inj hafter).1.symm
    | cons c middle =>
      obtain ⟨rfl, hrest⟩ := List.cons.inj hafter
      exact .inr (.inr ⟨middle, hfirst, hrest⟩)

/-- There is only one first element among the least. -/
theorem FirstLeast.unique (h : Consistent compare list) {property : α → Prop} {a' : α}
    (ha : FirstLeast compare property list a) (ha' : FirstLeast compare property list a') :
    a = a' := by
  obtain ⟨before, after, hlist, hproperty, hbefore, hafter⟩ := ha
  obtain ⟨before', after', hlist', hproperty', hbefore', hafter'⟩ := ha'
  have hswap := h.swap a (by simp [hlist]) a' (by simp [hlist'])
  have hswap' := h.swap a' (by simp [hlist']) a (by simp [hlist])
  rw [hlist] at hlist'
  rcases append_cons_cases hlist' with rfl | ⟨middle, rfl, rfl⟩ | ⟨middle, rfl, rfl⟩
  · rfl
  · have hless := hbefore' a (by simp) hproperty
    have hle := hafter a' (by simp) hproperty'
    omega
  · have hless := hbefore a' (by simp) hproperty'
    have hle := hafter' a (by simp) hproperty
    omega

/-- Where an element has a property, there is a first one among those of the greatest weight. -/
theorem exists_first_greatest {β : Type*} [LinearOrder β] (weight : α → β) (property : α → Prop)
    (h : ∃ a ∈ list, property a) :
    ∃ before a after, list = before ++ a :: after ∧ property a ∧
      (∀ b ∈ before, property b → weight b < weight a) ∧
        ∀ b ∈ after, property b → weight b ≤ weight a := by
  induction list with
  | nil =>
    obtain ⟨a, ha, -⟩ := h
    exact absurd ha List.not_mem_nil
  | cons x rest ih =>
    by_cases hrest : ∃ a ∈ rest, property a
    · obtain ⟨before, a, after, rfl, hproperty, hbefore, hafter⟩ := ih hrest
      have hall : ∀ b ∈ before ++ a :: after, property b → weight b ≤ weight a := by
        intro b hb hkind
        rcases List.mem_append.1 hb with hb | hb
        · exact (hbefore b hb hkind).le
        · rcases List.mem_cons.1 hb with rfl | hb
          · exact le_rfl
          · exact hafter b hb hkind
      by_cases hx : property x ∧ weight a ≤ weight x
      · refine ⟨[], x, _, rfl, hx.1, by simp, ?_⟩
        intro b hb hkind
        exact (hall b hb hkind).trans hx.2
      · refine ⟨x :: before, a, after, rfl, hproperty, ?_, hafter⟩
        intro b hb hkind
        rcases List.mem_cons.1 hb with rfl | hb
        · exact not_le.1 fun hle => hx ⟨hkind, hle⟩
        · exact hbefore b hb hkind
    · obtain ⟨a, ha, hproperty⟩ := h
      rcases List.mem_cons.1 ha with rfl | ha
      · refine ⟨[], a, rest, rfl, hproperty, by simp, ?_⟩
        intro b hb hkind
        exact absurd ⟨b, hb, hkind⟩ hrest
      · exact absurd ⟨a, ha, hproperty⟩ hrest

/-! ## There is a stable sort -/

/-- The merge sort of a list with a consistent comparison. -/
def sortConsistent (compare : α → α → ℤ) (list : List α) : List α :=
  (list.attach.mergeSort fun a b => compare a.1 b.1 ≤ 0).map Subtype.val

variable (compare) in
theorem sortConsistent_perm (list : List α) : (sortConsistent compare list).Perm list := by
  have hperm := (List.mergeSort_perm list.attach fun a b => compare a.1 b.1 ≤ 0).map Subtype.val
  rwa [List.attach_map_subtype_val] at hperm

/-- The comparison of the elements of a consistent list. -/
theorem Consistent.trans_attach (h : Consistent compare list) :
    ∀ a b c : {a // a ∈ list}, decide (compare a.1 b.1 ≤ 0) = true →
      decide (compare b.1 c.1 ≤ 0) = true → decide (compare a.1 c.1 ≤ 0) = true := by
  intro a b c hab hbc
  simp only [decide_eq_true_eq] at hab hbc ⊢
  exact h.trans a a.2 b b.2 c c.2 hab hbc

theorem Consistent.total_attach (h : Consistent compare list) :
    ∀ a b : {a // a ∈ list},
      (decide (compare a.1 b.1 ≤ 0) || decide (compare b.1 a.1 ≤ 0)) = true := by
  intro a b
  have hswap := h.swap a a.2 b b.2
  simp only [Bool.or_eq_true, decide_eq_true_eq]
  omega

theorem sortConsistent_ascending (h : Consistent compare list) :
    (sortConsistent compare list).Pairwise fun a b => compare a b ≤ 0 := by
  have hpair := List.pairwise_mergeSort h.trans_attach h.total_attach list.attach
  rw [sortConsistent, List.pairwise_map]
  exact hpair.imp fun hle => of_decide_eq_true hle

theorem sortConsistent_stable (h : Consistent compare list) (ha : a ∈ list) :
    (sortConsistent compare list).filter (fun b => compare a b = 0) =
      list.filter fun b => compare a b = 0 := by
  have hequal : (list.attach.filter fun b => compare a b.1 = 0).Pairwise
      fun b c => decide (compare b.1 c.1 ≤ 0) := by
    apply List.pairwise_of_forall_mem_list
    intro b hb c hc
    have hb' : compare a b = 0 := of_decide_eq_true (List.mem_filter.1 hb).2
    have hc' : compare a c = 0 := of_decide_eq_true (List.mem_filter.1 hc).2
    have hba : compare b a ≤ 0 := (h.swap b b.2 a ha).2 (le_of_eq hb'.symm)
    exact decide_eq_true (h.trans b b.2 a ha c c.2 hba (le_of_eq hc'))
  have hsorted := List.sublist_mergeSort h.trans_attach h.total_attach hequal List.filter_sublist
  have hsub := (hsorted.filter fun b => compare a b.1 = 0).map Subtype.val
  have hfilter (l : List {b // b ∈ list}) :
      (l.filter fun b => compare a b.1 = 0).map Subtype.val =
        (l.map Subtype.val).filter fun b => compare a b = 0 := by
    rw [List.filter_map]
    rfl
  rw [List.filter_filter, hfilter, ← sortConsistent] at hsub
  simp only [Bool.and_self, hfilter, List.attach_map_subtype_val] at hsub
  have hlength := ((sortConsistent_perm compare list).filter
    fun b => compare a b = 0).length_eq
  exact (hsub.eq_of_length hlength.symm).symm

open Classical in
/-- A sort that leaves inconsistent lists as `other` says. -/
noncomputable def stableSort (compare : α → α → ℤ) (other : List α → List α) (list : List α) :
    List α :=
  if Consistent compare list then sortConsistent compare list else other list

/-- **There is a stable sort**, whatever it does with inconsistent lists. -/
theorem stableSort_isStableSort (compare : α → α → ℤ) {other : List α → List α}
    (hother : ∀ list, (other list).Perm list) :
    IsStableSort compare (stableSort compare other) where
  perm list := by
    unfold stableSort
    split_ifs
    · exact sortConsistent_perm compare list
    · exact hother list
  ascending list h := by
    rw [stableSort, if_pos h]
    exact sortConsistent_ascending h
  stable list h a ha := by
    rw [stableSort, if_pos h]
    exact sortConsistent_stable h ha

/-- Any element of an inconsistent list may come first. -/
theorem exists_stableSort_first (h : ¬ Consistent compare list) (ha : a ∈ list) :
    ∃ sort, IsStableSort compare sort ∧ (sort list).head? = some a := by
  classical
  let other (l : List α) : List α := if l = list then a :: list.erase a else l
  have hother : ∀ l, (other l).Perm l := by
    intro l
    dsimp only [other]
    split_ifs with hlist
    · rw [hlist]
      exact (List.perm_cons_erase ha).symm
    · exact .refl _
  refine ⟨stableSort compare other, stableSort_isStableSort compare hother, ?_⟩
  rw [stableSort, if_neg h]
  simp [other]

end Lib
