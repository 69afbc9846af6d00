import SimpleServer.Proof.CompareArrays
import SimpleServer.Proof.FastCompare

/-!
# The generated lookup of strings

From a list of strings to the arrays of the generated file and the comparison that follows them.
The generator takes zero bytes, but the comparison of a joined prefix stops at one.

* `compareStrings_eq`: the arrays, evaluated, are the generated function.
* `stringLookup_iff`: **when every string of a list is found, and nothing else**.
-/

namespace SimpleServer.Hpack

open FastStringCompareNode

variable {strings : List Bytes} {trees : List (ℕ × FastStringCmpTree)} {str : Bytes}

theorem processStringFastCompare_some (hnonempty : ∀ str ∈ strings, str ≠ [])
    (hascii : ∀ str ∈ strings, ∀ c ∈ str, c < 0x80) :
    processStringFastCompare strings = some ((strings.map List.length).eraseDups.map fun len =>
      (len, nodesAndPrefixesFromStrTree (rootOfCases (casesOfLength strings len)))) := by
  unfold processStringFastCompare
  rw [if_neg]
  rintro ⟨str, hmem, ⟨c, hc, hlarge⟩ | hempty⟩
  · exact absurd (hascii str hmem c hc) (UInt8.not_lt.2 hlarge)
  · exact hnonempty str hmem (List.length_eq_zero_iff.1 hempty)

/-- The tree for the length of a string is the one that is evaluated. -/
theorem find_length (lengths : List ℕ) (arrays : ℕ → FastStringCmpTree) (n : ℕ) :
    ((lengths.map fun len => (len, arrays len)).find? fun tree => tree.1 == n) =
      if n ∈ lengths then some (n, arrays n) else none := by
  induction lengths with
  | nil => rfl
  | cons len lengths ih =>
    rw [List.map_cons, List.find?_cons]
    by_cases hsame : len = n
    · simp [hsame]
    · have hother : ¬ n = len := fun h => hsame h.symm
      have hbeq : (len == n) = false := by simpa using hsame
      rw [hbeq]
      simp [hother, ih]

/-- **The arrays, evaluated, are the generated function**; the comparison stays inside them. -/
theorem compareStrings_eq (hnonempty : ∀ str ∈ strings, str ≠ [])
    (h : processStringFastCompare strings = some trees) (str : Bytes) :
    compareStrings trees str = some (fastStringCompareImpl strings str) := by
  unfold processStringFastCompare at h
  split_ifs at h
  cases h
  unfold compareStrings
  rw [find_length]
  by_cases hmem : str.length ∈ (strings.map List.length).eraseDups
  · obtain ⟨other, hother, hlength⟩ := List.mem_map.1 (List.mem_eraseDups.1 hmem)
    have hpos : 0 < str.length := by
      rw [← hlength]
      exact List.length_pos_iff.2 (hnonempty other hother)
    rw [if_pos hmem]
    dsimp only
    rw [compareArrays_root,
      fastStringCompareImpl_root hpos (casesOfLength_ne_nil.2 ⟨other, hother, hlength⟩)]
  · rw [if_neg hmem]
    have hnil : casesOfLength strings str.length = [] := by
      by_contra hne
      obtain ⟨other, hother, hlength⟩ := casesOfLength_ne_nil.1 hne
      exact hmem (List.mem_eraseDups.2 (List.mem_map.2 ⟨other, hother, hlength⟩))
    rw [fastStringCompareImpl_none hnil]

/-- What the generated lookup of a list of strings is for. -/
structure FindsExactly (strings : List Bytes) : Prop where
  /-- The list is taken. A string is found at its index, and nothing else is found. -/
  lookup : ∃ trees, processStringFastCompare strings = some trees ∧ ∀ str, ∃ found,
    compareStrings trees str = some found ∧ ∀ idx, found = some idx ↔ strings[idx]? = some str
  /-- The joining of short paths ends with a traversal that changes nothing. -/
  ends : ∀ len, (iterateNode (treeOfCases (casesOfLength strings len))).2 = false
  /-- It changes neither the strings of a tree nor what the comparison accepts. -/
  joined : ∀ str idx, casesOfLength strings str.length ≠ [] →
    (Leads (treeOfCases (casesOfLength strings str.length)) str idx ↔
      Leads (builtTree (casesOfLength strings str.length)) str idx) ∧
    (fastCompareStringWithTree (treeOfCases (casesOfLength strings str.length)) str = some idx ↔
      fastCompareStringWithTree (builtTree (casesOfLength strings str.length)) str = some idx)

/-- **When every string of a list is found, and nothing else**: where a zero byte stands inside a
string, another string of the same length begins with the same characters. -/
theorem stringLookup_iff (hnodup : strings.Nodup) (hnonempty : ∀ str ∈ strings, str ≠ [])
    (hascii : ∀ str ∈ strings, ∀ c ∈ str, c < 0x80) :
    FindsExactly strings ↔ ZerosShared strings := by
  have htrees := processStringFastCompare_some hnonempty hascii
  rw [← fastStringCompareImpl_iff hnodup hnonempty]
  constructor
  · intro h str idx
    obtain ⟨trees, hsome, hlookup⟩ := h.lookup
    obtain ⟨found, hfound, hiff⟩ := hlookup str
    rw [compareStrings_eq hnonempty hsome] at hfound
    rw [← hiff idx, ← Option.some.inj hfound]
  · intro hfinds
    refine ⟨?_, ?_, ?_⟩
    · refine ⟨_, htrees, fun str => ⟨_, compareStrings_eq hnonempty htrees str, ?_⟩⟩
      exact hfinds str
    · exact fun len => cleanup_stable _
    · intro str idx hne
      obtain ⟨other, hmem, hlength⟩ := casesOfLength_ne_nil.1 hne
      have hpos : 0 < str.length := by
        rw [← hlength]
        exact List.length_pos_iff.2 (hnonempty other hmem)
      have hcazes := casesOfLength_length strings str.length
      have hcazesNodup := casesOfLength_nodup (n := str.length) hnodup
      obtain ⟨hbuilt, hleads⟩ := builtTree_spec hpos hcazes hcazesNodup
      have htree := treeOf_treeOfCases hpos hcazes hcazesNodup
      have hshared := (fastStringCompareImpl_iff hnodup hnonempty).1 hfinds
      refine ⟨(htree.leads str idx).trans (hleads str idx).symm, ?_⟩
      rw [htree.eval hpos hshared, fastCompareStringWithTree, compareLoop_eq_some
        hbuilt.merged.uniform hbuilt.wholePrefixes rfl hpos le_rfl, hleads, mem_casesOfLength]
      simp

/-- Two strings with a zero byte behind a common beginning, and others. -/
theorem stringLookup_shared :
    FindsExactly [ascii "host", [0x61, 0x00, 0x62], ascii "date", [0x61, 0x00, 0x63]] := by
  have hall : [ascii "host", [0x61, 0x00, 0x62], ascii "date", [0x61, 0x00, 0x63]].all
      (fun str => str.all fun c => decide (c < 0x80)) = true := by decide
  have hascii : ∀ str ∈ [ascii "host", [0x61, 0x00, 0x62], ascii "date", [0x61, 0x00, 0x63]],
      ∀ c ∈ str, c < 0x80 := fun str hmem c hc =>
    of_decide_eq_true (List.all_eq_true.1 (List.all_eq_true.1 hall str hmem) c hc)
  rw [stringLookup_iff (by decide) (by decide) hascii]
  intro str hmem k hk hzero
  simp only [List.mem_cons, List.not_mem_nil, or_false] at hmem
  rcases hmem with rfl | rfl | rfl | rfl
  · have hall : ∀ k < 4, (ascii "host")[k]? ≠ some 0 := by decide
    exact absurd hzero (hall k (by
      have hlen : (ascii "host").length = 4 := by decide
      omega))
  · obtain rfl : k = 1 := by
      have hall : ∀ k < 3, ([0x61, 0x00, 0x62] : Bytes)[k]? = some 0 → k = 1 := by decide
      exact hall k (by simp at hk; omega) hzero
    exact ⟨[0x61, 0x00, 0x63], by decide, by decide, rfl, rfl⟩
  · have hall : ∀ k < 4, (ascii "date")[k]? ≠ some 0 := by decide
    exact absurd hzero (hall k (by
      have hlen : (ascii "date").length = 4 := by decide
      omega))
  · obtain rfl : k = 1 := by
      have hall : ∀ k < 3, ([0x61, 0x00, 0x63] : Bytes)[k]? = some 0 → k = 1 := by decide
      exact hall k (by simp at hk; omega) hzero
    exact ⟨[0x61, 0x00, 0x62], by decide, by decide, rfl, rfl⟩

/-- A string that is not in the list is found, because its zero byte ends the comparison. -/
theorem zeroByte_cut : ¬ FindsExactly [[0x78, 0x00, 0x61], [0x79, 0x00, 0x62]] := by
  intro h
  obtain ⟨trees, hsome, hlookup⟩ := h.lookup
  obtain ⟨found, hfound, hiff⟩ := hlookup [0x78, 0x00, 0x7A]
  rw [compareStrings_eq (by decide) hsome] at hfound
  have htree : treeOfCases [([0x78, 0x00, 0x61], 0), ([0x79, 0x00, 0x62], 1)] =
      .normal 1 [([0x78], .normal 2 [([0x00, 0x61], .end 0)]),
        ([0x79], .normal 2 [([0x00, 0x62], .end 1)])] := by
    simp [treeOfCases, addCase, cleanupShortPathsFastCompare, cleanupLoop, nodeAmount, iterateNode,
      joinShortPath]
  have himpl : fastStringCompareImpl [[0x78, 0x00, 0x61], [0x79, 0x00, 0x62]]
      [0x78, 0x00, 0x7A] = fastCompareStringWithTree
        (treeOfCases [([0x78, 0x00, 0x61], 0), ([0x79, 0x00, 0x62], 1)]) [0x78, 0x00, 0x7A] := rfl
  have hzero : fastCompareStringWithTree (.normal 1 [([0x78], .normal 2 [([0x00, 0x61], .end 0)]),
      ([0x79], .normal 2 [([0x00, 0x62], .end 1)])] ) [0x78, 0x00, 0x7A] = some 0 := by decide
  rw [himpl, htree, hzero] at hfound
  have hget := (hiff 0).1 (Option.some.inj hfound).symm
  revert hget
  decide

end SimpleServer.Hpack
