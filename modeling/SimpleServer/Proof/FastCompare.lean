import SimpleServer.Proof.StringTree

/-!
# What the generated comparison computes

A prefix is compared as a C string, which a zero byte before its last character cuts. Where no
prefix is cut, the comparison follows the path of a string.

* `compareLoop_eq_some`, `wholePrefixes_of_exact`: the comparison accepts the strings of a tree
  and no others if and only if no prefix is cut.
* `fastStringCompareImpl_iff`: when the generated function finds the strings of a list.
* `fastStringCompareImpl_eq`: **the generated function finds the string in the list**.
-/

namespace SimpleServer.Hpack

open FastStringCompareNode

/-! ## `strncmp` -/

/-- Strings without zero bytes that are long enough are compared byte by byte. -/
theorem strncmpEq_iff {n : ℕ} {a b : Bytes} (hb : 0 ∉ b) (hlength : b.length = n) :
    strncmpEq n a b = true ↔ b <+: a := by
  induction n generalizing a b with
  | zero =>
    rw [List.eq_nil_of_length_eq_zero hlength]
    simp [strncmpEq]
  | succ n ih =>
    cases b with
    | nil => simp at hlength
    | cons y b =>
      have hy : y ≠ 0 := fun h => hb (by simp [h])
      have hzero : 0 ∉ b := fun h => hb (List.mem_cons_of_mem _ h)
      have hrest := ih (a := a.tail) hzero (by simpa using hlength)
      unfold strncmpEq
      cases a with
      | nil =>
        have hother : ¬ 0 = y := fun h => hy h.symm
        simp [hother]
      | cons x a =>
        simp only [List.headD_cons, List.tail_cons, Bool.and_eq_true, Bool.or_eq_true, beq_iff_eq,
          List.cons_prefix_cons] at hrest ⊢
        rw [hrest]
        constructor
        · rintro ⟨rfl, h⟩
          exact ⟨rfl, h.resolve_left hy⟩
        · rintro ⟨rfl, h⟩
          exact ⟨rfl, Or.inr h⟩

/-- Where the string is long enough, only a zero byte before the last one is in the way. -/
theorem strncmpEq_iff_of_le {n : ℕ} {a b : Bytes} (hb : 0 ∉ b.dropLast) (hlength : b.length = n)
    (hle : n ≤ a.length) : strncmpEq n a b = true ↔ b <+: a := by
  induction n generalizing a b with
  | zero =>
    rw [List.eq_nil_of_length_eq_zero hlength]
    simp [strncmpEq]
  | succ n ih =>
    cases b with
    | nil => simp at hlength
    | cons y b =>
      cases a with
      | nil => simp at hle
      | cons x a =>
        have hlength : b.length = n := by simpa using hlength
        have hle : n ≤ a.length := by simpa using hle
        unfold strncmpEq
        simp only [List.headD_cons, List.tail_cons, Bool.and_eq_true, Bool.or_eq_true, beq_iff_eq,
          List.cons_prefix_cons]
        cases b with
        | nil =>
          -- the last byte may be zero
          rw [← hlength]
          simp [strncmpEq, eq_comm]
        | cons z b =>
          rw [List.dropLast_cons_cons, List.mem_cons, not_or] at hb
          rw [ih hb.2 hlength hle]
          constructor
          · rintro ⟨rfl, h⟩
            exact ⟨rfl, h.resolve_left fun h => hb.1 h.symm⟩
          · rintro ⟨rfl, h⟩
            exact ⟨rfl, Or.inr h⟩

/-- A zero byte before the last one hides what is behind it. -/
theorem strncmpEq_of_zero {n : ℕ} {before after after' : Bytes} :
    strncmpEq n (before ++ 0 :: after) (before ++ 0 :: after') = true := by
  induction before generalizing n with
  | nil => cases n <;> simp [strncmpEq]
  | cons c before ih => cases n <;> simp [strncmpEq, ih]

/-! ## Following a path -/

variable {node : FastStringCompareNode} {prefixes : List (Bytes × FastStringCompareNode)}
  {n prefixLen result idx : ℕ} {str chars : Bytes}

theorem uniform_zero (h : Uniform 0 node) : ∃ result, node = .end result := by
  cases node with
  | «end» result => exact ⟨result, rfl⟩
  | normal prefixLen prefixes =>
    generalize hn : 0 = n at h
    cases h with
    | normal _ _ _ hpos => omega

/-- A prefix that is not cut is compared as a whole. -/
theorem prefixMatches_iff (hlength : chars.length = prefixLen) (hzero : 0 ∉ chars.dropLast)
    (hle : prefixLen ≤ str.length) : prefixMatches prefixLen str chars = true ↔ chars <+: str := by
  unfold prefixMatches
  split_ifs with hone
  · rw [hone] at hlength hle
    obtain ⟨c, rfl⟩ := List.length_eq_one_iff.1 hlength
    cases str with
    | nil => cases hle
    | cons b str =>
      rw [List.headD_cons, List.headD_cons, beq_iff_eq, List.cons_prefix_cons]
      constructor
      · rintro rfl
        exact ⟨rfl, List.nil_prefix⟩
      · rintro ⟨rfl, -⟩
        rfl
  · exact strncmpEq_iff_of_le hzero hlength hle

/-- **The comparison** follows the path of a string that has the length of the tree. -/
theorem compareLoop_eq_some {fuel : ℕ} (h : Uniform n node) (hwhole : WholePrefixes node)
    (hlength : str.length = n) (hpos : 0 < n) (hfuel : n ≤ fuel) :
    compareLoop fuel node str = some result ↔ Leads node str result := by
  induction h generalizing fuel str with
  | «end» => omega
  | normal prefixLen prefixes n hprefixLen hnodup hchars hchildren ih =>
    obtain ⟨fuel, rfl⟩ : ∃ f, fuel = f + 1 := ⟨fuel - 1, by omega⟩
    cases hwhole with
    | normal _ _ hzero hwhole =>
      have hmatch : ∀ p ∈ prefixes, prefixMatches prefixLen str p.1 = true ↔ p.1 <+: str :=
        fun p hp => prefixMatches_iff (hchars p hp) (hzero p hp) (by omega)
      unfold compareLoop
      rw [if_neg (by omega)]
      dsimp only
      rw [if_neg (by omega), leads_normal_iff]
      cases hfind : prefixes.find? fun p => prefixMatches prefixLen str p.1 with
      | none =>
        rw [List.find?_eq_none] at hfind
        constructor
        · rintro ⟨⟩
        · rintro ⟨p, hp, rest, rfl, -⟩
          exact absurd ((hmatch p hp).2 (List.prefix_append _ _)) (hfind p hp)
      | some found =>
        have hmem := List.mem_of_find?_eq_some hfind
        have hfits : prefixMatches prefixLen str found.1 = true := by
          simpa using List.find?_some hfind
        obtain ⟨rest, rfl⟩ := (hmatch found hmem).1 hfits
        have hfoundLength := hchars found hmem
        rw [List.length_append, hfoundLength] at hlength
        -- no other prefix fits
        have honly : (∃ p ∈ prefixes, ∃ tail, found.1 ++ rest = p.1 ++ tail ∧
            Leads p.2 tail result) ↔ Leads found.2 rest result := by
          constructor
          · rintro ⟨p, hp, tail, heq, htail⟩
            obtain ⟨hsame, rfl⟩ := List.append_inj heq (hfoundLength.trans (hchars p hp).symm)
            obtain rfl : found = p := List.inj_on_of_nodup_map hnodup hmem hp hsame
            exact htail
          · intro htail
            exact ⟨found, hmem, rest, rfl, htail⟩
        rw [honly]
        dsimp only
        have huniform := hchildren found hmem
        by_cases hend : prefixLen = (found.1 ++ rest).length
        · rw [if_pos hend]
          rw [List.length_append, hfoundLength] at hend
          obtain rfl : n = 0 := by omega
          obtain rfl : rest = [] := List.eq_nil_of_length_eq_zero (by omega)
          obtain ⟨result', hresult⟩ := uniform_zero huniform
          rw [hresult, leads_end_iff]
          simp [eq_comm]
        · rw [if_neg hend]
          rw [List.length_append, hfoundLength] at hend
          have hdrop : (found.1 ++ rest).drop prefixLen = rest := List.drop_left' hfoundLength
          rw [hdrop]
          exact ih found hmem (hwhole found hmem) (by omega) (by omega) (by omega)

/-- One character of the string is compared. -/
theorem compareLoop_char (fuel : ℕ) {c : UInt8} {p : Bytes × FastStringCompareNode}
    (hnodup : (prefixes.map Prod.fst).Nodup) (hchars : ∀ p ∈ prefixes, ∃ c, p.1 = [c])
    (hp : p ∈ prefixes) (hc : p.1 = [c]) (hne : str ≠ []) :
    compareLoop (fuel + 1) (.normal 1 prefixes) (c :: str) = compareLoop fuel p.2 str := by
  have hmatch : ∀ q ∈ prefixes, prefixMatches 1 (c :: str) q.1 = true ↔ q = p := by
    intro q hq
    obtain ⟨c', hc'⟩ := hchars q hq
    unfold prefixMatches
    rw [if_pos rfl, hc', List.headD_cons, List.headD_cons, beq_iff_eq]
    constructor
    · rintro rfl
      exact List.inj_on_of_nodup_map hnodup hq hp (hc'.trans hc.symm)
    · rintro rfl
      rw [hc] at hc'
      exact (List.cons.inj hc').1
  have hfind : (prefixes.find? fun q => prefixMatches 1 (c :: str) q.1) = some p := by
    cases hfind : prefixes.find? fun q => prefixMatches 1 (c :: str) q.1 with
    | none =>
      rw [List.find?_eq_none] at hfind
      exact absurd ((hmatch p hp).2 rfl) (hfind p hp)
    | some q =>
      have hfits : prefixMatches 1 (c :: str) q.1 = true := by simpa using List.find?_some hfind
      rw [(hmatch q (List.mem_of_find?_eq_some hfind)).1 hfits]
  have hlength : 0 < str.length := List.length_pos_iff.2 hne
  conv_lhs => unfold compareLoop
  rw [if_neg (by simp)]
  dsimp only
  rw [if_neg (by simp), hfind]
  dsimp only
  rw [if_neg (by rw [List.length_cons]; omega), List.drop_succ_cons, List.drop_zero]

/-- **A prefix that is cut** accepts a string that is not in the tree. -/
theorem wholePrefixes_of_exact (h : Merged n node)
    (hexact : ∀ str result, str.length = n → compareLoop n node str = some result →
      Leads node str result) : WholePrefixes node := by
  induction h with
  | «end» result => exact .end result
  | tail n chars result hlength hpos =>
    apply WholePrefixes.normal
    · intro p hp hzero
      have hzero : 0 ∈ chars.dropLast := by rwa [List.mem_singleton.1 hp] at hzero
      have hne : chars ≠ [] := by
        intro hnil
        rw [hnil] at hzero
        cases hzero
      -- the string with another last character
      obtain ⟨before, after, hsplit, -⟩ := List.eq_append_cons_of_mem hzero
      have hwhole : chars = before ++ 0 :: (after ++ [chars.getLast hne]) := by
        conv_lhs => rw [← List.dropLast_append_getLast hne, hsplit]
        simp
      generalize chars.getLast hne = last at hwhole
      obtain ⟨other, hother⟩ : ∃ other, other ≠ last := ⟨last + 1, by simp⟩
      have hlen : (before ++ 0 :: (after ++ [other])).length = n := by
        rw [← hlength, hwhole]
        simp
      have hlong : n ≠ 1 := by
        rw [← hlen]
        simp
        omega
      have hfits : prefixMatches n (before ++ 0 :: (after ++ [other])) chars = true := by
        unfold prefixMatches
        rw [if_neg hlong, hwhole]
        exact strncmpEq_of_zero
      have hfound : compareLoop n (.normal n [(chars, .end result)])
          (before ++ 0 :: (after ++ [other])) = some result := by
        obtain ⟨m, rfl⟩ : ∃ m, n = m + 1 := ⟨n - 1, by omega⟩
        unfold compareLoop
        rw [if_neg (by omega)]
        dsimp only
        rw [if_neg (by omega), List.find?_singleton, if_pos hfits]
        dsimp only
        rw [if_pos hlen.symm]
      obtain ⟨q, hq, rest, heq, hrest⟩ := leads_normal_iff.1 (hexact _ _ hlen hfound)
      rw [List.mem_singleton.1 hq] at heq hrest
      rw [(leads_end_iff.1 hrest).1, hwhole] at heq
      simp [hother] at heq
    · intro p hp
      rw [List.mem_singleton.1 hp]
      exact .end result
  | chars prefixes n hnodup hchars hchildren hlive ih =>
    apply WholePrefixes.normal
    · intro p hp
      obtain ⟨c, hc⟩ := hchars p hp
      rw [hc]
      exact List.not_mem_nil
    · intro p hp
      apply ih p hp
      intro str result hlength hfound
      cases n with
      | zero => cases hfound
      | succ n =>
        obtain ⟨c, hc⟩ := hchars p hp
        have hne : str ≠ [] := by
          rintro rfl
          cases hlength
        have hstep := compareLoop_char (n + 1) hnodup hchars hp hc hne
        obtain ⟨q, hq, rest, heq, hrest⟩ := leads_normal_iff.1 (hexact (c :: str) result
          (by rw [List.length_cons, hlength]) (hstep.trans hfound))
        obtain ⟨c', hc'⟩ := hchars q hq
        rw [hc', List.singleton_append, List.cons.injEq] at heq
        obtain ⟨rfl, rfl⟩ := heq
        obtain rfl := List.inj_on_of_nodup_map hnodup hq hp (hc'.trans hc.symm)
        exact hrest

/-! ## The generated function -/

theorem mem_casesOfLength {strings : List Bytes} :
    (str, idx) ∈ casesOfLength strings n ↔ strings[idx]? = some str ∧ str.length = n := by
  unfold casesOfLength
  rw [List.mem_filter, List.mem_zipIdx_iff_getElem?]
  simp

theorem casesOfLength_nodup {strings : List Bytes} (h : strings.Nodup) :
    ((casesOfLength strings n).map Prod.fst).Nodup := by
  have hall := (List.filter_sublist (p := fun caze => decide (caze.1.length = n))
    (l := strings.zipIdx)).map Prod.fst
  rw [List.zipIdx_map_fst] at hall
  exact hall.nodup h

theorem casesOfLength_length (strings : List Bytes) (n : ℕ) :
    ∀ caze ∈ casesOfLength strings n, caze.1.length = n := by
  rintro ⟨str, idx⟩ hcaze
  exact (mem_casesOfLength.1 hcaze).2

/-- The tree of a list of strings before it is joined. -/
def builtTree (cazes : List (Bytes × ℕ)) : FastStringCompareNode :=
  cazes.foldl (fun root caze => addCase caze.2 caze.1 root) (.normal 1 [])

theorem builtTree_spec {cazes : List (Bytes × ℕ)} (hpos : 0 < n)
    (hcazes : ∀ caze ∈ cazes, caze.1.length = n) (hnodup : (cazes.map Prod.fst).Nodup) :
    CharTree n (builtTree cazes) ∧
      ∀ str result, Leads (builtTree cazes) str result ↔ (str, result) ∈ cazes := by
  have hempty : CharTree n (.normal 1 []) := by
    obtain ⟨m, rfl⟩ : ∃ m, n = m + 1 := ⟨n - 1, by omega⟩
    exact charTree_empty m
  obtain ⟨htree, hleads⟩ := foldl_addCase_leads hcazes hnodup hempty fun _ _ _ => not_leads_empty
  refine ⟨htree, ?_⟩
  intro str result
  refine (hleads str result).trans ?_
  simp [not_leads_empty]

/-- A tree that was joined to the end and has the given strings. -/
structure TreeOf (n : ℕ) (cazes : List (Bytes × ℕ)) (root : FastStringCompareNode) : Prop where
  merged : Merged n root
  stable : (iterateNode root).2 = false
  leads : ∀ str result, Leads root str result ↔ (str, result) ∈ cazes

theorem treeOf_treeOfCases {cazes : List (Bytes × ℕ)} (hpos : 0 < n)
    (hcazes : ∀ caze ∈ cazes, caze.1.length = n) (hnodup : (cazes.map Prod.fst).Nodup) :
    TreeOf n cazes (treeOfCases cazes) := by
  obtain ⟨htree, hleads⟩ := builtTree_spec hpos hcazes hnodup
  have hclean := cleanupLoop_leads (builtTree cazes).nodeAmount htree.merged
  exact ⟨hclean.1, cleanup_stable _,
    fun str result => (hclean.2 str result).trans (hleads str result)⟩

/-- **The tree for the strings of a length** has these strings. -/
theorem treeOf_rootOfCases {cazes : List (Bytes × ℕ)} (hpos : 0 < n)
    (hcazes : ∀ caze ∈ cazes, caze.1.length = n) (hnodup : (cazes.map Prod.fst).Nodup) :
    TreeOf n cazes (rootOfCases cazes) := by
  unfold rootOfCases
  split
  · rename_i caze
    have hlength := hcazes caze (List.mem_singleton_self _)
    rw [hlength]
    refine ⟨.tail n caze.1 caze.2 hlength hpos, ?_, ?_⟩
    · unfold iterateNode joinShortPath
      simp [iterateNode]
    · intro str result
      rw [leads_normal_iff, List.mem_singleton, Prod.ext_iff]
      constructor
      · rintro ⟨p, hp, rest, rfl, hrest⟩
        rw [List.mem_singleton.1 hp] at hrest ⊢
        obtain ⟨rfl, rfl⟩ := leads_end_iff.1 hrest
        exact ⟨List.append_nil _, rfl⟩
      · rintro ⟨rfl, rfl⟩
        exact ⟨_, List.mem_singleton_self _, [], (List.append_nil _).symm, .end _⟩
  · exact treeOf_treeOfCases hpos hcazes hnodup

/-- The comparison with a single string is an evaluation of its tree. -/
theorem fastCompareStringWithTree_single {caze : Bytes × ℕ} (hlength : caze.1.length = str.length)
    (hpos : 0 < str.length) : fastCompareStringWithTree (rootOfCases [caze]) str =
      if strncmpEq str.length str caze.1 then some caze.2 else none := by
  have hsame : prefixMatches str.length str caze.1 = strncmpEq str.length str caze.1 := by
    unfold prefixMatches
    split_ifs with hone
    · rw [hone]
      simp [strncmpEq]
    · rfl
  have hroot : rootOfCases [caze] = .normal str.length [(caze.1, .end caze.2)] := by
    rw [rootOfCases, hlength]
  obtain ⟨m, hm⟩ : ∃ m, str.length = m + 1 := ⟨str.length - 1, by omega⟩
  have hfuel : compareLoop str.length = compareLoop (m + 1) := by rw [hm]
  rw [fastCompareStringWithTree, hroot, hfuel]
  unfold compareLoop
  rw [if_neg (by omega)]
  dsimp only
  rw [if_neg (Nat.lt_irrefl _), List.find?_singleton, hsame]
  split_ifs <;> simp_all

/-- The generated function evaluates the tree for the length of the string. -/
theorem fastStringCompareImpl_root {strings : List Bytes} (hpos : 0 < str.length)
    (hne : casesOfLength strings str.length ≠ []) : fastStringCompareImpl strings str =
      fastCompareStringWithTree (rootOfCases (casesOfLength strings str.length)) str := by
  have hlengths := casesOfLength_length strings str.length
  unfold fastStringCompareImpl
  split
  · rename_i hnil
    exact absurd hnil hne
  · rename_i caze hone
    rw [hone] at hlengths ⊢
    rw [fastCompareStringWithTree_single (hlengths caze (List.mem_singleton_self _)) hpos]
  · rename_i hnil hone
    unfold rootOfCases
    split
    · rename_i caze hcaze
      exact absurd hcaze (hone caze)
    · rfl

theorem casesOfLength_ne_nil {strings : List Bytes} :
    casesOfLength strings n ≠ [] ↔ ∃ str ∈ strings, str.length = n := by
  constructor
  · intro hne
    obtain ⟨⟨str, idx⟩, hmem⟩ := List.exists_mem_of_ne_nil _ hne
    obtain ⟨hget, hlength⟩ := mem_casesOfLength.1 hmem
    exact ⟨str, List.mem_of_getElem? hget, hlength⟩
  · rintro ⟨str, hmem, hlength⟩ hnil
    obtain ⟨idx, hget⟩ := List.mem_iff_getElem?.1 hmem
    have hcase : (str, idx) ∈ casesOfLength strings n := mem_casesOfLength.2 ⟨hget, hlength⟩
    rw [hnil] at hcase
    cases hcase

/-- What is found is the index of the string. -/
def FindsStrings (strings : List Bytes) : Prop :=
  ∀ str idx, fastStringCompareImpl strings str = some idx ↔ strings[idx]? = some str

/-- Where a zero byte stands inside a string, another string of the same length begins with the
same characters. -/
def ZerosShared (strings : List Bytes) : Prop :=
  ∀ str ∈ strings, ∀ k, k + 1 < str.length → str[k]? = some 0 →
    ∃ other ∈ strings, other ≠ str ∧ other.length = str.length ∧ other.take k = str.take k

/-- No prefix of a tree for a length is cut, in terms of its strings. -/
theorem TreeOf.wholePrefixes_iff {strings : List Bytes} {root : FastStringCompareNode}
    (h : TreeOf n (casesOfLength strings n) root) :
    WholePrefixes root ↔ ∀ str ∈ strings, str.length = n → ∀ k, k + 1 < str.length →
      str[k]? = some 0 → ∃ other ∈ strings, other ≠ str ∧ other.length = str.length ∧
        other.take k = str.take k := by
  rw [Hpack.wholePrefixes_iff h.merged h.stable]
  constructor
  · intro hzeros str hmem hlength k hk hzero
    obtain ⟨idx, hget⟩ := List.mem_iff_getElem?.1 hmem
    obtain ⟨other, idx', hother, hdiffers, htake⟩ :=
      hzeros str idx ((h.leads str idx).2 (mem_casesOfLength.2 ⟨hget, hlength⟩)) k hk hzero
    obtain ⟨hget', hlength'⟩ := mem_casesOfLength.1 ((h.leads other idx').1 hother)
    exact ⟨other, List.mem_of_getElem? hget', hdiffers, hlength'.trans hlength.symm, htake⟩
  · intro hzeros str idx hstr k hk hzero
    obtain ⟨hget, hlength⟩ := mem_casesOfLength.1 ((h.leads str idx).1 hstr)
    obtain ⟨other, hmem, hdiffers, hlength', htake⟩ :=
      hzeros str (List.mem_of_getElem? hget) hlength k hk hzero
    obtain ⟨idx', hget'⟩ := List.mem_iff_getElem?.1 hmem
    exact ⟨other, idx', (h.leads other idx').2
      (mem_casesOfLength.2 ⟨hget', hlength'.trans hlength⟩), hdiffers, htake⟩

/-- An evaluation of a tree for a length, where no prefix is cut. -/
theorem TreeOf.eval {strings : List Bytes} {root : FastStringCompareNode}
    (h : TreeOf str.length (casesOfLength strings str.length) root) (hpos : 0 < str.length)
    (hshared : ZerosShared strings) :
    fastCompareStringWithTree root str = some idx ↔ strings[idx]? = some str := by
  have hwhole := h.wholePrefixes_iff.2 fun str hmem _ => hshared str hmem
  rw [fastCompareStringWithTree, compareLoop_eq_some h.merged.uniform hwhole rfl hpos le_rfl,
    h.leads, mem_casesOfLength]
  simp

/-- Without strings of a length nothing of this length is found. -/
theorem fastStringCompareImpl_none {strings : List Bytes}
    (hnil : casesOfLength strings str.length = []) : fastStringCompareImpl strings str = none := by
  unfold fastStringCompareImpl
  rw [hnil]

/-- **When the generated function finds the strings of a list.** -/
theorem fastStringCompareImpl_iff {strings : List Bytes} (hnodup : strings.Nodup)
    (hnonempty : ∀ str ∈ strings, str ≠ []) : FindsStrings strings ↔ ZerosShared strings := by
  have htree (str : Bytes) (hpos : 0 < str.length) := treeOf_rootOfCases hpos
    (casesOfLength_length strings str.length) (casesOfLength_nodup hnodup)
  constructor
  · intro hfinds str hmem
    have hpos : 0 < str.length := List.length_pos_iff.2 (hnonempty str hmem)
    have hwhole := wholePrefixes_of_exact (htree str hpos).merged (by
      intro query result hlength hfound
      rw [← hlength] at hpos hfound ⊢
      have hne := casesOfLength_ne_nil.2 ⟨str, hmem, hlength.symm⟩
      have hget := (hfinds query result).1 ((fastStringCompareImpl_root hpos hne).trans hfound)
      exact ((htree query hpos).leads query result).2 (mem_casesOfLength.2 ⟨hget, rfl⟩))
    exact (htree str hpos).wholePrefixes_iff.1 hwhole str hmem rfl
  · intro hshared str idx
    by_cases hne : casesOfLength strings str.length = []
    · rw [fastStringCompareImpl_none hne]
      constructor
      · rintro ⟨⟩
      · intro hget
        exact absurd hne (casesOfLength_ne_nil.2 ⟨str, List.mem_of_getElem? hget, rfl⟩)
    · obtain ⟨other, hmem, hlength⟩ := casesOfLength_ne_nil.1 hne
      have hpos : 0 < str.length := by
        rw [← hlength]
        exact List.length_pos_iff.2 (hnonempty other hmem)
      rw [fastStringCompareImpl_root hpos hne]
      exact (htree str hpos).eval hpos hshared

/-- Strings that the generator takes: no one twice, none empty, and no zero bytes. -/
structure Comparable (strings : List Bytes) : Prop where
  nodup : strings.Nodup
  nonempty : ∀ str ∈ strings, str ≠ []
  noZero : ∀ str ∈ strings, 0 ∉ str

instance (strings : List Bytes) : Decidable (Comparable strings) :=
  decidable_of_iff (strings.Nodup ∧ (∀ str ∈ strings, str ≠ []) ∧ ∀ str ∈ strings, 0 ∉ str)
    ⟨fun h => ⟨h.1, h.2.1, h.2.2⟩, fun h => ⟨h.1, h.2, h.3⟩⟩

theorem Comparable.zerosShared {strings : List Bytes} (h : Comparable strings) :
    ZerosShared strings := fun str hmem _ _ hzero =>
  absurd (List.mem_of_getElem? hzero) (h.noZero str hmem)

/-- What is found is the index of the string. -/
theorem fastStringCompareImpl_eq_some {strings : List Bytes} (h : Comparable strings) :
    fastStringCompareImpl strings str = some idx ↔ strings[idx]? = some str :=
  (fastStringCompareImpl_iff h.nodup h.nonempty).2 h.zerosShared str idx

/-- **The generated function finds the string in the list.** -/
theorem fastStringCompareImpl_eq {strings : List Bytes} (h : Comparable strings) (str : Bytes) :
    fastStringCompareImpl strings str = fastStringCompare strings str := by
  apply Option.ext
  intro idx
  rw [fastStringCompareImpl_eq_some h]
  unfold fastStringCompare
  rw [List.findIdx?_eq_some_iff_getElem]
  constructor
  · intro hget
    obtain ⟨hlt, hidx⟩ := List.getElem?_eq_some_iff.1 hget
    refine ⟨hlt, by simpa using hidx, ?_⟩
    intro j hj
    have hother : strings[j] ≠ str := by
      intro hsame
      have hsame' := (List.Nodup.getElem_inj_iff h.nodup).1 (hsame.trans hidx.symm)
      omega
    simpa using hother
  · rintro ⟨hlt, hidx, -⟩
    rw [List.getElem?_eq_getElem hlt]
    simpa using hidx

end SimpleServer.Hpack
